import Mathlib.Algebra.GroupWithZero.Nat
import Mathlib.Algebra.Order.BigOperators.Group.List
import Mathlib.Algebra.Order.Group.Nat
import Mathlib.Data.List.InsertIdx
import Mirage.Foundations.Queues

/-!
# Pooled buffers

The data path keeps its packets in buffers which it takes from a pool, and which go back
there when they are dropped.  The pool is transparent: whatever was in the buffers
before, each has the bytes which a fresh vector would have.  It is bounded too: an idle
buffer is empty and neither too small nor too large, and there are not too many.

The allocator decides how large a vector becomes which has to grow.  Its decisions are
arguments here, and count where they are large enough.
-/

namespace Mirage.Tun

open Mirage.Foundations

def defaultBufCapacity : ℕ := 2048

def maxPoolSize : ℕ := 1024

def maxRecycleCapacity : ℕ := 4096

/-- `Vec<u8>` -/
structure Buffer where
  bytes : List UInt8
  capacity : ℕ
  fits : bytes.length ≤ capacity
  deriving DecidableEq

namespace Buffer

/-- `Vec::new` -/
def empty : Buffer := ⟨[], 0, Nat.le_refl 0⟩

def clear (buffer : Buffer) : Buffer := ⟨[], buffer.capacity, Nat.zero_le _⟩

/-- `reserve`; a vector which grows has room for what is asked for, or for more. -/
def reserve (buffer : Buffer) (additional granted : ℕ) : Buffer where
  bytes := buffer.bytes
  capacity :=
    if additional ≤ buffer.capacity - buffer.bytes.length then buffer.capacity
    else max granted (buffer.bytes.length + additional)
  fits := by
    have fits := buffer.fits
    split <;> omega

theorem length_add_le_reserve (buffer : Buffer) (additional granted : ℕ) :
    buffer.bytes.length + additional ≤ (buffer.reserve additional granted).capacity := by
  have fits := buffer.fits
  rw [reserve]
  dsimp only
  split <;> omega

def extendFromSlice (buffer : Buffer) (slice : List UInt8) (granted : ℕ) : Buffer where
  bytes := buffer.bytes ++ slice
  capacity := (buffer.reserve slice.length granted).capacity
  fits := by
    rw [List.length_append]
    exact buffer.length_add_le_reserve slice.length granted

def truncate (buffer : Buffer) (len : ℕ) : Buffer where
  bytes := buffer.bytes.take len
  capacity := buffer.capacity
  fits := (List.length_take_le' len _).trans buffer.fits

def resize (buffer : Buffer) (newLen : ℕ) (value : UInt8) (granted : ℕ) : Buffer :=
  if buffer.bytes.length < newLen then
    buffer.extendFromSlice (List.replicate (newLen - buffer.bytes.length) value) granted
  else buffer.truncate newLen

/-- A byte is written through `deref_mut`; a place which is not there is refused. -/
def write (buffer : Buffer) (place : ℕ) (byte : UInt8) : Buffer where
  bytes := buffer.bytes.set place byte
  capacity := buffer.capacity
  fits := by
    rw [List.length_set]
    exact buffer.fits

end Buffer

/-- The top of the stack stands first. -/
structure BufferPool where
  pool : List Buffer
  defaultCapacity : ℕ
  maxPoolSize : ℕ
  acquiredCount : UInt64
  recycledCount : UInt64
  deriving DecidableEq

namespace BufferPool

def new (defaultCapacity maxPoolSize : ℕ) : BufferPool where
  pool := []
  defaultCapacity := defaultCapacity
  maxPoolSize := maxPoolSize
  acquiredCount := 0
  recycledCount := 0

/-- `BUFFER_POOL` -/
def bufferPool : BufferPool := new defaultBufCapacity Tun.maxPoolSize

def acquire (pool : BufferPool) (requiredCap granted : ℕ) : Buffer × BufferPool :=
  let cap := max requiredCap pool.defaultCapacity
  let vec := (pool.pool.head?.getD .empty).clear
  (if vec.capacity < cap then vec.reserve cap granted else vec,
    { pool with pool := pool.pool.tail, acquiredCount := pool.acquiredCount + 1 })

def recycle (pool : BufferPool) (vec : Buffer) : BufferPool :=
  if vec.capacity < pool.defaultCapacity ∨ vec.capacity > maxRecycleCapacity then pool
  else if pool.pool.length < pool.maxPoolSize then
    { pool with pool := vec.clear :: pool.pool, recycledCount := pool.recycledCount + 1 }
  else pool

def fromSlice (pool : BufferPool) (slice : List UInt8) (granted more : ℕ) : Buffer × BufferPool :=
  let (buffer, pool) := pool.acquire slice.length granted
  (buffer.extendFromSlice slice more, pool)

/-- `Drop` of a `PooledBuf` -/
def drop (pool : BufferPool) (buffer : Buffer) : BufferPool :=
  if pool.defaultCapacity ≤ buffer.capacity ∧ buffer.capacity ≤ maxRecycleCapacity then
    pool.recycle buffer.clear
  else pool

end BufferPool

/-- The numbers at the end of an event are the allocator's. -/
inductive BufferEvent where
  | acquire (requiredCap granted : ℕ)
  | fromSlice (slice : List UInt8) (granted more : ℕ)
  | fromVec (vec : Buffer)
  | clone (index granted more : ℕ)
  | clear (index : ℕ)
  | truncate (index len : ℕ)
  | resize (index newLen : ℕ) (value : UInt8) (granted : ℕ)
  | extendFromSlice (index : ℕ) (slice : List UInt8) (granted : ℕ)
  | write (index place : ℕ) (byte : UInt8)
  | intoVec (index : ℕ)
  | drop (index : ℕ)

/-- The pool, and the buffers which are in use -/
structure PooledBufs where
  pool : BufferPool
  live : List Buffer
  deriving DecidableEq

namespace PooledBufs

def new (defaultCapacity maxPoolSize : ℕ) : PooledBufs :=
  ⟨.new defaultCapacity maxPoolSize, []⟩

def add (made : Buffer × BufferPool) (live : List Buffer) : PooledBufs :=
  ⟨made.2, live ++ [made.1]⟩

def modify (bufs : PooledBufs) (index : ℕ) (change : Buffer → Buffer) : PooledBufs :=
  { bufs with live := bufs.live.modify index change }

def step (bufs : PooledBufs) : BufferEvent → PooledBufs
  | .acquire requiredCap granted => add (bufs.pool.acquire requiredCap granted) bufs.live
  | .fromSlice slice granted more => add (bufs.pool.fromSlice slice granted more) bufs.live
  | .fromVec vec => { bufs with live := bufs.live ++ [vec] }
  | .clone index granted more =>
      match bufs.live[index]? with
      | some buffer => add (bufs.pool.fromSlice buffer.bytes granted more) bufs.live
      | none => bufs
  | .clear index => bufs.modify index Buffer.clear
  | .truncate index len => bufs.modify index (·.truncate len)
  | .resize index newLen value granted => bufs.modify index (·.resize newLen value granted)
  | .extendFromSlice index slice granted => bufs.modify index (·.extendFromSlice slice granted)
  | .write index place byte => bufs.modify index (·.write place byte)
  | .intoVec index =>
      match bufs.live[index]? with
      -- What the vector is taken out of is dropped, with an empty one in its place.
      | some _ => ⟨bufs.pool.drop .empty, bufs.live.eraseIdx index⟩
      | none => bufs
  | .drop index =>
      match bufs.live[index]? with
      | some buffer => ⟨bufs.pool.drop buffer, bufs.live.eraseIdx index⟩
      | none => bufs

end PooledBufs

/-! ## Without a pool -/

/-- What the operations do to plain vectors, of which only the bytes count -/
def plainStep (live : List (List UInt8)) : BufferEvent → List (List UInt8)
  | .acquire _ _ => live ++ [[]]
  | .fromSlice slice _ _ => live ++ [slice]
  | .fromVec vec => live ++ [vec.bytes]
  | .clone index _ _ => live ++ live[index]?.toList
  | .clear index => live.modify index fun _ => []
  | .truncate index len => live.modify index (·.take len)
  | .resize index newLen value _ =>
      live.modify index fun bytes => bytes.take newLen ++
        List.replicate (newLen - bytes.length) value
  | .extendFromSlice index slice _ => live.modify index (· ++ slice)
  | .write index place byte => live.modify index (·.set place byte)
  | .intoVec index => live.eraseIdx index
  | .drop index => live.eraseIdx index

section Transparent

variable {bufs : PooledBufs}

@[simp]
theorem Buffer.clear_bytes (buffer : Buffer) : buffer.clear.bytes = [] :=
  rfl

@[simp]
theorem Buffer.clear_capacity (buffer : Buffer) : buffer.clear.capacity = buffer.capacity :=
  rfl

@[simp]
theorem Buffer.reserve_bytes (buffer : Buffer) (additional granted : ℕ) :
    (buffer.reserve additional granted).bytes = buffer.bytes :=
  rfl

@[simp]
theorem Buffer.extendFromSlice_bytes (buffer : Buffer) (slice : List UInt8) (granted : ℕ) :
    (buffer.extendFromSlice slice granted).bytes = buffer.bytes ++ slice :=
  rfl

theorem Buffer.resize_bytes (buffer : Buffer) (newLen : ℕ) (value : UInt8) (granted : ℕ) :
    (buffer.resize newLen value granted).bytes =
      buffer.bytes.take newLen ++ List.replicate (newLen - buffer.bytes.length) value := by
  rw [resize]
  split
  · rename_i longer
    rw [List.take_of_length_le (Nat.le_of_lt longer)]
    rfl
  · rename_i shorter
    rw [Nat.sub_eq_zero_of_le (Nat.not_lt.mp shorter), List.replicate_zero, List.append_nil]
    rfl

/-- Nothing of what was in a buffer before is left in it. -/
theorem BufferPool.acquire_bytes (pool : BufferPool) (requiredCap granted : ℕ) :
    (pool.acquire requiredCap granted).1.bytes = [] := by
  rw [acquire]
  dsimp only
  split <;> simp

theorem BufferPool.fromSlice_bytes (pool : BufferPool) (slice : List UInt8) (granted more : ℕ) :
    (pool.fromSlice slice granted more).1.bytes = slice := by
  simp [fromSlice, acquire_bytes]

theorem BufferPool.le_acquire_capacity (pool : BufferPool) (requiredCap granted : ℕ) :
    max requiredCap pool.defaultCapacity ≤ (pool.acquire requiredCap granted).1.capacity := by
  rw [acquire]
  dsimp only
  split
  · apply Nat.le_trans _ (Buffer.length_add_le_reserve _ _ _)
    exact Nat.le_add_left _ _
  · rename_i enough
    exact Nat.not_lt.mp enough

/-- A change which does to the bytes what another one does -/
theorem map_bytes_modify {change : Buffer → Buffer} {plain : List UInt8 → List UInt8}
    (same : ∀ buffer, (change buffer).bytes = plain buffer.bytes) (index : ℕ)
    (live : List Buffer) :
    (live.modify index change).map Buffer.bytes = (live.map Buffer.bytes).modify index plain := by
  apply List.ext_getElem?
  intro place
  simp only [List.getElem?_map, List.getElem?_modify, Option.map_eq_map, Option.map_map]
  congr 1
  funext buffer
  simp only [Function.comp_apply]
  split
  · exact same buffer
  · rfl

theorem step_bytes (bufs : PooledBufs) (event : BufferEvent) :
    (bufs.step event).live.map Buffer.bytes = plainStep (bufs.live.map Buffer.bytes) event := by
  cases event with
  | acquire requiredCap granted =>
      simp [PooledBufs.step, PooledBufs.add, plainStep, BufferPool.acquire_bytes]
  | fromSlice slice granted more =>
      simp [PooledBufs.step, PooledBufs.add, plainStep, BufferPool.fromSlice_bytes]
  | fromVec vec => simp [PooledBufs.step, plainStep]
  | clone index granted more =>
      simp only [PooledBufs.step, plainStep, List.getElem?_map]
      cases bufs.live[index]? with
      | none => simp
      | some buffer => simp [PooledBufs.add, BufferPool.fromSlice_bytes]
  | clear index => exact map_bytes_modify (fun buffer => rfl) index bufs.live
  | truncate index len => exact map_bytes_modify (fun buffer => rfl) index bufs.live
  | resize index newLen value granted =>
      exact map_bytes_modify (fun buffer => buffer.resize_bytes newLen value granted) index
        bufs.live
  | extendFromSlice index slice granted =>
      exact map_bytes_modify (fun buffer => rfl) index bufs.live
  | write index place byte => exact map_bytes_modify (fun buffer => rfl) index bufs.live
  | intoVec index =>
      simp only [PooledBufs.step, plainStep, List.eraseIdx_map]
      split
      · rfl
      · rename_i missing
        rw [List.eraseIdx_of_length_le (List.getElem?_eq_none_iff.mp missing)]
  | drop index =>
      simp only [PooledBufs.step, plainStep, List.eraseIdx_map]
      split
      · rfl
      · rename_i missing
        rw [List.eraseIdx_of_length_le (List.getElem?_eq_none_iff.mp missing)]

/--
Whatever is in the pool at first and whatever the allocator decides, the buffers in use
have throughout the bytes of plain vectors to which the same was done.
-/
theorem pool_transparent (bufs : PooledBufs) (events : List BufferEvent) :
    (run PooledBufs.step bufs events).live.map Buffer.bytes =
      run plainStep (bufs.live.map Buffer.bytes) events := by
  induction events generalizing bufs with
  | nil => rfl
  | cons event events ih => rw [run_cons, run_cons, ih, step_bytes]

end Transparent

/-! ## Limits and counters -/

section Bounded

def Buffer.Idle (defaultCapacity : ℕ) (buffer : Buffer) : Prop :=
  buffer.bytes = [] ∧ defaultCapacity ≤ buffer.capacity ∧ buffer.capacity ≤ maxRecycleCapacity

/-- What the pool keeps stays within the limits which it was made with. -/
structure BufferPool.Bounded (defaultCapacity maxPoolSize : ℕ) (pool : BufferPool) : Prop where
  default_eq : pool.defaultCapacity = defaultCapacity
  size_eq : pool.maxPoolSize = maxPoolSize
  length_le : pool.pool.length ≤ maxPoolSize
  idle : ∀ buffer ∈ pool.pool, buffer.Idle defaultCapacity

/-- The event takes a buffer from the pool. -/
def PooledBufs.Acquires (bufs : PooledBufs) : BufferEvent → Prop
  | .acquire _ _ => True
  | .fromSlice _ _ _ => True
  | .clone index _ _ => index < bufs.live.length
  | _ => False

instance (bufs : PooledBufs) (event : BufferEvent) : Decidable (bufs.Acquires event) :=
  match event with
  | .acquire _ _ => .isTrue trivial
  | .fromSlice _ _ _ => .isTrue trivial
  | .clone index _ _ => inferInstanceAs (Decidable (index < bufs.live.length))
  | .fromVec _ => .isFalse id
  | .clear _ => .isFalse id
  | .truncate _ _ => .isFalse id
  | .resize _ _ _ _ => .isFalse id
  | .extendFromSlice _ _ _ => .isFalse id
  | .write _ _ _ => .isFalse id
  | .intoVec _ => .isFalse id
  | .drop _ => .isFalse id

/-- The event takes a buffer from the pool which was there before. -/
def PooledBufs.Reuses (bufs : PooledBufs) (event : BufferEvent) : Prop :=
  bufs.Acquires event ∧ bufs.pool.pool ≠ []

instance (bufs : PooledBufs) (event : BufferEvent) : Decidable (bufs.Reuses event) :=
  inferInstanceAs (Decidable (_ ∧ _))

variable {defaultCapacity maxPoolSize : ℕ} {pool : BufferPool} {bufs : PooledBufs}

/-- A buffer which is dropped goes away, or is put on top of the stack. -/
theorem BufferPool.drop_cases (pool : BufferPool) (buffer : Buffer) :
    pool.drop buffer = pool ∨
      buffer.clear.Idle pool.defaultCapacity ∧ pool.pool.length < pool.maxPoolSize ∧
        pool.drop buffer = { pool with
          pool := buffer.clear :: pool.pool, recycledCount := pool.recycledCount + 1 } := by
  rw [drop]
  split
  · rename_i fitting
    rw [recycle]
    split
    · exact .inl rfl
    · split
      · rename_i room
        exact .inr ⟨⟨rfl, fitting⟩, room, rfl⟩
      · exact .inl rfl
  · exact .inl rfl

/-- What an event can do to the pool -/
theorem PooledBufs.step_pool (bufs : PooledBufs) (event : BufferEvent) :
    (bufs.Acquires event ∧
        ∃ requiredCap granted, (bufs.step event).pool = (bufs.pool.acquire requiredCap granted).2) ∨
      ¬bufs.Acquires event ∧
        ((bufs.step event).pool = bufs.pool ∨
          ∃ buffer, (bufs.step event).pool = bufs.pool.drop buffer) := by
  cases event with
  | acquire requiredCap granted => exact .inl ⟨trivial, requiredCap, granted, rfl⟩
  | fromSlice slice granted more => exact .inl ⟨trivial, slice.length, granted, rfl⟩
  | clone index granted more =>
      simp only [step, Acquires]
      cases there : bufs.live[index]? with
      | none =>
          right
          exact ⟨Nat.not_lt.mpr (List.getElem?_eq_none_iff.mp there), .inl rfl⟩
      | some buffer =>
          left
          exact ⟨(List.getElem?_eq_some_iff.mp there).1, buffer.bytes.length, granted, rfl⟩
  | intoVec index =>
      simp only [step, Acquires]
      cases bufs.live[index]? with
      | none => exact .inr ⟨id, .inl rfl⟩
      | some buffer => exact .inr ⟨id, .inr ⟨.empty, rfl⟩⟩
  | drop index =>
      simp only [step, Acquires]
      cases bufs.live[index]? with
      | none => exact .inr ⟨id, .inl rfl⟩
      | some buffer => exact .inr ⟨id, .inr ⟨buffer, rfl⟩⟩
  | fromVec vec => exact .inr ⟨id, .inl rfl⟩
  | clear index => exact .inr ⟨id, .inl rfl⟩
  | truncate index len => exact .inr ⟨id, .inl rfl⟩
  | resize index newLen value granted => exact .inr ⟨id, .inl rfl⟩
  | extendFromSlice index slice granted => exact .inr ⟨id, .inl rfl⟩
  | write index place byte => exact .inr ⟨id, .inl rfl⟩

theorem BufferPool.Bounded.new (defaultCapacity maxPoolSize : ℕ) :
    (BufferPool.new defaultCapacity maxPoolSize).Bounded defaultCapacity maxPoolSize :=
  ⟨rfl, rfl, Nat.zero_le _, by simp [BufferPool.new]⟩

theorem BufferPool.Bounded.acquire (bounded : pool.Bounded defaultCapacity maxPoolSize)
    (requiredCap granted : ℕ) :
    (pool.acquire requiredCap granted).2.Bounded defaultCapacity maxPoolSize where
  default_eq := bounded.default_eq
  size_eq := bounded.size_eq
  length_le := (List.tail_sublist pool.pool).length_le.trans bounded.length_le
  idle := fun buffer member => bounded.idle buffer (List.mem_of_mem_tail member)

theorem BufferPool.Bounded.drop (bounded : pool.Bounded defaultCapacity maxPoolSize)
    (buffer : Buffer) : (pool.drop buffer).Bounded defaultCapacity maxPoolSize := by
  rcases pool.drop_cases buffer with gone | ⟨idle, room, kept⟩
  · rw [gone]
    exact bounded
  · rw [kept]
    refine ⟨bounded.default_eq, bounded.size_eq, bounded.size_eq ▸ room, ?_⟩
    intro other member
    rcases List.mem_cons.mp member with rfl | there
    · exact bounded.default_eq ▸ idle
    · exact bounded.idle other there

theorem BufferPool.Bounded.step (bounded : bufs.pool.Bounded defaultCapacity maxPoolSize)
    (event : BufferEvent) : (bufs.step event).pool.Bounded defaultCapacity maxPoolSize := by
  rcases bufs.step_pool event with ⟨_, requiredCap, granted, same⟩ | ⟨_, same | ⟨buffer, same⟩⟩
  · rw [same]
    exact bounded.acquire requiredCap granted
  · rw [same]
    exact bounded
  · rw [same]
    exact bounded.drop buffer

/-- The memory which idle buffers hold -/
theorem BufferPool.Bounded.capacity_le (bounded : pool.Bounded defaultCapacity maxPoolSize) :
    (pool.pool.map Buffer.capacity).sum ≤ maxPoolSize * maxRecycleCapacity := by
  apply (List.sum_le_card_nsmul _ maxRecycleCapacity _).trans
  · rw [List.length_map]
    exact Nat.mul_le_mul_right _ bounded.length_le
  · intro capacity member
    rcases List.mem_map.mp member with ⟨buffer, there, rfl⟩
    exact (bounded.idle buffer there).2.2

/-- A buffer which the pool has got back is idle, or has been taken again. -/
theorem PooledBufs.step_counters (bufs : PooledBufs) (event : BufferEvent) :
    (bufs.step event).pool.acquiredCount =
        bufs.pool.acquiredCount + UInt64.ofNat (if bufs.Acquires event then 1 else 0) ∧
      (bufs.step event).pool.recycledCount + UInt64.ofNat bufs.pool.pool.length =
        bufs.pool.recycledCount + UInt64.ofNat (bufs.step event).pool.pool.length +
          UInt64.ofNat (if bufs.Reuses event then 1 else 0) := by
  rcases bufs.step_pool event with ⟨acquires, requiredCap, granted, same⟩ |
    ⟨other, same | ⟨buffer, same⟩⟩
  · rw [same]
    simp only [BufferPool.acquire, Reuses, acquires, true_and, if_true]
    cases bufs.pool.pool with
    | nil => simp
    | cons first rest => simp [UInt64.ofNat_add, UInt64.add_assoc]
  · simp [same, Reuses, other]
  · rcases bufs.pool.drop_cases buffer with gone | ⟨_, _, kept⟩
    · simp [same, gone, Reuses, other]
    · simp only [same, kept, Reuses, other, false_and, if_false, List.length_cons,
        UInt64.ofNat_add]
      constructor
      · simp
      · grind

theorem PooledBufs.run_counters (bufs : PooledBufs) (events : List BufferEvent) :
    (run step bufs events).pool.acquiredCount =
        bufs.pool.acquiredCount + UInt64.ofNat (countAlong step Acquires bufs events) ∧
      (run step bufs events).pool.recycledCount + UInt64.ofNat bufs.pool.pool.length =
        bufs.pool.recycledCount + UInt64.ofNat (run step bufs events).pool.pool.length +
          UInt64.ofNat (countAlong step Reuses bufs events) := by
  induction events generalizing bufs with
  | nil => simp [countAlong]
  | cons event events ih =>
      rcases ih (bufs.step event) with ⟨acquired, recycled⟩
      rcases bufs.step_counters event with ⟨acquires, reuses⟩
      rw [run_cons, countAlong, countAlong, UInt64.ofNat_add, UInt64.ofNat_add]
      constructor
      · rw [acquired, acquires, UInt64.add_assoc]
      · grind

theorem PooledBufs.counters_of_new (defaultCapacity maxPoolSize : ℕ) (events : List BufferEvent) :
    (run step (.new defaultCapacity maxPoolSize) events).pool.acquiredCount =
        UInt64.ofNat (countAlong step Acquires (.new defaultCapacity maxPoolSize) events) ∧
      (run step (.new defaultCapacity maxPoolSize) events).pool.recycledCount = UInt64.ofNat
        ((run step (.new defaultCapacity maxPoolSize) events).pool.pool.length +
          countAlong step Reuses (.new defaultCapacity maxPoolSize) events) := by
  rcases run_counters (.new defaultCapacity maxPoolSize) events with ⟨acquired, recycled⟩
  have none_acquired : (PooledBufs.new defaultCapacity maxPoolSize).pool.acquiredCount = 0 := rfl
  have none_recycled : (PooledBufs.new defaultCapacity maxPoolSize).pool.recycledCount = 0 := rfl
  have none_idle : (PooledBufs.new defaultCapacity maxPoolSize).pool.pool.length = 0 := rfl
  rw [none_acquired, UInt64.zero_add] at acquired
  rw [none_recycled, none_idle, UInt64.zero_add] at recycled
  exact ⟨acquired, (UInt64.add_zero _).symm.trans (recycled.trans (UInt64.ofNat_add _ _).symm)⟩

end Bounded

/--
In every run the pool keeps at most `maxPoolSize` buffers, all of them empty and with a
capacity within the limits, so their memory is bounded; the statistics are exact up to
the wrapping of the counters; and a buffer which is acquired is empty and large enough.
-/
theorem pool_bounded (defaultCapacity maxPoolSize : ℕ) (events : List BufferEvent) :
    let bufs := run PooledBufs.step (.new defaultCapacity maxPoolSize) events
    bufs.pool.Bounded defaultCapacity maxPoolSize ∧
      (bufs.pool.pool.map Buffer.capacity).sum ≤ maxPoolSize * maxRecycleCapacity ∧
      bufs.pool.acquiredCount =
        UInt64.ofNat (countAlong PooledBufs.step PooledBufs.Acquires
          (.new defaultCapacity maxPoolSize) events) ∧
      bufs.pool.recycledCount = UInt64.ofNat (bufs.pool.pool.length +
        countAlong PooledBufs.step PooledBufs.Reuses (.new defaultCapacity maxPoolSize) events) ∧
      ∀ requiredCap granted,
        (bufs.pool.acquire requiredCap granted).1.bytes = [] ∧
          max requiredCap defaultCapacity ≤ (bufs.pool.acquire requiredCap granted).1.capacity := by
  intro bufs
  have bounded : bufs.pool.Bounded defaultCapacity maxPoolSize :=
    @run_invariant _ _ PooledBufs.step
      (fun bufs => bufs.pool.Bounded defaultCapacity maxPoolSize) _ events
      (fun event bounded => bounded.step event) (.new defaultCapacity maxPoolSize)
  rcases PooledBufs.counters_of_new defaultCapacity maxPoolSize events with ⟨acquired, recycled⟩
  refine ⟨bounded, bounded.capacity_le, acquired, recycled, fun requiredCap granted => ⟨?_, ?_⟩⟩
  · exact bufs.pool.acquire_bytes requiredCap granted
  · have enough := bufs.pool.le_acquire_capacity requiredCap granted
    rwa [bounded.default_eq] at enough

end Mirage.Tun
