import Mirage.Foundations.Run
import Mirage.Proxy.UdpMux

/-!
# The shared tunnels of the pools

`get_mux_tunnel` gives each flow one of the few mux tunnels of a pool.  The sets of tunnels
are registered under the addresses of the pools, and an address may come again when a pool
has been released.  Each slot of a set has a lock, which is held while its tunnel is looked at
or made anew.  Each event is one step of one call between two points at which others may
run.
-/

namespace Mirage.Proxy

open Mirage.Foundations Mirage.Tun

/-- A pool at its address, as long as somebody has it -/
structure PoolRef where
  address : ℕ
  live : Bool
  deriving DecidableEq, Repr

structure MuxSlot where
  tunnel : Option ℕ
  /-- The call which holds the lock -/
  holder : Option ℕ
  deriving DecidableEq, Repr

def MuxSlot.withHolder (holder : Option ℕ) (slot : MuxSlot) : MuxSlot := { slot with holder }

structure MuxSet where
  pool : ℕ
  slots : List MuxSlot
  deriving DecidableEq, Repr

/-- A tunnel which was made for a slot of a set -/
structure SharedTunnel where
  pool : ℕ
  place : ℕ × ℕ
  alive : Bool
  deriving DecidableEq, Repr

/-- Where a call of `get_mux_tunnel` is; it has failed too if it was dropped. -/
inductive LeasePhase where
  | start
  | locking (set : ℕ)
  | checking (set : ℕ)
  | creating (set : ℕ)
  | got (tunnel : ℕ)
  | failed
  /-- `MuxSet::get` did not find its pool any more. -/
  | released
  deriving DecidableEq, Repr

structure LeaseCall where
  pool : ℕ
  key : FlowKey
  phase : LeasePhase
  deriving DecidableEq

def LeaseCall.active (call : LeaseCall) : Bool :=
  match call.phase with
  | .start | .locking _ | .checking _ | .creating _ => true
  | .got _ | .failed | .released => false

/-- Sets and tunnels stay in their lists when nothing refers to them any more. -/
structure MuxRegistry where
  udpMuxTunnels : ℕ
  pools : List PoolRef
  registry : FiniteMap ℕ ℕ
  sets : List MuxSet
  tunnels : List SharedTunnel
  calls : List LeaseCall

inductive RegistryEvent where
  | newPool (address : ℕ)
  | releasePool (pool : ℕ)
  | setUdpMux (tunnels : ℕ)
  | call (pool : ℕ) (key : FlowKey)
  | advance (call : ℕ)
  | created (call : ℕ) (succeeds : Bool)
  | drop (call : ℕ)
  | tunnelEnds (tunnel : ℕ)
  deriving DecidableEq

/-- `slot_index`, with the standard hasher -/
def slotIndex (hash : FlowKey → ℕ) (key : FlowKey) (numSlots : ℕ) : ℕ :=
  hash key % max numSlots 1

theorem slotIndex_lt (hash : FlowKey → ℕ) (key : FlowKey) {numSlots : ℕ}
    (some_slot : 0 < numSlots) : slotIndex hash key numSlots < numSlots := by
  rw [slotIndex, Nat.max_eq_left some_slot]
  exact Nat.mod_lt _ some_slot

def MuxSet.new (pool k : ℕ) : MuxSet :=
  ⟨pool, List.replicate (max k 1) ⟨none, none⟩⟩

def slotAt (sets : List MuxSet) (place : ℕ × ℕ) : Option MuxSlot :=
  sets[place.1]?.bind fun set => set.slots[place.2]?

def modifySlot (sets : List MuxSet) (place : ℕ × ℕ) (change : MuxSlot → MuxSlot) : List MuxSet :=
  sets.modify place.1 fun set => { set with slots := set.slots.modify place.2 change }

/-- The pool of a set and the number of its slots -/
def setInfo (sets : List MuxSet) (set : ℕ) : Option (ℕ × ℕ) :=
  sets[set]?.map fun found => (found.pool, found.slots.length)

namespace MuxRegistry

def new : MuxRegistry := ⟨4, [], ∅, [], [], []⟩

def live (registry : MuxRegistry) (pool : ℕ) : Bool :=
  registry.pools[pool]?.any PoolRef.live

def alive (registry : MuxRegistry) (tunnel : ℕ) : Bool :=
  registry.tunnels[tunnel]?.any SharedTunnel.alive

def setPhase (registry : MuxRegistry) (index : ℕ) (phase : LeasePhase) : MuxRegistry :=
  { registry with calls := registry.calls.modify index fun call => { call with phase } }

/-- The slot of a flow in a set -/
def placeOf (registry : MuxRegistry) (hash : FlowKey → ℕ) (key : FlowKey) (set : ℕ) : ℕ × ℕ :=
  (set, slotIndex hash key ((setInfo registry.sets set).elim 0 Prod.snd))

/-- The sets of released pools are forgotten, and that of the pool is found or made. -/
def enter (registry : MuxRegistry) (index pool address : ℕ) : MuxRegistry :=
  let kept := registry.registry.retain fun key =>
    (registry.registry.lookup key).any fun set =>
      (setInfo registry.sets set).any fun info => registry.live info.1
  match kept.lookup address with
  | some set => { registry with registry := kept }.setPhase index (.locking set)
  | none =>
      { registry with
        registry := kept.insert address registry.sets.length
        sets := registry.sets ++ [MuxSet.new pool registry.udpMuxTunnels] }.setPhase index
          (.locking registry.sets.length)

/-- The lock of the slot is released, and the call goes on. -/
def unlock (registry : MuxRegistry) (index : ℕ) (place : ℕ × ℕ) (phase : LeasePhase) :
    MuxRegistry :=
  { registry with
    sets := modifySlot registry.sets place (.withHolder none) }.setPhase index phase

def advance (registry : MuxRegistry) (hash : FlowKey → ℕ) (index : ℕ) (call : LeaseCall) :
    MuxRegistry :=
  match call.phase with
  | .start =>
      registry.pools[call.pool]?.elim registry fun pool =>
        registry.enter index call.pool pool.address
  | .locking set =>
      let place := registry.placeOf hash call.key set
      if (setInfo registry.sets set).any fun info => registry.live info.1 then
        if (slotAt registry.sets place).any fun slot => slot.holder = none then
          { registry with
            sets := modifySlot registry.sets place (.withHolder (some index)) }.setPhase index
              (.checking set)
        else registry
      else registry.setPhase index .released
  | .checking set =>
      let place := registry.placeOf hash call.key set
      match ((slotAt registry.sets place).bind MuxSlot.tunnel).filter registry.alive with
      | some tunnel => registry.unlock index place (.got tunnel)
      | none => registry.setPhase index (.creating set)
  | _ => registry

/-- A new tunnel comes into a slot. -/
def fill (registry : MuxRegistry) (pool : ℕ) (place : ℕ × ℕ) : MuxRegistry :=
  { registry with
    tunnels := registry.tunnels ++ [SharedTunnel.mk pool place true]
    sets := modifySlot registry.sets place fun slot =>
      { slot with tunnel := some registry.tunnels.length } }

/-- `MuxTunnel::create` of the pool of the set returns. -/
def created (registry : MuxRegistry) (hash : FlowKey → ℕ) (index : ℕ) (call : LeaseCall)
    (succeeds : Bool) : MuxRegistry :=
  match call.phase with
  | .creating set =>
      let place := registry.placeOf hash call.key set
      match succeeds, setInfo registry.sets set with
      | true, some (pool, _) =>
          (registry.fill pool place).unlock index place (.got registry.tunnels.length)
      | _, _ => registry.unlock index place .failed
  | _ => registry

/-- The future is dropped where it waits, and with it what it holds. -/
def drop (registry : MuxRegistry) (hash : FlowKey → ℕ) (index : ℕ) (call : LeaseCall) :
    MuxRegistry :=
  match call.phase with
  | .start | .locking _ => registry.setPhase index .failed
  | .creating set => registry.unlock index (registry.placeOf hash call.key set) .failed
  | _ => registry

/-- Each call has its pool, so a pool is released only when none of its calls goes on. -/
def step (hash : FlowKey → ℕ) (registry : MuxRegistry) : RegistryEvent → MuxRegistry
  | .newPool address =>
      if registry.pools.any fun pool => pool.live && pool.address == address then registry
      else { registry with pools := registry.pools ++ [PoolRef.mk address true] }
  | .releasePool pool =>
      if registry.calls.any fun call => call.active && call.pool == pool then registry
      else
        { registry with pools := registry.pools.modify pool fun ref => { ref with live := false } }
  | .setUdpMux tunnels => { registry with udpMuxTunnels := max tunnels 1 }
  | .call pool key =>
      if registry.live pool then
        { registry with calls := registry.calls ++ [LeaseCall.mk pool key .start] }
      else registry
  | .advance index => registry.calls[index]?.elim registry (registry.advance hash index)
  | .created index succeeds =>
      registry.calls[index]?.elim registry fun call => registry.created hash index call succeeds
  | .drop index => registry.calls[index]?.elim registry (registry.drop hash index)
  | .tunnelEnds tunnel =>
      { registry with
        tunnels := registry.tunnels.modify tunnel fun ended => { ended with alive := false } }

end MuxRegistry

/-! ## Slots of sets -/

section Slots

variable {sets : List MuxSet} {place : ℕ × ℕ} {change : MuxSlot → MuxSlot}

theorem setInfo_modifySlot (sets : List MuxSet) (place : ℕ × ℕ) (change : MuxSlot → MuxSlot)
    (set : ℕ) : setInfo (modifySlot sets place change) set = setInfo sets set := by
  rw [setInfo, modifySlot, List.getElem?_modify, setInfo]
  cases sets[set]? with
  | none => simp
  | some found =>
      simp only [Option.map_eq_map, Option.map_some]
      split
      · rw [List.length_modify]
      · rfl

theorem slotAt_modifySlot (sets : List MuxSet) (place other : ℕ × ℕ)
    (change : MuxSlot → MuxSlot) :
    slotAt (modifySlot sets place change) other =
      if other = place then (slotAt sets other).map change else slotAt sets other := by
  rcases place with ⟨set, slot⟩
  rcases other with ⟨otherSet, otherSlot⟩
  rw [slotAt, modifySlot, List.getElem?_modify, slotAt]
  dsimp only
  cases sets[otherSet]? with
  | none => simp
  | some found =>
      simp only [Option.map_eq_map, Option.map_some, Option.bind_some, Prod.mk.injEq]
      by_cases same : set = otherSet
      · subst same
        simp only [if_true, List.getElem?_modify, true_and]
        by_cases here : slot = otherSlot
        · subst here
          simp
        · simp [here, Ne.symm here]
      · simp [same, Ne.symm same]

theorem slotAt_modifySlot_of_ne {other : ℕ × ℕ} (different : other ≠ place) :
    slotAt (modifySlot sets place change) other = slotAt sets other := by
  rw [slotAt_modifySlot, if_neg different]

theorem slotAt_modifySlot_self :
    slotAt (modifySlot sets place change) place = (slotAt sets place).map change := by
  rw [slotAt_modifySlot, if_pos rfl]

theorem owners_modifySlot (sets : List MuxSet) (place : ℕ × ℕ) (change : MuxSlot → MuxSlot) :
    (modifySlot sets place change).map MuxSet.pool = sets.map MuxSet.pool := by
  apply List.ext_getElem?
  intro set
  rw [modifySlot, List.getElem?_map, List.getElem?_modify, List.getElem?_map]
  cases sets[set]? with
  | none => rfl
  | some found =>
      simp only [Option.map_eq_map, Option.map_some]
      split <;> rfl

theorem getElem?_append_of_some {Element : Type*} {elements : List Element} {index : ℕ}
    {element : Element} (found : elements[index]? = some element) (more : List Element) :
    (elements ++ more)[index]? = some element := by
  rw [List.getElem?_append_left (List.getElem?_eq_some_iff.mp found).1, found]

theorem setInfo_append {set : ℕ} {info : ℕ × ℕ} (there : setInfo sets set = some info)
    (more : List MuxSet) : setInfo (sets ++ more) set = some info := by
  rcases Option.map_eq_some_iff.mp there with ⟨found, at_set, rfl⟩
  rw [setInfo, getElem?_append_of_some at_set]
  rfl

theorem slotAt_append {slot : MuxSlot} (there : slotAt sets place = some slot)
    (more : List MuxSet) : slotAt (sets ++ more) place = some slot := by
  rcases Option.bind_eq_some_iff.mp there with ⟨found, at_set, at_slot⟩
  rw [slotAt, getElem?_append_of_some at_set]
  exact at_slot

theorem slotAt_isSome {pool size : ℕ} (there : setInfo sets place.1 = some (pool, size))
    (inside : place.2 < size) : ∃ slot, slotAt sets place = some slot := by
  rcases Option.map_eq_some_iff.mp there with ⟨found, at_set, same⟩
  rw [Prod.mk.injEq] at same
  rw [slotAt, at_set]
  exact ⟨found.slots[place.2], List.getElem?_eq_getElem (same.2 ▸ inside)⟩

/-- The sets of one pool are one set. -/
theorem set_of_owner {set other pool size otherSize : ℕ}
    (owners : (sets.map MuxSet.pool).Nodup) (first : setInfo sets set = some (pool, size))
    (second : setInfo sets other = some (pool, otherSize)) : set = other := by
  rcases Option.map_eq_some_iff.mp first with ⟨found, at_set, same⟩
  rcases Option.map_eq_some_iff.mp second with ⟨found', at_other, same'⟩
  rw [Prod.mk.injEq] at same same'
  have inside : set < (sets.map MuxSet.pool).length := by
    rw [List.length_map]
    exact (List.getElem?_eq_some_iff.mp at_set).1
  apply (List.getElem?_inj inside owners).mp
  rw [List.getElem?_map, List.getElem?_map, at_set, at_other, Option.map_some, Option.map_some,
    same.1, same'.1]

end Slots

namespace MuxRegistry

/-! ## What the registry keeps -/

variable {registry next : MuxRegistry} {hash : FlowKey → ℕ} {index : ℕ} {call : LeaseCall}

/-- The set is that of the pool of the call, and the place is that of its flow there. -/
def HasPlace (registry : MuxRegistry) (hash : FlowKey → ℕ) (call : LeaseCall) (place : ℕ × ℕ) :
    Prop :=
  ∃ size, setInfo registry.sets place.1 = some (call.pool, size) ∧
    place.2 = slotIndex hash call.key size

def Holds (registry : MuxRegistry) (index : ℕ) (place : ℕ × ℕ) : Prop :=
  (slotAt registry.sets place).bind MuxSlot.holder = some index

/-- The slot has no tunnel, or one which has ended. -/
def Ended (registry : MuxRegistry) (place : ℕ × ℕ) : Prop :=
  ∀ tunnel, (slotAt registry.sets place).bind MuxSlot.tunnel = some tunnel →
    registry.alive tunnel = false

def CallFits (registry : MuxRegistry) (hash : FlowKey → ℕ) (index : ℕ) (call : LeaseCall) : Prop :=
  match call.phase with
  | .start => registry.live call.pool = true
  | .locking set =>
      registry.live call.pool = true ∧
        registry.HasPlace hash call (registry.placeOf hash call.key set)
  | .checking set =>
      registry.live call.pool = true ∧
        registry.HasPlace hash call (registry.placeOf hash call.key set) ∧
        registry.Holds index (registry.placeOf hash call.key set)
  | .creating set =>
      registry.live call.pool = true ∧
        registry.HasPlace hash call (registry.placeOf hash call.key set) ∧
        registry.Holds index (registry.placeOf hash call.key set) ∧
        registry.Ended (registry.placeOf hash call.key set)
  | .got tunnel =>
      ∃ found, registry.tunnels[tunnel]? = some found ∧ found.pool = call.pool ∧
        registry.HasPlace hash call found.place
  | .failed => True
  | .released => False

/-- A tunnel is in a set of its pool, and as long as it is alive it is in its slot. -/
def TunnelFits (registry : MuxRegistry) (index : ℕ) (tunnel : SharedTunnel) : Prop :=
  (∃ size, setInfo registry.sets tunnel.place.1 = some (tunnel.pool, size) ∧
      tunnel.place.2 < size) ∧
    (tunnel.alive = true →
      (slotAt registry.sets tunnel.place).bind MuxSlot.tunnel = some index)

def addressOf (registry : MuxRegistry) (pool : ℕ) : Option ℕ :=
  registry.pools[pool]?.map PoolRef.address

/-- A live pool is known by its address, and has one set, which is registered. -/
structure Wiring (registry : MuxRegistry) : Prop where
  registered : ∀ address set, registry.registry.lookup address = some set →
    ∃ info, setInfo registry.sets set = some info ∧ registry.addressOf info.1 = some address
  distinct : ∀ first second, registry.live first = true → registry.live second = true →
    registry.addressOf first = registry.addressOf second → first = second
  known : ∀ set info address, setInfo registry.sets set = some info → registry.live info.1 = true →
    registry.addressOf info.1 = some address → registry.registry.lookup address = some set
  owners : (registry.sets.map MuxSet.pool).Nodup
  owned : ∀ set info, setInfo registry.sets set = some info →
    ∃ address, registry.addressOf info.1 = some address
  sized : ∀ set info, setInfo registry.sets set = some info → 0 < info.2
  made : ∀ place tunnel, (slotAt registry.sets place).bind MuxSlot.tunnel = some tunnel →
    ∃ shared, registry.tunnels[tunnel]? = some shared ∧ shared.place = place
  tunnels : ∀ index tunnel, registry.tunnels[index]? = some tunnel →
    registry.TunnelFits index tunnel

structure Wired (registry : MuxRegistry) (hash : FlowKey → ℕ) : Prop extends
    registry.Wiring where
  calls : ∀ index call, registry.calls[index]? = some call → registry.CallFits hash index call

theorem wired_new : Wired .new hash where
  registered := fun _ _ found => nomatch found
  distinct := fun _ _ live => nomatch live
  known := fun _ _ _ found => nomatch found
  owners := List.nodup_nil
  owned := fun _ _ found => nomatch found
  sized := fun _ _ found => nomatch found
  made := fun _ _ found => nomatch found
  tunnels := fun _ _ found => nomatch found
  calls := fun _ _ found => nomatch found

theorem placeOf_eq {set pool size : ℕ} (there : setInfo registry.sets set = some (pool, size))
    (key : FlowKey) : registry.placeOf hash key set = (set, slotIndex hash key size) := by
  rw [placeOf, there]
  rfl

theorem HasPlace.of_info {set size : ℕ}
    (there : setInfo registry.sets set = some (call.pool, size)) :
    registry.HasPlace hash call (registry.placeOf hash call.key set) := by
  rw [placeOf_eq there]
  exact ⟨size, there, rfl⟩

/-- A set which is there stays, with its pool and its size. -/
def KeepsInfo (registry next : MuxRegistry) : Prop :=
  ∀ set info, setInfo registry.sets set = some info → setInfo next.sets set = some info

theorem HasPlace.mono (kept : registry.KeepsInfo next) {place : ℕ × ℕ}
    (there : registry.HasPlace hash call place) : next.HasPlace hash call place := by
  rcases there with ⟨size, info, slot⟩
  exact ⟨size, kept _ _ info, slot⟩

theorem HasPlace.placeOf_eq (kept : registry.KeepsInfo next) {set : ℕ}
    (there : registry.HasPlace hash call (registry.placeOf hash call.key set)) :
    next.placeOf hash call.key set = registry.placeOf hash call.key set := by
  rcases there with ⟨size, info, _⟩
  have before : setInfo registry.sets set = some (call.pool, size) := info
  rw [MuxRegistry.placeOf_eq before, MuxRegistry.placeOf_eq (kept _ _ before)]

/-- What a step has to leave for a call which does not take it -/
structure Leaves (registry next : MuxRegistry) (index : ℕ) : Prop where
  info : registry.KeepsInfo next
  holds : ∀ place, registry.Holds index place → next.Holds index place
  ended : ∀ place, registry.Holds index place → registry.Ended place → next.Ended place
  tunnels : ∀ (tunnel : ℕ) found, registry.tunnels[tunnel]? = some found →
    ∃ after, next.tunnels[tunnel]? = some after ∧ after.pool = found.pool ∧
      after.place = found.place

theorem Leaves.refl (registry : MuxRegistry) (index : ℕ) : Leaves registry registry index :=
  ⟨fun _ _ there => there, fun _ holds => holds, fun _ _ ended => ended,
    fun _ found there => ⟨found, there, rfl, rfl⟩⟩

theorem CallFits.mono (fits : registry.CallFits hash index call)
    (leaves : Leaves registry next index)
    (live : call.active = true → registry.live call.pool = true → next.live call.pool = true) :
    next.CallFits hash index call := by
  rw [LeaseCall.active] at live
  cases phase : call.phase with
  | start =>
      simp only [CallFits, phase] at fits live ⊢
      exact live trivial fits
  | locking set =>
      simp only [CallFits, phase] at fits live ⊢
      rw [fits.2.placeOf_eq leaves.info]
      exact ⟨live trivial fits.1, fits.2.mono leaves.info⟩
  | checking set =>
      simp only [CallFits, phase] at fits live ⊢
      rcases fits with ⟨lives, place, holds⟩
      rw [place.placeOf_eq leaves.info]
      exact ⟨live trivial lives, place.mono leaves.info, leaves.holds _ holds⟩
  | creating set =>
      simp only [CallFits, phase] at fits live ⊢
      rcases fits with ⟨lives, place, holds, ended⟩
      rw [place.placeOf_eq leaves.info]
      exact ⟨live trivial lives, place.mono leaves.info, leaves.holds _ holds,
        leaves.ended _ holds ended⟩
  | got tunnel =>
      simp only [CallFits, phase] at fits ⊢
      rcases fits with ⟨found, there, pool, place⟩
      rcases leaves.tunnels tunnel found there with ⟨after, afterwards, same_pool, same_place⟩
      refine ⟨after, afterwards, same_pool.trans pool, ?_⟩
      rw [same_place]
      exact place.mono leaves.info
  | failed =>
      simp only [CallFits, phase]
  | released =>
      simp only [CallFits, phase] at fits

/-- One call takes a step, and the others find what they need. -/
theorem Wiring.of_calls (wiring : next.Wiring) (wired : registry.Wired hash)
    (calls : next.calls = registry.calls) {phase : LeasePhase}
    (found : registry.calls[index]? = some call)
    (leaves : ∀ other, other ≠ index → Leaves registry next other)
    (live : ∀ pool, registry.live pool = true → next.live pool = true)
    (fits : next.CallFits hash index { call with phase }) :
    (next.setPhase index phase).Wired hash where
  toWiring := ⟨wiring.registered, wiring.distinct, wiring.known, wiring.owners, wiring.owned,
    wiring.sized, wiring.made, wiring.tunnels⟩
  calls := by
    intro other after there
    change next.CallFits hash other after
    rw [setPhase, calls, List.getElem?_modify] at there
    by_cases same : index = other
    · subst same
      rw [found, Option.map_eq_map, Option.map_some, if_pos rfl, Option.some.injEq] at there
      subst there
      exact fits
    · simp only [if_neg same, Option.map_eq_map, Option.map_id'] at there
      exact (wired.calls other after there).mono (leaves other (Ne.symm same))
        fun _ lives => live _ lives

theorem tunnel_withHolder (sets : List MuxSet) (place other : ℕ × ℕ) (holder : Option ℕ) :
    (slotAt (modifySlot sets place (.withHolder holder)) other).bind MuxSlot.tunnel =
      (slotAt sets other).bind MuxSlot.tunnel := by
  rw [slotAt_modifySlot]
  split
  · cases slotAt sets other <;> rfl
  · rfl

/-- The lock of a slot is taken or released. -/
theorem Wiring.withHolder (wiring : registry.Wiring) (place : ℕ × ℕ) (holder : Option ℕ) :
    Wiring { registry with sets := modifySlot registry.sets place (.withHolder holder) } where
  registered := by
    intro address set there
    simp only [setInfo_modifySlot]
    exact wiring.registered address set there
  distinct := wiring.distinct
  known := by
    intro set info address there
    simp only [setInfo_modifySlot] at there
    exact wiring.known set info address there
  owners := by
    rw [owners_modifySlot]
    exact wiring.owners
  owned := by
    intro set info there
    simp only [setInfo_modifySlot] at there
    exact wiring.owned set info there
  sized := by
    intro set info there
    simp only [setInfo_modifySlot] at there
    exact wiring.sized set info there
  made := by
    intro other tunnel there
    rw [tunnel_withHolder] at there
    exact wiring.made other tunnel there
  tunnels := by
    intro index tunnel there
    rcases wiring.tunnels index tunnel there with ⟨⟨size, info, inside⟩, slot⟩
    refine ⟨⟨size, by simpa only [setInfo_modifySlot] using info, inside⟩, ?_⟩
    rw [tunnel_withHolder]
    exact slot

theorem leaves_withHolder {place : ℕ × ℕ} {other : ℕ} (elsewhere : ¬registry.Holds other place)
    (holder : Option ℕ) :
    Leaves registry { registry with sets := modifySlot registry.sets place (.withHolder holder) }
      other where
  info := by
    intro set info there
    rw [setInfo_modifySlot, there]
  holds := by
    intro held holds
    have different : held ≠ place := by
      rintro rfl
      exact elsewhere holds
    rw [Holds, slotAt_modifySlot_of_ne different]
    exact holds
  ended := by
    intro held _ ended tunnel there
    rw [tunnel_withHolder] at there
    exact ended tunnel there
  tunnels := fun _ found there => ⟨found, there, rfl, rfl⟩

/-- Only one call holds the lock of a slot. -/
theorem Holds.unique {other : ℕ} {place : ℕ × ℕ} (first : registry.Holds index place)
    (second : registry.Holds other place) : other = index := by
  rw [Holds, first, Option.some.injEq] at second
  exact second.symm

theorem Wired.unlock (wired : registry.Wired hash) (found : registry.calls[index]? = some call)
    {place : ℕ × ℕ} (holds : registry.Holds index place) {phase : LeasePhase}
    (fits : CallFits { registry with sets := modifySlot registry.sets place (.withHolder none) }
      hash index { call with phase }) :
    (registry.unlock index place phase).Wired hash := by
  refine (wired.toWiring.withHolder place none).of_calls wired rfl found ?_ (fun _ lives => lives)
    fits
  intro other different
  apply leaves_withHolder
  intro also
  exact different (holds.unique also)

theorem Wired.setPhase (wired : registry.Wired hash) (found : registry.calls[index]? = some call)
    {phase : LeasePhase} (fits : registry.CallFits hash index { call with phase }) :
    (registry.setPhase index phase).Wired hash :=
  wired.toWiring.of_calls wired rfl found (fun other _ => Leaves.refl registry other)
    (fun _ lives => lives) fits

theorem CallFits.of_pools (fits : registry.CallFits hash index call)
    (sets : next.sets = registry.sets) (tunnels : next.tunnels = registry.tunnels)
    (live : call.active = true → registry.live call.pool = true → next.live call.pool = true) :
    next.CallFits hash index call := by
  refine fits.mono ⟨?_, ?_, ?_, ?_⟩ live
  · intro set info there
    rw [sets, there]
  · intro place holds
    rw [Holds, sets]
    exact holds
  · intro place _ ended
    rw [Ended, sets]
    simp only [alive, tunnels]
    exact ended
  · intro tunnel found there
    exact ⟨found, tunnels ▸ there, rfl, rfl⟩

/-! ## Entering the registry -/

/-- The sets of live pools, under their addresses -/
def keptSets (registry : MuxRegistry) : FiniteMap ℕ ℕ :=
  registry.registry.retain fun key =>
    (registry.registry.lookup key).any fun set =>
      (setInfo registry.sets set).any fun info => registry.live info.1

theorem lookup_keptSets {address set : ℕ}
    (there : registry.keptSets.lookup address = some set) :
    registry.registry.lookup address = some set ∧
      ∃ info, setInfo registry.sets set = some info ∧ registry.live info.1 = true := by
  rw [keptSets, FiniteMap.lookup_retain] at there
  split at there
  · rename_i kept
    rw [there, Option.any_some, Option.any_eq_true] at kept
    rcases kept with ⟨info, at_set, live⟩
    exact ⟨there, info, at_set, live⟩
  · exact nomatch there

theorem Wiring.keptSets_of_live (wiring : registry.Wiring) {set address : ℕ} {info : ℕ × ℕ}
    (there : setInfo registry.sets set = some info) (live : registry.live info.1 = true)
    (known : registry.addressOf info.1 = some address) :
    registry.keptSets.lookup address = some set := by
  have found := wiring.known set info address there live known
  rw [keptSets, FiniteMap.lookup_retain, found, Option.any_some, there, Option.any_some,
    if_pos live]

theorem Wiring.retain (wiring : registry.Wiring) :
    Wiring { registry with registry := registry.keptSets } where
  registered := fun address set there => wiring.registered address set (lookup_keptSets there).1
  distinct := wiring.distinct
  known := fun _ _ _ there live known => wiring.keptSets_of_live there live known
  owners := wiring.owners
  owned := wiring.owned
  sized := wiring.sized
  made := wiring.made
  tunnels := wiring.tunnels

/-- The set which is found under the address of a live pool is the one of this pool. -/
theorem Wiring.info_of_kept (wiring : registry.Wiring) {pool address set : ℕ}
    (live : registry.live pool = true) (at_address : registry.addressOf pool = some address)
    (there : registry.keptSets.lookup address = some set) :
    ∃ size, setInfo registry.sets set = some (pool, size) := by
  rcases lookup_keptSets there with ⟨found, ⟨owner, size⟩, info, owner_live⟩
  rcases wiring.registered address set found with ⟨info', there', owner_address⟩
  rw [info, Option.some.injEq] at there'
  subst there'
  have same : owner = pool :=
    wiring.distinct owner pool owner_live live (owner_address.trans at_address.symm)
  exact ⟨size, same ▸ info⟩

theorem setInfo_new (sets : List MuxSet) (pool k : ℕ) :
    setInfo (sets ++ [MuxSet.new pool k]) sets.length = some (pool, max k 1) := by
  rw [setInfo, List.getElem?_concat_length, Option.map_some, MuxSet.new, List.length_replicate]

/-- A set of the list with a new one is there before, or the new one. -/
theorem setInfo_append_cases {sets : List MuxSet} {pool k set : ℕ} {info : ℕ × ℕ}
    (there : setInfo (sets ++ [MuxSet.new pool k]) set = some info) :
    setInfo sets set = some info ∨ set = sets.length ∧ info = (pool, max k 1) := by
  by_cases before : set < sets.length
  · left
    rwa [setInfo, List.getElem?_append_left before] at there
  · right
    have inside : set < sets.length + 1 := by
      rcases Option.map_eq_some_iff.mp there with ⟨found, at_set, _⟩
      simpa using (List.getElem?_eq_some_iff.mp at_set).1
    have last : set = sets.length := by omega
    subst last
    rw [setInfo_new, Option.some.injEq] at there
    exact ⟨rfl, there.symm⟩

theorem tunnel_append {sets : List MuxSet} {pool k tunnel : ℕ} {place : ℕ × ℕ}
    (there : (slotAt (sets ++ [MuxSet.new pool k]) place).bind MuxSlot.tunnel = some tunnel) :
    (slotAt sets place).bind MuxSlot.tunnel = some tunnel := by
  rcases Option.bind_eq_some_iff.mp there with ⟨slot, at_place, holds⟩
  rcases Option.bind_eq_some_iff.mp at_place with ⟨found, at_set, at_slot⟩
  by_cases before : place.1 < sets.length
  · rw [List.getElem?_append_left before] at at_set
    rw [slotAt, at_set, Option.bind_some, at_slot, Option.bind_some, holds]
  · -- the slots of a new set are empty
    rw [List.getElem?_append_right (Nat.not_lt.mp before), List.getElem?_singleton] at at_set
    split at at_set
    · rw [Option.some.injEq] at at_set
      subst at_set
      rw [MuxSet.new, List.getElem?_replicate] at at_slot
      split at at_slot
      · rw [Option.some.injEq] at at_slot
        subst at_slot
        exact nomatch holds
      · exact nomatch at_slot
    · exact nomatch at_set

theorem Wiring.addSet (wiring : registry.Wiring) {pool address : ℕ}
    (live : registry.live pool = true) (at_address : registry.addressOf pool = some address)
    (missing : registry.keptSets.lookup address = none) (k : ℕ) :
    Wiring { registry with
      registry := registry.keptSets.insert address registry.sets.length
      sets := registry.sets ++ [MuxSet.new pool k] } where
  registered := by
    intro other set there
    dsimp only at there ⊢
    by_cases same : other = address
    · subst same
      rw [AList.lookup_insert, Option.some.injEq] at there
      subst there
      exact ⟨_, setInfo_new registry.sets pool k, at_address⟩
    · rw [AList.lookup_insert_ne same] at there
      rcases wiring.registered other set (lookup_keptSets there).1 with ⟨info, info_there, known⟩
      exact ⟨info, setInfo_append info_there _, known⟩
  distinct := wiring.distinct
  known := by
    intro set info other there owner_live known
    dsimp only at there ⊢
    rcases setInfo_append_cases there with before | ⟨rfl, rfl⟩
    · have kept := wiring.keptSets_of_live before owner_live known
      have different : other ≠ address := by
        rintro rfl
        rw [missing] at kept
        exact nomatch kept
      rw [AList.lookup_insert_ne different]
      exact kept
    · have same : other = address := Option.some.inj (known.symm.trans at_address)
      rw [same, AList.lookup_insert]
  owners := by
    rw [List.map_append, List.nodup_append]
    refine ⟨wiring.owners, List.nodup_singleton _, ?_⟩
    intro owner member other new same
    rw [List.map_singleton, List.mem_singleton] at new
    rcases List.mem_iff_getElem?.mp member with ⟨set, found⟩
    rw [List.getElem?_map] at found
    rcases Option.map_eq_some_iff.mp found with ⟨there, at_set, rfl⟩
    have info : setInfo registry.sets set = some (pool, there.slots.length) := by
      rw [setInfo, at_set, Option.map_some, same, new]
      rfl
    have kept := wiring.keptSets_of_live info live at_address
    rw [missing] at kept
    exact nomatch kept
  owned := by
    intro set info there
    rcases setInfo_append_cases there with before | ⟨_, rfl⟩
    · exact wiring.owned set info before
    · exact ⟨address, at_address⟩
  sized := by
    intro set info there
    rcases setInfo_append_cases there with before | ⟨_, rfl⟩
    · exact wiring.sized set info before
    · exact Nat.le_max_right k 1
  made := fun place tunnel there => wiring.made place tunnel (tunnel_append there)
  tunnels := by
    intro index tunnel there
    rcases wiring.tunnels index tunnel there with ⟨⟨size, info, inside⟩, slot⟩
    refine ⟨⟨size, setInfo_append info _, inside⟩, ?_⟩
    intro alive
    rcases Option.bind_eq_some_iff.mp (slot alive) with ⟨found, at_place, holds⟩
    dsimp only
    rw [slotAt_append at_place, Option.bind_some, holds]

theorem leaves_addSet (registry : MuxRegistry) (registered : FiniteMap ℕ ℕ) (pool k other : ℕ) :
    Leaves registry { registry with
      registry := registered
      sets := registry.sets ++ [MuxSet.new pool k] } other where
  info := fun _ _ there => setInfo_append there _
  holds := by
    intro place holds
    rcases Option.bind_eq_some_iff.mp holds with ⟨slot, at_place, held⟩
    rw [Holds]
    dsimp only
    rw [slotAt_append at_place, Option.bind_some, held]
  ended := fun _ _ ended tunnel there => ended tunnel (tunnel_append there)
  tunnels := fun _ found there => ⟨found, there, rfl, rfl⟩

theorem Wired.enter (wired : registry.Wired hash) (found : registry.calls[index]? = some call)
    (live : registry.live call.pool = true) {address : ℕ}
    (at_address : registry.addressOf call.pool = some address) :
    (registry.enter index call.pool address).Wired hash := by
  rw [MuxRegistry.enter, ← keptSets]
  split
  · rename_i set there
    rcases wired.toWiring.info_of_kept live at_address there with ⟨size, info⟩
    have retained : Wired { registry with registry := registry.keptSets } hash :=
      ⟨wired.toWiring.retain, fun index call there =>
        (wired.calls index call there).of_pools rfl rfl fun _ lives => lives⟩
    apply retained.setPhase found
    exact ⟨live, .of_info info⟩
  · rename_i missing
    refine (wired.toWiring.addSet live at_address missing _).of_calls wired rfl found
      (fun other _ => leaves_addSet registry _ _ _ other) (fun _ lives => lives) ?_
    exact ⟨live, .of_info (setInfo_new registry.sets call.pool registry.udpMuxTunnels)⟩

/-! ## In a slot -/

theorem HasPlace.inside (wiring : registry.Wiring) {place : ℕ × ℕ}
    (there : registry.HasPlace hash call place) :
    ∃ size, setInfo registry.sets place.1 = some (call.pool, size) ∧ place.2 < size := by
  rcases there with ⟨size, info, slot⟩
  refine ⟨size, info, ?_⟩
  rw [slot]
  exact slotIndex_lt hash call.key (wiring.sized _ _ info)

theorem holds_withHolder {place : ℕ × ℕ} {slot : MuxSlot}
    (there : slotAt registry.sets place = some slot) (index : ℕ) :
    Holds { registry with sets := modifySlot registry.sets place (.withHolder (some index)) }
      index place := by
  rw [Holds]
  dsimp only
  rw [slotAt_modifySlot_self, there]
  rfl

theorem HasPlace.withHolder {place held : ℕ × ℕ} (there : registry.HasPlace hash call place)
    (holder : Option ℕ) :
    HasPlace { registry with sets := modifySlot registry.sets held (.withHolder holder) }
      hash call place := by
  apply there.mono
  intro set info at_set
  rw [setInfo_modifySlot, at_set]

theorem placeOf_withHolder (registry : MuxRegistry) (hash : FlowKey → ℕ) (key : FlowKey)
    (set : ℕ) (held : ℕ × ℕ) (holder : Option ℕ) :
    placeOf { registry with sets := modifySlot registry.sets held (.withHolder holder) }
      hash key set = registry.placeOf hash key set := by
  rw [placeOf, placeOf]
  dsimp only
  rw [setInfo_modifySlot]

theorem Wired.lock (wired : registry.Wired hash) {set : ℕ}
    (found : registry.calls[index]? = some call) (live : registry.live call.pool = true)
    (place : registry.HasPlace hash call (registry.placeOf hash call.key set)) {slot : MuxSlot}
    (there : slotAt registry.sets (registry.placeOf hash call.key set) = some slot)
    (free : slot.holder = none) :
    ({ registry with
      sets := modifySlot registry.sets (registry.placeOf hash call.key set)
        (.withHolder (some index)) }.setPhase index (.checking set)).Wired hash := by
  refine (wired.toWiring.withHolder _ _).of_calls wired rfl found ?_ (fun _ lives => lives) ?_
  · intro other _
    apply leaves_withHolder
    intro holds
    rw [Holds, there, Option.bind_some, free] at holds
    exact nomatch holds
  · refine ⟨live, ?_⟩
    dsimp only
    rw [placeOf_withHolder]
    exact ⟨place.withHolder _, holds_withHolder there index⟩

theorem Wired.advance (wired : registry.Wired hash) (found : registry.calls[index]? = some call) :
    (registry.advance hash index call).Wired hash := by
  have fits := wired.calls index call found
  rw [MuxRegistry.advance]
  cases phase : call.phase with
  | start =>
      simp only [CallFits, phase] at fits
      cases at_pool : registry.pools[call.pool]? with
      | none => exact wired
      | some pool =>
          apply wired.enter found fits
          rw [addressOf, at_pool, Option.map_some]
  | locking set =>
      simp only [CallFits, phase] at fits
      rcases fits with ⟨live, place⟩
      rcases place.inside wired.toWiring with ⟨size, info, inside⟩
      rcases slotAt_isSome info inside with ⟨slot, there⟩
      have here : setInfo registry.sets set = some (call.pool, size) := info
      dsimp only
      rw [here, Option.any_some, if_pos live, there, Option.any_some]
      split
      · rename_i free
        exact wired.lock found live place there (of_decide_eq_true free)
      · exact wired
  | checking set =>
      simp only [CallFits, phase] at fits
      rcases fits with ⟨live, place, holds⟩
      dsimp only
      split
      · rename_i tunnel there
        rw [Option.filter_eq_some_iff] at there
        rcases there with ⟨at_place, alive⟩
        rcases wired.made _ tunnel at_place with ⟨shared, at_tunnel, same⟩
        rcases wired.tunnels tunnel shared at_tunnel with ⟨⟨size, info, _⟩, _⟩
        have owner : shared.pool = call.pool := by
          rcases place with ⟨_, same_info, _⟩
          rw [same, same_info, Option.some.injEq, Prod.mk.injEq] at info
          exact info.1.symm
        apply wired.unlock found holds
        refine ⟨shared, at_tunnel, owner, ?_⟩
        rw [same]
        exact place.withHolder none
      · rename_i nothing
        apply wired.setPhase found
        refine ⟨live, place, holds, ?_⟩
        intro tunnel there
        rw [there, Option.filter_eq_none_iff] at nothing
        simpa using nothing tunnel rfl
  | creating set => exact wired
  | got tunnel => exact wired
  | failed => exact wired
  | released => exact wired

theorem setInfo_modifySlots (place : ℕ × ℕ) (tunnel set : ℕ) :
    setInfo (modifySlot registry.sets place fun slot => { slot with tunnel := some tunnel }) set =
      setInfo registry.sets set :=
  setInfo_modifySlot _ _ _ _

theorem fill_tunnel_of_ne {pool : ℕ} {place other : ℕ × ℕ} (different : other ≠ place) :
    slotAt (registry.fill pool place).sets other = slotAt registry.sets other :=
  slotAt_modifySlot_of_ne different

theorem fill_tunnel_self {pool : ℕ} {place : ℕ × ℕ} {slot : MuxSlot}
    (there : slotAt registry.sets place = some slot) :
    (slotAt (registry.fill pool place).sets place).bind MuxSlot.tunnel =
      some registry.tunnels.length := by
  rw [fill]
  dsimp only
  rw [slotAt_modifySlot_self, there]
  rfl

theorem fill_alive {pool : ℕ} {place : ℕ × ℕ} {tunnel : ℕ} {shared : SharedTunnel}
    (there : registry.tunnels[tunnel]? = some shared) :
    (registry.fill pool place).alive tunnel = registry.alive tunnel := by
  rw [MuxRegistry.alive, fill]
  dsimp only
  rw [getElem?_append_of_some there, MuxRegistry.alive, there]

theorem Wiring.fill (wiring : registry.Wiring) {pool size : ℕ} {place : ℕ × ℕ}
    (info : setInfo registry.sets place.1 = some (pool, size)) (inside : place.2 < size)
    (ended : registry.Ended place) : (registry.fill pool place).Wiring := by
  have same_info : ∀ set, setInfo (registry.fill pool place).sets set =
      setInfo registry.sets set := setInfo_modifySlot registry.sets place _
  rcases slotAt_isSome info inside with ⟨slot, at_place⟩
  refine ⟨?_, wiring.distinct, ?_, ?_, ?_, ?_, ?_, ?_⟩
  · intro address set there
    rw [same_info]
    exact wiring.registered address set there
  · intro set other address there
    rw [same_info] at there
    exact wiring.known set other address there
  · rw [MuxRegistry.fill, owners_modifySlot]
    exact wiring.owners
  · intro set other there
    rw [same_info] at there
    exact wiring.owned set other there
  · intro set other there
    rw [same_info] at there
    exact wiring.sized set other there
  · intro other tunnel there
    by_cases here : other = place
    · subst here
      rw [fill_tunnel_self at_place, Option.some.injEq] at there
      subst there
      exact ⟨_, List.getElem?_concat_length .., rfl⟩
    · rw [fill_tunnel_of_ne here] at there
      rcases wiring.made other tunnel there with ⟨shared, at_tunnel, same⟩
      exact ⟨shared, getElem?_append_of_some at_tunnel _, same⟩
  · intro index tunnel there
    by_cases before : index < registry.tunnels.length
    · have old : registry.tunnels[index]? = some tunnel := by
        rwa [MuxRegistry.fill, List.getElem?_append_left before] at there
      rcases wiring.tunnels index tunnel old with ⟨⟨oldSize, oldInfo, oldInside⟩, slot⟩
      refine ⟨⟨oldSize, (same_info _).trans oldInfo, oldInside⟩, ?_⟩
      intro alive
      have different : tunnel.place ≠ place := by
        intro same
        have at_slot := slot alive
        rw [same] at at_slot
        have gone := ended index at_slot
        rw [MuxRegistry.alive, old, Option.any_some, alive] at gone
        exact nomatch gone
      rw [fill_tunnel_of_ne different]
      exact slot alive
    · have last : index = registry.tunnels.length := by
        have inside := (List.getElem?_eq_some_iff.mp there).1
        rw [MuxRegistry.fill, List.length_append, List.length_singleton] at inside
        omega
      subst last
      rw [MuxRegistry.fill, List.getElem?_concat_length, Option.some.injEq] at there
      subst there
      exact ⟨⟨size, (same_info _).trans info, inside⟩, fun _ => fill_tunnel_self at_place⟩

theorem leaves_fill (wiring : registry.Wiring) {pool other : ℕ} {place : ℕ × ℕ}
    (elsewhere : ¬registry.Holds other place) :
    Leaves registry (registry.fill pool place) other where
  info := by
    intro set info there
    rw [fill, setInfo_modifySlots, there]
  holds := by
    intro held holds
    have different : held ≠ place := by
      rintro rfl
      exact elsewhere holds
    rw [Holds, fill_tunnel_of_ne different]
    exact holds
  ended := by
    intro held holds ended tunnel there
    have different : held ≠ place := by
      rintro rfl
      exact elsewhere holds
    rw [fill_tunnel_of_ne different] at there
    rcases wiring.made held tunnel there with ⟨shared, at_tunnel, _⟩
    rw [fill_alive at_tunnel]
    exact ended tunnel there
  tunnels := fun tunnel found there =>
    ⟨found, getElem?_append_of_some there _, rfl, rfl⟩

theorem fill_holds {pool : ℕ} {place : ℕ × ℕ} (holds : registry.Holds index place) :
    (registry.fill pool place).Holds index place := by
  rcases Option.bind_eq_some_iff.mp holds with ⟨slot, at_place, held⟩
  rw [Holds, fill]
  dsimp only
  rw [slotAt_modifySlot_self, at_place]
  exact held

theorem Leaves.trans {mid : MuxRegistry} (first : Leaves registry mid index)
    (second : Leaves mid next index) : Leaves registry next index where
  info := fun set info there => second.info set info (first.info set info there)
  holds := fun place holds => second.holds place (first.holds place holds)
  ended := fun place holds ended =>
    second.ended place (first.holds place holds) (first.ended place holds ended)
  tunnels := by
    intro tunnel found there
    rcases first.tunnels tunnel found there with ⟨mid, at_mid, pool, place⟩
    rcases second.tunnels tunnel mid at_mid with ⟨after, at_next, samePool, samePlace⟩
    exact ⟨after, at_next, samePool.trans pool, samePlace.trans place⟩

theorem Wired.created (wired : registry.Wired hash) (found : registry.calls[index]? = some call)
    (succeeds : Bool) : (registry.created hash index call succeeds).Wired hash := by
  have fits := wired.calls index call found
  rw [MuxRegistry.created]
  cases phase : call.phase with
  | creating set =>
      simp only [CallFits, phase] at fits
      rcases fits with ⟨_, place, holds, ended⟩
      rcases place.inside wired.toWiring with ⟨size, info, inside⟩
      have here : setInfo registry.sets set = some (call.pool, size) := info
      dsimp only
      rw [here]
      cases succeeds with
      | false => exact wired.unlock found holds trivial
      | true =>
          have filled := wired.toWiring.fill info inside ended
          refine (filled.withHolder _ none).of_calls wired rfl found ?_ (fun _ lives => lives) ?_
          · intro other different
            have elsewhere : ¬registry.Holds other _ := fun also => different (holds.unique also)
            apply (leaves_fill wired.toWiring elsewhere).trans
            apply leaves_withHolder
            intro also
            exact different ((fill_holds holds).unique also)
          · refine ⟨_, List.getElem?_concat_length .., rfl, ?_⟩
            apply HasPlace.withHolder
            apply place.mono
            intro other info at_set
            rw [fill, setInfo_modifySlots, at_set]
  | start => exact wired
  | locking set => exact wired
  | checking set => exact wired
  | got tunnel => exact wired
  | failed => exact wired
  | released => exact wired

theorem Wired.drop (wired : registry.Wired hash) (found : registry.calls[index]? = some call) :
    (registry.drop hash index call).Wired hash := by
  have fits := wired.calls index call found
  rw [MuxRegistry.drop]
  cases phase : call.phase with
  | start => exact wired.setPhase found trivial
  | locking set => exact wired.setPhase found trivial
  | checking set => exact wired
  | creating set =>
      simp only [CallFits, phase] at fits
      exact wired.unlock found fits.2.2.1 trivial
  | got tunnel => exact wired
  | failed => exact wired
  | released => exact wired

/-! ## Pools and tunnels come and go -/

/-- A pool which is live after one more has come was so before, or is the new one. -/
theorem live_append {address pool : ℕ}
    (live :
      live { registry with pools := registry.pools ++ [PoolRef.mk address true] } pool = true) :
    registry.live pool = true ∨ pool = registry.pools.length := by
  rw [MuxRegistry.live] at live ⊢
  dsimp only at live
  by_cases before : pool < registry.pools.length
  · left
    rwa [List.getElem?_append_left before] at live
  · right
    rw [List.getElem?_append_right (Nat.not_lt.mp before), List.getElem?_singleton] at live
    split at live
    · omega
    · exact nomatch live

theorem addressOf_append {pool known : ℕ} (there : registry.addressOf pool = some known)
    (more : List PoolRef) :
    addressOf { registry with pools := registry.pools ++ more } pool = some known := by
  rcases Option.map_eq_some_iff.mp there with ⟨ref, at_pool, rfl⟩
  rw [addressOf]
  dsimp only
  rw [getElem?_append_of_some at_pool]
  rfl

theorem live_of_append {pool : ℕ} (there : registry.live pool = true) (more : List PoolRef) :
    live { registry with pools := registry.pools ++ more } pool = true := by
  rw [MuxRegistry.live, Option.any_eq_true] at there
  rcases there with ⟨ref, at_pool, lives⟩
  rw [MuxRegistry.live]
  dsimp only
  rw [getElem?_append_of_some at_pool]
  exact lives

theorem addressOf_of_live {pool : ℕ} (there : registry.live pool = true) :
    ∃ ref, registry.pools[pool]? = some ref ∧ ref.live = true ∧
      registry.addressOf pool = some ref.address := by
  rw [MuxRegistry.live, Option.any_eq_true] at there
  rcases there with ⟨ref, at_pool, lives⟩
  refine ⟨ref, at_pool, lives, ?_⟩
  rw [addressOf, at_pool, Option.map_some]

theorem addressOf_new (registry : MuxRegistry) (address : ℕ) :
    addressOf { registry with pools := registry.pools ++ [PoolRef.mk address true] }
      registry.pools.length = some address := by
  rw [addressOf]
  dsimp only
  rw [List.getElem?_concat_length]
  rfl

/-- No live pool is at an address which a new one gets. -/
theorem not_at_fresh {address pool : ℕ}
    (fresh : (registry.pools.any fun pool => pool.live && pool.address == address) = false)
    (live : registry.live pool = true) : registry.addressOf pool ≠ some address := by
  rcases addressOf_of_live live with ⟨ref, at_pool, lives, known⟩
  intro same
  rw [known, Option.some.injEq] at same
  rw [List.any_eq_false] at fresh
  apply fresh ref (List.mem_of_getElem? at_pool)
  simp [lives, same]

theorem Wired.newPool (wired : registry.Wired hash) {address : ℕ}
    (fresh : (registry.pools.any fun pool => pool.live && pool.address == address) = false) :
    Wired { registry with pools := registry.pools ++ [PoolRef.mk address true] } hash where
  registered := by
    intro known set there
    rcases wired.registered known set there with ⟨info, at_set, at_pool⟩
    exact ⟨info, at_set, addressOf_append at_pool _⟩
  distinct := by
    intro first second first_live second_live same
    rcases live_append first_live with first_before | rfl
    · rcases addressOf_of_live first_before with ⟨ref, _, _, known⟩
      rw [addressOf_append known] at same
      rcases live_append second_live with second_before | rfl
      · rcases addressOf_of_live second_before with ⟨other, _, _, other_known⟩
        rw [addressOf_append other_known] at same
        exact wired.distinct first second first_before second_before
          (known.trans (same.trans other_known.symm))
      · rw [addressOf_new] at same
        exact absurd (known.trans same) (not_at_fresh fresh first_before)
    · rcases live_append second_live with second_before | rfl
      · rcases addressOf_of_live second_before with ⟨other, _, _, other_known⟩
        rw [addressOf_append other_known, addressOf_new] at same
        exact absurd (other_known.trans same.symm) (not_at_fresh fresh second_before)
      · rfl
  known := by
    intro set info known there live at_address
    rcases wired.owned set info there with ⟨owner, at_owner⟩
    have same : known = owner := by
      rw [addressOf_append at_owner, Option.some.injEq] at at_address
      exact at_address.symm
    rw [same]
    rcases live_append live with before | new
    · exact wired.known set info owner there before at_owner
    · -- the new pool has no set yet
      rw [new, addressOf, List.getElem?_eq_none (Nat.le_refl _)] at at_owner
      exact nomatch at_owner
  owners := wired.owners
  owned := by
    intro set info there
    rcases wired.owned set info there with ⟨owner, at_owner⟩
    exact ⟨owner, addressOf_append at_owner _⟩
  sized := wired.sized
  made := wired.made
  tunnels := wired.tunnels
  calls := by
    intro index call there
    exact (wired.calls index call there).of_pools rfl rfl fun _ live => live_of_append live _

theorem getElem?_release (pools : List PoolRef) (pool other : ℕ) :
    (pools.modify pool fun ref => { ref with live := false })[other]? =
      pools[other]?.map fun ref => { ref with live := ref.live && !decide (pool = other) } := by
  rw [List.getElem?_modify]
  cases pools[other]? with
  | none => rfl
  | some ref =>
      by_cases same : pool = other <;> simp [same]

theorem Wired.releasePool (wired : registry.Wired hash) {pool : ℕ}
    (unused : (registry.calls.any fun call => call.active && call.pool == pool) = false) :
    Wired { registry with
      pools := registry.pools.modify pool fun ref => { ref with live := false } } hash := by
  have lives : ∀ other, live { registry with
      pools := registry.pools.modify pool fun ref => { ref with live := false } } other = true ↔
        registry.live other = true ∧ pool ≠ other := by
    intro other
    simp only [live, getElem?_release]
    cases registry.pools[other]? <;> simp
  have addresses : ∀ other, addressOf { registry with
      pools := registry.pools.modify pool fun ref => { ref with live := false } } other =
        registry.addressOf other := by
    intro other
    simp only [addressOf, getElem?_release]
    cases registry.pools[other]? <;> simp
  refine ⟨⟨?_, ?_, ?_, wired.owners, ?_, wired.sized, wired.made, wired.tunnels⟩, ?_⟩
  · intro address set there
    rcases wired.registered address set there with ⟨info, at_set, known⟩
    exact ⟨info, at_set, (addresses _).trans known⟩
  · intro first second first_live second_live same
    rw [addresses, addresses] at same
    exact wired.distinct first second ((lives first).mp first_live).1
      ((lives second).mp second_live).1 same
  · intro set info address there live known
    rw [addresses] at known
    exact wired.known set info address there ((lives _).mp live).1 known
  · intro set info there
    rcases wired.owned set info there with ⟨address, known⟩
    exact ⟨address, (addresses _).trans known⟩
  · intro index call there
    refine CallFits.of_pools (wired.calls index call there) ?_ ?_ ?_
    · rfl
    · rfl
    intro active live
    apply (lives _).mpr
    refine ⟨live, ?_⟩
    intro same
    rw [List.any_eq_false] at unused
    apply unused call (List.mem_of_getElem? there)
    simp [active, same]

theorem getElem?_tunnelEnds (tunnels : List SharedTunnel) (tunnel other : ℕ) :
    (tunnels.modify tunnel fun ended => { ended with alive := false })[other]? =
      tunnels[other]?.map fun shared =>
        { shared with alive := shared.alive && !decide (tunnel = other) } := by
  rw [List.getElem?_modify]
  cases tunnels[other]? with
  | none => rfl
  | some shared =>
      by_cases same : tunnel = other <;> simp [same]

theorem Wired.tunnelEnds (wired : registry.Wired hash) (tunnel : ℕ) :
    Wired { registry with
      tunnels := registry.tunnels.modify tunnel fun ended => { ended with alive := false } }
      hash := by
  refine ⟨⟨wired.registered, wired.distinct, wired.known, wired.owners, wired.owned, wired.sized,
    ?_, ?_⟩, ?_⟩
  · intro place other there
    rcases wired.made place other there with ⟨shared, at_tunnel, same⟩
    refine ⟨{ shared with alive := shared.alive && !decide (tunnel = other) }, ?_, same⟩
    rw [getElem?_tunnelEnds, at_tunnel]
    rfl
  · intro index after there
    rw [getElem?_tunnelEnds] at there
    rcases Option.map_eq_some_iff.mp there with ⟨before, at_tunnel, rfl⟩
    rcases wired.tunnels index before at_tunnel with ⟨info, slot⟩
    refine ⟨info, ?_⟩
    intro alive
    exact slot (Bool.and_eq_true_iff.mp alive).1
  · intro index call there
    refine CallFits.mono (wired.calls index call there) ?_ fun _ live => live
    refine ⟨fun _ _ there => there, fun _ holds => holds, ?_, ?_⟩
    · intro place _ ended other at_place
      have gone := ended other at_place
      simp only [alive, getElem?_tunnelEnds] at gone ⊢
      cases at_tunnel : registry.tunnels[other]? with
      | none => rfl
      | some shared =>
          rw [at_tunnel, Option.any_some] at gone
          simp [gone]
    · intro other found at_tunnel
      refine ⟨{ found with alive := found.alive && !decide (tunnel = other) }, ?_, rfl, rfl⟩
      rw [getElem?_tunnelEnds, at_tunnel]
      rfl

theorem Wired.step (wired : registry.Wired hash) (event : RegistryEvent) :
    (registry.step hash event).Wired hash := by
  cases event with
  | newPool address =>
      rw [MuxRegistry.step]
      split
      · exact wired
      · rename_i fresh
        exact wired.newPool (Bool.not_eq_true _ ▸ fresh)
  | releasePool pool =>
      rw [MuxRegistry.step]
      split
      · exact wired
      · rename_i unused
        exact wired.releasePool (Bool.not_eq_true _ ▸ unused)
  | setUdpMux tunnels =>
      exact ⟨⟨wired.registered, wired.distinct, wired.known, wired.owners, wired.owned, wired.sized,
        wired.made, wired.tunnels⟩, wired.calls⟩
  | call pool key =>
      rw [MuxRegistry.step]
      split
      · rename_i live
        refine ⟨⟨wired.registered, wired.distinct, wired.known, wired.owners, wired.owned,
          wired.sized, wired.made, wired.tunnels⟩, ?_⟩
        intro index call there
        by_cases before : index < registry.calls.length
        · rw [List.getElem?_append_left before] at there
          exact wired.calls index call there
        · rw [List.getElem?_append_right (Nat.not_lt.mp before), List.getElem?_singleton] at there
          split at there
          · rw [Option.some.injEq] at there
            subst there
            exact live
          · exact nomatch there
      · exact wired
  | advance index =>
      rw [MuxRegistry.step]
      cases found : registry.calls[index]? with
      | none => exact wired
      | some call => exact wired.advance found
  | created index succeeds =>
      rw [MuxRegistry.step]
      cases found : registry.calls[index]? with
      | none => exact wired
      | some call => exact wired.created found succeeds
  | drop index =>
      rw [MuxRegistry.step]
      cases found : registry.calls[index]? with
      | none => exact wired
      | some call => exact wired.drop found
  | tunnelEnds tunnel => exact wired.tunnelEnds tunnel

/-- What holds in every state of a run -/
theorem wired_run (hash : FlowKey → ℕ) (events : List RegistryEvent) :
    (run (step hash) .new events).Wired hash :=
  @run_invariant _ _ (step hash) (fun registry => registry.Wired hash) _ events
    (fun event wired => wired.step event) wired_new

theorem CallFits.got {tunnel : ℕ} (fits : registry.CallFits hash index call)
    (got : call.phase = .got tunnel) :
    ∃ found, registry.tunnels[tunnel]? = some found ∧ found.pool = call.pool ∧
      registry.HasPlace hash call found.place := by
  simpa only [CallFits, got] using fits

/-- A tunnel which is alive is the one in its slot. -/
theorem Wiring.tunnel_at (wiring : registry.Wiring) {tunnel : ℕ} {shared : SharedTunnel}
    (there : registry.tunnels[tunnel]? = some shared) (alive : registry.alive tunnel = true) :
    (slotAt registry.sets shared.place).bind MuxSlot.tunnel = some tunnel := by
  rw [MuxRegistry.alive, there, Option.any_some] at alive
  exact (wiring.tunnels tunnel shared there).2 alive

/-- Two calls of one flow and one pool have the same place. -/
theorem Wiring.place_unique (wiring : registry.Wiring) {other : LeaseCall} {place second : ℕ × ℕ}
    (pool : call.pool = other.pool) (key : call.key = other.key)
    (first : registry.HasPlace hash call place) (also : registry.HasPlace hash other second) :
    place = second := by
  rcases first with ⟨size, info, slot⟩
  rcases also with ⟨otherSize, otherInfo, otherSlot⟩
  rw [← pool] at otherInfo
  have same : place.1 = second.1 := set_of_owner wiring.owners info otherInfo
  rw [← same, info, Option.some.injEq, Prod.mk.injEq] at otherInfo
  apply Prod.ext same
  rw [slot, otherSlot, key, otherInfo.2]

/-- The tunnels of a pool which are alive are in the slots of its set. -/
theorem Wiring.countP_alive_le (wiring : registry.Wiring) {set : MuxSet}
    (member : set ∈ registry.sets) :
    (registry.tunnels.countP fun shared => shared.alive && shared.pool == set.pool) ≤
      set.slots.length := by
  rcases List.mem_iff_getElem?.mp member with ⟨index, at_set⟩
  have info : setInfo registry.sets index = some (set.pool, set.slots.length) := by
    rw [setInfo, at_set, Option.map_some]
  apply Nat.le_trans _ (List.length_filterMap_le MuxSlot.tunnel set.slots)
  apply countP_le_length
  intro tunnel shared there passes
  rw [Bool.and_eq_true, beq_iff_eq] at passes
  rcases wiring.tunnels tunnel shared there with ⟨⟨size, at_place, _⟩, slot⟩
  rw [passes.2] at at_place
  have same : shared.place.1 = index := set_of_owner wiring.owners at_place info
  rcases Option.bind_eq_some_iff.mp (slot passes.1) with ⟨found, at_slot, holds⟩
  rw [slotAt, same, at_set, Option.bind_some] at at_slot
  exact List.mem_filterMap.mpr ⟨found, List.mem_of_getElem? at_slot, holds⟩

end MuxRegistry

/--
In every interleaving of the calls, the pools and the pumps: a call gets a tunnel of the pool
it is made with, and it always finds that pool; two calls for one flow of a pool share a
tunnel as long as both of theirs are alive; and a pool has at most as many live tunnels as
its set has slots.
-/
theorem mux_tunnels_shared (hash : FlowKey → ℕ) (events : List RegistryEvent) :
    let registry := run (MuxRegistry.step hash) .new events
    (∀ call ∈ registry.calls, ∀ tunnel, call.phase = .got tunnel →
      registry.tunnels[tunnel]?.map SharedTunnel.pool = some call.pool) ∧
    (∀ call ∈ registry.calls, call.phase ≠ .released) ∧
    (∀ call ∈ registry.calls, ∀ other ∈ registry.calls, ∀ tunnel second,
      call.pool = other.pool → call.key = other.key →
        call.phase = .got tunnel → other.phase = .got second →
        registry.alive tunnel = true → registry.alive second = true → tunnel = second) ∧
    ∀ set ∈ registry.sets,
      (registry.tunnels.countP fun shared => shared.alive && shared.pool == set.pool) ≤
        set.slots.length := by
  intro registry
  have wired : registry.Wired hash := MuxRegistry.wired_run hash events
  refine ⟨?_, ?_, ?_, fun set member => wired.toWiring.countP_alive_le member⟩
  · intro call member tunnel got
    rcases List.mem_iff_getElem?.mp member with ⟨index, there⟩
    rcases (wired.calls index call there).got got with ⟨found, at_tunnel, pool, _⟩
    rw [at_tunnel, Option.map_some, pool]
  · intro call member released
    rcases List.mem_iff_getElem?.mp member with ⟨index, there⟩
    have fits := wired.calls index call there
    simp only [MuxRegistry.CallFits, released] at fits
  · intro call member other otherMember tunnel second pool key got otherGot alive otherAlive
    rcases List.mem_iff_getElem?.mp member with ⟨index, there⟩
    rcases List.mem_iff_getElem?.mp otherMember with ⟨otherIndex, otherThere⟩
    rcases (wired.calls index call there).got got with ⟨found, at_tunnel, _, place⟩
    rcases (wired.calls otherIndex other otherThere).got otherGot with
      ⟨otherFound, at_second, _, otherPlace⟩
    have same := wired.toWiring.place_unique pool key place otherPlace
    have first := wired.toWiring.tunnel_at at_tunnel alive
    have also := wired.toWiring.tunnel_at at_second otherAlive
    rw [← same, first, Option.some.injEq] at also
    exact also

end Mirage.Proxy
