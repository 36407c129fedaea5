import Mirage.Foundations.MutualMaps
import Mirage.Tun.Sockets.Handles

/-!
# What the sweep removes

`sweep` goes by the state of a socket and by its age in `created_at`.  The keys of
`created_at` are always the handles of the set.  A socket whose relay has ended is removed
unless it waits in LAST-ACK, which `sweep` does not list; and a socket in FIN-WAIT or CLOSING,
or one which still listens, is removed by its age although its relay lives.
-/

namespace Mirage.Tun

open Mirage.Foundations

/-- The states into which `close` brings a socket, and those after them. -/
def TcpState.afterClose : TcpState → Bool
  | .listen | .synReceived | .established | .closeWait => false
  | _ => true

namespace TcpSocket

/-- A listening socket has no connection. -/
def Unbound (socket : TcpSocket) : Prop :=
  socket.state = .listen → socket.tuple = none

theorem close_afterClose (socket : TcpSocket) : socket.close.state.afterClose = true := by
  cases state : socket.state <;> simp [close, state, setState, TcpState.afterClose]

theorem unbound_of_afterClose {socket : TcpSocket} (closed : socket.state.afterClose = true) :
    socket.Unbound := by
  intro listens
  rw [listens] at closed
  cases closed

theorem process_afterClose {socket : TcpSocket} (segment : Segment)
    (closed : socket.state.afterClose = true) :
    (socket.process segment).state.afterClose = true := by
  rcases segment with ⟨src, dst, _ | ⟨payload, _ | _⟩ | ⟨payload, _ | _⟩ | _⟩
  all_goals
    cases state : socket.state <;>
      simp_all [process, setState, receive, abort, TcpState.afterClose]

theorem process_unbound {socket : TcpSocket} (segment : Segment) (unbound : socket.Unbound) :
    (socket.process segment).Unbound := by
  rcases segment with ⟨src, dst, _ | ⟨payload, _ | _⟩ | ⟨payload, _ | _⟩ | _⟩
  all_goals
    cases state : socket.state <;>
      simp_all [Unbound, process, setState, receive, abort, complete]

end TcpSocket

/-- The relay has closed its stream, or it has ended. -/
def Relay.done (relay : Relay) : Bool :=
  !relay.alive || !relay.held

@[simp]
theorem Relay.wokenBy_done (relay : Relay) (index : ℕ) (old new : TcpSocket) :
    (relay.wokenBy index old new).done = relay.done :=
  rfl

namespace TunInner

variable {inner : TunInner} {index : ℕ} {relay : Relay}

/--
A socket is the one of its relay; if the relay has closed it, or has ended, it is on its
way to CLOSED, and while it listens it has no connection.
-/
structure Retiring (inner : TunInner) : Prop where
  unbound : ∀ handle slot, inner.sockets.get handle = some slot → slot.socket.Unbound
  owned : ∀ handle slot, inner.sockets.get handle = some slot →
    ∃ relay, inner.relays[slot.owner]? = some relay ∧ relay.handle = handle ∧
      (relay.done = true → slot.socket.state.afterClose = true)

/-- A use of a socket which keeps this, whatever the relay. -/
structure Retires (relay : Relay) (use : SocketUse) : Prop where
  unbound : ∀ socket, socket.Unbound → (use socket relay).1.Unbound
  closed : ∀ socket, socket.state.afterClose = true →
    (use socket relay).1.state.afterClose = true
  handle : ∀ socket, (use socket relay).2.handle = relay.handle
  done : ∀ socket, (use socket relay).2.done = true →
    relay.done = true ∨ (use socket relay).1.state.afterClose = true

theorem retiring_initial : Retiring initial where
  unbound := by simp [initial, SlotTable.get, SlotTable.empty]
  owned := by simp [initial, SlotTable.get, SlotTable.empty]

theorem Retiring.prescan (retiring : inner.Retiring) (segment : Segment) :
    (inner.prescan segment).Retiring := by
  unfold TunInner.prescan
  split
  · exact retiring
  · dsimp only
    split
    · have cases_of : ∀ handle slot,
          (inner.sockets.insert ⟨.listening segment.dst, inner.now, inner.relays.length⟩).get
              handle = some slot →
            handle = inner.sockets.nextHandle ∧
                slot = ⟨.listening segment.dst, inner.now, inner.relays.length⟩ ∨
              inner.sockets.get handle = some slot := by
        intro handle slot found
        by_cases new : handle = inner.sockets.nextHandle
        · subst new
          rw [SlotTable.get_insert_nextHandle, Option.some.injEq] at found
          exact Or.inl ⟨rfl, found.symm⟩
        · rw [SlotTable.get_insert_of_ne _ new] at found
          exact Or.inr found
      constructor
      · intro handle slot found
        rcases cases_of handle slot found with ⟨_, rfl⟩ | before
        · exact fun _ => rfl
        · exact retiring.unbound handle slot before
      · intro handle slot found
        rcases cases_of handle slot found with ⟨rfl, rfl⟩ | before
        · exact ⟨_, List.getElem?_concat_length, rfl, fun done => by cases done⟩
        · rcases retiring.owned handle slot before with ⟨relay, there, rest⟩
          have inside := (List.getElem?_eq_some_iff.mp there).1
          exact ⟨relay, by rw [List.getElem?_append_left inside]; exact there, rest⟩
    · exact ⟨retiring.unbound, retiring.owned⟩

/-- The sockets change, each in a way which keeps it retiring, and relays are woken. -/
theorem Retiring.update (retiring : inner.Retiring) {handle : ℕ} {slot : SocketSlot}
    (present : inner.sockets.get handle = some slot) {socket : TcpSocket} {relays : List Relay}
    (unbound : socket.Unbound)
    (closed : slot.socket.state.afterClose = true → socket.state.afterClose = true)
    (same : ∀ (index : ℕ) (relay : Relay), inner.relays[index]? = some relay →
      ∃ after : Relay, relays[index]? = some after ∧ after.handle = relay.handle ∧
        (after.done = true → relay.done = true ∨
          relay.handle = handle ∧ socket.state.afterClose = true))
    {inbound : Option Segment} {accesses : List SocketAccess} :
    Retiring { inner with
      sockets := inner.sockets.update handle fun slot => { slot with socket }
      relays, inbound, accesses } := by
  constructor
  · intro other changed found
    rcases SlotTable.get_update_cases present found with ⟨_, rfl⟩ | ⟨_, before⟩
    · exact unbound
    · exact retiring.unbound other changed before
  · intro other changed found
    rcases SlotTable.get_update_cases present found with ⟨rfl, rfl⟩ | ⟨elsewhere, before⟩
    · rcases retiring.owned other slot present with ⟨relay, there, at_handle, done⟩
      rcases same slot.owner relay there with ⟨after, found_after, handle_eq, done_after⟩
      refine ⟨after, found_after, handle_eq.trans at_handle, ?_⟩
      intro now_done
      rcases done_after now_done with was_done | ⟨_, now_closed⟩
      · exact closed (done was_done)
      · exact now_closed
    · rcases retiring.owned other changed before with ⟨relay, there, at_handle, done⟩
      rcases same changed.owner relay there with ⟨after, found_after, handle_eq, done_after⟩
      refine ⟨after, found_after, handle_eq.trans at_handle, ?_⟩
      intro now_done
      rcases done_after now_done with was_done | ⟨here, _⟩
      · exact done was_done
      · exact absurd (at_handle.symm.trans here) elsewhere

theorem Retiring.poll (retiring : inner.Retiring) : inner.poll.Retiring := by
  unfold TunInner.poll
  split
  · exact retiring
  · dsimp only
    split
    · exact ⟨retiring.unbound, retiring.owned⟩
    · split
      · exact ⟨retiring.unbound, retiring.owned⟩
      · rename_i segment _ _ handle _ _ slot present
        apply retiring.update present
        · exact TcpSocket.process_unbound segment (retiring.unbound handle slot present)
        · exact TcpSocket.process_afterClose segment
        · intro index relay found
          exact ⟨relay.wokenBy index slot.socket (slot.socket.process segment),
            by rw [getElem?_wakeFrom, found, Option.map_some], rfl, Or.inl⟩

theorem Retiring.sweep (retiring : inner.Retiring) : inner.sweep.Retiring := by
  unfold TunInner.sweep
  split
  · exact retiring
  · constructor
    · intro handle slot found
      rw [SlotTable.get_retain, Option.filter_eq_some_iff] at found
      exact retiring.unbound handle slot found.1
    · intro handle slot found
      rw [SlotTable.get_retain, Option.filter_eq_some_iff] at found
      exact retiring.owned handle slot found.1

/-- A relay is replaced which has lost its socket, or which goes on being done. -/
theorem Retiring.set (retiring : inner.Retiring) (found : inner.relays[index]? = some relay)
    {next : Relay} (handle : next.handle = relay.handle)
    (kept : inner.sockets.get relay.handle = none ∨ relay.done = true) :
    Retiring { inner with relays := inner.relays.set index next } := by
  refine ⟨retiring.unbound, ?_⟩
  intro place slot present
  rcases retiring.owned place slot present with ⟨owner, there, at_handle, done⟩
  by_cases same : index = slot.owner
  · subst same
    obtain rfl : relay = owner := Option.some.inj (found.symm.trans there)
    have inside := (List.getElem?_eq_some_iff.mp found).1
    refine ⟨next, List.getElem?_set_self inside, handle.trans at_handle, ?_⟩
    intro _
    rcases kept with lost | was_done
    · rw [at_handle, present] at lost
      cases lost
    · exact done was_done
  · exact ⟨owner, by rw [← there]; exact List.getElem?_set_ne same, at_handle, done⟩

theorem Retiring.access (retiring : inner.Retiring) (found : inner.relays[index]? = some relay)
    {use : SocketUse} {gone : Relay → Relay} (retires : Retires relay use)
    (goneHandle : (gone relay).handle = relay.handle) :
    (inner.access index relay use gone).Retiring := by
  unfold TunInner.access
  split
  · rename_i lost
    exact retiring.set found goneHandle (Or.inl lost)
  · rename_i slot present
    have inside := (List.getElem?_eq_some_iff.mp found).1
    apply retiring.update present
    · exact retires.unbound _ (retiring.unbound relay.handle slot present)
    · exact retires.closed _
    · intro other current there
      by_cases same : index = other
      · subst same
        obtain rfl : relay = current := Option.some.inj (found.symm.trans there)
        refine ⟨(use slot.socket relay).2.wokenBy index slot.socket (use slot.socket relay).1,
          by rw [getElem?_wakeFrom, List.getElem?_set_self inside, Option.map_some],
          retires.handle slot.socket, ?_⟩
        intro done
        rcases retires.done slot.socket done with before | now
        · exact Or.inl before
        · exact Or.inr ⟨rfl, now⟩
      · exact ⟨current.wokenBy other slot.socket (use slot.socket relay).1,
          by rw [getElem?_wakeFrom, List.getElem?_set_ne same, there, Option.map_some], rfl, Or.inl⟩

/-- A use which leaves the state of the socket, and does not end the relay. -/
theorem retires_of_same {relay : Relay} {use : SocketUse}
    (state : ∀ socket, (use socket relay).1.state = socket.state)
    (tuple : ∀ socket, (use socket relay).1.tuple = socket.tuple)
    (handle : ∀ socket, (use socket relay).2.handle = relay.handle)
    (done : ∀ socket, (use socket relay).2.done = true → relay.done = true) :
    Retires relay use where
  unbound socket unbound := by
    intro listens
    rw [state] at listens
    rw [tuple, unbound listens]
  closed socket closed := by rw [state, closed]
  handle := handle
  done socket := fun now => Or.inl (done socket now)

theorem retires_close {relay : Relay} {use : SocketUse}
    (close : ∀ socket, (use socket relay).1 = socket.close)
    (handle : ∀ socket, (use socket relay).2.handle = relay.handle) : Retires relay use where
  unbound socket _ := by
    rw [close]
    exact TcpSocket.unbound_of_afterClose socket.close_afterClose
  closed socket _ := by rw [close, socket.close_afterClose]
  handle := handle
  done socket _ := Or.inr (by rw [close, socket.close_afterClose])

theorem Retiring.relayStep (retiring : inner.Retiring) {enabled : Relay → Bool} {use : SocketUse}
    {gone : Relay → Relay} (retires : ∀ relay, enabled relay = true → Retires relay use)
    (goneHandle : ∀ relay, (gone relay).handle = relay.handle) :
    (inner.relayStep index enabled use gone).Retiring := by
  unfold TunInner.relayStep
  split
  · exact retiring
  · rename_i relay found
    split
    · rename_i ready
      exact retiring.access found (retires relay ready) (goneHandle relay)
    · exact retiring

theorem Retiring.closeStep (retiring : inner.Retiring) {enabled : Relay → Bool}
    {next : Relay → Relay} (nextHandle : ∀ relay, (next relay).handle = relay.handle) :
    (inner.closeStep index enabled next).Retiring := by
  unfold TunInner.closeStep
  split
  · exact retiring
  · rename_i relay found
    split
    · split
      · exact retiring.access found (retires_close (fun _ => rfl) fun _ => nextHandle _)
          (nextHandle _)
      · rename_i closed
        have done : relay.done = true := by simp [Relay.done, closed]
        exact retiring.set found (nextHandle relay) (Or.inr done)
    · exact retiring

/-- A relay which goes on is done only if its stream was closed before. -/
theorem done_of_goesOn (relay next : Relay) (alive : next.alive = relay.alive)
    (goes : next.stage ≠ .ended) (done : next.done = true) : relay.done = true := by
  simp only [Relay.done, Relay.held, Bool.or_eq_true, Bool.not_eq_true', bne_eq_false_iff_eq]
    at done ⊢
  rcases done with closed | ended
  · exact Or.inl (alive ▸ closed)
  · exact absurd ended goes

theorem retires_pollEstablished (now index : ℕ) (relay : Relay) :
    Retires relay (Relay.pollEstablished now index) := by
  apply retires_of_same
  · intro socket
    simp only [Relay.pollEstablished]
    split <;> rfl
  · intro socket
    simp only [Relay.pollEstablished]
    split <;> rfl
  · exact fun socket => pollEstablished_handle now index socket relay
  · intro socket
    simp only [Relay.pollEstablished]
    split
    · refine done_of_goesOn relay _ rfl ?_
      dsimp only
      split <;> simp
    · exact done_of_goesOn relay _ rfl (by simp [Relay.fail])
    · exact done_of_goesOn relay _ rfl (by simp [Relay.fail])
    · simp only [Relay.pendEstablished]
      split
      · exact done_of_goesOn relay _ rfl (by simp [Relay.fail])
      · exact done_of_goesOn relay _ rfl (by simp)

theorem retires_askDestination (relay : Relay) : Retires relay Relay.askDestination := by
  apply retires_of_same
  · intro socket
    simp only [Relay.askDestination]
    split <;> rfl
  · intro socket
    simp only [Relay.askDestination]
    split <;> rfl
  · exact fun socket => askDestination_handle socket relay
  · intro socket
    simp only [Relay.askDestination]
    split
    · exact done_of_goesOn relay _ rfl (by simp)
    · exact done_of_goesOn relay _ rfl (by simp [Relay.fail])

theorem Retiring.step (retiring : inner.Retiring) (event : SocketEvent) :
    (inner.step event).Retiring := by
  cases event with
  | tick elapsed => exact ⟨retiring.unbound, retiring.owned⟩
  | prescan segment => exact retiring.prescan segment
  | poll => exact retiring.poll
  | sweep => exact retiring.sweep
  | waitEstablished index =>
      exact retiring.relayStep (fun relay _ => retires_pollEstablished _ _ relay) fun _ => rfl
  | destination index =>
      exact retiring.relayStep (fun relay _ => retires_askDestination relay) fun _ => rfl
  | source index =>
      exact retiring.relayStep (fun _ _ => retires_of_same (fun _ => rfl) (fun _ => rfl)
        (fun _ => rfl) fun _ => id) fun _ => rfl
  | read index room =>
      exact retiring.relayStep (fun _ _ => retires_of_same (fun _ => rfl) (fun _ => rfl)
        (fun _ => rfl) fun _ => id) fun _ => rfl
  | write index bytes =>
      refine retiring.relayStep (fun _ _ => retires_of_same ?_ ?_ (fun _ => rfl) fun _ => id)
        fun _ => rfl
      · intro socket
        simp only [Relay.writeSocket]
        split <;> rfl
      · intro socket
        simp only [Relay.writeSocket]
        split <;> rfl
  | shutdown index =>
      exact retiring.relayStep (fun _ _ => retires_close (fun _ => rfl) fun _ => rfl) fun _ => rfl
  | close index => exact retiring.closeStep fun _ => rfl
  | drop index => exact retiring.closeStep fun _ => rfl

end TunInner

/-- The sockets of the stack with `created_at`. -/
structure SocketTable where
  inner : TunInner
  createdAt : FiniteMap ℕ ℕ

/-- `prescan` makes a socket for the segment. -/
def TunInner.makesSocket (inner : TunInner) (segment : Segment) : Bool :=
  inner.inbound.isNone && decide (segment.control = .syn ∧ segment.dst.port ≠ 0 ∧
    segment.src.port ≠ 0 ∧ inner.tupleExists segment = false)

/-- The relay with this number has not ended. -/
def TunInner.serves (inner : TunInner) (index : ℕ) : Bool :=
  (inner.relays[index]?).any Relay.held

namespace SocketTable

def start : SocketTable :=
  ⟨.initial, ∅⟩

/-- A socket with its entry in `created_at`, or as a new one if it has none. -/
def dated (table : SocketTable) (handle : ℕ) (slot : SocketSlot) : SocketSlot :=
  { slot with createdAt := (table.createdAt.lookup handle).getD table.inner.now }

def stale (table : SocketTable) : List ℕ :=
  (List.range table.inner.sockets.slots.length).filter fun handle =>
    (table.inner.sockets.get handle).any fun slot =>
      (table.dated handle slot).stale table.inner.now

def sweep (table : SocketTable) : SocketTable :=
  if table.inner.inbound.isSome then table
  else
    { inner := { table.inner with sockets := table.inner.sockets.removeAll table.stale }
      createdAt := table.createdAt.retain (· ∉ table.stale) }

def step (table : SocketTable) : SocketEvent → SocketTable
  | .sweep => table.sweep
  | .prescan segment =>
      { inner := table.inner.prescan segment
        createdAt :=
          if table.inner.makesSocket segment then
            table.createdAt.insert table.inner.sockets.nextHandle table.inner.now
          else table.createdAt }
  | event => { table with inner := table.inner.step event }

/-- The keys of `created_at` are the handles of the set. -/
def KeysMatch (table : SocketTable) : Prop :=
  ∀ handle, handle ∈ table.createdAt ↔ (table.inner.sockets.get handle).isSome

/--
A sweep removes every socket which is older than its limits, is not established and has
lost its relay; and of the sockets with a relay only those whose connection is over.
-/
structure SweepsRightly (table : SocketTable) (event : SocketEvent) : Prop where
  noLeak : event = .sweep → table.inner.inbound = none → ∀ handle slot,
    table.inner.sockets.get handle = some slot → table.inner.serves slot.owner = false →
      slot.socket.state ≠ .established → 15000 ≤ table.inner.now - slot.createdAt →
        (table.step event).inner.sockets.get handle = none
  spares : event = .sweep → table.inner.inbound = none → ∀ handle slot,
    table.inner.sockets.get handle = some slot → table.inner.serves slot.owner = true →
      (table.step event).inner.sockets.get handle = none →
        slot.socket.state = .closed ∨ slot.socket.state = .timeWait

/--
No sweep meets an old socket in LAST-ACK whose relay has ended, nor one which listens or is
in FIN-WAIT or CLOSING and whose relay has not.
-/
def Sweepable (table : SocketTable) (event : SocketEvent) : Prop :=
  event = .sweep → table.inner.inbound = none → ∀ handle slot,
    table.inner.sockets.get handle = some slot → 15000 ≤ table.inner.now - slot.createdAt →
      if table.inner.serves slot.owner then
        slot.socket.state ∉ [.listen, .finWait1, .finWait2, .closing]
      else slot.socket.state ≠ .lastAck

/-- The entries of `created_at` are those of the sockets. -/
def Mirrors (table : SocketTable) : Prop :=
  ∀ handle, table.createdAt.lookup handle =
    (table.inner.sockets.get handle).map SocketSlot.createdAt

variable {table : SocketTable}

theorem Mirrors.dated_eq (mirrors : table.Mirrors) {handle : ℕ} {slot : SocketSlot}
    (present : table.inner.sockets.get handle = some slot) : table.dated handle slot = slot := by
  rw [dated, mirrors handle, present]
  rfl

theorem mem_stale {handle : ℕ} {slot : SocketSlot} (mirrors : table.Mirrors)
    (present : table.inner.sockets.get handle = some slot) :
    handle ∈ table.stale ↔ slot.stale table.inner.now = true := by
  have inside : handle < table.inner.sockets.slots.length := by
    by_contra outside
    rw [SlotTable.get, List.getElem?_eq_none (not_lt.mp outside)] at present
    cases present
  rw [stale, List.mem_filter, List.mem_range, present, Option.any_some, mirrors.dated_eq present]
  exact and_iff_right inside

/-- The removal of the stale handles is the sweep of the set. -/
theorem Mirrors.step_inner (mirrors : table.Mirrors) (event : SocketEvent) :
    (table.step event).inner = table.inner.step event := by
  cases event with
  | sweep =>
      have same : table.inner.sockets.removeAll table.stale =
          table.inner.sockets.retain fun slot => !slot.stale table.inner.now := by
        rw [SlotTable.removeAll, SlotTable.retain, SlotTable.mk.injEq]
        apply List.ext_getElem?
        intro handle
        rw [List.getElem?_mapIdx, List.getElem?_map]
        rcases found : table.inner.sockets.slots[handle]? with _ | _ | slot
        · rfl
        · simp
        · have present : table.inner.sockets.get handle = some slot := by
            rw [SlotTable.get, found]
            rfl
          simp only [Option.map_some, mem_stale mirrors present, Option.filter_some,
            Bool.not_eq_true']
          cases slot.stale table.inner.now <;> rfl
      simp only [SocketTable.step, SocketTable.sweep, TunInner.step, TunInner.sweep, same]
      split <;> rfl
  | _ => rfl

/-- A socket which changes keeps its time. -/
theorem createdAt_update (sockets : SlotTable SocketSlot) (handle other : ℕ) (socket : TcpSocket) :
    ((sockets.update handle fun slot => { slot with socket }).get other).map
        SocketSlot.createdAt =
      (sockets.get other).map SocketSlot.createdAt := by
  rw [SlotTable.get_update]
  split
  · rw [Option.map_map]
    rfl
  · rfl

theorem createdAt_access (inner : TunInner) (index : ℕ) (relay : Relay) (use : SocketUse)
    (gone : Relay → Relay) (handle : ℕ) :
    ((inner.access index relay use gone).sockets.get handle).map SocketSlot.createdAt =
      (inner.sockets.get handle).map SocketSlot.createdAt := by
  unfold TunInner.access
  split
  · rfl
  · exact createdAt_update ..

theorem createdAt_relayStep (inner : TunInner) (index : ℕ) (enabled : Relay → Bool)
    (use : SocketUse) (gone : Relay → Relay) (handle : ℕ) :
    ((inner.relayStep index enabled use gone).sockets.get handle).map SocketSlot.createdAt =
      (inner.sockets.get handle).map SocketSlot.createdAt := by
  unfold TunInner.relayStep
  split
  · rfl
  · split
    · exact createdAt_access ..
    · rfl

theorem createdAt_closeStep (inner : TunInner) (index : ℕ) (enabled : Relay → Bool)
    (next : Relay → Relay) (handle : ℕ) :
    ((inner.closeStep index enabled next).sockets.get handle).map SocketSlot.createdAt =
      (inner.sockets.get handle).map SocketSlot.createdAt := by
  unfold TunInner.closeStep
  split
  · rfl
  · split
    · split
      · exact createdAt_access ..
      · rfl
    · rfl

theorem createdAt_poll (inner : TunInner) (handle : ℕ) :
    (inner.poll.sockets.get handle).map SocketSlot.createdAt =
      (inner.sockets.get handle).map SocketSlot.createdAt := by
  unfold TunInner.poll
  split
  · rfl
  · dsimp only
    split
    · rfl
    · split
      · rfl
      · exact createdAt_update ..

theorem prescan_sockets (inner : TunInner) (segment : Segment) :
    (inner.prescan segment).sockets =
      if inner.makesSocket segment then
        inner.sockets.insert ⟨.listening segment.dst, inner.now, inner.relays.length⟩
      else inner.sockets := by
  unfold TunInner.prescan
  split
  · rename_i waiting
    have none_made : inner.makesSocket segment = false := by
      rw [TunInner.makesSocket, Option.isNone_eq_false_iff.mpr waiting, Bool.false_and]
    rw [none_made]
    rfl
  · rename_i idle
    have made : inner.makesSocket segment = decide (segment.control = .syn ∧
        segment.dst.port ≠ 0 ∧ segment.src.port ≠ 0 ∧ inner.tupleExists segment = false) := by
      rw [TunInner.makesSocket, Option.not_isSome_iff_eq_none.mp idle, Option.isNone_none,
        Bool.true_and]
    dsimp only
    split
    · rename_i makes
      exact (if_pos (made.trans (decide_eq_true makes))).symm
    · rename_i makesNot
      exact (if_neg fun makes => makesNot (of_decide_eq_true (made.symm.trans makes))).symm

theorem Mirrors.prescan (mirrors : table.Mirrors) (segment : Segment) :
    (table.step (.prescan segment)).Mirrors := by
  intro handle
  simp only [SocketTable.step, prescan_sockets]
  split
  · by_cases new : handle = table.inner.sockets.nextHandle
    · subst new
      rw [AList.lookup_insert, SlotTable.get_insert_nextHandle]
      rfl
    · rw [AList.lookup_insert_ne new, SlotTable.get_insert_of_ne _ new]
      exact mirrors handle
  · exact mirrors handle

theorem Mirrors.sweep (mirrors : table.Mirrors) : (table.step .sweep).Mirrors := by
  intro handle
  simp only [SocketTable.step, SocketTable.sweep]
  split
  · exact mirrors handle
  · rw [FiniteMap.lookup_retain, SlotTable.get_removeAll, mirrors handle]
    by_cases removed : handle ∈ table.stale <;> simp [removed]

theorem Mirrors.step (mirrors : table.Mirrors) (event : SocketEvent) :
    (table.step event).Mirrors := by
  cases event with
  | prescan segment => exact mirrors.prescan segment
  | sweep => exact mirrors.sweep
  | tick elapsed => exact mirrors
  | poll => exact fun handle => (mirrors handle).trans (createdAt_poll ..).symm
  | waitEstablished index =>
      exact fun handle => (mirrors handle).trans (createdAt_relayStep ..).symm
  | destination index => exact fun handle => (mirrors handle).trans (createdAt_relayStep ..).symm
  | source index => exact fun handle => (mirrors handle).trans (createdAt_relayStep ..).symm
  | read index room => exact fun handle => (mirrors handle).trans (createdAt_relayStep ..).symm
  | write index bytes => exact fun handle => (mirrors handle).trans (createdAt_relayStep ..).symm
  | shutdown index => exact fun handle => (mirrors handle).trans (createdAt_relayStep ..).symm
  | close index => exact fun handle => (mirrors handle).trans (createdAt_closeStep ..).symm
  | drop index => exact fun handle => (mirrors handle).trans (createdAt_closeStep ..).symm

theorem Mirrors.keysMatch (mirrors : table.Mirrors) : table.KeysMatch := by
  intro handle
  rw [← AList.lookup_isSome, mirrors handle, Option.isSome_map]

/-- What a sweep does with a socket. -/
theorem sweep_get (mirrors : table.Mirrors) (idle : table.inner.inbound = none) {handle : ℕ}
    {slot : SocketSlot} (present : table.inner.sockets.get handle = some slot) :
    (table.step .sweep).inner.sockets.get handle = none ↔ slot.stale table.inner.now = true := by
  rw [mirrors.step_inner]
  simp only [TunInner.step, TunInner.sweep, idle, Option.isSome_none, Bool.false_eq_true, if_false,
    SlotTable.get_retain, present, Option.filter_some]
  cases slot.stale table.inner.now <;> simp

/-- When a sweep removes an old socket whose relay has not ended. -/
theorem stale_listed_iff {slot : SocketSlot} {now : ℕ} (unbound : slot.socket.Unbound)
    (going : ¬(slot.socket.state = .closed ∨ slot.socket.state = .timeWait)) :
    slot.stale now = true ↔
      15000 ≤ now - slot.createdAt ∧
        slot.socket.state ∈ [.listen, .finWait1, .finWait2, .closing] := by
  cases state : slot.socket.state <;> simp_all [SocketSlot.stale, TcpSocket.Unbound]
  exact Iff.rfl

/-- When it removes an old socket which its relay has closed. -/
theorem stale_closed_iff {slot : SocketSlot} {now : ℕ} (old : 15000 ≤ now - slot.createdAt)
    (closed : slot.socket.state.afterClose = true) :
    slot.stale now = true ↔ slot.socket.state ≠ .lastAck := by
  have two : 2000 ≤ now - slot.createdAt := by omega
  cases state : slot.socket.state <;> simp_all [SocketSlot.stale, TcpState.afterClose]

/-- The socket of a relay which has ended is on its way to CLOSED. -/
theorem closed_of_ended (retiring : table.inner.Retiring) {handle : ℕ} {slot : SocketSlot}
    (present : table.inner.sockets.get handle = some slot)
    (ended : table.inner.serves slot.owner = false) : slot.socket.state.afterClose = true := by
  rcases retiring.owned handle slot present with ⟨relay, found, -, done⟩
  rw [TunInner.serves, found, Option.any_some] at ended
  exact done (by rw [Relay.done, ended, Bool.not_false, Bool.or_true])

/-- A sweep does right exactly if it meets no socket in one of the states it gets wrong. -/
theorem sweepsRightly_iff (mirrors : table.Mirrors) (retiring : table.inner.Retiring)
    (event : SocketEvent) : table.SweepsRightly event ↔ table.Sweepable event := by
  constructor
  · rintro rightly rfl idle handle slot present old
    have gone := sweep_get mirrors idle present
    split
    · rename_i serves
      intro listed
      have going : ¬(slot.socket.state = .closed ∨ slot.socket.state = .timeWait) := by
        rintro (state | state) <;> simp [state] at listed
      have unbound := retiring.unbound handle slot present
      have stale := (stale_listed_iff unbound going).mpr ⟨old, listed⟩
      exact going (rightly.spares rfl idle handle slot present serves (gone.mpr stale))
    · rename_i ended
      have ended := Bool.eq_false_iff.mpr ended
      have closed := closed_of_ended retiring present ended
      have notEstablished : slot.socket.state ≠ .established := by
        intro state
        rw [state] at closed
        cases closed
      exact (stale_closed_iff old closed).mp
        (gone.mp (rightly.noLeak rfl idle handle slot present ended notEstablished old))
  · intro sweepable
    constructor
    · rintro rfl idle handle slot present ended _ old
      have allowed := sweepable rfl idle handle slot present old
      rw [if_neg (by simp [ended])] at allowed
      exact (sweep_get mirrors idle present).mpr
        ((stale_closed_iff old (closed_of_ended retiring present ended)).mpr allowed)
    · rintro rfl idle handle slot present serves removed
      by_contra going
      rcases (stale_listed_iff (retiring.unbound handle slot present) going).mp
        ((sweep_get mirrors idle present).mp removed) with ⟨old, listed⟩
      have allowed := sweepable rfl idle handle slot present old
      rw [if_pos serves] at allowed
      exact allowed listed

/--
The keys of `created_at` are the handles of the set throughout every run; and its sweeps
leak no socket and spare those with a relay exactly if none of them meets an old socket in
LAST-ACK without a relay, or one with a relay which listens, is in FIN-WAIT or in CLOSING.
-/
theorem sweeps_rightly_iff (events : List SocketEvent) :
    Throughout step KeysMatch start events ∧
      (Along step SweepsRightly start events ↔ Along step Sweepable start events) := by
  have initially : start.Mirrors ∧ start.inner.Retiring := ⟨fun _ => rfl, TunInner.retiring_initial⟩
  have kept : ∀ {table : SocketTable} {event : SocketEvent},
      table.Mirrors ∧ table.inner.Retiring →
        (table.step event).Mirrors ∧ (table.step event).inner.Retiring := by
    rintro table event ⟨mirrors, retiring⟩
    refine ⟨mirrors.step event, ?_⟩
    rw [mirrors.step_inner]
    exact retiring.step event
  have anything : Along step (fun _ _ => True) start events := Along.of_forall fun _ _ => trivial
  constructor
  · exact throughout_of_along (fun table => table.Mirrors ∧ table.inner.Retiring)
      (fun held => held.1.keysMatch) (fun held _ => kept held) anything initially
  · exact along_congr (fun table => table.Mirrors ∧ table.inner.Retiring)
      (fun held => sweepsRightly_iff held.1 held.2 _) (fun held _ => kept held) initially

/--
The client has closed its half, and the relay closes the other; the client's last
acknowledgement never comes.  No sweep takes the socket in LAST-ACK.
-/
def lostAck : List SocketEvent :=
  [.prescan ⟨TunInner.clientEndpoint 40000, TunInner.webEndpoint, .syn⟩, .poll,
    .prescan ⟨TunInner.clientEndpoint 40000, TunInner.webEndpoint, .ack [] false⟩, .poll,
    .waitEstablished 0, .destination 0,
    .prescan ⟨TunInner.clientEndpoint 40000, TunInner.webEndpoint, .fin [] false⟩, .poll,
    .drop 0, .tick 15001]

/-- The socket of a relay which has shut down its half, but still reads, is swept. -/
def sweptReader : List SocketEvent :=
  [.prescan ⟨TunInner.clientEndpoint 40000, TunInner.webEndpoint, .syn⟩, .poll,
    .prescan ⟨TunInner.clientEndpoint 40000, TunInner.webEndpoint, .ack [] false⟩, .poll,
    .waitEstablished 0, .destination 0, .tick 15001, .shutdown 0]

theorem not_sweepsRightly_lostAck :
    ¬ Along step SweepsRightly start (lostAck ++ [.sweep]) ∧
      ¬ Along step SweepsRightly start (sweptReader ++ [.sweep]) := by
  constructor
  · intro rightly
    have last := (Along.append.mp rightly).2.1
    have removed := last.noLeak rfl (by decide) 0 _ rfl (by decide) (by decide) (by decide)
    exact absurd removed (by decide)
  · intro rightly
    have last := (Along.append.mp rightly).2.1
    have finished := last.spares rfl (by decide) 0 _ rfl (by decide) (by decide)
    exact absurd finished (by decide)

end SocketTable

end Mirage.Tun
