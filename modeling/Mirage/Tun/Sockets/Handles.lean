import Mirage.Tun.Sockets

/-!
# Socket handles

A relay keeps the handle of its socket until it ends.  The set gives a handle
out again once `sweep` has removed its socket, and `sweep` looks at the state
and the age of a socket, not at its relay.  The handles are safe exactly as
long as no sweep finds a stale socket whose relay still has the handle.
-/

namespace Mirage.Tun

open Mirage.Foundations

/-- `relay` after the wakers of a socket were possibly woken. -/
def Relay.wokenBy (relay : Relay) (index : ℕ) (old new : TcpSocket) : Relay :=
  { relay with woken := relay.woken || (old.waker == some index && new.waker.isNone) }

theorem Relay.wokenBy_awake {relay : Relay} {index : ℕ} {old new : TcpSocket}
    (before : old.waker = some index) (after : new.waker = none) :
    relay.wokenBy index old new = relay.wake := by
  simp [Relay.wokenBy, Relay.wake, before, after]

theorem Relay.wokenBy_asleep {relay : Relay} {index : ℕ} {old new : TcpSocket}
    (asleep : ¬(old.waker = some index ∧ new.waker = none)) :
    relay.wokenBy index old new = relay := by
  have nobody : (old.waker == some index && new.waker.isNone) = false := by
    simpa [Option.isSome_iff_ne_none] using asleep
  rw [Relay.wokenBy, nobody, Bool.or_false]

theorem Relay.wokenBy_cases (relay : Relay) (index : ℕ) (old new : TcpSocket) :
    relay.wokenBy index old new = relay ∨ relay.wokenBy index old new = relay.wake := by
  by_cases awake : old.waker = some index ∧ new.waker = none
  · exact .inr (Relay.wokenBy_awake awake.1 awake.2)
  · exact .inl (Relay.wokenBy_asleep awake)

@[simp]
theorem Relay.wokenBy_handle (relay : Relay) (index : ℕ) (old new : TcpSocket) :
    (relay.wokenBy index old new).handle = relay.handle :=
  rfl

@[simp]
theorem Relay.wokenBy_held (relay : Relay) (index : ℕ) (old new : TcpSocket) :
    (relay.wokenBy index old new).held = relay.held :=
  rfl

namespace TunInner

variable {inner : TunInner} {index : ℕ} {relay : Relay}

theorem getElem?_wakeFrom (old new : TcpSocket) (relays : List Relay) (index : ℕ) :
    (wakeFrom old new relays)[index]? =
      relays[index]?.map fun relay => relay.wokenBy index old new := by
  unfold wakeFrom
  split
  · next task before after =>
      by_cases same : task = index
      · subst same
        simp [Relay.wokenBy_awake before after]
      · have asleep : ¬(old.waker = some index ∧ new.waker = none) := by
          simp [before, same]
        simp [same, Relay.wokenBy_asleep asleep]
  · next asleep =>
      have asleep : ¬(old.waker = some index ∧ new.waker = none) := by
        rintro ⟨before, after⟩
        exact asleep index before after
      simp [Relay.wokenBy_asleep asleep]

/-- Every held handle leads to the socket of its relay, and no relay used another one. -/
structure HandlesSafe (inner : TunInner) : Prop where
  held : ∀ index relay, inner.relays[index]? = some relay → relay.held = true →
    ∃ slot, inner.sockets.get relay.handle = some slot ∧ slot.owner = index
  own : ∀ access ∈ inner.accesses, access.relay = access.owner

/-- A sweep does not find a stale socket whose relay still has the handle. -/
def SweepSpares (inner : TunInner) : SocketEvent → Prop
  | .sweep => inner.inbound = none → ∀ relay ∈ inner.relays, relay.held = true →
      (inner.sockets.get relay.handle).any (·.stale inner.now) = false
  | _ => True

instance (inner : TunInner) (event : SocketEvent) : Decidable (SweepSpares inner event) := by
  cases event <;> unfold SweepSpares <;> infer_instance

theorem handlesSafe_initial : HandlesSafe initial where
  held := by simp [initial]
  own := by simp [initial]

theorem HandlesSafe.prescan (safe : HandlesSafe inner) (segment : Segment) :
    HandlesSafe (inner.prescan segment) := by
  unfold TunInner.prescan
  split
  · exact safe
  · dsimp only
    split
    · refine ⟨?_, safe.own⟩
      intro index relay found held
      rw [List.getElem?_append] at found
      split at found
      · rcases safe.held index relay found held with ⟨slot, present, owned⟩
        exact ⟨slot, SlotTable.get_insert_of_get present _, owned⟩
      · next beyond =>
          -- the relay which was just spawned
          have last : index = inner.relays.length := by
            have bound := (List.getElem?_eq_some_iff.mp found).1
            simp only [List.length_singleton] at bound
            omega
          subst last
          simp only [Nat.sub_self, List.getElem?_cons_zero, Option.some.injEq] at found
          subst found
          exact ⟨_, SlotTable.get_insert_nextHandle _ _, rfl⟩
    · exact ⟨safe.held, safe.own⟩

theorem owner_update {sockets : SlotTable SocketSlot} {handle other : ℕ} {slot : SocketSlot}
    (present : sockets.get other = some slot) (socket : TcpSocket) :
    ∃ changed, (sockets.update handle fun slot => { slot with socket }).get other = some changed ∧
      changed.owner = slot.owner := by
  rw [SlotTable.get_update, present]
  split
  · exact ⟨_, rfl, rfl⟩
  · exact ⟨slot, rfl, rfl⟩

theorem HandlesSafe.poll (safe : HandlesSafe inner) : HandlesSafe inner.poll := by
  unfold TunInner.poll
  split
  · exact safe
  · dsimp only
    split
    · exact ⟨safe.held, safe.own⟩
    · split
      · exact ⟨safe.held, safe.own⟩
      · refine ⟨?_, safe.own⟩
        intro index relay found held
        simp only [getElem?_wakeFrom, Option.map_eq_some_iff] at found
        rcases found with ⟨before, found, rfl⟩
        simp only [Relay.wokenBy_handle, Relay.wokenBy_held] at held ⊢
        rcases safe.held index before found held with ⟨slot, present, owned⟩
        rcases owner_update present _ with ⟨changed, here, same⟩
        exact ⟨changed, here, same.trans owned⟩

theorem handlesSafe_sweep (safe : HandlesSafe inner) :
    HandlesSafe inner.sweep ↔ SweepSpares inner .sweep := by
  unfold TunInner.sweep SweepSpares
  split
  · next waiting => exact iff_of_true safe (by simp [Option.isSome_iff_ne_none.mp waiting])
  · next idle =>
      have idle : inner.inbound = none := by simpa using idle
      simp only [idle, forall_const]
      constructor
      · intro swept relay member held
        rcases List.mem_iff_getElem?.mp member with ⟨index, found⟩
        rcases swept.held index relay found held with ⟨slot, kept, _⟩
        simp only [SlotTable.get_retain, Option.filter_eq_some_iff] at kept
        simpa [kept.1] using kept.2
      · intro spared
        refine ⟨?_, safe.own⟩
        intro index relay found held
        rcases safe.held index relay found held with ⟨slot, present, owned⟩
        refine ⟨slot, ?_, owned⟩
        have fresh := spared relay (List.mem_of_getElem? found) held
        simp only [present, Option.any_some] at fresh
        simp [present, fresh]

/-- A relay is replaced by one with the same handle, and no socket changes. -/
theorem HandlesSafe.set (safe : HandlesSafe inner) (found : inner.relays[index]? = some relay)
    {next : Relay} (handle : next.handle = relay.handle) (held : relay.held = true) :
    HandlesSafe { inner with relays := inner.relays.set index next } := by
  refine ⟨?_, safe.own⟩
  intro other current here stillHeld
  rcases getElem?_set_cases here with ⟨rfl, rfl⟩ | ⟨_, unchanged⟩
  · simpa [handle] using safe.held index relay found held
  · exact safe.held other current unchanged stillHeld

theorem HandlesSafe.access (safe : HandlesSafe inner) (found : inner.relays[index]? = some relay)
    (held : relay.held = true) {use : SocketUse} {gone : Relay → Relay}
    (useHandle : ∀ socket, (use socket relay).2.handle = relay.handle) :
    HandlesSafe (inner.access index relay use gone) := by
  unfold TunInner.access
  rcases safe.held index relay found held with ⟨slot, present, owned⟩
  simp only [present]
  have replaced := safe.set found (useHandle slot.socket) held
  refine ⟨?_, ?_⟩
  · intro other current here stillHeld
    simp only [getElem?_wakeFrom, Option.map_eq_some_iff] at here
    rcases here with ⟨before, here, rfl⟩
    simp only [Relay.wokenBy_handle, Relay.wokenBy_held] at stillHeld ⊢
    rcases replaced.held other before here stillHeld with ⟨_, occupied, owner⟩
    rcases owner_update occupied _ with ⟨changed, kept, same⟩
    exact ⟨changed, kept, same.trans owner⟩
  · intro access member
    simp only [List.mem_append, List.mem_singleton] at member
    rcases member with before | rfl
    · exact safe.own access before
    · exact owned.symm

/-- What a relay and its socket are after a use. -/
theorem access_self (found : inner.relays[index]? = some relay) {slot : SocketSlot}
    (present : inner.sockets.get relay.handle = some slot) (use : SocketUse)
    (gone : Relay → Relay) :
    (inner.access index relay use gone).relays[index]? =
        some ((use slot.socket relay).2.wokenBy index slot.socket (use slot.socket relay).1) ∧
      (inner.access index relay use gone).sockets.get relay.handle =
        some { slot with socket := (use slot.socket relay).1 } := by
  have bound := (List.getElem?_eq_some_iff.mp found).1
  simp only [TunInner.access, present, getElem?_wakeFrom, List.getElem?_set_self bound,
    Option.map_some, true_and]
  exact SlotTable.get_update_self present _

theorem HandlesSafe.relayStep (safe : HandlesSafe inner) {enabled : Relay → Bool}
    {use : SocketUse} {gone : Relay → Relay}
    (enabledHeld : ∀ relay, enabled relay = true → relay.held = true)
    (useHandle : ∀ socket relay, (use socket relay).2.handle = relay.handle) :
    HandlesSafe (inner.relayStep index enabled use gone) := by
  unfold TunInner.relayStep
  split
  · exact safe
  · next relay found =>
      split
      · next ready => exact safe.access found (enabledHeld relay ready) fun _ => useHandle _ _
      · exact safe

theorem HandlesSafe.closeStep (safe : HandlesSafe inner) {enabled : Relay → Bool}
    {next : Relay → Relay} (enabledHeld : ∀ relay, enabled relay = true → relay.held = true)
    (nextHandle : ∀ relay, (next relay).handle = relay.handle) :
    HandlesSafe (inner.closeStep index enabled next) := by
  unfold TunInner.closeStep
  split
  · exact safe
  · next relay found =>
      split
      · next ready =>
          have held := enabledHeld relay ready
          split
          · exact safe.access found held fun _ => nextHandle _
          · exact safe.set found (nextHandle relay) held
      · exact safe

theorem connecting_held {relay : Relay} (connecting : relay.connecting = true) :
    relay.held = true := by
  unfold Relay.connecting at connecting
  unfold Relay.held
  split at connecting <;> simp_all

theorem pendEstablished_handle (now index : ℕ) (socket : TcpSocket) (relay : Relay) :
    (Relay.pendEstablished now index socket relay).2.handle = relay.handle := by
  unfold Relay.pendEstablished
  dsimp only
  split <;> rfl

theorem pollEstablished_handle (now index : ℕ) (socket : TcpSocket) (relay : Relay) :
    (Relay.pollEstablished now index socket relay).2.handle = relay.handle := by
  unfold Relay.pollEstablished
  split
  · rfl
  · rfl
  · rfl
  · exact pendEstablished_handle now index socket relay

theorem askDestination_handle (socket : TcpSocket) (relay : Relay) :
    (Relay.askDestination socket relay).2.handle = relay.handle := by
  unfold Relay.askDestination
  split <;> rfl

theorem accepted_held (relay : Relay) (accepted : (relay.stage == .accepted) = true) :
    relay.held = true := by
  simp [Relay.held, beq_iff_eq.mp accepted]

theorem relaying_held (relay : Relay) (relaying : isRelaying relay = true) :
    relay.held = true := by
  simp [Relay.held, beq_iff_eq.mp relaying]

theorem dropping_held (relay : Relay)
    (dropping : (relay.stage == .relaying || relay.stage == .failed) = true) :
    relay.held = true := by
  simp only [Bool.or_eq_true, beq_iff_eq] at dropping
  rcases dropping with stage | stage <;> simp [Relay.held, stage]

/-- One step keeps the handles safe exactly if it is no sweep of a socket in use. -/
theorem handlesSafe_step (safe : HandlesSafe inner) (event : SocketEvent) :
    HandlesSafe (inner.step event) ↔ SweepSpares inner event := by
  cases event with
  | sweep => exact handlesSafe_sweep safe
  | tick elapsed => exact iff_of_true ⟨safe.held, safe.own⟩ trivial
  | prescan segment => exact iff_of_true (safe.prescan segment) trivial
  | poll => exact iff_of_true safe.poll trivial
  | waitEstablished index =>
      apply iff_of_true _ trivial
      exact safe.relayStep (fun _ => connecting_held) (pollEstablished_handle _ _)
  | destination index =>
      exact iff_of_true (safe.relayStep accepted_held askDestination_handle) trivial
  | source index => exact iff_of_true (safe.relayStep relaying_held fun _ _ => rfl) trivial
  | read index room => exact iff_of_true (safe.relayStep relaying_held fun _ _ => rfl) trivial
  | write index bytes => exact iff_of_true (safe.relayStep relaying_held fun _ _ => rfl) trivial
  | shutdown index => exact iff_of_true (safe.relayStep relaying_held fun _ _ => rfl) trivial
  | close index => exact iff_of_true (safe.closeStep relaying_held fun _ => rfl) trivial
  | drop index => exact iff_of_true (safe.closeStep dropping_held fun _ => rfl) trivial

/--
Throughout a run no relay loses its socket while it has the handle, nor uses the
socket of another one, exactly if every sweep spares the sockets in use.
-/
theorem handles_safe_iff (events : List SocketEvent) :
    Throughout step HandlesSafe initial events ↔ Along step SweepSpares initial events := by
  apply throughout_iff_along HandlesSafe
  · exact id
  · intro inner event _ safe spared
    exact (handlesSafe_step safe event).mpr spared
  · intro inner event _ safe stillSafe
    exact (handlesSafe_step safe event).mp stillSafe
  · exact Along.of_forall fun _ _ => trivial
  · exact handlesSafe_initial

/-- An address of the documentation range, and a client behind the TUN interface. -/
def webEndpoint : Endpoint :=
  ⟨.v4 (ipv4 203 0 113 7), 443⟩

def clientEndpoint (port : ℕ) : Endpoint :=
  ⟨.v4 (ipv4 10 10 0 1), port⟩

/--
The relay of an old connection shuts down its sending half and lives on.  The
sweep takes its socket in FIN-WAIT-1, a second client gets the handle, and the
close of the first relay closes the connection of the second.
-/
def reusedHandle : List SocketEvent :=
  [.prescan ⟨clientEndpoint 40000, webEndpoint, .syn⟩, .poll,
    .prescan ⟨clientEndpoint 40000, webEndpoint, .ack [] false⟩, .poll,
    .waitEstablished 0, .destination 0, .tick 15000, .shutdown 0, .sweep,
    .prescan ⟨clientEndpoint 40001, webEndpoint, .syn⟩, .poll,
    .prescan ⟨clientEndpoint 40001, webEndpoint, .ack [] false⟩, .poll, .drop 0]

theorem not_handles_safe_reusedHandle : ¬ Throughout step HandlesSafe initial reusedHandle := by
  intro throughout
  have own := throughout.run.own ⟨0, 1⟩ (by decide)
  exact absurd own (by decide)

end TunInner

end Mirage.Tun
