import Mirage.Tun.Sockets.Handles

/-!
# Relays and their own sockets

While the handles are safe, a step changes a socket and a relay only together
with its partner, or wakes a relay.  A property of all pairs of a relay and its
socket is therefore kept if each operation keeps it for one pair.
-/

namespace Mirage.Tun

open Mirage.Foundations

namespace TunInner

variable {inner : TunInner} {index : ℕ} {relay : Relay} {property : ℕ → Relay → TcpSocket → Prop}

/-- Every relay with a handle meets its own socket in the given way. -/
def AllPairs (property : ℕ → Relay → TcpSocket → Prop) (inner : TunInner) : Prop :=
  ∀ index relay slot, inner.relays[index]? = some relay → relay.held = true →
    inner.sockets.get relay.handle = some slot → slot.owner = index →
    property index relay slot.socket

def WakeStable (property : ℕ → Relay → TcpSocket → Prop) : Prop :=
  ∀ {index relay socket}, property index relay socket → property index relay.wake socket

theorem WakeStable.wokenBy (stable : WakeStable property) {socket : TcpSocket}
    (holds : property index relay socket) (woken : ℕ) (old new : TcpSocket) :
    property index (relay.wokenBy woken old new) socket := by
  rcases relay.wokenBy_cases woken old new with same | same <;> rw [same]
  · exact holds
  · exact stable holds

theorem allPairs_initial : AllPairs property initial := by
  simp [AllPairs, initial]

theorem AllPairs.prescan (pairs : AllPairs property inner) (safe : HandlesSafe inner)
    (segment : Segment)
    (spawned : ∀ index handle isDns,
      property index (Relay.spawn handle isDns) (.listening segment.dst)) :
    AllPairs property (inner.prescan segment) := by
  unfold TunInner.prescan
  split
  · exact pairs
  · dsimp only
    split
    · intro index relay slot found held present owned
      dsimp only at found present
      rw [List.getElem?_append] at found
      split at found
      · -- an old relay, whose socket is still where it was
        rcases safe.held index relay found held with ⟨old, occupied, _⟩
        rw [SlotTable.get_insert_of_get occupied, Option.some.injEq] at present
        subst present
        exact pairs index relay old found held occupied owned
      · have spawn : relay = Relay.spawn inner.sockets.nextHandle (segment.dst.port == 53) := by
          simpa using List.mem_of_getElem? found
        subst spawn
        change (inner.sockets.insert _).get inner.sockets.nextHandle = some slot at present
        rw [SlotTable.get_insert_nextHandle, Option.some.injEq] at present
        subst present
        exact spawned _ _ _
    · exact pairs

theorem AllPairs.sweep (pairs : AllPairs property inner) : AllPairs property inner.sweep := by
  unfold TunInner.sweep
  split
  · exact pairs
  · intro index relay slot found held present owned
    simp only [SlotTable.get_retain, Option.filter_eq_some_iff] at present
    exact pairs index relay slot found held present.1 owned

theorem AllPairs.poll (pairs : AllPairs property inner) (stable : WakeStable property)
    (processed : ∀ {index relay socket} segment, property index relay socket →
      property index (relay.wokenBy index socket (socket.process segment))
        (socket.process segment)) :
    AllPairs property inner.poll := by
  unfold TunInner.poll
  split
  · exact pairs
  · dsimp only
    split
    · exact pairs
    · split
      · exact pairs
      · next segment _ _ handle _ _ old occupied =>
          intro index relay slot found held present owned
          simp only [getElem?_wakeFrom, Option.map_eq_some_iff] at found
          rcases found with ⟨before, found, rfl⟩
          simp only [Relay.wokenBy_handle, Relay.wokenBy_held, SlotTable.get_update]
            at held present
          split at present
          · next same =>
              rw [same, occupied, Option.map_some, Option.some.injEq] at present
              subst present
              exact processed segment
                (pairs index before old found held (same ▸ occupied) owned)
          · exact stable.wokenBy (pairs index before slot found held present owned) _ _ _

/-- A relay is replaced; no socket changes. -/
theorem AllPairs.set (pairs : AllPairs property inner) {next : Relay}
    (handle : next.handle = relay.handle)
    (kept : ∀ slot, inner.sockets.get relay.handle = some slot → slot.owner = index →
      next.held = true → property index next slot.socket) :
    AllPairs property { inner with relays := inner.relays.set index next } := by
  intro other current slot here held present owned
  rcases getElem?_set_cases here with ⟨rfl, rfl⟩ | ⟨_, unchanged⟩
  · rw [handle] at present
    exact kept slot present owned held
  · exact pairs other current slot unchanged held present owned

theorem AllPairs.access (pairs : AllPairs property inner) (safe : HandlesSafe inner)
    (stable : WakeStable property) (found : inner.relays[index]? = some relay)
    (held : relay.held = true) {use : SocketUse} {gone : Relay → Relay}
    (useHandle : ∀ socket, (use socket relay).2.handle = relay.handle)
    (kept : ∀ slot, inner.sockets.get relay.handle = some slot →
      property index relay slot.socket → (use slot.socket relay).2.held = true →
      property index (use slot.socket relay).2 (use slot.socket relay).1) :
    AllPairs property (inner.access index relay use gone) := by
  unfold TunInner.access
  rcases safe.held index relay found held with ⟨mine, occupied, owner⟩
  simp only [occupied]
  intro other current slot here stillHeld present owned
  simp only [getElem?_wakeFrom, Option.map_eq_some_iff] at here
  rcases here with ⟨before, here, rfl⟩
  simp only [Relay.wokenBy_handle, Relay.wokenBy_held] at stillHeld present
  apply stable.wokenBy
  rcases getElem?_set_cases here with ⟨rfl, rfl⟩ | ⟨different, unchanged⟩
  · rw [useHandle, SlotTable.get_update_self occupied, Option.some.injEq] at present
    subst present
    exact kept mine occupied (pairs index relay mine found held occupied owner) stillHeld
  · -- another relay has another socket, and so another handle
    have apart : before.handle ≠ relay.handle := by
      intro same
      rcases safe.held other before unchanged stillHeld with ⟨theirs, found, owner'⟩
      rw [same, occupied, Option.some.injEq] at found
      subst found
      exact different (owner.symm.trans owner')
    rw [SlotTable.get_update_of_ne apart] at present
    exact pairs other before slot unchanged stillHeld present owned

end TunInner

end Mirage.Tun
