import Mirage.Tun.Sockets.Pairs

/-!
# Completed handshakes

`wait_established` takes a connection over in ESTABLISHED only.  A socket
reaches CLOSE-WAIT as well before its relay looks at it, when the client's FIN
comes early; the relay then waits on, and gives a connection up whose handshake
was completed and whose bytes are all there.

`HandshakesServed` says what is to hold of every connection.  While no relay
loses its handle it holds throughout a run exactly if no relay which still
waits is polled in CLOSE-WAIT.
-/

namespace Mirage.Tun

open Mirage.Foundations

/-- A reason to give a connection up. -/
def ClientLog.Excuses (client : ClientLog) : Prop :=
  client.reset = true ∨ client.completed = false

namespace TcpSocket

variable {socket : TcpSocket}

/-- The socket has the connection which its client dialed. -/
def Bound (socket : TcpSocket) : Prop :=
  ∃ dialed remote,
    socket.tuple = some (dialed, remote) ∧ socket.client.dialed = some dialed

/-- The state tells what the client did, as long as the relay only looks on. -/
def Untouched (socket : TcpSocket) : Prop :=
  socket.received = socket.client.sent ∧
    match socket.state with
    | .listen => socket.received = [] ∧ socket.client.completed = false
    | .synReceived =>
        socket.received = [] ∧ socket.client.completed = false ∧
          socket.client.reset = false ∧ socket.Bound
    | .established | .closeWait =>
        socket.client.completed = true ∧ socket.client.reset = false ∧ socket.Bound
    | .closed => socket.client.reset = true ∧ socket.tuple = none
    | _ => False

/-- The handshake is over. -/
def Opened (socket : TcpSocket) : Prop :=
  socket.state ≠ .listen ∧ socket.state ≠ .synReceived

theorem untouched_listening (endpoint : Endpoint) : (listening endpoint).Untouched :=
  ⟨rfl, rfl, rfl⟩

theorem untouched_process (untouched : socket.Untouched) (segment : Segment) :
    (socket.process segment).Untouched := by
  rcases untouched with ⟨kept, told⟩
  cases state : socket.state with
  | listen =>
      simp only [state] at told
      cases control : segment.control with
      | syn =>
          refine ⟨?_, ?_⟩
          · simp [process, control, state, synchronize, setState, told.1]
          · simp [process, control, state, synchronize, setState, Bound, told.1]
      | ack | fin | rst => simpa [Untouched, process, control, state] using ⟨kept, told⟩
  | synReceived =>
      simp only [state] at told
      rcases told with ⟨empty, incomplete, notReset, bound⟩
      cases control : segment.control with
      | syn =>
          simpa [Untouched, process, control, state] using
            ⟨kept, empty, incomplete, notReset, bound⟩
      | ack | fin =>
          simpa [Untouched, process, control, state, receive, complete, setState, Bound, kept,
            notReset] using bound
      | rst =>
          simp [Untouched, process, control, state, abort, setState, kept ▸ empty, incomplete,
            empty]
  | established =>
      simp only [state] at told
      rcases told with ⟨complete, notReset, bound⟩
      cases control : segment.control with
      | syn => simpa [Untouched, process, control, state] using ⟨kept, complete, notReset, bound⟩
      | ack | fin =>
          simpa [Untouched, process, control, state, receive, setState, Bound, kept, complete,
            notReset] using bound
      | rst => simp [Untouched, process, control, state, abort, setState, kept]
  | closeWait =>
      simp only [state] at told
      cases control : segment.control with
      | syn | ack | fin => simpa [Untouched, process, control, state] using ⟨kept, told⟩
      | rst => simp [Untouched, process, control, state, abort, setState, kept]
  | closed =>
      simp only [state] at told
      cases control : segment.control with
      | syn | ack | fin | rst => simpa [Untouched, process, control, state] using ⟨kept, told⟩
  | finWait1 | finWait2 | closing | lastAck | timeWait => simp [state] at told

theorem bound_or_reset (untouched : socket.Untouched) (opened : socket.Opened) :
    socket.Bound ∨ socket.client.reset = true ∧ socket.tuple = none := by
  rcases untouched with ⟨_, told⟩
  cases state : socket.state with
  | listen => exact absurd state opened.1
  | synReceived => exact absurd state opened.2
  | established | closeWait =>
      simp only [state] at told
      exact .inl told.2.2
  | closed =>
      simp only [state] at told
      exact .inr told
  | finWait1 | finWait2 | closing | lastAck | timeWait => simp [state] at told

/-- After the handshake a segment at most adds to what was received. -/
theorem process_of_opened (opened : socket.Opened) (segment : Segment) :
    (socket.process segment).Opened ∧
      (socket.process segment).client.dialed = socket.client.dialed ∧
      ∃ bytes, (socket.process segment).received = socket.received ++ bytes ∧
        (socket.process segment).client.sent = socket.client.sent ++ bytes := by
  rcases opened with ⟨notListen, notSynReceived⟩
  have nothing : ∃ bytes, socket.received = socket.received ++ bytes ∧
      socket.client.sent = socket.client.sent ++ bytes := ⟨[], by simp⟩
  cases control : segment.control with
  | syn => simp [process, control, notListen, Opened, notSynReceived]
  | rst =>
      cases state : socket.state <;>
        simp_all [process, Opened, abort, setState]
  | ack payload acksFin =>
      cases state : socket.state <;> cases acksFin <;>
        simp_all [process, Opened, receive, setState]
  | fin payload acksFin =>
      cases state : socket.state <;> cases acksFin <;>
        simp_all [process, Opened, receive, setState]

/-- Whoever waits at a socket is woken when its client completes or resets the connection. -/
theorem process_wakes (socket : TcpSocket) (segment : Segment) :
    (socket.process segment).waker = none ∨
      (socket.process segment).waker = socket.waker ∧
        (socket.process segment).client.Excuses = socket.client.Excuses := by
  cases control : segment.control with
  | syn | rst =>
      cases state : socket.state <;>
        simp [process, control, state, setState]
  | ack payload acksFin | fin payload acksFin =>
      cases state : socket.state <;> cases acksFin <;>
        simp [process, control, state, setState, receive, ClientLog.Excuses]

theorem close_opened (opened : socket.Opened) : socket.close.Opened := by
  unfold close
  split <;> simp_all [Opened, setState]

theorem close_same (socket : TcpSocket) :
    socket.close.received = socket.received ∧ socket.close.client = socket.client := by
  unfold close
  split <;> simp [setState]

end TcpSocket

namespace TunInner

/-- What is true of a relay and its socket at each stage of the relay. -/
def Conforms (index : ℕ) (relay : Relay) (socket : TcpSocket) : Prop :=
  match relay.stage with
  | .spawned => socket.Untouched ∧ relay.taken = []
  | .waiting _ =>
      socket.Untouched ∧ relay.taken = [] ∧ (relay.woken = false → socket.waker = some index)
  | .accepted =>
      socket.Untouched ∧ socket.Opened ∧ relay.taken = [] ∧ relay.isDns = false
  | .relaying =>
      socket.Opened ∧ relay.taken ++ socket.received = socket.client.sent ∧
        (relay.isDns = false →
          ∃ dst, relay.dst = some dst ∧ socket.client.dialed = some dst)
  | .failed | .ended => True

/-- A relay which sleeps in `wait_established` has nothing to take over. -/
def Noticed (relay : Relay) (socket : TcpSocket) : Prop :=
  ∀ deadline, relay.stage = .waiting deadline → relay.woken = false → socket.client.Excuses

/-- What a relay with a handle has from its socket. -/
structure Delivered (relay : Relay) (socket : TcpSocket) : Prop where
  noticed : Noticed relay socket
  destination : relay.stage = .relaying → relay.isDns = false →
    ∃ dst, relay.dst = some dst ∧ socket.client.dialed = some dst
  bytes : relay.stage = .accepted ∨ relay.stage = .relaying →
    relay.taken ++ socket.received = socket.client.sent

/--
A connection whose handshake is completed and which was neither reset nor
removed is not given up, is not left waiting by a relay which nobody is going
to wake, and is handed over with its destination and all its bytes.
-/
structure HandshakesServed (inner : TunInner) : Prop where
  not_refused : ∀ relay ∈ inner.relays, ∀ client, relay.failedOn = some client →
    client.Excuses
  delivered : inner.AllPairs fun _ => Delivered

/-- The socket which a relay in `from_catcher` is going to look at. -/
def awaited (inner : TunInner) (index : ℕ) : Option SocketSlot := do
  let relay ← inner.relays[index]?
  if relay.connecting then inner.sockets.get relay.handle else none

/-- No relay which still waits is polled when the FIN of its client is there. -/
def PolledBeforeFin (inner : TunInner) : SocketEvent → Prop
  | .waitEstablished index =>
      (inner.awaited index).any (·.socket.state == .closeWait) = false
  | _ => True

instance (inner : TunInner) : ∀ event, Decidable (PolledBeforeFin inner event)
  | .waitEstablished _ => instDecidableEqBool _ _
  | .tick _ | .prescan _ | .poll | .sweep | .destination _ | .source _ | .read _ _ | .write _ _
  | .shutdown _ | .close _ | .drop _ => .isTrue trivial

variable {inner : TunInner} {index : ℕ} {relay : Relay} {socket : TcpSocket}

theorem Conforms.delivered (conforms : Conforms index relay socket) :
    Delivered relay socket ↔ Noticed relay socket := by
  constructor
  · exact Delivered.noticed
  · intro noticed
    refine ⟨noticed, ?_, ?_⟩
    · intro relaying notDns
      simp only [Conforms, relaying] at conforms
      exact conforms.2.2 notDns
    · rintro (accepted | relaying)
      · simp only [Conforms, accepted] at conforms
        rcases conforms with ⟨untouched, _, nothing, _⟩
        rw [nothing, List.nil_append, untouched.1]
      · simp only [Conforms, relaying] at conforms
        exact conforms.2.1

theorem conforms_wake : WakeStable Conforms := by
  intro index relay socket conforms
  unfold Conforms at conforms ⊢
  cases stage : relay.stage <;> simp_all [Relay.wake]

theorem noticed_wake (relay : Relay) (socket : TcpSocket) : Noticed relay.wake socket := by
  intro deadline waiting asleep
  simp [Relay.wake] at asleep

theorem conforms_process (conforms : Conforms index relay socket) (segment : Segment) :
    Conforms index (relay.wokenBy index socket (socket.process segment))
      (socket.process segment) := by
  unfold Conforms at conforms ⊢
  simp only [Relay.wokenBy]
  cases stage : relay.stage with
  | spawned =>
      simp only [stage] at conforms ⊢
      exact ⟨TcpSocket.untouched_process conforms.1 segment, conforms.2⟩
  | waiting deadline =>
      simp only [stage] at conforms ⊢
      rcases conforms with ⟨untouched, nothing, registered⟩
      refine ⟨TcpSocket.untouched_process untouched segment, nothing, ?_⟩
      intro asleep
      simp only [Bool.or_eq_false_iff, Bool.and_eq_false_iff] at asleep
      have mine := registered asleep.1
      rcases socket.process_wakes segment with awake | ⟨same, _⟩
      · simp [mine, awake] at asleep
      · rw [same, mine]
  | accepted =>
      simp only [stage] at conforms ⊢
      rcases conforms with ⟨untouched, opened, rest⟩
      exact ⟨TcpSocket.untouched_process untouched segment,
        (TcpSocket.process_of_opened opened segment).1, rest⟩
  | relaying =>
      simp only [stage] at conforms ⊢
      rcases conforms with ⟨opened, taken, toDestination⟩
      rcases TcpSocket.process_of_opened opened segment with ⟨still, dialed, bytes, more, sent⟩
      refine ⟨still, ?_, ?_⟩
      · rw [more, sent, ← taken, List.append_assoc]
      · rw [dialed]
        exact toDestination
  | failed | ended => trivial

theorem noticed_process (conforms : Conforms index relay socket) (noticed : Noticed relay socket)
    (segment : Segment) :
    Noticed (relay.wokenBy index socket (socket.process segment)) (socket.process segment) := by
  intro deadline waiting asleep
  simp only [Relay.wokenBy, Bool.or_eq_false_iff, Bool.and_eq_false_iff] at waiting asleep
  have excused := noticed deadline waiting asleep.1
  simp only [Conforms, waiting] at conforms
  have mine := conforms.2.2 asleep.1
  rcases socket.process_wakes segment with awake | ⟨_, same⟩
  · simp [mine, awake] at asleep
  · rw [same]
    exact excused

theorem conforms_connecting (connecting : relay.connecting = true)
    (conforms : Conforms index relay socket) : socket.Untouched ∧ relay.taken = [] := by
  unfold Relay.connecting at connecting
  unfold Conforms at conforms
  split at connecting
  · next stage =>
      simp only [stage] at conforms
      exact conforms
  · next stage =>
      simp only [stage] at conforms
      exact ⟨conforms.1, conforms.2.1⟩
  · simp at connecting

/-- A relay which gave up had a reason. -/
def Excusable (relay : Relay) : Prop :=
  ∀ client, relay.failedOn = some client → client.Excuses

/-- What one relay and its socket have to be in for `HandshakesServed`. -/
def Served (index : ℕ) (relay : Relay) (socket : TcpSocket) : Prop :=
  Conforms index relay socket ∧ Noticed relay socket

theorem served_wake : WakeStable Served := by
  rintro index relay socket ⟨conforms, _⟩
  exact ⟨conforms_wake conforms, noticed_wake relay socket⟩

theorem served_failed (index : ℕ) (relay : Relay) (socket : TcpSocket)
    (client : Option ClientLog) : Served index (relay.fail client) socket := by
  refine ⟨trivial, ?_⟩
  intro deadline waiting
  simp [Relay.fail] at waiting

theorem excusable_failed {client : ClientLog} (excuses : client.Excuses) (relay : Relay) :
    Excusable (relay.fail client) := by
  rintro _ ⟨⟩
  exact excuses

/-- The connection is there: the relay takes it over. -/
theorem served_accepted (untouched : socket.Untouched) (opened : socket.Opened)
    (nothing : relay.taken = []) :
    Served index { relay with stage := if relay.isDns then .relaying else .accepted }
      socket := by
  cases isDns : relay.isDns with
  | true =>
      refine ⟨⟨opened, ?_, ?_⟩, ?_⟩
      · rw [nothing, List.nil_append, untouched.1]
      · simp
      · simp [Noticed]
  | false => exact ⟨⟨untouched, opened, nothing, rfl⟩, by simp [Noticed]⟩

/-- There is no connection yet: the relay goes to sleep at the socket, or gives up. -/
theorem served_pendEstablished (untouched : socket.Untouched) (nothing : relay.taken = [])
    (excuses : socket.client.Excuses) (excusable : Excusable relay) (now : ℕ) :
    Served index (Relay.pendEstablished now index socket relay).2
        (Relay.pendEstablished now index socket relay).1 ∧
      Excusable (Relay.pendEstablished now index socket relay).2 := by
  simp only [Relay.pendEstablished]
  split
  · exact ⟨served_failed _ _ _ _, excusable_failed excuses _⟩
  · exact ⟨⟨⟨untouched, nothing, fun _ => rfl⟩, fun _ _ _ => excuses⟩, excusable⟩

/-- A poll in any state but CLOSE-WAIT takes the connection over or has a reason not to. -/
theorem served_pollEstablished (connecting : relay.connecting = true)
    (served : Served index relay socket) (excusable : Excusable relay)
    (notCloseWait : socket.state ≠ .closeWait) (now : ℕ) :
    Served index (Relay.pollEstablished now index socket relay).2
        (Relay.pollEstablished now index socket relay).1 ∧
      Excusable (Relay.pollEstablished now index socket relay).2 := by
  rcases conforms_connecting connecting served.1 with ⟨untouched, nothing⟩
  have told := untouched.2
  cases state : socket.state with
  | established =>
      have opened : socket.Opened := by simp [TcpSocket.Opened, state]
      simp only [Relay.pollEstablished, state]
      exact ⟨served_accepted untouched opened nothing, excusable⟩
  | closed =>
      simp only [state] at told
      simp only [Relay.pollEstablished, state]
      exact ⟨served_failed _ _ _ _, excusable_failed (.inl told.1) _⟩
  | listen =>
      simp only [state] at told
      simp only [Relay.pollEstablished, state]
      exact served_pendEstablished untouched nothing (.inr told.2) excusable now
  | synReceived =>
      simp only [state] at told
      simp only [Relay.pollEstablished, state]
      exact served_pendEstablished untouched nothing (.inr told.2.1) excusable now
  | closeWait => exact absurd state notCloseWait
  | finWait1 | finWait2 | closing | lastAck | timeWait => simp [state] at told

/-- A poll in CLOSE-WAIT gives up a completed connection, or sleeps over it. -/
theorem not_delivered_closeWait (connecting : relay.connecting = true)
    (conforms : Conforms index relay socket) (closeWait : socket.state = .closeWait) (now : ℕ)
    (noticed : Noticed (Relay.pollEstablished now index socket relay).2
      (Relay.pollEstablished now index socket relay).1)
    (excusable : Excusable (Relay.pollEstablished now index socket relay).2) : False := by
  have told := (conforms_connecting connecting conforms).1.2
  simp only [closeWait] at told
  have inexcusable : ¬socket.client.Excuses := by
    simp [ClientLog.Excuses, told.1, told.2.1]
  simp only [Relay.pollEstablished, closeWait, Relay.pendEstablished] at noticed excusable
  by_cases late : relay.deadline now ≤ now
  · simp only [late, if_true] at excusable
    exact inexcusable (excusable _ rfl)
  · simp only [late, if_false] at noticed
    exact inexcusable (noticed _ rfl rfl)

theorem served_askDestination (accepted : relay.stage = .accepted)
    (served : Served index relay socket) (excusable : Excusable relay) :
    Served index (Relay.askDestination socket relay).2 (Relay.askDestination socket relay).1 ∧
      Excusable (Relay.askDestination socket relay).2 := by
  rcases served with ⟨conforms, _⟩
  simp only [Conforms, accepted] at conforms
  rcases conforms with ⟨untouched, opened, nothing, _⟩
  rcases TcpSocket.bound_or_reset untouched opened with ⟨dialed, remote, tuple, known⟩ | lost
  · simp only [Relay.askDestination, tuple]
    refine ⟨⟨⟨opened, ?_, fun _ => ⟨dialed, rfl, known⟩⟩, by simp [Noticed]⟩, excusable⟩
    rw [nothing, List.nil_append, untouched.1]
  · simp only [Relay.askDestination, lost.2]
    exact ⟨served_failed _ _ _ _, excusable_failed (.inl lost.1) _⟩

theorem noticed_of_stage (relaying : relay.stage = .relaying ∨ relay.stage = .ended) :
    Noticed relay socket := by
  intro deadline waiting
  rcases relaying with stage | stage <;> simp [stage] at waiting

theorem served_read (relaying : relay.stage = .relaying) (served : Served index relay socket)
    (room : ℕ) :
    Served index (Relay.readSocket room socket relay).2
      (Relay.readSocket room socket relay).1 := by
  rcases served with ⟨conforms, _⟩
  refine ⟨?_, noticed_of_stage (.inl relaying)⟩
  simp only [Conforms, Relay.readSocket, TcpSocket.recvSlice, relaying] at conforms ⊢
  rcases conforms with ⟨opened, taken, toDestination⟩
  refine ⟨opened, ?_, toDestination⟩
  rw [List.append_assoc, List.take_append_drop, taken]

theorem served_write (relaying : relay.stage = .relaying) (served : Served index relay socket)
    (bytes : List UInt8) :
    Served index (Relay.writeSocket bytes socket relay).2
      (Relay.writeSocket bytes socket relay).1 := by
  rcases served with ⟨conforms, noticed⟩
  refine ⟨?_, noticed_of_stage (.inl relaying)⟩
  simp only [Conforms, Relay.writeSocket, relaying] at conforms ⊢
  split <;> exact conforms

theorem served_close (relaying : relay.stage = .relaying) (served : Served index relay socket)
    (alive : Bool) : Served index { relay with alive } socket.close := by
  rcases served with ⟨conforms, _⟩
  refine ⟨?_, noticed_of_stage (.inl relaying)⟩
  simp only [Conforms, relaying] at conforms ⊢
  rcases conforms with ⟨opened, taken, toDestination⟩
  rw [socket.close_same.1, socket.close_same.2]
  exact ⟨TcpSocket.close_opened opened, taken, toDestination⟩

theorem served_ended (ended : relay.stage = .ended) : Served index relay socket :=
  ⟨by simp [Conforms, ended], noticed_of_stage (.inr ended)⟩

/-- The invariant: safe handles, and every relay with its socket as it has to be. -/
structure Settled (inner : TunInner) : Prop where
  safe : HandlesSafe inner
  served : AllPairs Served inner
  excusable : ∀ relay ∈ inner.relays, Excusable relay

theorem settled_initial : Settled initial :=
  ⟨handlesSafe_initial, allPairs_initial, by simp [initial]⟩

theorem Settled.handshakesServed (settled : Settled inner) : HandshakesServed inner := by
  refine ⟨settled.excusable, ?_⟩
  intro index relay slot found held present owned
  rcases settled.served index relay slot found held present owned with ⟨conforms, noticed⟩
  exact conforms.delivered.mpr noticed

theorem excusable_wakeFrom {relays : List Relay} (excusable : ∀ relay ∈ relays, Excusable relay)
    (old new : TcpSocket) : ∀ relay ∈ wakeFrom old new relays, Excusable relay := by
  intro relay member
  rcases List.mem_iff_getElem?.mp member with ⟨index, found⟩
  simp only [getElem?_wakeFrom, Option.map_eq_some_iff] at found
  rcases found with ⟨before, found, rfl⟩
  exact excusable before (List.mem_of_getElem? found)

theorem excusable_set {relays : List Relay} (excusable : ∀ relay ∈ relays, Excusable relay)
    (index : ℕ) {new : Relay} (also : Excusable new) :
    ∀ relay ∈ relays.set index new, Excusable relay := by
  intro other member
  rcases List.mem_or_eq_of_mem_set member with old | rfl
  · exact excusable other old
  · exact also

theorem Settled.prescan (settled : Settled inner) (segment : Segment) :
    Settled (inner.prescan segment) := by
  refine ⟨settled.safe.prescan segment, ?_, ?_⟩
  · apply settled.served.prescan settled.safe
    intro index handle isDns
    exact ⟨⟨TcpSocket.untouched_listening _, rfl⟩, by simp [Noticed, Relay.spawn]⟩
  · unfold TunInner.prescan
    split
    · exact settled.excusable
    · dsimp only
      split
      · intro relay member
        simp only [List.mem_append, List.mem_singleton] at member
        rcases member with old | rfl
        · exact settled.excusable relay old
        · simp [Excusable, Relay.spawn]
      · exact settled.excusable

theorem Settled.poll (settled : Settled inner) : Settled inner.poll := by
  refine ⟨settled.safe.poll, ?_, ?_⟩
  · apply settled.served.poll served_wake
    rintro index relay socket segment ⟨conforms, noticed⟩
    exact ⟨conforms_process conforms segment, noticed_process conforms noticed segment⟩
  · unfold TunInner.poll
    split
    · exact settled.excusable
    · dsimp only
      split
      · exact settled.excusable
      · split
        · exact settled.excusable
        · exact excusable_wakeFrom settled.excusable _ _

theorem Settled.sweep (settled : Settled inner) (spared : SweepSpares inner .sweep) :
    Settled inner.sweep := by
  refine ⟨(handlesSafe_sweep settled.safe).mpr spared, settled.served.sweep, ?_⟩
  unfold TunInner.sweep
  split <;> exact settled.excusable

theorem Settled.access (settled : Settled inner) (found : inner.relays[index]? = some relay)
    (held : relay.held = true) {use : SocketUse} {gone : Relay → Relay}
    (useHandle : ∀ socket, (use socket relay).2.handle = relay.handle)
    (kept : ∀ slot, inner.sockets.get relay.handle = some slot →
      Served index relay slot.socket → Excusable relay →
      Served index (use slot.socket relay).2 (use slot.socket relay).1 ∧
        Excusable (use slot.socket relay).2) :
    Settled (inner.access index relay use gone) := by
  have also := settled.excusable relay (List.mem_of_getElem? found)
  refine ⟨settled.safe.access found held useHandle, ?_, ?_⟩
  · apply settled.served.access settled.safe served_wake found held useHandle
    intro slot present served _
    exact (kept slot present served also).1
  · rcases settled.safe.held index relay found held with ⟨slot, present, owned⟩
    have served := settled.served index relay slot found held present owned
    unfold TunInner.access
    simp only [present]
    exact excusable_wakeFrom
      (excusable_set settled.excusable index (kept slot present served also).2) _ _

theorem Settled.relayStep (settled : Settled inner) {enabled : Relay → Bool} {use : SocketUse}
    {gone : Relay → Relay} (enabledHeld : ∀ relay, enabled relay = true → relay.held = true)
    (useHandle : ∀ socket relay, (use socket relay).2.handle = relay.handle)
    (kept : ∀ relay slot, inner.relays[index]? = some relay → enabled relay = true →
      inner.sockets.get relay.handle = some slot →
      Served index relay slot.socket → Excusable relay →
      Served index (use slot.socket relay).2 (use slot.socket relay).1 ∧
        Excusable (use slot.socket relay).2) :
    Settled (inner.relayStep index enabled use gone) := by
  unfold TunInner.relayStep
  split
  · exact settled
  · next relay found =>
      split
      · next ready =>
          apply settled.access found (enabledHeld relay ready) fun _ => useHandle _ _
          intro slot present
          exact kept relay slot found ready present
      · exact settled

theorem Settled.closeStep (settled : Settled inner) {enabled : Relay → Bool}
    {next : Relay → Relay} (enabledHeld : ∀ relay, enabled relay = true → relay.held = true)
    (nextHandle : ∀ relay, (next relay).handle = relay.handle)
    (kept : ∀ relay socket alive, enabled relay = true → Served index relay socket →
      Excusable relay →
      Served index (next { relay with alive }) socket ∧
        Served index (next { relay with alive }) socket.close ∧
        Excusable (next { relay with alive })) :
    Settled (inner.closeStep index enabled next) := by
  unfold TunInner.closeStep
  split
  · exact settled
  · next relay found =>
      split
      · next ready =>
          have held := enabledHeld relay ready
          split
          · apply settled.access found held fun _ => nextHandle _
            intro slot present served excusable
            exact (kept relay slot.socket false ready served excusable).2
          · rcases settled.safe.held index relay found held with ⟨slot, present, owned⟩
            have also := settled.excusable relay (List.mem_of_getElem? found)
            have served := settled.served index relay slot found held present owned
            refine ⟨settled.safe.set found (nextHandle relay) held, ?_, ?_⟩
            · apply settled.served.set (nextHandle relay)
              intro other here _ _
              rw [present, Option.some.injEq] at here
              subst here
              exact (kept relay slot.socket relay.alive ready served also).1
            · exact excusable_set settled.excusable index
                (kept relay slot.socket relay.alive ready served also).2.2
      · exact settled

theorem awaited_eq (found : inner.relays[index]? = some relay)
    (connecting : relay.connecting = true) :
    inner.awaited index = inner.sockets.get relay.handle := by
  simp [awaited, found, connecting]

theorem settled_step (settled : Settled inner) {event : SocketEvent}
    (spared : SweepSpares inner event) (early : PolledBeforeFin inner event) :
    Settled (inner.step event) := by
  cases event with
  | tick elapsed => exact ⟨⟨settled.safe.held, settled.safe.own⟩, settled.served, settled.excusable⟩
  | prescan segment => exact settled.prescan segment
  | poll => exact settled.poll
  | sweep => exact settled.sweep spared
  | waitEstablished index =>
      apply settled.relayStep (fun _ => connecting_held) (pollEstablished_handle _ _)
      intro relay slot found ready present served excusable
      apply served_pollEstablished ready served excusable
      intro closeWait
      simp [PolledBeforeFin, awaited_eq found ready, present, closeWait] at early
  | destination index =>
      apply settled.relayStep accepted_held askDestination_handle
      intro relay slot _ ready _ served excusable
      exact served_askDestination (beq_iff_eq.mp ready) served excusable
  | source index =>
      apply settled.relayStep relaying_held fun _ _ => rfl
      intro relay slot _ _ _ served excusable
      exact ⟨served, excusable⟩
  | read index room =>
      apply settled.relayStep relaying_held fun _ _ => rfl
      intro relay slot _ ready _ served excusable
      exact ⟨served_read (beq_iff_eq.mp ready) served room, excusable⟩
  | write index bytes =>
      apply settled.relayStep relaying_held fun _ _ => rfl
      intro relay slot _ ready _ served excusable
      exact ⟨served_write (beq_iff_eq.mp ready) served bytes, excusable⟩
  | shutdown index =>
      apply settled.relayStep relaying_held fun _ _ => rfl
      intro relay slot _ ready _ served excusable
      exact ⟨served_close (beq_iff_eq.mp ready) served relay.alive, excusable⟩
  | close index =>
      apply settled.closeStep relaying_held
      · intro relay
        rfl
      · intro relay socket alive ready served excusable
        exact ⟨served, served_close (beq_iff_eq.mp ready) served alive, excusable⟩
  | drop index =>
      apply settled.closeStep dropping_held
      · intro relay
        rfl
      · intro relay socket alive _ _ excusable
        exact ⟨served_ended rfl, served_ended rfl, excusable⟩

/-- The poll of a relay whose client has already sent its FIN. -/
theorem not_served_closeWait (settled : Settled inner)
    (found : inner.relays[index]? = some relay) (connecting : relay.connecting = true)
    {slot : SocketSlot} (present : inner.sockets.get relay.handle = some slot)
    (closeWait : slot.socket.state = .closeWait) :
    ¬HandshakesServed (inner.step (.waitEstablished index)) := by
  intro served
  rcases settled.safe.held index relay found (connecting_held connecting) with ⟨_, here, owned⟩
  rw [present, Option.some.injEq] at here
  subst here
  have conforms :=
    (settled.served index relay slot found (connecting_held connecting) present owned).1
  have polled : Relay.pollEstablished inner.now index slot.socket relay =
      Relay.pendEstablished inner.now index slot.socket relay := by
    simp only [Relay.pollEstablished, closeWait]
  have asleep : ¬(slot.socket.waker = some index ∧
      (Relay.pendEstablished inner.now index slot.socket relay).1.waker = none) := by
    simp [Relay.pendEstablished]
  have held : (Relay.pendEstablished inner.now index slot.socket relay).2.held = true := by
    simp only [Relay.pendEstablished]
    split <;> rfl
  have step : inner.step (.waitEstablished index) =
      inner.access index relay (Relay.pollEstablished inner.now index) (Relay.fail · none) := by
    simp [TunInner.step, relayStep, found, connecting]
  rcases access_self found present (Relay.pollEstablished inner.now index) (Relay.fail · none)
    with ⟨current, changed⟩
  rw [← step, polled, Relay.wokenBy_asleep asleep] at current
  rw [← step, polled] at changed
  apply not_delivered_closeWait connecting conforms closeWait inner.now
  · rw [polled]
    rw [← pendEstablished_handle inner.now index slot.socket relay] at changed
    exact (served.delivered _ _ _ current held changed owned).noticed
  · rw [polled]
    exact served.not_refused _ (List.mem_of_getElem? current)

theorem polledBeforeFin_of_served (settled : Settled inner) {event : SocketEvent}
    (served : HandshakesServed (inner.step event)) : PolledBeforeFin inner event := by
  cases event with
  | waitEstablished index =>
      rcases found : inner.relays[index]? with _ | relay
      · simp [PolledBeforeFin, awaited, found]
      · cases connecting : relay.connecting with
        | false => simp [PolledBeforeFin, awaited, found, connecting]
        | true =>
            rcases settled.safe.held index relay found (connecting_held connecting) with
              ⟨slot, present, _⟩
            simp only [PolledBeforeFin, awaited_eq found connecting, present, Option.any_some,
              beq_eq_false_iff_ne]
            intro closeWait
            exact not_served_closeWait settled found connecting present closeWait served
  | _ => trivial

/--
As long as no sweep takes a socket in use, every completed handshake is served
throughout a run exactly if no waiting relay is polled after the FIN of its
client.
-/
theorem handshakes_served_iff {events : List SocketEvent}
    (spared : Along step SweepSpares initial events) :
    Throughout step HandshakesServed initial events ↔
      Along step PolledBeforeFin initial events := by
  apply throughout_iff_along Settled
  · exact Settled.handshakesServed
  · intro inner event spared settled early
    exact settled_step settled spared early
  · intro inner event _ settled served
    exact polledBeforeFin_of_served settled served
  · exact spared
  · exact settled_initial

/-- A client sends a request and its FIN at once, after its relay has looked at the socket. -/
def lateFin : List SocketEvent :=
  [.prescan ⟨clientEndpoint 40000, webEndpoint, .syn⟩, .poll, .waitEstablished 0,
    .prescan ⟨clientEndpoint 40000, webEndpoint, .ack [71] false⟩, .poll, .waitEstablished 0,
    .prescan ⟨clientEndpoint 40000, webEndpoint, .fin [69, 84] false⟩, .poll, .sweep,
    .destination 0, .read 0 16]

theorem handshakes_served_lateFin : Throughout step HandshakesServed initial lateFin :=
  (handshakes_served_iff (by decide)).mpr (by decide)

/-- The same client, whose FIN comes in the same batch of packets as the end of the handshake. -/
def earlyFin : List SocketEvent :=
  [.prescan ⟨clientEndpoint 40000, webEndpoint, .syn⟩, .poll, .waitEstablished 0,
    .prescan ⟨clientEndpoint 40000, webEndpoint, .ack [71] false⟩, .poll,
    .prescan ⟨clientEndpoint 40000, webEndpoint, .fin [69, 84] false⟩, .poll,
    .waitEstablished 0, .tick 15000, .waitEstablished 0]

theorem not_handshakes_served_earlyFin : ¬Throughout step HandshakesServed initial earlyFin := by
  intro throughout
  have gaveUp : ∃ relay ∈ (run step initial earlyFin).relays,
      relay.failedOn = some ⟨some webEndpoint, [71, 69, 84], true, false⟩ := by
    decide
  rcases gaveUp with ⟨relay, member, failed⟩
  have excuses := throughout.run.not_refused relay member _ failed
  simp [ClientLog.Excuses] at excuses

end TunInner

end Mirage.Tun
