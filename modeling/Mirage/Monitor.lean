import Mirage.Foundations.MutualMaps
import Mirage.Foundations.Run

/-!
# Live connections

The registry of live connections and the relays which are registered in it, as
one machine.  A relay registers itself, prepares, and then waits in a `select!`
for its upload, its download or the `Notify` of its registration.  An event is
one step of one relay between two points at which others may run, or one call
to the registry.

`notify_waiters` reaches only a `Notified` which has been created, and no permit
is stored: a relay hears it exactly in its `select!`.  The branches of a
`select!` are polled in any order, so a transfer may go first there.
-/

namespace Mirage.Monitor

open Mirage.Foundations

/-- `blocked` is a flow which is registered for the display only. -/
inductive RelayKind where
  | proxy
  | direct
  | mux
  | single
  | udpDirect
  | blocked
  deriving DecidableEq, Repr

def RelayKind.isTcp : RelayKind → Bool
  | .proxy | .direct => true
  | _ => false

/--
Where a relay is.  `preparing` is a prefetch, a connect or the choice of a
tunnel; in `sending` a mux relay has taken a datagram and left its `select!`.
-/
inductive Stage where
  | unregistered
  | preparing
  | sendingInitial (data : List UInt8) (retried : Bool)
  | selecting (notified uploading : Bool)
  | sending (payload : List UInt8)
  | drainingDown
  | drainingUp
  | fallingBack
  | closing
  | done
  deriving DecidableEq, Repr

/-- The relay has been told to stop, or it has no upload any more. -/
def Stage.stopping : Stage → Bool
  | .selecting notified _ => notified
  | .drainingDown | .closing | .done => true
  | _ => false

/-- Whether `notify_waiters` reaches the relay, or need not. -/
def Stage.hears : Stage → Bool
  | .selecting _ _ | .drainingDown | .closing | .done => true
  | _ => false

/--
`forwarded` is the client data which has been handed to the tunnel or socket,
`killed` what it was when `close_connection` first returned `true` for it.
-/
structure Relay where
  kind : RelayKind
  initial : List UInt8
  mayFallBack : Bool
  id : UInt64
  stage : Stage
  forwarded : List (List UInt8)
  killed : Option (List (List UInt8))
  deriving DecidableEq, Repr

/-- A relay's own steps, other than the two which change the registry. -/
inductive RelayStep where
  | abandoned
  | prepared (prefetched : List UInt8)
  | prepareFails
  | initialWritten
  | initialFails
  | forward (data : List UInt8)
  | receive (payload : List UInt8) (framed : Bool)
  | sent (succeeds : Bool)
  | uploadEnds
  | downloadEnds
  | ends
  | aborted
  | drained
  deriving DecidableEq, Repr

namespace Relay

def new (kind : RelayKind) (initial : List UInt8) (mayFallBack : Bool) : Relay where
  kind
  initial
  mayFallBack
  id := 0
  stage := .unregistered
  forwarded := []
  killed := none

def goTo (relay : Relay) (stage : Stage) : Relay :=
  { relay with stage }

def push (relay : Relay) (data : List UInt8) : Relay :=
  { relay with forwarded := relay.forwarded ++ [data] }

/-- The `select!` is entered, with a `Notified` of its own. -/
def select (relay : Relay) : Relay :=
  relay.goTo (.selecting false true)

/-- The first data: what was sniffed, or else what the proxy relay has prefetched. -/
def firstData (relay : Relay) (prefetched : List UInt8) : List UInt8 :=
  match relay.kind with
  | .proxy => if relay.initial = [] then prefetched else relay.initial
  | .direct => relay.initial
  | _ => []

def prepared (relay : Relay) (prefetched : List UInt8) : Relay :=
  if relay.kind = .blocked then relay.goTo .closing
  else if relay.firstData prefetched = [] then relay.select
  else relay.goTo (.sendingInitial (relay.firstData prefetched) false)

/-- Only a direct relay which failed to connect may go on as a proxy relay. -/
def prepareFails (relay : Relay) : Relay :=
  match relay.kind with
  | .direct => relay.goTo (if relay.mayFallBack then .fallingBack else .closing)
  | .mux | .single => relay.goTo .closing
  | _ => relay

/-- An empty read is the end of a TCP stream, an empty datagram is a datagram. -/
def forwards (relay : Relay) (data : List UInt8) : Bool :=
  match relay.kind with
  | .proxy | .direct => data != []
  | .single | .udpDirect => true
  | .mux | .blocked => false

/-- The step takes a branch of the `select!` after which the relay goes on with its upload. -/
def transfers (relay : Relay) (step : RelayStep) : Bool :=
  match relay.stage, step with
  | .selecting _ uploading, .forward data => uploading && relay.forwards data
  | .selecting _ _, .receive _ _ => relay.kind == .mux
  | .selecting _ _, .downloadEnds => relay.kind.isTcp
  | _, _ => false

/-- A step in the `select!`. -/
def selectStep (relay : Relay) (notified uploading : Bool) : RelayStep → Relay
  | .forward data => if uploading && relay.forwards data then relay.push data else relay
  | .receive payload framed =>
      if relay.kind = .mux then
        if framed then relay.goTo (.sending payload) else relay.select
      else relay
  | .uploadEnds =>
      match relay.kind with
      | .proxy | .direct => relay.goTo .drainingDown
      | .single | .udpDirect => relay.goTo (.selecting notified false)
      | .mux | .blocked => relay
  | .downloadEnds => if relay.kind.isTcp then relay.goTo .drainingUp else relay
  | .ends =>
      if relay.kind = .mux ∨ !relay.kind.isTcp && !uploading then relay.goTo .closing else relay
  | .aborted => if notified then relay.goTo .closing else relay
  | _ => relay

def act (relay : Relay) (step : RelayStep) : Relay :=
  match relay.stage, step with
  | .unregistered, .abandoned => relay.goTo .done
  | .preparing, .prepared prefetched => relay.prepared prefetched
  | .preparing, .prepareFails => relay.prepareFails
  | .sendingInitial data _, .initialWritten => (relay.push data).select
  | .sendingInitial data retried, .initialFails =>
      relay.goTo (if relay.kind = .proxy ∧ !retried then .sendingInitial data true else .closing)
  | .selecting notified uploading, step => relay.selectStep notified uploading step
  | .sending payload, .sent succeeds =>
      if succeeds then (relay.push payload).select else relay.goTo .closing
  -- the other half goes on for at most two or three seconds, without the `Notify`
  | .drainingUp, .forward data => if relay.forwards data then relay.push data else relay
  | .drainingUp, .drained | .drainingDown, .drained => relay.goTo .closing
  | _, _ => relay

/-- `notify_waiters` on the `Notify` of the relay's registration. -/
def notify (relay : Relay) : Relay :=
  match relay.stage with
  | .selecting _ uploading => relay.goTo (.selecting true uploading)
  | _ => relay

def kill (relay : Relay) : Relay :=
  { relay.notify with killed := relay.killed.or (some relay.forwarded) }

/-- A killed relay is going to stop, and it has forwarded nothing since. -/
def Obeys (relay : Relay) : Prop :=
  ∀ before, relay.killed = some before →
    relay.forwarded = before ∧ relay.stage.stopping = true

instance (relay : Relay) : Decidable relay.Obeys :=
  match killed : relay.killed with
  | none => .isTrue (by intro before some; rw [killed] at some; cases some)
  | some before =>
      decidable_of_iff (relay.forwarded = before ∧ relay.stage.stopping = true)
        (by simp [Obeys, killed])

end Relay

/-- `active` tells which relay is registered under an id. -/
structure Registry where
  nextConnId : UInt64
  active : FiniteMap UInt64 ℕ
  relays : List Relay

inductive RegistryEvent where
  | start (kind : RelayKind) (initial : List UInt8) (mayFallBack : Bool)
  | recordConnStart (relay : ℕ)
  | act (relay : ℕ) (step : RelayStep)
  | recordConnClose (relay : ℕ)
  | closeConnection (id : UInt64)
  | closeAllConnections
  | resetSession
  deriving DecidableEq, Repr

namespace Registry

def new : Registry where
  nextConnId := 1
  active := ∅
  relays := []

def modify (registry : Registry) (index : ℕ) (change : Relay → Relay) : Registry :=
  { registry with relays := registry.relays.modify index change }

/-- `record_conn_start_with_app`, by a relay which was not registered or is about to be again. -/
def recordConnStart (registry : Registry) (index : ℕ) : Registry :=
  match registry.relays[index]?.map Relay.stage with
  | some .unregistered =>
      { registry with
        nextConnId := registry.nextConnId + 1
        active := registry.active.insert registry.nextConnId index }.modify index fun relay =>
          { relay with id := registry.nextConnId, stage := .preparing }
  | _ => registry

/-- `record_conn_close`; a direct relay which falls back goes on as a proxy relay. -/
def recordConnClose (registry : Registry) (index : ℕ) : Registry :=
  match registry.relays[index]? with
  | none => registry
  | some relay =>
      match relay.stage with
      | .closing =>
          { registry with active := registry.active.erase relay.id }.modify index (·.goTo .done)
      | .fallingBack =>
          { registry with active := registry.active.erase relay.id }.modify index fun relay =>
            { relay with kind := .proxy, stage := .unregistered }
      | _ => registry

def closeConnection (registry : Registry) (id : UInt64) : Registry × Bool :=
  match registry.active.lookup id with
  | some index => (registry.modify index Relay.kill, true)
  | none => (registry, false)

def closeAllConnections (registry : Registry) : Registry × ℕ :=
  ((registry.active.entries.map Sigma.snd).foldl
      (fun registry index => registry.modify index Relay.notify) registry,
    registry.active.entries.length)

def resetSession (registry : Registry) : Registry :=
  { registry with active := ∅ }

def step (registry : Registry) : RegistryEvent → Registry
  | .start kind initial mayFallBack =>
      { registry with relays := registry.relays ++ [.new kind initial mayFallBack] }
  | .recordConnStart index => registry.recordConnStart index
  | .act index step => registry.modify index (·.act step)
  | .recordConnClose index => registry.recordConnClose index
  | .closeConnection id => (registry.closeConnection id).1
  | .closeAllConnections => registry.closeAllConnections.1
  | .resetSession => registry.resetSession

end Registry

end Mirage.Monitor
