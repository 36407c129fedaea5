import Mirage.Failover
import Mirage.Foundations.Run

/-!
# The kernel's global state

The calls of the shell which change it, `start`, `stop` and `setNode`, and the
watchdogs, as one machine.  An event is one step of one call or one watchdog
between two of its accesses to a global, or one of the calls that make a single
access.

A session is a `RunState`: a TUN stack and the tokio runtime under it.  It is
named by its number, and what is kept of it is the URI that its engine was built
from.  A watchdog keeps the runtime it is spawned on alive as long as it runs.
-/

namespace Mirage.Jni

open Mirage.Failover Mirage.Foundations

/--
Where a call is.  `changed` tells that `setNode` has replaced the current URI by
another one; `startTail` is what is left of `start` when the watchdog runs.
-/
inductive Call where
  | startChecked (uri : String)
  | startEntered (uri : String)
  | startWrote (uri : String)
  | startInstalled (session : ℕ)
  | startBumped (session : ℕ) (gen : UInt64)
  | startTail (session : ℕ)
  | startFailed
  | stopTaken (session : Option ℕ)
  | stopDropped
  | setNodeParsed (uri : String)
  | setNodeWrote (uri : String) (changed : Bool)
  | setNodeAttached (uri : String) (changed : Bool) (session : ℕ)
  | setNodeBuilt (uri : String) (changed : Bool) (session : ℕ)
  | setNodeFailed (changed : Bool)
  | returned
  deriving DecidableEq, Repr

namespace Call

/-- The session of which the call holds the runtime. -/
def session? : Call → Option ℕ
  | .startInstalled session | .startBumped session _ | .startTail session => some session
  | .stopTaken session => session
  | .setNodeAttached _ _ session | .setNodeBuilt _ _ session => some session
  | _ => none

def ended : Call → Bool
  | .startFailed | .setNodeFailed _ | .returned => true
  | _ => false

end Call

/-- What the watchdog found in one round. -/
structure Round where
  enabled : Bool
  online : Bool
  healthy : Bool
  deriving DecidableEq, Repr

def Round.bad (round : Round) : Bool := round.enabled && round.online && !round.healthy

/-- Where a watchdog is in its loop; from `attached` on it is in a round. -/
inductive WatchPhase where
  | top
  | sleeping (wait : UInt32)
  | woken
  | attached
  | acting
  | probing (candidates : List String) (current : Option String)
  | delaying (uri : String)
  | switching (uri : String)
  | built (uri : String)
  | swapped (uri : String)
  | emitting (kind : EventKind) (uri : String)
  | exited
  deriving DecidableEq, Repr

/-- `state` is the session which a round works on; `rounds` are its rounds, latest first. -/
structure Watchdog where
  gen : UInt64
  home : ℕ
  policy : FailoverPolicy
  failures : ℕ
  backoff : UInt32
  state : Option ℕ
  phase : WatchPhase
  rounds : List Round
  deriving DecidableEq, Repr

/-- What comes from outside in a watchdog's step: health, probing, and `Engine::new`. -/
structure Reading where
  healthy : Bool
  best : Option String
  builds : Bool
  deriving DecidableEq, Repr

namespace Watchdog

def new (gen : UInt64) (home : ℕ) : Watchdog where
  gen
  home
  policy := .default
  failures := 0
  backoff := 0
  state := none
  phase := .top
  rounds := []

def exited (watchdog : Watchdog) : Bool := watchdog.phase == .exited

def holds (watchdog : Watchdog) (session : ℕ) : Bool :=
  !watchdog.exited && (watchdog.home == session || watchdog.state == some session)

/-- The round is over. -/
def rest (watchdog : Watchdog) : Watchdog :=
  { watchdog with state := none, phase := .top }

def exit (watchdog : Watchdog) : Watchdog :=
  { watchdog with state := none, phase := .exited }

def judge (watchdog : Watchdog) (round : Round) : Watchdog :=
  let judged := { watchdog with rounds := round :: watchdog.rounds }
  if !round.enabled then judged.rest
  else if !round.online then { judged with failures := 0 }.rest
  else if round.healthy then { judged with failures := 0, backoff := 0 }.rest
  else if watchdog.failures + 1 < 2 then { judged with failures := watchdog.failures + 1 }.rest
  else { judged with failures := 0, phase := .acting }

/-- No node can be switched to: the shell is asked for a restart after a delay. -/
def requestLater (watchdog : Watchdog) (uri : String) : Watchdog :=
  { watchdog with backoff := escalateBackoff watchdog.backoff, phase := .delaying uri }

def choose (watchdog : Watchdog) (nodes : List String) (current : Option String) : Watchdog :=
  match nodes.filter fun uri => some uri != current with
  | [] => watchdog.requestLater (current.getD "")
  | first :: rest =>
      if watchdog.policy.mode = "best" then
        { watchdog with phase := .probing (first :: rest) current }
      else { watchdog with phase := .switching first }

/-- `pick_best_node` gives one of the candidates, if any was reached. -/
def probed (watchdog : Watchdog) (candidates : List String) (current best : Option String) :
    Watchdog :=
  match best with
  | none => watchdog.requestLater (current.getD "")
  | some uri =>
      if uri ∈ candidates then { watchdog with phase := .switching uri } else watchdog

/-- The first half of `switch_engine_to`. -/
def build (watchdog : Watchdog) (uri : String) (builds : Bool) : Watchdog :=
  if builds then { watchdog with phase := .built uri }
  else
    { watchdog with
      backoff := escalateBackoff watchdog.backoff
      phase := .emitting .restartRequested uri }

end Watchdog

inductive Act where
  | emitted (kind : EventKind) (uri : String)
  | swapped (session : ℕ) (uri : String)
  | wroteCurrent (uri : String)
  deriving DecidableEq, Repr

/-- What the next step of a watchdog does to the rest of the system, if anything. -/
def Watchdog.act? (watchdog : Watchdog) : Option Act :=
  match watchdog.phase with
  | .built uri => watchdog.state.map (.swapped · uri)
  | .swapped uri => some (.wroteCurrent uri)
  | .emitting kind uri => some (.emitted kind uri)
  | _ => none

/-- An act of a watchdog, with what held when it was done. -/
structure Deed where
  act : Act
  home : ℕ
  installed : Option ℕ
  enabled : Bool
  rounds : List Round
  deriving DecidableEq, Repr

/--
`engines` gives for each session the URI which its engine was built from.
`panicked` records that the last reference to a runtime was dropped by a task.
-/
structure Kernel where
  runtime : Option ℕ
  currentNodeUri : Option String
  started : Bool
  watchdogGen : UInt64
  policy : FailoverPolicy
  hasInternet : Bool
  nodes : List String
  engines : List String
  calls : List Call
  watchdogs : List Watchdog
  deeds : List Deed
  panicked : Bool
  deriving DecidableEq, Repr

/-- `advance` is the next step of a call; `succeeds` is for the steps which may fail. -/
inductive KernelEvent where
  | start (uri : String)
  | stop
  | setNode (uri : String)
  | advance (call : ℕ) (succeeds : Bool)
  | watch (watchdog : ℕ) (reading : Reading)
  | setPolicy (fields : Option FailoverFields)
  | setNodeList (nodes : Option (List String))
  | onNetworkChanged (hasInternet : Bool)
  deriving DecidableEq, Repr

namespace Kernel

def new : Kernel where
  runtime := none
  currentNodeUri := none
  started := false
  watchdogGen := 0
  policy := .default
  hasInternet := false
  nodes := []
  engines := []
  calls := []
  watchdogs := []
  deeds := []
  panicked := false

/-- Someone holds a reference to the runtime of the session. -/
def held (kernel : Kernel) (session : ℕ) : Bool :=
  kernel.runtime == some session ||
    kernel.calls.any (fun call => call.session? == some session) ||
    kernel.watchdogs.any (fun watchdog => watchdog.holds session)

def call (kernel : Kernel) (call : Call) : Kernel :=
  { kernel with calls := kernel.calls ++ [call] }

def setCall (kernel : Kernel) (index : ℕ) (call : Call) : Kernel :=
  { kernel with calls := kernel.calls.set index call }

/-- A watchdog steps, on a worker thread, and drops the references which it does not keep. -/
def update (kernel : Kernel) (index : ℕ) (old new : Watchdog) : Kernel :=
  let updated := { kernel with watchdogs := kernel.watchdogs.set index new }
  { updated with
    panicked :=
      kernel.panicked || (old.home :: old.state.toList).any fun session => !updated.held session }

def setEngine (kernel : Kernel) (session : ℕ) (uri : String) : Kernel :=
  { kernel with engines := kernel.engines.set session uri }

def writeCurrent (kernel : Kernel) (uri : String) : Kernel :=
  { kernel with currentNodeUri := some uri }

/-- `swap_engine`, the write of the current URI, or an event for the shell. -/
def apply (kernel : Kernel) : Act → Kernel
  | .swapped session uri => kernel.setEngine session uri
  | .wroteCurrent uri => kernel.writeCurrent uri
  | .emitted _ _ => kernel

def record (kernel : Kernel) (watchdog : Watchdog) (act : Act) : Kernel :=
  { kernel with
    deeds := kernel.deeds ++
      [⟨act, watchdog.home, kernel.runtime, kernel.policy.enabled, watchdog.rounds⟩] }

def perform (kernel : Kernel) (watchdog : Watchdog) : Kernel :=
  watchdog.act?.elim kernel fun act => (kernel.apply act).record watchdog act

/-- The URI which the installed engine was built from. -/
def installedUri (kernel : Kernel) : Option String :=
  kernel.runtime.bind fun session => kernel.engines[session]?

/-- The first steps of `start`: if a session runs, the call has nothing to do. -/
def start (kernel : Kernel) (uri : String) : Kernel :=
  kernel.call (if kernel.started && kernel.runtime.isSome then .returned else .startChecked uri)

def stop (kernel : Kernel) : Kernel :=
  { kernel with runtime := none }.call (.stopTaken kernel.runtime)

section Parsing

variable (parses : String → Bool)

def setNode (kernel : Kernel) (uri : String) : Kernel :=
  kernel.call (if parses uri then .setNodeParsed uri else .setNodeFailed false)

/-- The session is installed in the place of the one which was there, if any. -/
def install (kernel : Kernel) (uri : String) : Kernel :=
  { kernel with runtime := some kernel.engines.length, engines := kernel.engines ++ [uri] }

/-- `spawn_failover_watchdog` takes the session which is installed when it looks. -/
def spawnWatchdog (kernel : Kernel) (gen : UInt64) : Kernel :=
  match kernel.runtime with
  | some session => { kernel with watchdogs := kernel.watchdogs ++ [.new gen session] }
  | none => kernel

def advance (kernel : Kernel) (index : ℕ) (succeeds : Bool) : Call → Kernel
  | .startChecked uri => { kernel with started := true }.setCall index (.startEntered uri)
  | .startEntered uri =>
      if parses uri then (kernel.writeCurrent uri).setCall index (.startWrote uri)
      else { kernel with started := false }.setCall index .startFailed
  | .startWrote uri =>
      if succeeds then
        (kernel.install uri).setCall index (.startInstalled kernel.engines.length)
      else { kernel with started := false }.setCall index .startFailed
  | .startInstalled session =>
      { kernel with watchdogGen := kernel.watchdogGen + 1 }.setCall index
        (.startBumped session (kernel.watchdogGen + 1))
  | .startBumped session gen => (kernel.spawnWatchdog gen).setCall index (.startTail session)
  | .startTail _ => kernel.setCall index .returned
  | .stopTaken _ => kernel.setCall index .stopDropped
  | .stopDropped => { kernel with started := false }.setCall index .returned
  -- the URI is written before it is known whether there is an engine to be replaced
  | .setNodeParsed uri =>
      (kernel.writeCurrent uri).setCall index
        (.setNodeWrote uri (kernel.currentNodeUri != some uri))
  | .setNodeWrote uri changed =>
      kernel.setCall index
        (kernel.runtime.elim (.setNodeFailed changed) (.setNodeAttached uri changed))
  | .setNodeAttached uri changed session =>
      kernel.setCall index
        (if succeeds then .setNodeBuilt uri changed session else .setNodeFailed changed)
  | .setNodeBuilt uri _ session => (kernel.setEngine session uri).setCall index .returned
  | .startFailed | .setNodeFailed _ | .returned => kernel

/-- The watchdog after its next step. -/
def next (kernel : Kernel) (reading : Reading) (watchdog : Watchdog) : Watchdog :=
  match watchdog.phase with
  | .top =>
      { watchdog with
        policy := kernel.policy
        phase := .sleeping (kernel.policy.wait watchdog.backoff) }
  | .sleeping _ =>
      if kernel.watchdogGen = watchdog.gen then { watchdog with phase := .woken }
      else watchdog.exit
  | .woken =>
      kernel.runtime.elim watchdog.exit fun session =>
        { watchdog with state := some session, phase := .attached }
  | .attached =>
      watchdog.judge ⟨watchdog.policy.enabled, kernel.hasInternet, reading.healthy⟩
  | .acting => watchdog.choose kernel.nodes kernel.currentNodeUri
  | .probing candidates current => watchdog.probed candidates current reading.best
  | .delaying uri => { watchdog with phase := .emitting .restartRequested uri }
  | .switching uri => watchdog.build uri (parses uri && reading.builds)
  | .built uri => { watchdog with phase := .swapped uri }
  | .swapped uri => { watchdog with backoff := 0, phase := .emitting .switched uri }
  | .emitting _ _ => watchdog.rest
  | .exited => watchdog

def watch (kernel : Kernel) (index : ℕ) (reading : Reading) (watchdog : Watchdog) : Kernel :=
  if watchdog.exited then kernel
  else
    (kernel.perform watchdog).update index watchdog (kernel.next parses reading watchdog)

def step (kernel : Kernel) : KernelEvent → Kernel
  | .start uri => kernel.start uri
  | .stop => kernel.stop
  | .setNode uri => kernel.setNode parses uri
  | .advance index succeeds =>
      kernel.calls[index]?.elim kernel (kernel.advance parses index succeeds)
  | .watch index reading =>
      kernel.watchdogs[index]?.elim kernel (kernel.watch parses index reading)
  | .setPolicy fields => { kernel with policy := (Failover.setPolicy kernel.policy fields).1 }
  | .setNodeList nodes => { kernel with nodes := (Failover.setNodeList kernel.nodes nodes).1 }
  | .onNetworkChanged hasInternet => { kernel with hasInternet }

/-- The steps of the calls leave the policy and the record of what was done alone. -/
theorem advance_frame (kernel : Kernel) (index : ℕ) (succeeds : Bool) (call : Call) :
    (kernel.advance parses index succeeds call).policy = kernel.policy ∧
      (kernel.advance parses index succeeds call).deeds = kernel.deeds := by
  cases call with
  | startEntered uri => simp only [advance]; split <;> exact ⟨rfl, rfl⟩
  | startWrote uri => simp only [advance]; split <;> exact ⟨rfl, rfl⟩
  | startBumped session gen => simp only [advance, spawnWatchdog]; split <;> exact ⟨rfl, rfl⟩
  | _ => exact ⟨rfl, rfl⟩

/-- The only step of a call which touches the watchdogs is the one that spawns one. -/
theorem advance_watchdogs (kernel : Kernel) (index : ℕ) (succeeds : Bool) (call : Call) :
    (kernel.advance parses index succeeds call).watchdogs = kernel.watchdogs ∨
      ∃ session gen home, call = .startBumped session gen ∧ kernel.runtime = some home ∧
        (kernel.advance parses index succeeds call).watchdogs =
          kernel.watchdogs ++ [.new gen home] := by
  cases call with
  | startEntered uri => simp only [advance]; split <;> exact Or.inl rfl
  | startWrote uri => simp only [advance]; split <;> exact Or.inl rfl
  | startBumped session gen =>
      simp only [advance, spawnWatchdog]
      cases installed : kernel.runtime with
      | none => exact Or.inl rfl
      | some home => exact Or.inr ⟨session, gen, home, rfl, rfl, rfl⟩
  | _ => exact Or.inl rfl

/-- A watchdog keeps the session which it was spawned for, and its generation. -/
theorem next_home (kernel : Kernel) (reading : Reading) (watchdog : Watchdog) :
    (kernel.next parses reading watchdog).home = watchdog.home := by
  unfold next
  split
  case h_2 => split <;> rfl
  case h_3 => cases kernel.runtime <;> rfl
  case h_4 =>
    unfold Watchdog.judge
    split
    · rfl
    · split
      · rfl
      · split
        · rfl
        · split <;> rfl
  case h_5 =>
    unfold Watchdog.choose
    split
    · rfl
    · split <;> rfl
  case h_6 =>
    unfold Watchdog.probed
    split
    · rfl
    · split <;> rfl
  case h_8 => unfold Watchdog.build; split <;> rfl
  all_goals rfl

/-- What a watchdog does is recorded, and nothing else is. -/
theorem mem_perform_deeds {kernel : Kernel} {watchdog : Watchdog} {deed : Deed}
    (there : deed ∈ (kernel.perform watchdog).deeds) :
    deed ∈ kernel.deeds ∨
      watchdog.act? = some deed.act ∧ deed.home = watchdog.home ∧
        deed.installed = kernel.runtime ∧ deed.enabled = kernel.policy.enabled ∧
        deed.rounds = watchdog.rounds := by
  unfold perform at there
  cases acts : watchdog.act? with
  | none =>
      rw [acts] at there
      exact Or.inl there
  | some act =>
      rw [acts] at there
      rcases List.mem_append.mp there with before | now
      · cases act <;> exact Or.inl before
      · rw [List.mem_singleton.mp now]
        cases act <;> exact Or.inr ⟨rfl, rfl, rfl, rfl, rfl⟩

theorem perform_frame (kernel : Kernel) (watchdog : Watchdog) :
    (kernel.perform watchdog).policy = kernel.policy ∧
      (kernel.perform watchdog).runtime = kernel.runtime ∧
      (kernel.perform watchdog).calls = kernel.calls ∧
      (kernel.perform watchdog).watchdogs = kernel.watchdogs := by
  unfold perform
  cases watchdog.act? with
  | none => exact ⟨rfl, rfl, rfl, rfl⟩
  | some act => cases act <;> exact ⟨rfl, rfl, rfl, rfl⟩

end Parsing

end Kernel

end Mirage.Jni
