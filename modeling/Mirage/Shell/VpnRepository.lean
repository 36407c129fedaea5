import Mirage.Shell.CoreService

/-!
# The repository of the user interface

`startVpn` and `stopVpn`, with the two channels they use: intents, which wait
until the main thread of the service is idle and are delivered in order, and the
binder, over which a stop runs on a thread of its own while the main thread of
the interface waits for it.  What the interface shows follows the state
callbacks, the broadcasts and the telemetry, each of which may be late.
-/

namespace Mirage.Shell

open Mirage.Foundations

inductive Intent where
  | start (startSequence : ℤ)
  | stop (stopSequence : ℤ)
  deriving DecidableEq, Repr

namespace Intent

def sequence : Intent → ℤ
  | .start startSequence => startSequence
  | .stop stopSequence => stopSequence

def isStart : Intent → Bool
  | .start _ => true
  | .stop _ => false

end Intent

inductive VpnState where
  | syncing
  | disconnected
  | connecting
  | connected
  | stopping
  | error
  deriving DecidableEq, Repr

inductive VpnAction where
  | vpnStarted
  | vpnStopped
  deriving DecidableEq, Repr

namespace BroadcastArbiter

inductive TargetState where
  | connected
  | disconnected
  deriving DecidableEq, Repr

structure Verdict where
  targetState : TargetState
  completeStopConfirmation : Bool
  deriving DecidableEq, Repr

/-- The verdict on one of the two broadcasts which the receiver does not return from. -/
def judge (action : VpnAction) (isBound : Bool) (isCoreRunning : Option Bool) : Verdict :=
  if isBound then
    if isCoreRunning = some true then ⟨.connected, false⟩
    else ⟨.disconnected, action = .vpnStopped⟩
  else
    match action with
    | .vpnStarted => ⟨.connected, false⟩
    | .vpnStopped => ⟨.disconnected, false⟩

end BroadcastArbiter

/-- The job of `stopVpn`: it sends the command, and then waits for its confirmation. -/
inductive StopJob where
  | launched (stopSequence : ℤ)
  | awaiting (confirmed : Bool)
  deriving DecidableEq, Repr

/--
`calling` is the task of the service which the main thread of the interface
waits for.  `userStopped` tells that the last call of the user was a `stopVpn`.
-/
structure VpnRepository where
  service : CoreService
  intents : List Intent
  bound : Bool
  startSequence : ℤ
  stopJob : Option StopJob
  calling : Option ℕ
  vpnState : VpnState
  telemetry : Bool
  userStopped : Bool
  deriving DecidableEq, Repr

/--
What happens on the main thread of the interface.  `answers` tells whether a
call over the binder returns, `running` is what the core was found to do when a
callback or a tick was sent on its way.
-/
inductive UiEvent where
  | startVpn (selected : Bool)
  | stopVpn (answers : Bool)
  | sendStop (overAidl sent : Bool)
  | confirm (timedOut running : Bool)
  | onServiceConnected
  | unbind
  | onStateChanged (running : Bool)
  | broadcast (action : VpnAction) (running : Bool)
  | telemetryTick (running : Bool)
  deriving DecidableEq, Repr

/-- `deliver` hands the next intent to the service. -/
inductive VpnEvent where
  | ui (event : UiEvent)
  | deliver
  | advance (task : ℕ) (succeeds : Bool)
  | proceed (succeeds : Bool)
  deriving DecidableEq, Repr

namespace VpnRepository

def new : VpnRepository where
  service := .new
  intents := []
  bound := false
  startSequence := 0
  stopJob := none
  calling := none
  vpnState := .syncing
  telemetry := true
  userStopped := false

/-- The main thread of the interface waits for the service. -/
def blocked (repo : VpnRepository) : Bool :=
  repo.calling.any fun index => repo.service.tasks[index]?.any Task.runs

def startVpn (repo : VpnRepository) (selected : Bool) : VpnRepository :=
  if selected then
    { repo with
      stopJob := none
      startSequence := repo.startSequence + 1
      vpnState := .connecting
      intents := repo.intents ++ [.start (repo.startSequence + 1)]
      telemetry := true
      userStopped := false }
  else { repo with vpnState := .error }

/-- `stopVpn` finds a bound service which does not run. -/
def findsIdle (repo : VpnRepository) (answers : Bool) : Bool :=
  repo.bound && !(answers && repo.service.nativeStarted)

def stopVpn (repo : VpnRepository) (answers : Bool) : VpnRepository :=
  if repo.findsIdle answers then
    { repo with vpnState := .disconnected, telemetry := false, userStopped := true }
  else { repo with stopJob := some (.launched repo.startSequence), userStopped := true }

/-- `CoreController.stop`, over the binder or else with an intent. -/
def stop (repo : VpnRepository) (overAidl sent : Bool) (stopSequence : ℤ) : VpnRepository :=
  if repo.bound && overAidl then
    { repo with
      service := repo.service.step .stop
      calling := some repo.service.tasks.length }
  else if sent then { repo with intents := repo.intents ++ [.stop stopSequence] }
  else repo

def sendStop (repo : VpnRepository) (overAidl sent : Bool) : VpnRepository :=
  match repo.stopJob with
  | some (.launched stopSequence) =>
      { repo with
        vpnState := .stopping
        telemetry := false
        stopJob := some (.awaiting false) }.stop overAidl sent stopSequence
  | _ => repo

def completeStopConfirmation (repo : VpnRepository) : VpnRepository :=
  match repo.stopJob with
  | some (.awaiting _) => { repo with stopJob := some (.awaiting true) }
  | _ => repo

/-- The end of the job of `stopVpn`. -/
def confirm (repo : VpnRepository) (timedOut running : Bool) : VpnRepository :=
  match repo.stopJob with
  | some (.awaiting true) => { repo with stopJob := none, vpnState := .disconnected }
  | some (.awaiting false) =>
      if timedOut then
        { repo with
          stopJob := none
          vpnState := if repo.bound && running then .error else .disconnected }
      else repo
  | _ => repo

def onStateChanged (repo : VpnRepository) (running : Bool) : VpnRepository :=
  if running then { repo with vpnState := .connected, telemetry := true }
  else { repo.completeStopConfirmation with vpnState := .disconnected, telemetry := false }

def onReceive (repo : VpnRepository) (action : VpnAction) (running : Bool) : VpnRepository :=
  let isCoreRunning := if repo.bound then some running else none
  let verdict := BroadcastArbiter.judge action repo.bound isCoreRunning
  match verdict.targetState with
  | .connected => { repo with vpnState := .connected, telemetry := true }
  | .disconnected =>
      if verdict.completeStopConfirmation then
        { repo.completeStopConfirmation with vpnState := .disconnected }
      else { repo with vpnState := .disconnected }

def telemetryTick (repo : VpnRepository) (running : Bool) : VpnRepository :=
  if !repo.telemetry then repo
  else if running then { repo with vpnState := .connected }
  else if repo.bound && repo.vpnState != .connecting && repo.vpnState != .stopping then
    { repo with vpnState := .disconnected }
  else repo

def ui (repo : VpnRepository) : UiEvent → VpnRepository
  | .startVpn selected => repo.startVpn selected
  | .stopVpn answers => repo.stopVpn answers
  | .sendStop overAidl sent => repo.sendStop overAidl sent
  | .confirm timedOut running => repo.confirm timedOut running
  | .onServiceConnected => { repo with bound := true }
  | .unbind => { repo with bound := false }
  | .onStateChanged running => repo.onStateChanged running
  | .broadcast action running => repo.onReceive action running
  | .telemetryTick running => repo.telemetryTick running

/-- `CoreService.onStartCommand` -/
def onStartCommand (service : CoreService) : Intent → CoreService
  | .start startSequence => service.step (.onStartCommand startSequence)
  | .stop stopSequence => service.step (.actionStop stopSequence)

def deliver (repo : VpnRepository) : VpnRepository :=
  match repo.intents with
  | intent :: intents =>
      if repo.service.mainBusy then repo
      else { repo with service := onStartCommand repo.service intent, intents }
  | [] => repo

def step (repo : VpnRepository) : VpnEvent → VpnRepository
  | .ui event => if repo.blocked then repo else repo.ui event
  | .deliver => repo.deliver
  | .advance task succeeds => { repo with service := repo.service.step (.advance task succeeds) }
  | .proceed succeeds => { repo with service := repo.service.step (.proceed succeeds) }

end VpnRepository

end Mirage.Shell
