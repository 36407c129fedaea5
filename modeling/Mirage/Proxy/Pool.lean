import Mathlib.Data.Bool.Basic
import Mirage.Foundations.Run

/-!
# The warm pool

A pool keeps a queue of tunnels which are dialed in advance.  This file gives
its tasks as one machine: the builders, which dial and push, the callers of
`get`, which pop, dial on demand or wait, and the calls of `purge_idle` and
`shutdown`.  An event is one step of one task between two points at which
others may run; what holds the queue's lock is one event.

A waiting caller is registered only when it polls its notification, after it has
found the queue empty.  `notify_one` wakes one registered caller, or else stores
a permit, of which there is at most one.
-/

namespace Mirage.Proxy

open Mirage.Foundations

/-- `begun` counts the calls of `purge_idle` before the dial. -/
structure Tunnel where
  begun : ℕ
  expired : Bool
  stale : Bool
  deriving DecidableEq, Repr

def Tunnel.valid (tunnel : Tunnel) : Bool :=
  !tunnel.expired && !tunnel.stale

/-- `pop_valid_tunnel`: the first valid tunnel, and what remains of the queue. -/
def popValidTunnel : List Tunnel → Option Tunnel × List Tunnel
  | [] => (none, [])
  | tunnel :: rest => if tunnel.valid then (some tunnel, rest) else popValidTunnel rest

/--
Where a caller is in the loop of `wait_for_queue`.  `claimed` tells that it has
been woken by `notify_one` and has not looked into the queue since, `broadcast`
that `notify_waiters` was called since the notification was created.
-/
inductive WaitPhase where
  | head (claimed : Bool)
  | checking (claimed broadcast : Bool)
  | window (broadcast : Bool)
  | parked
  | woken (claimed : Bool)
  deriving DecidableEq, Repr

namespace WaitPhase

def claimed : WaitPhase → Bool
  | .head claimed | .checking claimed _ | .woken claimed => claimed
  | .window _ | .parked => false

/-- The caller has found the queue empty, and is registered or about to be. -/
def waits : WaitPhase → Bool
  | .window _ | .parked => true
  | _ => false

/-- A future is dropped only where it awaits something, or before its first poll. -/
def droppable : WaitPhase → Bool
  | .head claimed => !claimed
  | .window _ => false
  | _ => true

def onBroadcast : WaitPhase → WaitPhase
  | .checking claimed _ => .checking claimed true
  | .window _ => .window true
  | .parked => .woken false
  | phase => phase

end WaitPhase

/-- Where a call of `get` is.  `racing` dials on demand and waits at the same time. -/
inductive GetPhase where
  | start
  | racing (begun : Option ℕ) (wait : WaitPhase)
  | waiting (wait : WaitPhase)
  | refillCheck (tunnel : Tunnel)
  | refillPush (tunnel : Tunnel)
  | refillNotify
  | refillPop
  | got (tunnel : Tunnel) (pooled drained : Bool)
  | failed
  deriving DecidableEq, Repr

namespace GetPhase

def wait? : GetPhase → Option WaitPhase
  | .racing _ wait | .waiting wait => some wait
  | _ => none

def withWait (wait : WaitPhase) : GetPhase → GetPhase
  | .racing begun _ => .racing begun wait
  | .waiting _ => .waiting wait
  | phase => phase

/-- The call has a dial or a push in flight. -/
def builds : GetPhase → Bool
  | .racing _ _ | .refillCheck _ | .refillPush _ => true
  | _ => false

def returned : GetPhase → Bool
  | .got .. | .failed => true
  | _ => false

/-- The call may be dropped by its caller or end by its timeout. -/
def droppable : GetPhase → Bool
  | .racing _ wait | .waiting wait => wait.droppable
  | .start | .refillCheck _ | .refillPush _ | .refillPop => true
  | .refillNotify | .got .. | .failed => false

end GetPhase

/-- `epoch` counts the calls of `purge_idle` before the call of `get`. -/
structure Get where
  epoch : ℕ
  phase : GetPhase
  deriving DecidableEq, Repr

namespace Get

def claimed (get : Get) : Bool := get.phase.wait?.any WaitPhase.claimed

def waits (get : Get) : Bool := get.phase.wait?.any WaitPhase.waits

def isParked (get : Get) : Bool := get.phase.wait? == some .parked

/-- A `Notified` which is dropped after `notify_one` woke it passes the wakeup on. -/
def forwards (get : Get) : Bool := get.phase.wait? == some (.woken true)

def notifies (get : Get) : Bool := get.phase == .refillNotify

def withWait (get : Get) (wait : WaitPhase) : Get :=
  { get with phase := get.phase.withWait wait }

def onBroadcast (get : Get) : Get :=
  get.phase.wait?.elim get fun wait => get.withWait wait.onBroadcast

end Get

inductive Builder where
  | starting
  | dialing (begun : ℕ)
  | dialed (tunnel : Tunnel)
  | pushing (tunnel : Tunnel)
  | notifying
  | done
  deriving DecidableEq, Repr

/-- How far the call of `shutdown` is: the flag is set, then the queue cleared. -/
inductive Shutdown where
  | running
  | requested
  | cleared
  | complete
  deriving DecidableEq, Repr

structure Pool where
  queue : List Tunnel
  permit : Bool
  gets : List Get
  builders : List Builder
  targetSize : ℕ
  epoch : ℕ
  shutdown : Shutdown
  deriving DecidableEq, Repr

/--
The events of the pool; `waiter` is the caller which a `notify_one` wakes.  The
last five are the passing of time, the manager and `set_pool_size`.
-/
inductive PoolEvent where
  | spawn
  | build (builder : ℕ)
  | dialEnds (builder : ℕ) (succeeds : Bool)
  | notify (builder waiter : ℕ)
  | get
  | getStep (caller : ℕ)
  | getPop (caller : ℕ) (onDemand : Bool)
  | getDials (caller : ℕ)
  | getDialEnds (caller : ℕ) (succeeds : Bool) (waiter : ℕ)
  | getNotify (caller waiter : ℕ)
  | getDrop (caller waiter : ℕ)
  | purge (contended : Bool)
  | shutdownRequest
  | shutdownClear (contended : Bool)
  | shutdownNotify
  | expire (index : ℕ)
  | spoil (index : ℕ)
  | sweep
  | setTarget (size : ℕ)
  | notifyWaiters
  deriving DecidableEq, Repr

namespace Pool

def new (targetSize : ℕ) : Pool where
  queue := []
  permit := false
  gets := []
  builders := []
  targetSize
  epoch := 0
  shutdown := .running

/-- The flag which `shutdown` sets. -/
def flagged (pool : Pool) : Bool := pool.shutdown != .running

/-- `shutdown` has returned and no build is in flight. -/
def drained (pool : Pool) : Bool :=
  pool.shutdown == .complete && pool.builders.all (· == .done) &&
    pool.gets.all fun get => !get.phase.builds

def setGet (pool : Pool) (caller : ℕ) (get : Get) : Pool :=
  { pool with gets := pool.gets.set caller get }

def setBuilder (pool : Pool) (index : ℕ) (builder : Builder) : Pool :=
  { pool with builders := pool.builders.set index builder }

def anyParked (pool : Pool) : Bool := pool.gets.any Get.isParked

/-- `notify_one` when the caller it wakes is `waiter`, if any is registered. -/
def notifyOne (pool : Pool) (waiter : ℕ) : Option Pool :=
  match pool.gets[waiter]?.filter Get.isParked with
  | some get => some (pool.setGet waiter (get.withWait (.woken true)))
  | none => if pool.anyParked then none else some { pool with permit := true }

def notifyWaiters (pool : Pool) : Pool :=
  { pool with gets := pool.gets.map Get.onBroadcast }

/-- A pop for `caller`, which goes on with `found` or with `empty`. -/
def popFor (pool : Pool) (caller : ℕ) (get : Get) (empty : GetPhase) : Pool :=
  let popped := popValidTunnel pool.queue
  { pool with queue := popped.2 }.setGet caller
    { get with phase := popped.1.elim empty fun tunnel => .got tunnel true pool.drained }

def push (pool : Pool) (tunnel : Tunnel) : Pool :=
  { pool with queue := pool.queue ++ [tunnel] }

/-- A step of a builder other than the end of its dial and its `notify_one`. -/
def build (pool : Pool) (index : ℕ) : Pool :=
  match pool.builders[index]? with
  | some .starting =>
      pool.setBuilder index (if pool.flagged then .done else .dialing pool.epoch)
  | some (.dialed tunnel) => pool.setBuilder index (if pool.flagged then .done else .pushing tunnel)
  | some (.pushing tunnel) => (pool.push tunnel).setBuilder index .notifying
  | _ => pool

def dialEnds (pool : Pool) (index : ℕ) (succeeds : Bool) : Pool :=
  match pool.builders[index]? with
  | some (.dialing begun) =>
      pool.setBuilder index (if succeeds then .dialed ⟨begun, false, false⟩ else .done)
  | _ => pool

def builderNotify (pool : Pool) (index waiter : ℕ) : Pool :=
  match pool.builders[index]? with
  | some .notifying => ((pool.setBuilder index .done).notifyOne waiter).getD pool
  | _ => pool

/-- A step of the loop of `wait_for_queue`. -/
def waitStep (pool : Pool) (caller : ℕ) (get : Get) : WaitPhase → Pool
  | .head claimed => pool.setGet caller (get.withWait (.checking claimed false))
  | .checking _ broadcast =>
      pool.popFor caller get (get.phase.withWait (.window broadcast))
  | .window broadcast =>
      if pool.permit then { pool with permit := false }.setGet caller (get.withWait (.head true))
      else if broadcast then pool.setGet caller (get.withWait (.head false))
      else pool.setGet caller (get.withWait .parked)
  | .parked => pool
  | .woken claimed => pool.setGet caller (get.withWait (.head claimed))

/-- A step of the loop in `get`, or of `refill_or_take` other than its `notify_one`. -/
def getStep (pool : Pool) (caller : ℕ) (get : Get) : Pool :=
  match get.phase with
  | .racing _ wait | .waiting wait => pool.waitStep caller get wait
  | .refillCheck tunnel =>
      if pool.queue.length < pool.targetSize then
        pool.setGet caller { get with phase := .refillPush tunnel }
      else pool.setGet caller { get with phase := .got tunnel false false }
  | .refillPush tunnel => (pool.push tunnel).setGet caller { get with phase := .refillNotify }
  | .refillPop => pool.popFor caller get (.waiting (.head false))
  | _ => pool

/-- The first pop; the semaphore decides whether the call dials on demand. -/
def getPop (pool : Pool) (caller : ℕ) (get : Get) (onDemand : Bool) : Pool :=
  match get.phase with
  | .start =>
      pool.popFor caller get
        (if onDemand then .racing none (.head false) else .waiting (.head false))
  | _ => pool

/-- The call goes on with `phase`, and the future which it was waiting on is dropped. -/
def leave (pool : Pool) (caller : ℕ) (get : Get) (phase : GetPhase) (waiter : ℕ) : Pool :=
  let left := pool.setGet caller { get with phase := phase }
  if get.forwards then (left.notifyOne waiter).getD pool else left

def getDials (pool : Pool) (caller : ℕ) (get : Get) : Pool :=
  match get.phase with
  | .racing none wait => pool.setGet caller { get with phase := .racing (some pool.epoch) wait }
  | _ => pool

def getDialEnds (pool : Pool) (caller : ℕ) (get : Get) (succeeds : Bool) (waiter : ℕ) : Pool :=
  match get.phase with
  | .racing (some begun) wait =>
      if wait.droppable then
        pool.leave caller get
          (if succeeds then .refillCheck ⟨begun, false, false⟩ else .waiting (.head false)) waiter
      else pool
  | _ => pool

def getNotify (pool : Pool) (caller : ℕ) (get : Get) (waiter : ℕ) : Pool :=
  match get.phase with
  | .refillNotify =>
      ((pool.setGet caller { get with phase := .refillPop }).notifyOne waiter).getD pool
  | _ => pool

def getDrop (pool : Pool) (caller : ℕ) (get : Get) (waiter : ℕ) : Pool :=
  if get.phase.droppable then pool.leave caller get .failed waiter else pool

/-- `purge_idle`: if the queue is locked, nothing happens. -/
def purge (pool : Pool) (contended : Bool) : Pool :=
  let called := { pool with epoch := pool.epoch + 1 }
  if contended then called else { called with queue := [] }.notifyWaiters

def step (pool : Pool) : PoolEvent → Pool
  | .spawn => { pool with builders := pool.builders ++ [.starting] }
  | .build index => pool.build index
  | .dialEnds index succeeds => pool.dialEnds index succeeds
  | .notify index waiter => pool.builderNotify index waiter
  | .get => { pool with gets := pool.gets ++ [⟨pool.epoch, .start⟩] }
  | .getStep caller => pool.gets[caller]?.elim pool (pool.getStep caller)
  | .getPop caller onDemand =>
      pool.gets[caller]?.elim pool fun get => pool.getPop caller get onDemand
  | .getDials caller => pool.gets[caller]?.elim pool (pool.getDials caller)
  | .getDialEnds caller succeeds waiter =>
      pool.gets[caller]?.elim pool fun get => pool.getDialEnds caller get succeeds waiter
  | .getNotify caller waiter =>
      pool.gets[caller]?.elim pool fun get => pool.getNotify caller get waiter
  | .getDrop caller waiter =>
      pool.gets[caller]?.elim pool fun get => pool.getDrop caller get waiter
  | .purge contended => pool.purge contended
  | .shutdownRequest =>
      if pool.shutdown = .running then { pool with shutdown := .requested } else pool
  | .shutdownClear contended =>
      if pool.shutdown = .requested then
        { pool with
          shutdown := .cleared
          queue := if contended then pool.queue else [] }
      else pool
  | .shutdownNotify =>
      if pool.shutdown = .cleared then { pool with shutdown := .complete }.notifyWaiters else pool
  | .expire index =>
      { pool with queue := pool.queue.modify index fun tunnel => { tunnel with expired := true } }
  | .spoil index =>
      { pool with queue := pool.queue.modify index fun tunnel => { tunnel with stale := true } }
  | .sweep => { pool with queue := pool.queue.filter (!·.expired) }
  | .setTarget size => { pool with targetSize := size }
  | .notifyWaiters => pool.notifyWaiters

/-- What a caller's step does to the pool; a caller which is not there does nothing. -/
theorem elim_get {property : Pool → Prop} {pool : Pool} {caller : ℕ} {act : Get → Pool}
    (unchanged : property pool)
    (acts : ∀ get, pool.gets[caller]? = some get → property (act get)) :
    property (pool.gets[caller]?.elim pool act) := by
  cases found : pool.gets[caller]? with
  | none => exact unchanged
  | some get => exact acts get found

end Pool

end Mirage.Proxy
