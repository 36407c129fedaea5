import Mathlib.Data.Int.DivMod
import Mathlib.Tactic.Ring
import Mirage.Foundations.Run

/-!
# The pump and the clock of the interface

The pump waits for packets, ticks and wake-ups, and the relays poll the
interface after each use of a socket.  A poll runs under the lock of the
interface and is one event; it reads the monotonic clock twice, and its delay is
the time between the readings.  Instants are in nanoseconds, the stamps of the
interface in microseconds.

The timers are those of smoltcp: a socket arms a timer during a poll, for the
stamp of the poll and some delay, and a poll serves the timers whose expiry its
stamp has reached.  Which timers a poll arms is given by the event.
-/

namespace Mirage.Tun

open Mirage.Foundations

/-- `as i64`, of a `u128`. -/
def asI64 (micros : ℕ) : ℤ :=
  (micros : ℤ).bmod (2 ^ 64)

/-- `duration_since` is zero where `start` is the later instant. -/
def smolNow (start now : ℕ) : ℤ :=
  asI64 ((now - start) / 1000)

structure Timer where
  /-- The instant the timer is due at. -/
  due : ℕ
  /-- The stamp which a poll compares with. -/
  expiresAt : ℤ
  deriving DecidableEq

structure Poll where
  /-- The argument of `smol_now`. -/
  start : ℕ
  /-- The instant the interface is polled at. -/
  instant : ℕ
  timestamp : ℤ
  /-- The timers which were armed before and are not served. -/
  left : List Timer
  deriving DecidableEq

inductive PumpEntry where
  | poll (byPump : Bool) (poll : Poll)
  | tick
  deriving DecidableEq

/-- Where the pump is: at its `select!`, in the batch after a packet, or out of its loop. -/
inductive PumpPhase where
  | selecting
  | draining (drained : ℕ)
  | exited
  deriving DecidableEq

structure Pump where
  clock : ℕ
  phase : PumpPhase
  timers : List Timer
  /-- The polls and the ticks, the last one first. -/
  log : List PumpEntry

/-- The branches of `handle_rx_packet`. -/
inductive RxPacket where
  | udp
  | fakeIpEcho
  | other
  deriving DecidableEq

inductive PumpEvent where
  | elapse (nanos : ℕ)
  /-- `poll_now`, called by a relay. -/
  | pollNow (delay : ℕ) (armed : List ℕ)
  | recv (packet : RxPacket) (delay : ℕ) (armed : List ℕ)
  | tryRecv (packet : RxPacket) (delay : ℕ) (armed : List ℕ)
  | tryRecvEmpty
  | tick
  | wake
  /-- The stop signal, or the end of the packets. -/
  | stop

namespace Pump

def start (now : ℕ) : Pump :=
  ⟨now, .selecting, [], []⟩

/-- `iface.poll(smol_now(Instant::now()), …)`, up to the timers it arms. -/
def polled (pump : Pump) (delay : ℕ) : Poll :=
  let timestamp := smolNow pump.clock (pump.clock + delay)
  { start := pump.clock
    instant := pump.clock + delay
    timestamp
    left := pump.timers.filter (timestamp < ·.expiresAt) }

def poll (pump : Pump) (byPump : Bool) (delay : ℕ) (armed : List ℕ) : Pump :=
  let poll := pump.polled delay
  { pump with
    clock := poll.instant
    timers := poll.left ++ armed.map fun wait =>
      ⟨poll.instant + 1000 * wait, poll.timestamp + wait⟩
    log := .poll byPump poll :: pump.log }

def handleRxPacket (pump : Pump) (packet : RxPacket) (delay : ℕ) (armed : List ℕ) : Pump :=
  match packet with
  | .udp => pump
  | .fakeIpEcho => pump
  | .other => pump.poll true delay armed

/-- `drain_tx` and `sweep` poll nothing. -/
def step (pump : Pump) : PumpEvent → Pump
  | .elapse nanos => { pump with clock := pump.clock + nanos }
  | .pollNow delay armed => pump.poll false delay armed
  | .recv packet delay armed =>
      match pump.phase with
      | .selecting => { pump.handleRxPacket packet delay armed with phase := .draining 0 }
      | _ => pump
  | .tryRecv packet delay armed =>
      match pump.phase with
      | .draining drained =>
          if drained < 32 then
            { pump.handleRxPacket packet delay armed with phase := .draining (drained + 1) }
          else { pump with phase := .selecting }
      | _ => pump
  | .tryRecvEmpty =>
      match pump.phase with
      | .draining _ => { pump with phase := .selecting }
      | _ => pump
  | .tick =>
      match pump.phase with
      | .selecting => { pump with log := .tick :: pump.log }
      | _ => pump
  | .wake => pump
  | .stop =>
      match pump.phase with
      | .selecting => { pump with phase := .exited }
      | _ => pump

end Pump

end Mirage.Tun
