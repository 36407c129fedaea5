import Mirage.Tun.BufferPool

/-!
# The device of the stack

`TunDevice` stands between the TUN descriptor and the stack.  It has a queue for each
direction, and each gives up its oldest packet when it is full.  The stack takes a packet
with a receive token, and writes one through a transmit token into a buffer which was
cleared before.
-/

namespace Mirage.Tun

open Mirage.Foundations

def queueCap : ℕ := 512

structure TunDevice where
  rx : List (List UInt8)
  tx : List (List UInt8)
  mtu : ℕ
  deriving DecidableEq, Repr

/-- What the stack does with the buffer of a transmit token, whose length is fixed -/
structure Fill where
  fill : List UInt8 → List UInt8
  length_eq : ∀ buffer, (fill buffer).length = buffer.length

inductive DeviceEvent where
  | pushRx (packet : List UInt8)
  | popTx
  /-- The stack takes the receive token; the other one which comes with it is a `transmit`. -/
  | receive
  /-- A transmit token is consumed; the pool and the allocator are as they are then. -/
  | transmit (pool : BufferPool) (len granted more : ℕ) (fill : Fill)

namespace TunDevice

def new (mtu : ℕ) : TunDevice := ⟨[], [], mtu⟩

def pushRx (device : TunDevice) (packet : List UInt8) : TunDevice :=
  { device with rx := pushBounded queueCap device.rx packet }

def popTx (device : TunDevice) : Option (List UInt8) × TunDevice :=
  (device.tx.head?, { device with tx := device.tx.tail })

def hasTx (device : TunDevice) : Bool :=
  !device.tx.isEmpty

/-- `receive`; without a packet there is no token. -/
def receive (device : TunDevice) : Option (List UInt8) × TunDevice :=
  (device.rx.head?, { device with rx := device.rx.tail })

/-- The buffer which the stack writes to -/
def blank (pool : BufferPool) (len granted more : ℕ) : Buffer :=
  (pool.acquire len granted).1.resize len 0 more

/-- `consume` of a transmit token -/
def transmit (device : TunDevice) (pool : BufferPool) (len granted more : ℕ) (fill : Fill) :
    TunDevice :=
  { device with
    tx := pushBounded queueCap device.tx (fill.fill (blank pool len granted more).bytes) }

def step (device : TunDevice) : DeviceEvent → TunDevice
  | .pushRx packet => device.pushRx packet
  | .popTx => device.popTx.2
  | .receive => device.receive.2
  | .transmit pool len granted more fill => device.transmit pool len granted more fill

/-- A buffer which was used before is written to as a new one would be. -/
theorem blank_bytes (pool : BufferPool) (len granted more : ℕ) :
    (blank pool len granted more).bytes = List.replicate len 0 := by
  rw [blank, Buffer.resize_bytes, BufferPool.acquire_bytes, List.take_nil, List.nil_append,
    List.length_nil, Nat.sub_zero]

/-- What an event does to the queue of packets for the stack -/
def rxMove : DeviceEvent → Option (QueueMove (List UInt8))
  | .pushRx packet => some (.push packet)
  | .receive => some .pop
  | _ => none

/-- What an event does to the queue of packets for the descriptor -/
def txMove : DeviceEvent → Option (QueueMove (List UInt8))
  | .transmit _ len _ _ fill => some (.push (fill.fill (List.replicate len 0)))
  | .popTx => some .pop
  | _ => none

/-- The packets which the reader of the descriptor has put in -/
def arrived (events : List DeviceEvent) : List (List UInt8) :=
  events.flatMap fun event => (rxMove event).elim [] QueueMove.pushed

/-- The packets which the stack has written, each into a buffer of zeros -/
def written (events : List DeviceEvent) : List (List UInt8) :=
  events.flatMap fun event => (txMove event).elim [] QueueMove.pushed

/-- The packet which an event gives to the stack -/
def given (device : TunDevice) : DeviceEvent → List (List UInt8)
  | .receive => device.receive.1.toList
  | _ => []

/-- The packet which an event hands to the writer of the descriptor -/
def sent (device : TunDevice) : DeviceEvent → List (List UInt8)
  | .popTx => device.popTx.1.toList
  | _ => []

def RoomForArrival (device : TunDevice) : DeviceEvent → Prop
  | .pushRx _ => device.rx.length < queueCap
  | _ => True

def RoomForWriting (device : TunDevice) : DeviceEvent → Prop
  | .transmit _ _ _ _ _ => device.tx.length < queueCap
  | _ => True

variable (device : TunDevice) (event : DeviceEvent)

theorem step_rx : (device.step event).rx =
    ((rxMove event).map (QueueMove.apply queueCap device.rx)).getD device.rx := by
  cases event <;> rfl

theorem step_tx : (device.step event).tx =
    ((txMove event).map (QueueMove.apply queueCap device.tx)).getD device.tx := by
  cases event with
  | transmit pool len granted more fill =>
      simp only [step, transmit, blank_bytes, txMove, QueueMove.apply, Option.map_some,
        Option.getD_some]
  | pushRx packet => rfl
  | popTx => rfl
  | receive => rfl

theorem given_eq : device.given event = (rxMove event).elim [] (QueueMove.taken device.rx) := by
  cases event <;> rfl

theorem sent_eq : device.sent event = (txMove event).elim [] (QueueMove.taken device.tx) := by
  cases event <;> rfl

theorem roomForArrival_iff : device.RoomForArrival event ↔
    (rxMove event).elim True (QueueMove.Keeps queueCap device.rx) := by
  cases event <;> simp [RoomForArrival, QueueMove.Keeps, rxMove]

theorem roomForWriting_iff : device.RoomForWriting event ↔
    (txMove event).elim True (QueueMove.Keeps queueCap device.tx) := by
  cases event <;> simp [RoomForWriting, QueueMove.Keeps, txMove]

end TunDevice

/--
In every run the packets of each direction come out in the order in which they went in,
each at most once.  At most 512 wait, and they are the newest.  None is lost exactly if
none is put into a full queue.
-/
theorem device_carries (mtu : ℕ) (events : List DeviceEvent) :
    let device := run TunDevice.step (.new mtu) events
    Carried queueCap (TunDevice.arrived events)
        (outputs TunDevice.given TunDevice.step (.new mtu) events) device.rx
        (Along TunDevice.step TunDevice.RoomForArrival (.new mtu) events) ∧
      Carried queueCap (TunDevice.written events)
        (outputs TunDevice.sent TunDevice.step (.new mtu) events) device.tx
        (Along TunDevice.step TunDevice.RoomForWriting (.new mtu) events) := by
  intro device
  have some_cap : 0 < queueCap := by decide
  have no_arrival : (TunDevice.new mtu).rx.length ≤ queueCap := Nat.zero_le queueCap
  have no_writing : (TunDevice.new mtu).tx.length ≤ queueCap := Nat.zero_le queueCap
  have given : TunDevice.given = fun device event =>
      (TunDevice.rxMove event).elim [] (QueueMove.taken device.rx) :=
    funext fun device => funext device.given_eq
  have sent : TunDevice.sent = fun device event =>
      (TunDevice.txMove event).elim [] (QueueMove.taken device.tx) :=
    funext fun device => funext device.sent_eq
  have carried := carried_run some_cap TunDevice.step_rx no_arrival events
  have carried_back := carried_run some_cap TunDevice.step_tx no_writing events
  rw [outputs_of_events] at carried carried_back
  constructor
  · rw [given, Along.congr TunDevice.roomForArrival_iff]
    exact carried
  · rw [sent, Along.congr TunDevice.roomForWriting_iff]
    exact carried_back

end Mirage.Tun
