import Mirage.Foundations.Run
import Mirage.Foundations.SlotTable
import Mirage.Tun.TcpSocket

/-!
# The sockets of the TUN stack

The pump and the relay tasks share the socket set.  For a packet the pump first
makes a listening socket and spawns a relay if need be (`prescan_tcp`), and then
lets smoltcp process the packet; between two packets it sweeps.  A relay holds
nothing but the handle of its socket: it waits for the handshake
(`from_catcher`), asks for the destination and then reads, writes, shuts down
and closes through its `TunTcpStream`.

Each use of the socket set under its lock is one step, so a run is an
interleaving of the pump and the relays.  Time is in milliseconds.  The reads
and writes of a relay may happen at any time, so the wakers which they register
are left out.
-/

namespace Mirage.Tun

open Mirage.Foundations

def connectTimeout : ℕ := 15000

def catcherTtl : ℕ := 15000

/-- A socket of the set with its entry in `created_at`. -/
structure SocketSlot where
  socket : TcpSocket
  createdAt : ℕ
  /-- The relay which was spawned for the socket. -/
  owner : ℕ
  deriving DecidableEq

inductive RelayStage where
  | spawned
  /-- In `wait_established`. -/
  | waiting (deadline : ℕ)
  /-- `from_catcher` has returned the stream. -/
  | accepted
  | relaying
  /-- The stream is about to be dropped without having been used. -/
  | failed
  | ended
  deriving DecidableEq

structure Relay where
  handle : ℕ
  /-- The task is `relay_tcp_dns`. -/
  isDns : Bool
  stage : RelayStage
  /-- The task has been woken since its last poll. -/
  woken : Bool
  /-- The flag of the stream which `close` clears. -/
  alive : Bool
  dst : Option Endpoint
  /-- What the relay has read. -/
  taken : List UInt8
  /-- The client of the socket which the relay found when it failed. -/
  failedOn : Option ClientLog
  deriving DecidableEq

/-- The task still has the handle. -/
def Relay.held (relay : Relay) : Bool :=
  relay.stage != .ended

/-- A use of a socket by a relay. -/
structure SocketAccess where
  relay : ℕ
  owner : ℕ
  deriving DecidableEq

structure TunInner where
  now : ℕ
  sockets : SlotTable SocketSlot
  /-- The packet between `prescan` and `Interface::poll`. -/
  inbound : Option Segment
  relays : List Relay
  accesses : List SocketAccess

inductive SocketEvent where
  | tick (elapsed : ℕ)
  | prescan (segment : Segment)
  | poll
  | sweep
  | waitEstablished (relay : ℕ)
  | destination (relay : ℕ)
  | source (relay : ℕ)
  | read (relay room : ℕ)
  | write (relay : ℕ) (bytes : List UInt8)
  | shutdown (relay : ℕ)
  | close (relay : ℕ)
  | drop (relay : ℕ)
  deriving DecidableEq

/-- What `sweep` removes at the time `now`. -/
def SocketSlot.stale (slot : SocketSlot) (now : ℕ) : Bool :=
  match slot.socket.state with
  | .listen => slot.socket.tuple.isNone && decide (catcherTtl ≤ now - slot.createdAt)
  | .closed | .timeWait => decide (2000 ≤ now - slot.createdAt)
  | .finWait1 | .finWait2 | .closing => decide (15000 ≤ now - slot.createdAt)
  | _ => false

def Relay.spawn (handle : ℕ) (isDns : Bool) : Relay where
  handle := handle
  isDns := isDns
  stage := .spawned
  woken := true
  alive := true
  dst := none
  taken := []
  failedOn := none

def Relay.wake (relay : Relay) : Relay :=
  { relay with woken := true }

/-- `from_catcher` or `destination` gives the connection up. -/
def Relay.fail (relay : Relay) (client : Option ClientLog) : Relay :=
  { relay with stage := .failed, failedOn := client }

/-- A relay meets its socket: what becomes of both. -/
abbrev SocketUse := TcpSocket → Relay → TcpSocket × Relay

namespace Relay

def connecting (relay : Relay) : Bool :=
  match relay.stage with
  | .spawned | .waiting _ => true
  | _ => false

/-- The end of `CONNECT_TIMEOUT`, which starts with the first poll. -/
def deadline (relay : Relay) (now : ℕ) : ℕ :=
  match relay.stage with
  | .waiting deadline => deadline
  | _ => now + connectTimeout

/-- `wait_established` is pending: the wakers are registered, and `timeout` looks at the time. -/
def pendEstablished (now index : ℕ) : SocketUse := fun socket relay =>
  ({ socket with waker := some index },
    if relay.deadline now ≤ now then relay.fail socket.client
    else { relay with stage := .waiting (relay.deadline now), woken := false })

/-- A poll of `wait_established` under `timeout`. -/
def pollEstablished (now index : ℕ) : SocketUse := fun socket relay =>
  match socket.state with
  | .established =>
      (socket, { relay with stage := if relay.isDns then .relaying else .accepted })
  | .closed | .timeWait => (socket, relay.fail socket.client)
  | _ => pendEstablished now index socket relay

def askDestination : SocketUse := fun socket relay =>
  match socket.tuple with
  | some (localEndpoint, _) =>
      (socket, { relay with stage := .relaying, dst := some localEndpoint })
  | none => (socket, relay.fail socket.client)

def readSocket (room : ℕ) : SocketUse := fun socket relay =>
  let (bytes, socket) := socket.recvSlice room
  (socket, { relay with taken := relay.taken ++ bytes })

def writeSocket (bytes : List UInt8) : SocketUse := fun socket relay =>
  (if socket.maySend then socket.sendSlice bytes else socket, relay)

def shutdownSocket : SocketUse := fun socket relay =>
  (socket.close, relay)

/-- `close` with the flag cleared; `next` is what the relay does afterwards. -/
def closeSocket (next : Relay → Relay) : SocketUse := fun socket relay =>
  (socket.close, next { relay with alive := false })

end Relay

namespace TunInner

/-- The stack before the first packet. -/
def initial : TunInner where
  now := 0
  sockets := .empty
  inbound := none
  relays := []
  accesses := []

/-- Wake the task whose waker a socket has given up. -/
def wakeFrom (old new : TcpSocket) (relays : List Relay) : List Relay :=
  match old.waker, new.waker with
  | some index, none => relays.modify index Relay.wake
  | _, _ => relays

def tupleExists (inner : TunInner) (segment : Segment) : Bool :=
  inner.sockets.any fun slot => slot.socket.tuple == some (segment.dst, segment.src)

def prescan (inner : TunInner) (segment : Segment) : TunInner :=
  if inner.inbound.isSome then inner
  else
    let inner := { inner with inbound := some segment }
    if segment.control = .syn ∧ segment.dst.port ≠ 0 ∧ segment.src.port ≠ 0 ∧
        inner.tupleExists segment = false then
      { inner with
        sockets := inner.sockets.insert ⟨.listening segment.dst, inner.now, inner.relays.length⟩
        relays := inner.relays ++
          [Relay.spawn inner.sockets.nextHandle (segment.dst.port == 53)] }
    else inner

/-- `Interface::poll` gives the packet to the first socket which accepts it. -/
def poll (inner : TunInner) : TunInner :=
  match inner.inbound with
  | none => inner
  | some segment =>
      let inner := { inner with inbound := none }
      match inner.sockets.find fun slot => slot.socket.accepts segment with
      | none => inner
      | some handle =>
          match inner.sockets.get handle with
          | none => inner
          | some slot =>
              let socket := slot.socket.process segment
              { inner with
                sockets := inner.sockets.update handle fun slot => { slot with socket }
                relays := wakeFrom slot.socket socket inner.relays }

def sweep (inner : TunInner) : TunInner :=
  if inner.inbound.isSome then inner
  else { inner with sockets := inner.sockets.retain fun slot => !slot.stale inner.now }

/-- A relay uses the socket under its handle, or finds the handle unused. -/
def access (inner : TunInner) (index : ℕ) (relay : Relay) (use : SocketUse)
    (gone : Relay → Relay) : TunInner :=
  match inner.sockets.get relay.handle with
  | none => { inner with relays := inner.relays.set index (gone relay) }
  | some slot =>
      let (socket, used) := use slot.socket relay
      { inner with
        sockets := inner.sockets.update relay.handle fun slot => { slot with socket }
        relays := wakeFrom slot.socket socket (inner.relays.set index used)
        accesses := inner.accesses ++ [⟨index, slot.owner⟩] }

/-- A step of the relay with this number, if it is at a point of its code which meets `enabled`. -/
def relayStep (inner : TunInner) (index : ℕ) (enabled : Relay → Bool) (use : SocketUse)
    (gone : Relay → Relay) : TunInner :=
  match inner.relays[index]? with
  | none => inner
  | some relay => if enabled relay then inner.access index relay use gone else inner

def isRelaying (relay : Relay) : Bool :=
  relay.stage == .relaying

/-- `close`, which does nothing when the flag is cleared. -/
def closeStep (inner : TunInner) (index : ℕ) (enabled : Relay → Bool) (next : Relay → Relay) :
    TunInner :=
  match inner.relays[index]? with
  | none => inner
  | some relay =>
      if enabled relay then
        if relay.alive then
          inner.access index relay (Relay.closeSocket next)
            fun relay => next { relay with alive := false }
        else { inner with relays := inner.relays.set index (next relay) }
      else inner

def step (inner : TunInner) : SocketEvent → TunInner
  | .tick elapsed => { inner with now := inner.now + elapsed }
  | .prescan segment => inner.prescan segment
  | .poll => inner.poll
  | .sweep => inner.sweep
  | .waitEstablished index =>
      inner.relayStep index Relay.connecting (Relay.pollEstablished inner.now index)
        (Relay.fail · none)
  | .destination index =>
      inner.relayStep index (fun relay => relay.stage == .accepted) Relay.askDestination
        (Relay.fail · none)
  | .source index => inner.relayStep index isRelaying Prod.mk id
  | .read index room => inner.relayStep index isRelaying (Relay.readSocket room) id
  | .write index bytes => inner.relayStep index isRelaying (Relay.writeSocket bytes) id
  | .shutdown index => inner.relayStep index isRelaying Relay.shutdownSocket id
  | .close index => inner.closeStep index isRelaying id
  | .drop index =>
      inner.closeStep index (fun relay => relay.stage == .relaying || relay.stage == .failed)
        fun relay => { relay with stage := .ended }

end TunInner

end Mirage.Tun
