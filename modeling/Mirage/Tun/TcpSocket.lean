import Mirage.Foundations.Net

/-!
# TCP sockets

smoltcp's TCP socket as the TUN stack uses it: listening, fed with the segments
of one client and closed by its relay.  A segment stands for one that passes
the checks of sequence numbers, with the part of its payload which the receive
buffer takes.

smoltcp's timers are left out.  `smol_now(Instant::now())` measures the time
since the call itself, so the clock they are given does not advance.
-/

namespace Mirage.Tun

open Mirage.Foundations

structure Endpoint where
  addr : IpAddr
  port : ℕ
  deriving DecidableEq

/-- `tcp::State`, without the state of a connecting socket. -/
inductive TcpState where
  | closed
  | listen
  | synReceived
  | established
  | finWait1
  | finWait2
  | closeWait
  | closing
  | lastAck
  | timeWait
  deriving DecidableEq

/-- What a segment of the client does; `acksFin` says that it acknowledges our FIN. -/
inductive TcpControl where
  | syn
  | ack (payload : List UInt8) (acksFin : Bool)
  | fin (payload : List UInt8) (acksFin : Bool)
  | rst
  deriving DecidableEq

structure Segment where
  src : Endpoint
  dst : Endpoint
  control : TcpControl
  deriving DecidableEq

/-- What the client of a socket has done since its last SYN. -/
structure ClientLog where
  dialed : Option Endpoint
  sent : List UInt8
  /-- The three-way handshake was completed. -/
  completed : Bool
  reset : Bool
  deriving DecidableEq

structure TcpSocket where
  state : TcpState
  listenEndpoint : Endpoint
  /-- The local and the remote endpoint of the connection. -/
  tuple : Option (Endpoint × Endpoint)
  received : List UInt8
  /-- What was put into the send buffer. -/
  transmitted : List UInt8
  /-- The task whose wakers are registered. -/
  waker : Option ℕ
  client : ClientLog
  deriving DecidableEq

namespace TcpSocket

/-- A new socket after `listen`. -/
def listening (listenEndpoint : Endpoint) : TcpSocket where
  state := .listen
  listenEndpoint := listenEndpoint
  tuple := none
  received := []
  transmitted := []
  waker := none
  client := ⟨none, [], false, false⟩

/-- `set_state`, which wakes the registered task. -/
def setState (socket : TcpSocket) (state : TcpState) : TcpSocket :=
  { socket with state, waker := none }

/-- Store what a segment carries in the receive buffer. -/
def receive (socket : TcpSocket) (payload : List UInt8) : TcpSocket :=
  { socket with
    received := socket.received ++ payload
    client := { socket.client with sent := socket.client.sent ++ payload } }

def complete (socket : TcpSocket) : TcpSocket :=
  { socket with client := { socket.client with completed := true } }

/-- The client resets the connection. -/
def abort (socket : TcpSocket) : TcpSocket :=
  { socket with tuple := none, client := { socket.client with reset := true } }

/-- A SYN for a listening socket. -/
def synchronize (socket : TcpSocket) (segment : Segment) : TcpSocket :=
  { socket with
    tuple := some (segment.dst, segment.src)
    client := ⟨some segment.dst, [], false, false⟩ }

/-- Whether a segment is for this socket. -/
def accepts (socket : TcpSocket) (segment : Segment) : Bool :=
  if socket.state = .closed then false
  else if socket.state = .listen ∧ segment.control ≠ .syn then false
  else
    match socket.tuple with
    | some endpoints => endpoints == (segment.dst, segment.src)
    | none => socket.listenEndpoint == segment.dst

/-- What a segment for the socket does to it. -/
def process (socket : TcpSocket) (segment : Segment) : TcpSocket :=
  match segment.control with
  | .syn =>
      if socket.state = .listen then (socket.synchronize segment).setState .synReceived
      else socket
  | .rst =>
      match socket.state with
      | .closed | .listen => socket
      | .synReceived => socket.abort.setState .listen
      | _ => socket.abort.setState .closed
  | .ack payload acksFin =>
      match socket.state with
      | .synReceived => (socket.receive payload).complete.setState .established
      | .established | .finWait2 => socket.receive payload
      | .finWait1 =>
          if acksFin then (socket.receive payload).setState .finWait2
          else socket.receive payload
      | .closing => if acksFin then socket.setState .timeWait else socket
      | .lastAck => if acksFin then { socket.setState .closed with tuple := none } else socket
      | _ => socket
  | .fin payload acksFin =>
      match socket.state with
      | .synReceived => (socket.receive payload).complete.setState .closeWait
      | .established => (socket.receive payload).setState .closeWait
      | .finWait1 =>
          (socket.receive payload).setState (if acksFin then .timeWait else .closing)
      | .finWait2 => (socket.receive payload).setState .timeWait
      | _ => socket

/-- `close` closes the sending half. -/
def close (socket : TcpSocket) : TcpSocket :=
  match socket.state with
  | .listen => socket.setState .closed
  | .synReceived | .established => socket.setState .finWait1
  | .closeWait => socket.setState .lastAck
  | _ => socket

def maySend (socket : TcpSocket) : Bool :=
  socket.state == .established || socket.state == .closeWait

/-- `recv_slice`, into a buffer of `room` bytes. -/
def recvSlice (socket : TcpSocket) (room : ℕ) : List UInt8 × TcpSocket :=
  (socket.received.take room, { socket with received := socket.received.drop room })

/-- `send_slice`, when the send buffer takes all of `bytes`. -/
def sendSlice (socket : TcpSocket) (bytes : List UInt8) : TcpSocket :=
  { socket with transmitted := socket.transmitted ++ bytes }

end TcpSocket

end Mirage.Tun
