import Mirage.Foundations.MutualMaps
import Mirage.Foundations.Sealing
import Mirage.Tun.UdpFlows

/-!
# UDP flows on a shared tunnel

The flows which share a mux tunnel are told apart by session ids.  A frame is

    [2B frameLen][4B sid][1B ATYP][ADDR][2B port][payload]

where `frameLen` counts the bytes after it.

The tasks of the flows take their ids from one atomic counter and register
themselves under them; `alloc` is one atomic access of `alloc_sid`.  The demux
pump looks the id of each frame up.  A flow leaves the map when its `SidGuard` is
dropped.
-/

namespace Mirage.Proxy

open Mirage.Foundations Mirage.Tun

/-! ## Frames -/

inductive MuxAddress where
  | ipv4 (ip : Ipv4Addr)
  | domain (name : String)
  | ipv6 (ip : Ipv6Addr)
  deriving DecidableEq

/-- What a frame is made of. -/
structure MuxDatagram where
  sid : UInt32
  address : MuxAddress
  port : UInt16
  payload : List UInt8
  deriving DecidableEq

def wrapFrame (sid : UInt32) (atypAndAddr : List UInt8) (port : UInt16) (payload : List UInt8) :
    Option (List UInt8) :=
  let bodyLen := 4 + atypAndAddr.length + 2 + payload.length
  if bodyLen > 65535 then none
  else
    some (bigEndian 2 bodyLen ++ bigEndian 4 sid.toNat ++ atypAndAddr ++ bigEndian 2 port.toNat ++
      payload)

def frameMuxDomain (sid : UInt32) (domain : String) (port : UInt16) (payload : List UInt8) :
    Option (List UInt8) :=
  let bytes := domain.toUTF8.toList
  if bytes.length > 255 then none
  else wrapFrame sid (3 :: UInt8.ofNat bytes.length :: bytes) port payload

def frameMuxIpv4 (sid : UInt32) (ip : Ipv4Addr) (port : UInt16) (payload : List UInt8) :
    Option (List UInt8) :=
  wrapFrame sid (1 :: bigEndian 4 ip.toNat) port payload

def frameMuxIpv6 (sid : UInt32) (ip : Ipv6Addr) (port : UInt16) (payload : List UInt8) :
    Option (List UInt8) :=
  wrapFrame sid (4 :: bigEndian 16 ip.toNat) port payload

def MuxDatagram.frame (datagram : MuxDatagram) : Option (List UInt8) :=
  match datagram.address with
  | .ipv4 ip => frameMuxIpv4 datagram.sid ip datagram.port datagram.payload
  | .domain name => frameMuxDomain datagram.sid name datagram.port datagram.payload
  | .ipv6 ip => frameMuxIpv6 datagram.sid ip datagram.port datagram.payload

/-- Where the port begins in what follows the session id, by the kind of the address. -/
def portOffset (inner : List UInt8) : Option ℕ :=
  match inner with
  | [] => none
  | atyp :: rest =>
      if atyp = 1 then some (1 + 4)
      else if atyp = 4 then some (1 + 16)
      else if atyp = 3 then
        match rest with
        | [] => none
        | length :: _ => some (1 + 1 + length.toNat)
      else none

/-- A complete frame without its length: the session id, and the payload if there is one. -/
def parseMuxBody (frame : List UInt8) : UInt32 × List UInt8 :=
  if frame.length < 4 then (0, [])
  else
    let sid := UInt32.ofNat (ofBigEndian (frame.take 4))
    let inner := frame.drop 4
    match portOffset inner with
    | none => (sid, [])
    | some off => if off + 2 > inner.length then (sid, []) else (sid, inner.drop (off + 2))

/-- The session id, the payload and the size of the first frame, once it is complete. -/
def parseMuxFrame (buf : List UInt8) : Option (UInt32 × List UInt8 × ℕ) :=
  if buf.length < 2 then none
  else
    let flen := ofBigEndian (buf.take 2)
    let total := 2 + flen
    if buf.length < total then none
    else
      let (sid, payload) := parseMuxBody ((buf.drop 2).take flen)
      some (sid, payload, total)

theorem parseMuxFrame_consumed {buf : List UInt8} {sid : UInt32} {payload : List UInt8}
    {consumed : ℕ} (parsed : parseMuxFrame buf = some (sid, payload, consumed)) :
    2 ≤ consumed ∧ consumed ≤ buf.length := by
  simp only [parseMuxFrame] at parsed
  split at parsed
  · cases parsed
  · split at parsed
    · cases parsed
    · simp only [Option.some.injEq, Prod.mk.injEq] at parsed
      omega

/-- The loop of the demux pump over its buffer: what it parses, and what it leaves. -/
def drainFrames (acc : List UInt8) : List (UInt32 × List UInt8) × List UInt8 :=
  match _ : parseMuxFrame acc with
  | none => ([], acc)
  | some (sid, payload, consumed) =>
      let (frames, rest) := drainFrames (acc.drop consumed)
      ((sid, payload) :: frames, rest)
  termination_by acc.length
  decreasing_by
    have bounds := parseMuxFrame_consumed ‹parseMuxFrame acc = _›
    rw [List.length_drop]
    omega

structure DemuxPump where
  acc : List UInt8
  /-- What was parsed so far. -/
  frames : List (UInt32 × List UInt8)
  reading : Bool
  deriving DecidableEq

def DemuxPump.start : DemuxPump :=
  ⟨[], [], true⟩

/-- `recv_data` has returned a chunk. -/
def DemuxPump.recvData (pump : DemuxPump) (chunk : List UInt8) : DemuxPump :=
  if pump.reading then
    let (frames, rest) := drainFrames (pump.acc ++ chunk)
    { acc := rest
      frames := pump.frames ++ frames
      reading := !decide (rest.length > 65536 * 2) }
  else pump

/-! ## Sessions -/

def muxMaxSidsPerTunnel : ℕ := 512

structure FlowEntry where
  key : FlowKey
  /-- The flow whose flag and counter the entry shares. -/
  flow : ℕ
  deriving DecidableEq

inductive SessionPhase where
  | allocating
  /-- The first `fetch_add` of `alloc_sid` has returned zero. -/
  | retrying
  /-- So has the second, and the counter is to be set. -/
  | wrapping
  | allocated (sid : UInt32)
  /-- The flow has a `SidGuard`. -/
  | registered (sid : UInt32)
  | ended
  deriving DecidableEq

/-- A UDP flow which has been given this tunnel. -/
structure MuxSession where
  key : FlowKey
  phase : SessionPhase
  /-- How many ids the tunnel had given before. -/
  joined : ℕ
  deriving DecidableEq

/-- What the demux pump makes a reply of; it also sets the flow's flag and adds to its counter. -/
structure MuxReply where
  flow : ℕ
  key : FlowKey
  payload : List UInt8
  deriving DecidableEq

structure MuxTunnel where
  nextSid : UInt32
  flows : FiniteMap UInt32 FlowEntry
  sessions : List MuxSession
  /-- The flows which were given an id, the first one first. -/
  allocations : List ℕ
  replies : List MuxReply

inductive MuxEvent where
  /-- A flow is given the tunnel. -/
  | join (key : FlowKey)
  | alloc (index : ℕ)
  | register (index : ℕ)
  | dropGuard (index : ℕ)
  /-- The demux pump has parsed a frame. -/
  | downlink (sid : UInt32) (payload : List UInt8)
  deriving DecidableEq

namespace MuxTunnel

def fromTunnel : MuxTunnel where
  nextSid := 1
  flows := ∅
  sessions := []
  allocations := []
  replies := []

def setPhase (mux : MuxTunnel) (index : ℕ) (session : MuxSession) (phase : SessionPhase) :
    MuxTunnel :=
  { mux with sessions := mux.sessions.set index { session with phase } }

/-- `alloc_sid` returns. -/
def give (mux : MuxTunnel) (index : ℕ) (session : MuxSession) (sid : UInt32) : MuxTunnel :=
  { mux.setPhase index session (.allocated sid) with
    allocations := mux.allocations ++ [index] }

/-- `fetch_add`, and what `alloc_sid` does with the value. -/
def fetchAdd (mux : MuxTunnel) (index : ℕ) (session : MuxSession) (ifZero : SessionPhase) :
    MuxTunnel :=
  let next := { mux with nextSid := mux.nextSid + 1 }
  if mux.nextSid = 0 then next.setPhase index session ifZero
  else next.give index session mux.nextSid

/-- The next atomic access of `alloc_sid`. -/
def allocSid (mux : MuxTunnel) (index : ℕ) (session : MuxSession) : MuxTunnel :=
  match session.phase with
  | .allocating => mux.fetchAdd index session .retrying
  | .retrying => mux.fetchAdd index session .wrapping
  | .wrapping => { mux with nextSid := 2 }.give index session 1
  | _ => mux

/-- `try_register`; a flow which is refused ends without a guard. -/
def tryRegister (mux : MuxTunnel) (index : ℕ) (session : MuxSession) : MuxTunnel :=
  match session.phase with
  | .allocated sid =>
      if mux.flows.entries.length ≥ muxMaxSidsPerTunnel then mux.setPhase index session .ended
      else
        { mux.setPhase index session (.registered sid) with
          flows := mux.flows.insert sid ⟨session.key, index⟩ }
  | _ => mux

def unregister (mux : MuxTunnel) (index : ℕ) (session : MuxSession) : MuxTunnel :=
  match session.phase with
  | .registered sid =>
      { mux.setPhase index session .ended with flows := mux.flows.erase sid }
  | _ => mux

def demux (mux : MuxTunnel) (sid : UInt32) (payload : List UInt8) : MuxTunnel :=
  if payload = [] then mux
  else
    match mux.flows.lookup sid with
    | some entry => { mux with replies := mux.replies ++ [⟨entry.flow, entry.key, payload⟩] }
    | none => mux

/-- One of the tasks makes its next step on its flow. -/
def onSession (mux : MuxTunnel) (index : ℕ) (change : MuxTunnel → ℕ → MuxSession → MuxTunnel) :
    MuxTunnel :=
  match mux.sessions[index]? with
  | some session => change mux index session
  | none => mux

def step (mux : MuxTunnel) : MuxEvent → MuxTunnel
  | .join key =>
      { mux with sessions := mux.sessions ++ [⟨key, .allocating, mux.allocations.length⟩] }
  | .alloc index => mux.onSession index allocSid
  | .register index => mux.onSession index tryRegister
  | .dropGuard index => mux.onSession index unregister
  | .downlink sid payload => mux.demux sid payload

end MuxTunnel

end Mirage.Proxy
