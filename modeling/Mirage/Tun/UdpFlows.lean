import Mirage.Foundations.Net
import Mirage.Foundations.Run

/-!
# UDP flows

`feed` finds the relay of a datagram in the map of flows, or spawns one.  A
relay which has been set up takes its datagrams from the channel and sends them
on one of three paths: a session of a shared mux tunnel, a legacy tunnel, or a
direct socket.  On a mux path the return path is read by the demux pump of the
tunnel, on the other two by the other half of the relay.  A relay that has left
its loops drops its `FlowGuard`, which takes its entry out of the map.

What the rules, the network and the timers decide is given by the events; an
idle timeout needs an empty channel.  `feed` holds the lock of the map to its
end and is one event.  The two logs record what each datagram found.
-/

namespace Mirage.Tun

open Mirage.Foundations

structure FlowKey where
  src : IpAddr
  srcPort : ℕ
  dst : IpAddr
  dstPort : ℕ
  deriving DecidableEq

/-- The loop which owns the receiver of a flow. -/
inductive SenderPhase where
  | waiting
  /-- It has taken datagrams, and their write is pending. -/
  | sending (batch : List (List UInt8))
  | ended
  deriving DecidableEq

/-- The paths which one relay has for itself. -/
inductive OwnPath where
  | legacy
  | direct
  deriving DecidableEq

inductive FlowPhase where
  | setup
  /-- `get_mux_tunnel` has returned a tunnel. -/
  | registering (tunnel : ℕ)
  | mux (tunnel : ℕ) (sender : SenderPhase)
  /-- `dn` and `up` run; `reading` tells of `up`. -/
  | own (path : OwnPath) (sender : SenderPhase) (reading : Bool)
  /-- The loops are over, and the guard is not dropped yet. -/
  | leaving
  | gone
  deriving DecidableEq

structure FlowRelay where
  key : FlowKey
  /-- What is in the channel. -/
  queue : List (List UInt8)
  phase : FlowPhase
  deriving DecidableEq

/-- The writer and the demux pump of a `MuxTunnel`. -/
structure MuxPumps where
  /-- The frames in the channel of the writer, each with its relay. -/
  uplink : List (ℕ × List UInt8)
  /-- What the writer has taken. -/
  batch : Option (List (ℕ × List UInt8))
  reading : Bool
  writing : Bool
  alive : Bool
  deriving DecidableEq

/-- A datagram which `feed` handed to the relay of an entry. -/
structure Fed where
  relay : ℕ
  /-- The relay takes datagrams, and both halves of the flow run. -/
  served : Bool
  deriving DecidableEq

/-- A datagram which was given to the tunnel, to the writer of a mux tunnel, or to a socket. -/
structure Forward where
  relay : ℕ
  payload : List UInt8
  /-- A task reads the return path. -/
  read : Bool
  deriving DecidableEq

structure UdpFlows where
  flows : List (FlowKey × ℕ)
  relays : List FlowRelay
  muxes : List MuxPumps
  fed : List Fed
  forwards : List Forward

inductive RelayEvent where
  /-- The relay returns before its loops. -/
  | giveUp
  | getMux (tunnel : ℕ)
  | register
  | startOwn (path : OwnPath)
  /-- The datagram has no frame. -/
  | skip
  /-- Take a datagram, on a legacy path with `more` others from the channel. -/
  | recv (more : ℕ)
  | sent (ok : Bool)
  | idle
  | firstDownlinkTimeout
  /-- The other half ends: a timeout, or an error of its reads. -/
  | upEnds
  | abort
  | dropGuard
  deriving DecidableEq

inductive FlowEvent where
  /-- A datagram from the device; `refused` if the rules block it. -/
  | feed (key : FlowKey) (payload : List UInt8) (refused : Bool)
  | relay (index : ℕ) (event : RelayEvent)
  | createMux
  | demuxEnds (tunnel : ℕ)
  | demuxStores (tunnel : ℕ)
  | writerTakes (tunnel count : ℕ)
  | writerSends (tunnel : ℕ) (ok : Bool)
  | writerStores (tunnel : ℕ)
  deriving DecidableEq

namespace FlowPhase

def sender : FlowPhase → Option SenderPhase
  | .mux _ sender => some sender
  | .own _ sender _ => some sender
  | _ => none

def withSender (sender : SenderPhase) : FlowPhase → FlowPhase
  | .mux tunnel _ => .mux tunnel sender
  | .own path _ reading => .own path sender reading
  | phase => phase

/-- `join!` waits for the other half. -/
def senderEnds : FlowPhase → FlowPhase
  | .mux _ _ => .leaving
  | .own path _ true => .own path .ended true
  | .own _ _ false => .leaving
  | phase => phase

def readerEnds : FlowPhase → FlowPhase
  | .own _ .ended _ => .leaving
  | .own path sender _ => .own path sender false
  | phase => phase

/-- Something will take what is put in the channel. -/
def receives : FlowPhase → Bool
  | .own _ .ended _ => false
  | .leaving => false
  | .gone => false
  | _ => true

/-- How many datagrams `recv` takes besides the first. -/
def coalesced (more : ℕ) : FlowPhase → ℕ
  | .own .legacy _ _ => more
  | _ => 0

end FlowPhase

namespace FlowRelay

/-- `try_send`, to a channel of 256 datagrams. -/
def trySend (relay : FlowRelay) (payload : List UInt8) : FlowRelay :=
  if relay.phase.receives && relay.queue.length < 256 then
    { relay with queue := relay.queue ++ [payload] }
  else relay

def step (muxes : List MuxPumps) (relay : FlowRelay) : RelayEvent → FlowRelay
  | .giveUp =>
      match relay.phase with
      | .setup => { relay with phase := .leaving }
      | .registering _ => { relay with phase := .leaving }
      | _ => relay
  | .getMux tunnel =>
      match relay.phase with
      | .setup =>
          if (muxes[tunnel]?).any MuxPumps.alive then { relay with phase := .registering tunnel }
          else relay
      | _ => relay
  | .register =>
      match relay.phase with
      | .registering tunnel => { relay with phase := .mux tunnel .waiting }
      | _ => relay
  | .startOwn path =>
      match relay.phase with
      | .setup => { relay with phase := .own path .waiting true }
      | _ => relay
  | .skip =>
      match relay.phase with
      | .mux _ .waiting => { relay with queue := relay.queue.tail }
      | .own .legacy .waiting _ => { relay with queue := relay.queue.tail }
      | _ => relay
  | .recv more =>
      match relay.phase.sender, relay.queue with
      | some .waiting, payload :: rest =>
          let more := relay.phase.coalesced more
          { relay with
            queue := rest.drop more
            phase := relay.phase.withSender (.sending (payload :: rest.take more)) }
      | _, _ => relay
  | .sent ok =>
      match relay.phase.sender with
      | some (.sending _) =>
          { relay with
            phase := if ok then relay.phase.withSender .waiting else relay.phase.senderEnds }
      | _ => relay
  | .idle =>
      match relay.phase.sender, relay.queue with
      | some .waiting, [] => { relay with phase := relay.phase.senderEnds }
      | _, _ => relay
  | .firstDownlinkTimeout =>
      match relay.phase with
      | .mux _ .waiting => { relay with phase := .leaving }
      | _ => relay
  | .upEnds => { relay with phase := relay.phase.readerEnds }
  | .abort =>
      match relay.phase with
      | .mux _ .waiting => { relay with phase := .leaving }
      | .own _ _ _ => { relay with phase := .leaving }
      | _ => relay
  | .dropGuard =>
      match relay.phase with
      | .leaving => { relay with phase := .gone }
      | _ => relay

end FlowRelay

namespace MuxPumps

def create : MuxPumps :=
  ⟨[], none, true, true, true⟩

/-- The writer takes frames while it has none in hand. -/
def take (pumps : MuxPumps) (count : ℕ) : MuxPumps :=
  match pumps.writing, pumps.batch, pumps.uplink with
  | true, none, first :: rest =>
      { pumps with batch := some (first :: rest.take count), uplink := rest.drop count }
  | _, _, _ => pumps

/-- The writer is done with its frames; it ends on an error. -/
def wrote (pumps : MuxPumps) (ok : Bool) : MuxPumps :=
  match pumps.batch with
  | some _ => { pumps with batch := none, writing := pumps.writing && ok }
  | none => pumps

end MuxPumps

namespace UdpFlows

def start : UdpFlows :=
  ⟨[], [], [], [], []⟩

/-- The demux pump of a tunnel runs. -/
def demuxReads (state : UdpFlows) (tunnel : ℕ) : Bool :=
  (state.muxes[tunnel]?).any MuxPumps.reading

/-- A task reads the return path of a relay whose loops run. -/
def reads (state : UdpFlows) : FlowPhase → Bool
  | .mux tunnel _ => state.demuxReads tunnel
  | .own _ _ reading => reading
  | _ => false

/-- A relay which is being set up, or both halves of which run. -/
def serves (state : UdpFlows) : FlowPhase → Bool
  | .setup => true
  | .registering _ => true
  | phase => phase.receives && state.reads phase

def feed (state : UdpFlows) (key : FlowKey) (payload : List UInt8) : UdpFlows :=
  match state.flows.find? (·.1 = key) with
  | some (_, index) =>
      { state with
        relays := state.relays.modify index (FlowRelay.trySend · payload)
        fed := state.fed ++
          [⟨index, (state.relays[index]?).any fun relay => state.serves relay.phase⟩] }
  | none =>
      if state.flows.length < 128 then
        { state with
          flows := (key, state.relays.length) :: state.flows
          relays := state.relays ++ [⟨key, [payload], .setup⟩] }
      else state

/-- The pending write of a relay ends; the channel of a mux writer has room for 1024 frames. -/
def sent (state : UdpFlows) (index : ℕ) (relay : FlowRelay) (ok : Bool) : UdpFlows :=
  match relay.phase with
  | .mux tunnel (.sending batch) =>
      match state.muxes[tunnel]? with
      | some pumps =>
          if pumps.writing = false then
            { state with
              relays := state.relays.set index (relay.step state.muxes (.sent false)) }
          else if pumps.uplink.length < 1024 then
            { state with
              relays := state.relays.set index (relay.step state.muxes (.sent true))
              muxes := state.muxes.set tunnel
                { pumps with uplink := pumps.uplink ++ batch.map fun payload => (index, payload) }
              forwards := state.forwards ++
                batch.map fun payload => ⟨index, payload, pumps.reading⟩ }
          else state
      | none => state
  | .own _ (.sending batch) reading =>
      if ok then
        { state with
          relays := state.relays.set index (relay.step state.muxes (.sent true))
          forwards := state.forwards ++ batch.map fun payload => ⟨index, payload, reading⟩ }
      else
        { state with relays := state.relays.set index (relay.step state.muxes (.sent false)) }
  | _ => state

/-- `remove_flow`, from the drop of the guard. -/
def dropGuard (state : UdpFlows) (index : ℕ) (relay : FlowRelay) : UdpFlows :=
  match relay.phase with
  | .leaving =>
      { state with
        flows := state.flows.filter (·.1 ≠ relay.key)
        relays := state.relays.set index (relay.step state.muxes .dropGuard) }
  | _ => state

def stepRelay (state : UdpFlows) (index : ℕ) (relay : FlowRelay) : RelayEvent → UdpFlows
  | .sent ok => state.sent index relay ok
  | .dropGuard => state.dropGuard index relay
  | event => { state with relays := state.relays.set index (relay.step state.muxes event) }

def step (state : UdpFlows) : FlowEvent → UdpFlows
  | .feed key payload refused => if refused then state else state.feed key payload
  | .relay index event =>
      match state.relays[index]? with
      | some relay => state.stepRelay index relay event
      | none => state
  | .createMux => { state with muxes := state.muxes ++ [.create] }
  | .demuxEnds tunnel =>
      { state with muxes := state.muxes.modify tunnel fun pumps => { pumps with reading := false } }
  | .demuxStores tunnel =>
      { state with
        muxes := state.muxes.modify tunnel fun pumps =>
          { pumps with alive := pumps.alive && pumps.reading } }
  | .writerTakes tunnel count =>
      { state with muxes := state.muxes.modify tunnel (MuxPumps.take · count) }
  | .writerSends tunnel ok =>
      match state.muxes[tunnel]? with
      | some pumps =>
          { state with
            muxes := state.muxes.set tunnel (pumps.wrote ok)
            forwards :=
              if ok then
                state.forwards ++ (pumps.batch.getD []).map fun frame =>
                  ⟨frame.1, frame.2, pumps.reading⟩
              else state.forwards }
      | none => state
  | .writerStores tunnel =>
      { state with
        muxes := state.muxes.modify tunnel fun pumps =>
          { pumps with alive := pumps.alive && pumps.writing } }

end UdpFlows

end Mirage.Tun
