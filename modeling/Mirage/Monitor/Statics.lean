import Mirage.Foundations.MutualMaps
import Mirage.Foundations.Text

/-!
# The statics of the monitor

`monitor.rs` keeps its state in process-wide statics: the traffic counters, the
time of the last tunnel traffic, the rate samples, the table of live connections
and the list of recent requests.  Times are seconds where the code takes the
system clock, and milliseconds where it takes an `Instant`.
-/

namespace Mirage.Monitor

open Mirage.Foundations

structure LiveConnection where
  id : UInt64
  protocol : String
  target : String
  outbound : String
  upBytes : UInt64
  downBytes : UInt64
  startTime : ℕ
  sourceApp : Option String
  deriving DecidableEq, Repr

structure RecentRequestRecord where
  id : UInt64
  protocol : String
  target : String
  resolvedIp : String
  matchedRule : String
  outbound : String
  status : String
  upBytes : UInt64
  downBytes : UInt64
  startTime : ℕ
  durationMs : ℕ
  dnsMs : UInt32
  connectMs : UInt32
  tlsMs : UInt32
  ttfbMs : UInt32
  sourceApp : Option String
  deriving DecidableEq, Repr

/-- `tunnelLastActive` is zero as long as there was no tunnel traffic. -/
structure Statics where
  globalUp : UInt64
  globalDown : UInt64
  tunnelLastActive : ℕ
  rateSamples : List (ℕ × UInt64 × UInt64)
  nextConnId : UInt64
  activeConnections : FiniteMap UInt64 LiveConnection
  recentRequests : List RecentRequestRecord

def recentRequestsCap : ℕ := 300

/-- The first element which passes a test is changed. -/
def modifyFirst {Element : Type*} (test : Element → Bool) (change : Element → Element)
    (elements : List Element) : List Element :=
  match elements.findIdx? test with
  | some index => elements.modify index change
  | none => elements

namespace Statics

def new : Statics where
  globalUp := 0
  globalDown := 0
  tunnelLastActive := 0
  rateSamples := []
  nextConnId := 1
  activeConnections := ∅
  recentRequests := []

def addUp (statics : Statics) (bytes : UInt64) : Statics :=
  { statics with globalUp := statics.globalUp + bytes }

def addDown (statics : Statics) (bytes : UInt64) : Statics :=
  { statics with globalDown := statics.globalDown + bytes }

def markTunnelActive (statics : Statics) (now : ℕ) : Statics :=
  { statics with tunnelLastActive := now }

def tunnelStallSecs (statics : Statics) (now : ℕ) : Option ℕ :=
  if statics.tunnelLastActive = 0 then none else some (now - statics.tunnelLastActive)

def liveConnections (statics : Statics) : List LiveConnection :=
  statics.activeConnections.entries.map Sigma.snd

/-- The live connections which go through the tunnel, as stall detection counts them. -/
def tunnelConnCount (statics : Statics) : ℕ :=
  statics.liveConnections.countP fun connection => containsText connection.outbound "代理"

/-- `sample` as far as it is exact: the counters, and whether they are kept as a sample. -/
def sample (statics : Statics) (now : ℕ) : (UInt64 × UInt64) × Statics :=
  let counters := (statics.globalUp, statics.globalDown)
  let taken := { statics with
    rateSamples := (statics.rateSamples ++ [(now, counters)]).drop
      (statics.rateSamples.length + 1 - 20) }
  match statics.rateSamples.getLast? with
  | some (before, _) => (counters, if 800 ≤ now - before then taken else statics)
  | none => (counters, taken)

def recordConnStartWithApp (statics : Statics) (protocol target resolvedIp matchedRule outbound :
    String) (sourceApp : Option String) (now : ℕ) : UInt64 × Statics :=
  let id := statics.nextConnId
  let record : LiveConnection :=
    { id, protocol, target, outbound, upBytes := 0, downBytes := 0, startTime := now, sourceApp }
  let item : RecentRequestRecord :=
    { id, protocol, target, resolvedIp, matchedRule, outbound, status := "Active", upBytes := 0
      downBytes := 0, startTime := now, durationMs := 0, dnsMs := 0, connectMs := 0, tlsMs := 0
      ttfbMs := 0, sourceApp }
  let requests :=
    if recentRequestsCap ≤ statics.recentRequests.length then statics.recentRequests.dropLast
    else statics.recentRequests
  (id, { statics with
    nextConnId := id + 1
    activeConnections := statics.activeConnections.insert id record
    recentRequests := item :: requests })

def recordConnStart (statics : Statics) (protocol target resolvedIp matchedRule outbound : String)
    (now : ℕ) : UInt64 × Statics :=
  statics.recordConnStartWithApp protocol target resolvedIp matchedRule outbound none now

def modifyRequest (statics : Statics) (id : UInt64)
    (change : RecentRequestRecord → RecentRequestRecord) : Statics :=
  { statics with
    recentRequests := modifyFirst (fun item => item.id == id) change statics.recentRequests }

def modifyConnection (statics : Statics) (id : UInt64)
    (change : LiveConnection → LiveConnection) : Statics :=
  match statics.activeConnections.lookup id with
  | some connection =>
      { statics with
        activeConnections := statics.activeConnections.insert id (change connection) }
  | none => statics

def recordConnTimings (statics : Statics) (id : UInt64) (dnsMs connectMs tlsMs ttfbMs : UInt32) :
    Statics :=
  statics.modifyRequest id fun item =>
    { item with
      dnsMs := if 0 < dnsMs then dnsMs else item.dnsMs
      connectMs := if 0 < connectMs then connectMs else item.connectMs
      tlsMs := if 0 < tlsMs then tlsMs else item.tlsMs
      ttfbMs := if 0 < ttfbMs then ttfbMs else item.ttfbMs }

def updateConnApp (statics : Statics) (id : UInt64) (app : String) : Statics :=
  (statics.modifyConnection id fun connection =>
    { connection with sourceApp := some app }).modifyRequest id fun item =>
      { item with sourceApp := some app }

/-- A relay adds to the counters which it got when it registered its connection. -/
def transferred (statics : Statics) (id : UInt64) (up down : UInt64) : Statics :=
  statics.modifyConnection id fun connection =>
    { connection with
      upBytes := connection.upBytes + up, downBytes := connection.downBytes + down }

def recordConnCloseWithDuration (statics : Statics) (id up down : UInt64) (status : String)
    (durationMs : ℕ) : Statics :=
  { statics with activeConnections := statics.activeConnections.erase id }.modifyRequest id
    fun item => { item with upBytes := up, downBytes := down, durationMs, status }

def recordConnClose (statics : Statics) (id up down : UInt64) (status : String) (now : ℕ) :
    Statics :=
  let startTime := ((statics.activeConnections.lookup id).map LiveConnection.startTime).getD now
  statics.recordConnCloseWithDuration id up down status ((now - startTime) * 1000)

def resetSession (statics : Statics) : Statics :=
  { statics with
    activeConnections := ∅
    recentRequests := []
    tunnelLastActive := 0
    rateSamples := [] }

/-- The list of recent requests never outgrows its capacity. -/
theorem recentRequests_length_le {statics : Statics}
    (within : statics.recentRequests.length ≤ recentRequestsCap)
    (protocol target resolvedIp matchedRule outbound : String) (sourceApp : Option String)
    (now : ℕ) :
    (statics.recordConnStartWithApp protocol target resolvedIp matchedRule outbound sourceApp
      now).2.recentRequests.length ≤ recentRequestsCap := by
  simp only [recordConnStartWithApp, List.length_cons]
  split
  · rw [List.length_dropLast]
    simp only [recentRequestsCap] at *
    omega
  · omega

@[simp]
theorem modifyRequest_activeConnections (statics : Statics) (id : UInt64)
    (change : RecentRequestRecord → RecentRequestRecord) :
    (statics.modifyRequest id change).activeConnections = statics.activeConnections :=
  rfl

end Statics

end Mirage.Monitor
