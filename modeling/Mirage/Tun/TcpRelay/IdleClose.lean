import Mirage.Tun.AdaptiveIdle

/-!
# The idle close of a TCP relay

Both halves of a relay, to a tunnel or direct, wait for a read under a timeout of
their own.  Until its loop has passed on its first bytes a half uses the wait
before the transfer.  The time of the last activity is shared, and the first half
which ends closes the relay.

The bytes which are read ahead, before the loops start, do not count for the loop
of the upload.  It keeps the shorter wait until the client sends more.

The timeouts in seconds, before and after the first bytes, are the parameter
`adaptiveTimeout`.  `clock` is the monotonic clock in milliseconds, by which the
timers run; every event which reads the other clock, in seconds, carries the reading.
-/

namespace Mirage.Tun

open Mirage.Foundations

inductive TransferHalf where
  | upload
  | download
  deriving DecidableEq, Repr

/-- What a half has passed on in its loop, how long it waits, and when its timer fires -/
structure TransferLoop where
  bytes : ℕ
  timeoutSecs : ℕ
  deadline : ℕ
  deriving DecidableEq, Repr

inductive TransferEnd where
  /-- Closed for idleness, as many seconds after the last activity -/
  | idle (silence : ℕ)
  | other (reason : CloseReason)
  deriving DecidableEq, Repr

structure Transfer where
  /-- The client's bytes that were sent on before the loops -/
  preRead : ℕ
  upload : TransferLoop
  download : TransferLoop
  lastActive : ℕ
  clock : ℕ
  ended : Option TransferEnd
  deriving DecidableEq, Repr

inductive TransferEvent where
  | tick (milliseconds : ℕ)
  /-- A read of the client is sent on; there are no bytes at its end. -/
  | uploaded (count now : ℕ)
  /-- A piece of the server is written to the client; a record may be empty. -/
  | downloaded (count now : ℕ)
  | timeout (half : TransferHalf) (now : ℕ)
  | ends (reason : CloseReason)
  deriving DecidableEq, Repr

namespace Transfer

variable (adaptiveTimeout : Bool → ℕ)

def startLoop (clock : ℕ) : TransferLoop where
  bytes := 0
  timeoutSecs := adaptiveTimeout false
  deadline := clock + adaptiveTimeout false * 1000

def start (preRead clock now : ℕ) : Transfer where
  preRead
  upload := startLoop adaptiveTimeout clock
  download := startLoop adaptiveTimeout clock
  lastActive := now
  clock
  ended := none

/-- A new round of the loop, under a new timer -/
def rearm (loop : TransferLoop) (clock : ℕ) : TransferLoop :=
  { loop with deadline := clock + loop.timeoutSecs * 1000 }

/-- The first bytes end the wait before the transfer. -/
def passOn (loop : TransferLoop) (clock count : ℕ) : TransferLoop :=
  rearm
    { loop with
      timeoutSecs := if loop.bytes = 0 then adaptiveTimeout true else loop.timeoutSecs
      bytes := loop.bytes + count }
    clock

def loop (transfer : Transfer) : TransferHalf → TransferLoop
  | .upload => transfer.upload
  | .download => transfer.download

def setLoop (transfer : Transfer) (half : TransferHalf) (loop : TransferLoop) : Transfer :=
  match half with
  | .upload => { transfer with upload := loop }
  | .download => { transfer with download := loop }

def onTimeout (transfer : Transfer) (half : TransferHalf) (now : ℕ) : Transfer :=
  let loop := transfer.loop half
  if transfer.clock < loop.deadline then transfer
  else if now - transfer.lastActive < loop.timeoutSecs then
    -- The other half is active, or was lately.
    transfer.setLoop half (rearm loop transfer.clock)
  else { transfer with ended := some (.idle (now - transfer.lastActive)) }

def step (transfer : Transfer) (event : TransferEvent) : Transfer :=
  if transfer.ended.isSome then transfer
  else
    match event with
    | .tick milliseconds => { transfer with clock := transfer.clock + milliseconds }
    | .uploaded count now =>
        if count = 0 then { transfer with ended := some (.other .clientClosed) }
        else
          { transfer with
            upload := passOn adaptiveTimeout transfer.upload transfer.clock count
            lastActive := now }
    | .downloaded count now =>
        { transfer with
          download := passOn adaptiveTimeout transfer.download transfer.clock count
          lastActive := now }
    | .timeout half now => transfer.onTimeout half now
    | .ends reason => { transfer with ended := some (.other reason) }

/-- Bytes of the client and of the server have been passed on. -/
def BothWays (transfer : Transfer) : Prop :=
  0 < transfer.preRead + transfer.upload.bytes ∧ 0 < transfer.download.bytes

/--
Once bytes have gone both ways, no half uses a shorter wait than that of the
transfer, and a relay closed for idleness has been silent for that long.
-/
structure Respects (transfer : Transfer) : Prop where
  waits : transfer.BothWays → ∀ half, adaptiveTimeout true ≤ (transfer.loop half).timeoutSecs
  closes : transfer.BothWays → ∀ silence, transfer.ended = some (.idle silence) →
    adaptiveTimeout true ≤ silence

/--
When bytes of the server come, the upload does not keep the wait before the
transfer although bytes were read ahead, or this wait is not the shorter one.
-/
def UploadReady (transfer : Transfer) (event : TransferEvent) : Prop :=
  ∀ count now, event = .downloaded count now → 0 < count → transfer.ended = none →
    0 < transfer.preRead → 0 < transfer.upload.bytes ∨ adaptiveTimeout true ≤ adaptiveTimeout false

/-- A loop waits as long as its first bytes tell. -/
def Paced (loop : TransferLoop) : Prop :=
  (loop.timeoutSecs = adaptiveTimeout false ∨ loop.timeoutSecs = adaptiveTimeout true) ∧
    (0 < loop.bytes → loop.timeoutSecs = adaptiveTimeout true)

structure Invariant (transfer : Transfer) : Prop where
  upload : Paced adaptiveTimeout transfer.upload
  upload_waits : transfer.upload.bytes = 0 →
    transfer.upload.timeoutSecs = adaptiveTimeout false
  download : Paced adaptiveTimeout transfer.download
  ready : 0 < transfer.preRead → 0 < transfer.download.bytes →
    0 < transfer.upload.bytes ∨ adaptiveTimeout true ≤ adaptiveTimeout false
  closes : transfer.BothWays → ∀ silence, transfer.ended = some (.idle silence) →
    adaptiveTimeout true ≤ silence

variable {adaptiveTimeout} {transfer : Transfer} {event : TransferEvent}

theorem Paced.passOn {loop : TransferLoop} (paced : Paced adaptiveTimeout loop)
    (clock count : ℕ) : Paced adaptiveTimeout (passOn adaptiveTimeout loop clock count) := by
  have chosen : (Transfer.passOn adaptiveTimeout loop clock count).timeoutSecs =
      adaptiveTimeout true := by
    simp only [Transfer.passOn, rearm]
    split
    · rfl
    · rename_i some_bytes
      exact paced.2 (Nat.pos_of_ne_zero some_bytes)
  exact ⟨Or.inr chosen, fun _ => chosen⟩

theorem invariant_start (preRead clock now : ℕ) :
    (start adaptiveTimeout preRead clock now).Invariant adaptiveTimeout where
  upload := ⟨Or.inl rfl, fun some_bytes => absurd some_bytes (Nat.lt_irrefl 0)⟩
  upload_waits _ := rfl
  download := ⟨Or.inl rfl, fun some_bytes => absurd some_bytes (Nat.lt_irrefl 0)⟩
  ready _ some_bytes := absurd some_bytes (Nat.lt_irrefl 0)
  closes bothWays := absurd bothWays.2 (Nat.lt_irrefl 0)

namespace Invariant

theorem waits (invariant : transfer.Invariant adaptiveTimeout) (bothWays : transfer.BothWays)
    (half : TransferHalf) : adaptiveTimeout true ≤ (transfer.loop half).timeoutSecs := by
  cases half with
  | download => exact (invariant.download.2 bothWays.2).ge
  | upload =>
      change adaptiveTimeout true ≤ transfer.upload.timeoutSecs
      rcases Nat.eq_zero_or_pos transfer.upload.bytes with none | some_bytes
      · have ahead : 0 < transfer.preRead := by
          have client := bothWays.1
          omega
        rw [invariant.upload_waits none]
        rcases invariant.ready ahead bothWays.2 with some_bytes | longer
        · omega
        · exact longer
      · exact (invariant.upload.2 some_bytes).ge

theorem respects (invariant : transfer.Invariant adaptiveTimeout) :
    transfer.Respects adaptiveTimeout :=
  ⟨invariant.waits, invariant.closes⟩

theorem onTimeout (invariant : transfer.Invariant adaptiveTimeout) (half : TransferHalf)
    (now : ℕ) : (transfer.onTimeout half now).Invariant adaptiveTimeout := by
  rw [Transfer.onTimeout]
  split
  · exact invariant
  · split
    · rcases invariant with ⟨upload, upload_waits, download, ready, closes⟩
      cases half with
      | upload => exact ⟨upload, upload_waits, download, ready, closes⟩
      | download => exact ⟨upload, upload_waits, download, ready, closes⟩
    · rename_i silent
      rcases invariant with ⟨upload, upload_waits, download, ready, closes⟩
      have waits := Invariant.waits ⟨upload, upload_waits, download, ready, closes⟩
      refine ⟨upload, upload_waits, download, ready, fun bothWays silence closed => ?_⟩
      have waited := waits bothWays half
      simp only [Option.some.injEq, TransferEnd.idle.injEq] at closed
      omega

/-- Ending for another reason is no idle close. -/
theorem ends (invariant : transfer.Invariant adaptiveTimeout) (reason : CloseReason) :
    Invariant adaptiveTimeout { transfer with ended := some (.other reason) } := by
  rcases invariant with ⟨upload, upload_waits, download, ready, _⟩
  refine ⟨upload, upload_waits, download, ready, fun _ silence closed => ?_⟩
  cases closed

theorem step (invariant : transfer.Invariant adaptiveTimeout)
    (uploadReady : transfer.UploadReady adaptiveTimeout event) :
    (transfer.step adaptiveTimeout event).Invariant adaptiveTimeout := by
  unfold Transfer.step
  split
  · exact invariant
  · rename_i running
    rw [Option.not_isSome_iff_eq_none] at running
    cases event with
    | tick milliseconds =>
        rcases invariant with ⟨upload, upload_waits, download, ready, closes⟩
        exact ⟨upload, upload_waits, download, ready, closes⟩
    | ends reason => exact invariant.ends reason
    | timeout half now => exact invariant.onTimeout half now
    | uploaded count now =>
        dsimp only
        split
        · exact invariant.ends .clientClosed
        · rename_i some_bytes
          rcases invariant with ⟨upload, upload_waits, download, ready, closes⟩
          refine ⟨upload.passOn _ _, ?_, download, ?_, ?_⟩
          · intro none
            simp only [passOn, rearm] at none
            omega
          · intro _ _
            left
            simp only [passOn, rearm]
            omega
          · intro _ silence closed
            rw [show transfer.ended = some (.idle silence) from closed] at running
            cases running
    | downloaded count now =>
        rcases invariant with ⟨upload, upload_waits, download, ready, closes⟩
        refine ⟨upload, upload_waits, download.passOn _ _, ?_, ?_⟩
        · intro ahead some_bytes
          rcases Nat.eq_zero_or_pos count with none | positive
          · simp only [passOn, rearm, none, Nat.add_zero] at some_bytes
            exact ready ahead some_bytes
          · exact uploadReady count now rfl positive running ahead
        · intro _ silence closed
          rw [show transfer.ended = some (.idle silence) from closed] at running
          cases running

end Invariant

theorem uploadReady_of_respects (invariant : transfer.Invariant adaptiveTimeout)
    (respects : (transfer.step adaptiveTimeout event).Respects adaptiveTimeout) :
    transfer.UploadReady adaptiveTimeout event := by
  rintro count now rfl positive running ahead
  rcases Nat.eq_zero_or_pos transfer.upload.bytes with none | some_bytes
  · right
    rw [step, running] at respects
    have bothWays : BothWays (transfer.step adaptiveTimeout (.downloaded count now)) := by
      rw [step, running]
      constructor
      · change 0 < transfer.preRead + transfer.upload.bytes
        omega
      · change 0 < transfer.download.bytes + count
        omega
    rw [step, running] at bothWays
    have waits := respects.waits bothWays .upload
    rw [← invariant.upload_waits none]
    exact waits
  · exact Or.inl some_bytes

/--
A relay respects the timeout of the transfer throughout a run, exactly if no bytes
of the server find an upload with a shorter wait whose only bytes were read ahead.
-/
theorem respects_iff (adaptiveTimeout : Bool → ℕ) (preRead clock now : ℕ)
    (events : List TransferEvent) :
    Throughout (step adaptiveTimeout) (Respects adaptiveTimeout)
        (start adaptiveTimeout preRead clock now) events ↔
      Along (step adaptiveTimeout) (UploadReady adaptiveTimeout)
        (start adaptiveTimeout preRead clock now) events := by
  have permitted : Along (step adaptiveTimeout) (fun _ _ => True)
      (start adaptiveTimeout preRead clock now) events := .of_forall fun _ _ => trivial
  refine throughout_iff_along (Invariant adaptiveTimeout) Invariant.respects ?_ ?_ permitted
    (invariant_start preRead clock now)
  · intro transfer event _ invariant uploadReady
    exact invariant.step uploadReady
  · intro transfer event _ invariant respects
    exact uploadReady_of_respects invariant respects

/-- The timeouts of a flow to an address, of which no profile is kept -/
def plainTimeout (isActiveTransfer : Bool) : ℕ :=
  (Profiles.computeAdaptiveTimeout toAsciiLowercase .first ∅ ⟨none, 443, none, none⟩
    isActiveTransfer 0 0).1

/-- A request which was read ahead, its answer, and silence -/
def answeredOnce : List TransferEvent :=
  [.tick 500, .downloaded 1000 0, .tick 14500, .timeout .upload 15]

theorem not_respects_answeredOnce :
    ¬Throughout (step plainTimeout) (Respects plainTimeout) (start plainTimeout 100 0 0)
        answeredOnce ∧
      (run (step plainTimeout) (start plainTimeout 100 0 0) answeredOnce).ended =
        some (.idle 15) ∧
      plainTimeout true = 30 := by
  have ended : (run (step plainTimeout) (start plainTimeout 100 0 0) answeredOnce).ended =
      some (.idle 15) := by decide
  refine ⟨fun throughout => ?_, ended, by decide⟩
  have closes := throughout.run.closes ⟨by decide, by decide⟩ 15 ended
  exact absurd closes (by decide)

end Transfer

end Mirage.Tun
