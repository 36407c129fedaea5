import Mirage.Foundations.Run

/-!
# The descriptor of the TUN device

Relays, DNS handlers and the pump write packets through `write_raw` and
`drain_tx`.  A call loads the descriptor, then the flag, and then issues its
writes; `stop` sets the flag, takes the descriptor and closes it.  Each of these
is a step of its own, and other tasks open and close files between them.  Only
the first call of `stop` gets past the flag, so there is one stop phase.
-/

namespace Mirage.Tun

open Mirage.Foundations

/-- What a descriptor number leads to. -/
inductive File where
  | tun
  | other (id : ℕ)
  deriving DecidableEq

inductive StopPhase where
  | running
  | flagged
  /-- The descriptor is swapped for -1; it was not negative if it is `some`. -/
  | taken (rawFd : Option ℕ)
  | finished (rawFd : Option ℕ)
  deriving DecidableEq

/-- The number which `stop` has closed. -/
def StopPhase.closed : StopPhase → Option ℕ
  | .finished rawFd => rawFd
  | _ => none

inductive WriteCall where
  | writeRaw (pkt : List UInt8)
  | drainTx
  deriving DecidableEq

inductive WriterPhase where
  | entered (call : WriteCall)
  | loaded (call : WriteCall) (fd : ℕ)
  /-- `drain_tx` is past its check and takes the packets of the device. -/
  | collecting (fd : ℕ)
  | writing (fd : ℕ) (pkt : List UInt8) (rest : List (List UInt8)) (retries : ℕ)
  | returned
  deriving DecidableEq

inductive WriteResult where
  | written
  | eagain
  | failed
  deriving DecidableEq

/-- A packet handed to `write`. -/
structure FdWrite where
  fd : ℕ
  pkt : List UInt8
  /-- What the number leads to at that time. -/
  file : Option File
  /-- `stop` has closed the number. -/
  closed : Bool
  deriving DecidableEq

structure TunFd where
  files : ℕ → Option File
  /-- The atomic `fd`; `none` is -1. -/
  fd : Option ℕ
  stopped : Bool
  stop : StopPhase
  writers : List WriterPhase
  writes : List FdWrite

inductive FdEvent where
  | call (call : WriteCall)
  /-- Load the descriptor, or check the flag. -/
  | proceed (index : ℕ)
  | collect (index : ℕ) (out : List (List UInt8))
  | write (index : ℕ) (result : WriteResult)
  | stop
  /-- The next step of the call of `stop` which has set the flag. -/
  | proceedStop
  | openFile (fd id : ℕ)
  | closeFile (fd : ℕ)
  deriving DecidableEq

/-- The rest of a call after the packets in hand are dealt with. -/
def WriterPhase.next (fd : ℕ) : List (List UInt8) → WriterPhase
  | [] => .returned
  | pkt :: rest => .writing fd pkt rest 0

/-- The loop around `write`. -/
def WriterPhase.afterWrite (fd : ℕ) (pkt : List UInt8) (rest : List (List UInt8)) (retries : ℕ) :
    WriteResult → WriterPhase
  | .written => .next fd rest
  | .eagain => if retries < 3 then .writing fd pkt rest (retries + 1) else .next fd rest
  | .failed => .next fd rest

namespace TunFd

def start (files : ℕ → Option File) (fd : ℕ) : TunFd where
  files := Function.update files fd (some .tun)
  fd := some fd
  stopped := false
  stop := .running
  writers := []
  writes := []

/-- The steps of `write_raw` and `drain_tx` up to the writes. -/
def proceed (tun : TunFd) : WriterPhase → WriterPhase
  | .entered call =>
      match tun.fd with
      | some fd => .loaded call fd
      | none => .returned
  | .loaded call fd =>
      if tun.stopped then .returned
      else
        match call with
        | .writeRaw pkt => .writing fd pkt [] 0
        | .drainTx => .collecting fd
  | phase => phase

def proceedStop (tun : TunFd) : TunFd :=
  match tun.stop with
  | .flagged => { tun with stop := .taken tun.fd, fd := none }
  | .taken (some rawFd) =>
      { tun with stop := .finished (some rawFd), files := Function.update tun.files rawFd none }
  | .taken none => { tun with stop := .finished none }
  | _ => tun

/-- A write to a number which leads to no file fails. -/
def result (tun : TunFd) (fd : ℕ) (result : WriteResult) : WriteResult :=
  if tun.files fd = none then .failed else result

/-- The log entry of a write to `fd`. -/
def written (tun : TunFd) (fd : ℕ) (pkt : List UInt8) : FdWrite :=
  ⟨fd, pkt, tun.files fd, tun.stop.closed == some fd⟩

def step (tun : TunFd) : FdEvent → TunFd
  | .call call => { tun with writers := tun.writers ++ [.entered call] }
  | .proceed index =>
      match tun.writers[index]? with
      | some writer => { tun with writers := tun.writers.set index (tun.proceed writer) }
      | none => tun
  | .collect index out =>
      match tun.writers[index]? with
      | some (.collecting fd) =>
          { tun with writers := tun.writers.set index (.next fd out) }
      | _ => tun
  | .write index result =>
      match tun.writers[index]? with
      | some (.writing fd pkt rest retries) =>
          { tun with
            writers := tun.writers.set index
              (.afterWrite fd pkt rest retries (tun.result fd result))
            writes := tun.writes ++ [tun.written fd pkt] }
      | _ => tun
  | .stop => if tun.stopped then tun else { tun with stopped := true, stop := .flagged }
  | .proceedStop => tun.proceedStop
  | .openFile fd id =>
      match tun.files fd with
      | none => { tun with files := Function.update tun.files fd (some (.other id)) }
      | some _ => tun
  | .closeFile fd =>
      match tun.files fd with
      | some (.other _) => { tun with files := Function.update tun.files fd none }
      | _ => tun

end TunFd

end Mirage.Tun
