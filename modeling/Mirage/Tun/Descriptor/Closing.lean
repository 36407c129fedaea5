import Mirage.Tun.Descriptor

/-!
# Writes and the close of the descriptor

A call which is past its check goes on to write to the number it loaded, and
nothing keeps `stop` from closing that number before.  No packet is written to a
closed number in a run where `stop` closes the descriptor only while no call has
a write to come.
-/

namespace Mirage.Tun

open Mirage.Foundations

/-- The call is about to write to `fd`. -/
def WriterPhase.Writing (fd : ℕ) : WriterPhase → Prop
  | .writing number _ _ _ => number = fd
  | _ => False

namespace TunFd

/-- No packet was written to a number that `stop` had closed. -/
def Safe (tun : TunFd) : Prop :=
  ∀ write ∈ tun.writes, write.closed = false

/--
`stop` closes the descriptor while no call is about to write to it, and a
`drain_tx` that is past its check at that time finds no packets.
-/
def Quiescent (tun : TunFd) : FdEvent → Prop
  | .proceedStop => ∀ fd, tun.stop = .taken (some fd) → ∀ writer ∈ tun.writers, ¬ writer.Writing fd
  | .collect index out => ∀ fd, tun.writers[index]? = some (.collecting fd) →
      tun.stop.closed = some fd → out = []
  | _ => True

/-- What a quiescent run keeps: after the close no call is about to write to the number. -/
structure Closing (tun : TunFd) : Prop where
  flag : tun.stop ≠ .running → tun.stopped = true
  quiet : ∀ fd, tun.stop.closed = some fd → ∀ writer ∈ tun.writers, ¬ writer.Writing fd
  safe : tun.Safe

end TunFd

open TunFd

namespace WriterPhase

theorem Writing.of_next {fd number : ℕ} {out : List (List UInt8)}
    (writing : (next number out).Writing fd) : number = fd ∧ out ≠ [] := by
  cases out with
  | nil => exact writing.elim
  | cons pkt rest => exact ⟨writing, List.cons_ne_nil pkt rest⟩

theorem Writing.of_afterWrite {fd number retries : ℕ} {pkt : List UInt8}
    {rest : List (List UInt8)} {result : WriteResult}
    (writing : (afterWrite number pkt rest retries result).Writing fd) : number = fd := by
  cases result with
  | written => exact writing.of_next.1
  | eagain =>
      simp only [afterWrite] at writing
      split at writing
      · exact writing
      · exact writing.of_next.1
  | failed => exact writing.of_next.1

/-- Only a call that finds the flag clear gets to write. -/
theorem Writing.of_proceed {tun : TunFd} {writer : WriterPhase} {fd : ℕ}
    (writing : (tun.proceed writer).Writing fd) : writer.Writing fd ∨ tun.stopped = false := by
  cases writer with
  | entered call =>
      simp only [proceed] at writing
      split at writing <;> exact writing.elim
  | loaded call number =>
      simp only [proceed] at writing
      split at writing
      · exact writing.elim
      · rename_i clear
        exact Or.inr (eq_false_of_ne_true clear)
  | collecting number => exact writing.elim
  | writing number pkt rest retries => exact Or.inl writing
  | returned => exact writing.elim

end WriterPhase

namespace TunFd

theorem running_of_stopped {tun : TunFd} (closing : tun.Closing) (clear : tun.stopped = false) :
    tun.stop = .running := by
  by_contra stopping
  rw [closing.flag stopping] at clear
  cases clear

/-- A call takes a step and is not about to write to a closed number. -/
theorem Closing.set_writer {tun : TunFd} {index : ℕ} {new : WriterPhase} (closing : tun.Closing)
    (quiet : ∀ fd, tun.stop.closed = some fd → ¬ new.Writing fd) :
    { tun with writers := tun.writers.set index new }.Closing := by
  constructor
  · exact closing.flag
  · intro fd closed writer there
    rcases List.mem_or_eq_of_mem_set there with before | rfl
    · exact closing.quiet fd closed writer before
    · exact quiet fd closed
  · exact closing.safe

theorem Closing.proceed {tun : TunFd} {index : ℕ} {writer : WriterPhase} (closing : tun.Closing)
    (found : tun.writers[index]? = some writer) :
    { tun with writers := tun.writers.set index (tun.proceed writer) }.Closing := by
  apply closing.set_writer
  intro fd closed writing
  rcases writing.of_proceed with before | clear
  · exact closing.quiet fd closed writer (List.mem_of_getElem? found) before
  · rw [running_of_stopped closing clear] at closed
    cases closed

theorem Closing.write {tun : TunFd} {index fd retries : ℕ} {pkt : List UInt8}
    {rest : List (List UInt8)} {result : WriteResult} (closing : tun.Closing)
    (found : tun.writers[index]? = some (.writing fd pkt rest retries)) :
    { tun with
      writers := tun.writers.set index (.afterWrite fd pkt rest retries result)
      writes := tun.writes ++ [tun.written fd pkt] }.Closing := by
  have unclosed : tun.stop.closed ≠ some fd := fun closed =>
    closing.quiet fd closed _ (List.mem_of_getElem? found) rfl
  have stepped : { tun with
      writers := tun.writers.set index (.afterWrite fd pkt rest retries result) }.Closing := by
    apply closing.set_writer
    intro number closed writing
    obtain rfl : fd = number := writing.of_afterWrite
    exact unclosed closed
  constructor
  · exact stepped.flag
  · exact stepped.quiet
  · intro write there
    rcases List.mem_append.mp there with before | new
    · exact closing.safe write before
    · rw [List.mem_singleton] at new
      subst new
      exact beq_eq_false_iff_ne.mpr unclosed

theorem Closing.proceedStop {tun : TunFd} (closing : tun.Closing)
    (quiescent : tun.Quiescent .proceedStop) : tun.proceedStop.Closing := by
  have open_of_not_finished : ∀ {stop : StopPhase}, stop.closed = none →
      ∀ fd, stop.closed = some fd → ∀ writer ∈ tun.writers, ¬ writer.Writing fd := by
    intro stop unclosed fd closed
    rw [unclosed] at closed
    cases closed
  unfold TunFd.proceedStop
  rcases phase : tun.stop with _ | _ | rawFd | rawFd
  · exact closing
  · have flag := closing.flag (by simp [phase])
    exact ⟨fun _ => flag, open_of_not_finished rfl, closing.safe⟩
  · have flag := closing.flag (by simp [phase])
    cases rawFd with
    | none => exact ⟨fun _ => flag, open_of_not_finished rfl, closing.safe⟩
    | some number =>
        refine ⟨fun _ => flag, ?_, closing.safe⟩
        rintro fd closed
        obtain rfl : number = fd := Option.some.inj closed
        exact quiescent number phase
  · exact closing

theorem Closing.step {tun : TunFd} {event : FdEvent} (closing : tun.Closing)
    (quiescent : tun.Quiescent event) : (tun.step event).Closing := by
  cases event with
  | call call =>
      refine ⟨closing.flag, ?_, closing.safe⟩
      intro fd closed writer there
      rcases List.mem_append.mp there with before | new
      · exact closing.quiet fd closed writer before
      · rw [List.mem_singleton] at new
        subst new
        exact id
  | proceed index =>
      simp only [TunFd.step]
      split
      · rename_i writer found
        exact closing.proceed found
      · exact closing
  | collect index out =>
      simp only [TunFd.step]
      split
      · rename_i fd found
        apply closing.set_writer
        intro number closed writing
        rcases writing.of_next with ⟨rfl, some_packet⟩
        exact some_packet (quiescent fd found closed)
      · exact closing
  | write index result =>
      simp only [TunFd.step]
      split
      · rename_i fd pkt rest retries found
        exact closing.write found
      · exact closing
  | stop =>
      simp only [TunFd.step]
      split
      · exact closing
      · exact ⟨fun _ => rfl, nofun, closing.safe⟩
  | proceedStop => exact closing.proceedStop quiescent
  | openFile fd id =>
      simp only [TunFd.step]
      split
      · exact ⟨closing.flag, closing.quiet, closing.safe⟩
      · exact closing
  | closeFile fd =>
      simp only [TunFd.step]
      split
      · exact ⟨closing.flag, closing.quiet, closing.safe⟩
      · exact closing

/-- In a quiescent run no packet is written to a closed descriptor. -/
theorem safe_of_quiescent (files : ℕ → Option File) (fd : ℕ) (events : List FdEvent)
    (quiescent : Along step Quiescent (start files fd) events) :
    Throughout step Safe (start files fd) events := by
  apply throughout_of_along Closing Closing.safe Closing.step quiescent
  exact ⟨fun stopping => absurd rfl stopping, nofun, nofun⟩

/-- A call that goes on to write to a closed number breaks the property with its next step. -/
theorem not_safe_write {tun : TunFd} {fd : ℕ} {writer : WriterPhase} (writing : writer.Writing fd)
    (there : writer ∈ tun.writers) (closed : tun.stop.closed = some fd) :
    ∃ index, ¬ (tun.step (.write index .written)).Safe := by
  rcases List.mem_iff_getElem?.mp there with ⟨index, found⟩
  refine ⟨index, ?_⟩
  intro safe
  cases writer with
  | writing number pkt rest retries =>
      obtain rfl : number = fd := writing
      have logged : tun.written number pkt ∈ (tun.step (.write index .written)).writes := by
        simp only [TunFd.step, found]
        exact List.mem_append_right _ (List.mem_singleton.mpr rfl)
      have unclosed := safe _ logged
      simp [written, closed] at unclosed
  | entered call => exact writing.elim
  | loaded call number => exact writing.elim
  | collecting number => exact writing.elim
  | returned => exact writing.elim

/-- Where an event is not quiescent, the run can go on to a write to the closed descriptor. -/
theorem not_safe_of_not_quiescent {tun : TunFd} {event : FdEvent}
    (not_quiescent : ¬ tun.Quiescent event) :
    ∃ index, ¬ ((tun.step event).step (.write index .written)).Safe := by
  cases event with
  | proceedStop =>
      simp only [Quiescent, not_forall, not_not] at not_quiescent
      rcases not_quiescent with ⟨fd, phase, writer, there, writing⟩
      apply not_safe_write writing
      · simp only [TunFd.step, TunFd.proceedStop, phase]
        exact there
      · simp [TunFd.step, TunFd.proceedStop, phase, StopPhase.closed]
  | collect index out =>
      simp only [Quiescent, not_forall] at not_quiescent
      rcases not_quiescent with ⟨fd, found, closed, some_packet⟩
      rcases List.exists_cons_of_ne_nil some_packet with ⟨pkt, rest, rfl⟩
      have writing : (WriterPhase.writing fd pkt rest 0).Writing fd := rfl
      apply not_safe_write writing
      · simp only [TunFd.step, found]
        exact List.mem_set (List.getElem?_eq_some_iff.mp found).1 _
      · simp only [TunFd.step, found]
        exact closed
  | _ => exact absurd trivial not_quiescent

/--
A relay loads the descriptor and finds the flag clear, `stop` closes the
descriptor, another task opens a file under its number, and the packet goes there.
-/
theorem not_safe_reused :
    ¬ ∀ files fd events, Throughout step Safe (start files fd) events := by
  intro claimed
  have safe := (claimed (fun _ => none) 7
    [.call (.writeRaw [69]), .proceed 0, .proceed 0, .stop, .proceedStop, .proceedStop,
      .openFile 7 1, .write 0 .written]).run
  exact absurd (safe ⟨7, [69], some (.other 1), true⟩ (by decide)) (by decide)

/-- A relay writes its packet, and `stop` closes the descriptor after that. -/
theorem safe_of_quiescent_relay :
    Throughout step Safe (start (fun _ => none) 7)
      [.call (.writeRaw [69]), .proceed 0, .proceed 0, .stop, .proceedStop, .write 0 .eagain,
        .write 0 .written, .proceedStop, .openFile 7 1] := by
  apply safe_of_quiescent
  refine ⟨trivial, trivial, trivial, trivial, nofun, trivial, trivial, ?_, trivial, trivial⟩
  intro fd _ writer there
  have returned : writer ∈ [WriterPhase.returned] := there
  obtain rfl := List.mem_singleton.mp returned
  exact id

end TunFd

end Mirage.Tun
