import Mirage.CommandServer
import Mirage.Foundations.Splitting

/-!
# Delivery of commands

Every round of the loop starts with an empty line buffer.  A pushed event which
comes while a line has been partly read ends a round, and the bytes that were
read are lost.  In all other runs the commands of a client are processed once,
in order, and as they were sent.
-/

namespace Mirage

open Mirage.Foundations

namespace CommandClient

variable {client : CommandClient}

/-- What is handed on of a line. -/
def commandOf (line : List UInt8) : List String :=
  (fromUtf8 line).elim [] command

/--
The lines which the client has completed are those that were processed and,
after them, those that are still to come; and if one is to come, the next poll
that sees it whole processes it.
-/
structure Delivered (client : CommandClient) : Prop where
  lines : completeLines newline client.sent =
    client.processed ++ completeLines newline (client.lineBuf ++ client.inbox)
  commands : client.commands =
    client.processed.flatMap commandOf ++ commandOf client.unterminated
  ended : client.ended ≠ some .notUtf8
  next : client.ended = none → ∀ line rest limit, IsLine newline line →
    client.lineBuf ++ client.inbox = line ++ rest → fromUtf8 line ≠ none →
      client.inbox.length ≤ limit →
        (client.readLine limit).processed = client.processed ++ [line]

/-- No event is pushed while a line is partly read, and what is read is UTF-8. -/
def Unbroken (client : CommandClient) : ClientEvent → Prop
  | .push true => client.ended = none → client.lineBuf = []
  | .readLine limit => client.ended = none →
      ∀ text, client.completes limit = some text → fromUtf8 text ≠ none
  | _ => True

/-- Where the bytes of the client are. -/
structure Reading (client : CommandClient) : Prop where
  sent : client.sent =
    client.processed.flatten ++ client.unterminated ++ (client.lineBuf ++ client.inbox)
  isLine : ∀ line ∈ client.processed, IsLine newline line
  begun : newline ∉ client.lineBuf
  last : newline ∉ client.unterminated
  atEnd : client.unterminated ≠ [] → client.closed = true ∧ client.lineBuf = [] ∧ client.inbox = []
  commands : client.commands =
    client.processed.flatMap commandOf ++ commandOf client.unterminated
  ended : client.ended ≠ some .notUtf8

theorem commandOf_nil : commandOf [] = [] := by
  have empty : fromUtf8 [] = some "" := fromUtf8_utf8 ""
  rw [commandOf, empty]
  rfl

theorem reading_start : start.Reading := by
  refine ⟨rfl, nofun, nofun, nofun, fun some_text => absurd rfl some_text, ?_, nofun⟩
  rw [start, commandOf_nil]
  rfl

theorem Reading.lines (reading : client.Reading) :
    completeLines newline client.sent =
      client.processed ++ completeLines newline (client.lineBuf ++ client.inbox) := by
  rw [reading.sent, List.append_assoc, completeLines_flatten_append reading.isLine]
  by_cases none : client.unterminated = []
  · rw [none, List.nil_append]
  · rcases reading.atEnd none with ⟨_, noBuf, noInbox⟩
    rw [noBuf, noInbox, List.append_nil, List.append_nil, completeLines_eq_nil reading.last]
    rfl

/-- The next line is in the buffer and, from its newline on, in the inbox. -/
theorem Reading.next (reading : client.Reading) {line rest : List UInt8} {limit : ℕ}
    (isLine : IsLine newline line) (text : client.lineBuf ++ client.inbox = line ++ rest)
    (utf8 : fromUtf8 line ≠ none) (all : client.inbox.length ≤ limit) :
    (client.readLine limit).processed = client.processed ++ [line] := by
  rcases isLine with ⟨before, absent, rfl⟩
  have splits : splitFirst newline (client.lineBuf ++ client.inbox) = some (before, rest) := by
    rw [text, List.append_assoc]
    exact splitFirst_append absent
  have there : newline ∈ client.inbox := by
    have somewhere : newline ∈ client.lineBuf ++ client.inbox := by
      rw [text]
      simp
    exact (List.mem_append.mp somewhere).resolve_left reading.begun
  rcases List.eq_append_cons_of_mem there with ⟨first, after, inbox, absent_first⟩
  have same : before = client.lineBuf ++ first := by
    have both : newline ∉ client.lineBuf ++ first := by
      rw [List.mem_append, not_or]
      exact ⟨reading.begun, absent_first⟩
    have whole : splitFirst newline (client.lineBuf ++ client.inbox) =
        some (client.lineBuf ++ first, after) := by
      rw [inbox, ← List.append_assoc]
      exact splitFirst_append both
    rw [splits, Option.some.injEq, Prod.mk.injEq] at whole
    exact whole.1
  subst same
  have found : splitFirst newline (client.inbox.take limit) = some (first, after) := by
    rw [List.take_of_length_le all, inbox]
    exact splitFirst_append absent_first
  simp only [readLine, found]
  split
  · rfl
  · rename_i not_utf8
    exact absurd not_utf8 utf8

theorem Reading.delivered (reading : client.Reading) : client.Delivered :=
  ⟨reading.lines, reading.commands, reading.ended,
    fun _ _ _ _ isLine text utf8 all => reading.next isLine text utf8 all⟩

theorem Reading.arrive (reading : client.Reading) (bytes : List UInt8) :
    (client.step (.arrive bytes)).Reading := by
  simp only [step]
  split
  · exact reading
  · rename_i not_closed
    have not_ended : client.unterminated = [] := by
      by_contra some_text
      exact not_closed (reading.atEnd some_text).1
    refine ⟨?_, reading.isLine, reading.begun, reading.last, fun some_text =>
      absurd not_ended some_text, reading.commands, reading.ended⟩
    simp only [reading.sent, List.append_assoc]

theorem Reading.end_ (reading : client.Reading) {reason : ClientEnd} (utf8 : reason ≠ .notUtf8) :
    { client with ended := some reason }.Reading := by
  refine ⟨reading.sent, reading.isLine, reading.begun, reading.last, reading.atEnd,
    reading.commands, ?_⟩
  intro same
  exact utf8 (Option.some.inj same)

/-- A poll reads up to the next newline, and the line is handed on. -/
theorem Reading.readLine_line (reading : client.Reading) {limit : ℕ} {before after : List UInt8}
    (found : splitFirst newline (client.inbox.take limit) = some (before, after))
    (unbroken : ∀ text, client.completes limit = some text → fromUtf8 text ≠ none) :
    (client.readLine limit).Reading := by
  have completed : client.completes limit = some (client.lineBuf ++ before ++ [newline]) := by
    simp only [completes, found]
  rcases splitFirst_eq_some_iff.mp found with ⟨seen, absent⟩
  obtain ⟨rest, inbox⟩ : ∃ rest, client.inbox = before ++ [newline] ++ rest := by
    refine ⟨after ++ client.inbox.drop limit, ?_⟩
    conv_lhs => rw [← List.take_append_drop limit client.inbox, seen]
    simp
  have dropped : client.inbox.drop (before.length + 1) = rest := by
    rw [inbox]
    exact List.drop_left' (by simp)
  have not_closed : client.unterminated = [] := by
    by_contra some_text
    rw [(reading.atEnd some_text).2.2] at inbox
    simp at inbox
  cases decoded : fromUtf8 (client.lineBuf ++ before ++ [newline]) with
  | none => exact absurd decoded (unbroken _ completed)
  | some text =>
      simp only [readLine, found, decoded, dropped]
      constructor
      · rw [reading.sent, inbox, not_closed]
        simp
      · intro line there
        rcases List.mem_append.mp there with earlier | new
        · exact reading.isLine line earlier
        · rw [List.mem_singleton] at new
          subst new
          refine ⟨client.lineBuf ++ before, ?_, rfl⟩
          rw [List.mem_append, not_or]
          exact ⟨reading.begun, absent⟩
      · exact nofun
      · exact reading.last
      · exact fun some_text => absurd not_closed some_text
      · have handed : commandOf (client.lineBuf ++ before ++ [newline]) = command text := by
          rw [commandOf, decoded]
          rfl
        simp only [reading.commands, not_closed, commandOf_nil, List.append_nil,
          List.flatMap_append, List.flatMap_singleton, handed]
      · exact reading.ended

/-- A poll finds no newline: the line goes on, or the stream is at its end. -/
theorem Reading.readLine_rest (reading : client.Reading) {limit : ℕ}
    (missing : splitFirst newline (client.inbox.take limit) = none)
    (unbroken : ∀ text, client.completes limit = some text → fromUtf8 text ≠ none) :
    (client.readLine limit).Reading := by
  have absent : newline ∉ client.inbox.take limit := splitFirst_eq_none_iff.mp missing
  simp only [completes, missing] at unbroken
  simp only [readLine, missing]
  by_cases exhausted : client.closed = true ∧ client.inbox.length ≤ limit
  · rw [List.take_of_length_le exhausted.2] at absent
    rw [if_pos exhausted] at unbroken ⊢
    have no_newline : newline ∉ client.lineBuf ++ client.inbox := by
      rw [List.mem_append, not_or]
      exact ⟨reading.begun, absent⟩
    split
    · exact reading.end_ (by simp)
    · rename_i some_text
      have first : client.unterminated = [] := by
        by_contra before
        rcases reading.atEnd before with ⟨_, noBuf, noInbox⟩
        exact some_text (by rw [noBuf, noInbox]; rfl)
      cases decoded : fromUtf8 (client.lineBuf ++ client.inbox) with
      | none => exact absurd decoded (unbroken _ rfl)
      | some text =>
          constructor
          · simp [reading.sent, first]
          · exact reading.isLine
          · exact nofun
          · exact no_newline
          · exact fun _ => ⟨exhausted.1, rfl, rfl⟩
          · have handed : commandOf (client.lineBuf ++ client.inbox) = command text := by
              rw [commandOf, decoded]
              rfl
            simp only [reading.commands, first, commandOf_nil, List.append_nil, handed]
          · exact reading.ended
  · rw [if_neg exhausted]
    constructor
    · simp [reading.sent]
    · exact reading.isLine
    · rw [List.mem_append, not_or]
      exact ⟨reading.begun, absent⟩
    · exact reading.last
    · intro some_text
      rcases reading.atEnd some_text with ⟨closed, noBuf, noInbox⟩
      exact ⟨closed, by simp [noBuf, noInbox], by simp [noInbox]⟩
    · exact reading.commands
    · exact reading.ended

theorem Reading.step {event : ClientEvent} (reading : client.Reading)
    (unbroken : client.Unbroken event) : (client.step event).Reading := by
  cases event with
  | arrive bytes => exact reading.arrive bytes
  | close =>
      exact ⟨reading.sent, reading.isLine, reading.begun, reading.last,
        fun some_text => ⟨rfl, (reading.atEnd some_text).2⟩, reading.commands, reading.ended⟩
  | readLine limit =>
      simp only [CommandClient.step]
      split
      · rename_i running
        cases found : splitFirst newline (client.inbox.take limit) with
        | none => exact reading.readLine_rest found (unbroken running)
        | some parts => exact reading.readLine_line found (unbroken running)
      · exact reading
  | push ok =>
      simp only [CommandClient.step]
      split
      · rename_i running
        cases ok with
        | true =>
            have same : client.push true = client := by
              simp [push, ← unbroken running]
            rwa [same]
        | false => exact reading.end_ (by simp)
      · exact reading
  | stop =>
      simp only [CommandClient.step]
      split
      · exact reading.end_ (by simp)
      · exact reading

/--
In every run in which no event is pushed while a line is partly read, and what
is read is UTF-8, the commands are delivered in every state.
-/
theorem delivered_of_unbroken (events : List ClientEvent)
    (unbroken : Along CommandClient.step Unbroken start events) :
    Throughout CommandClient.step Delivered start events :=
  throughout_of_along Reading Reading.delivered Reading.step unbroken reading_start

/-- What was read of a line before an event was pushed is missing when the line is complete. -/
theorem not_delivered_of_push (reading : client.Reading) (running : client.ended = none)
    (not_closed : client.closed = false) (partly : client.lineBuf ≠ []) :
    ¬ ((client.step (.push true)).step (.arrive [newline])).Delivered := by
  intro delivered
  have first : client.unterminated = [] := by
    by_contra some_text
    rw [(reading.atEnd some_text).1] at not_closed
    cases not_closed
  have lines := delivered.lines
  simp only [CommandClient.step, if_pos running, push, not_closed, Bool.false_eq_true, if_false,
    if_true, reading.sent, first, List.append_nil, List.nil_append] at lines
  rw [List.append_assoc, completeLines_flatten_append reading.isLine,
    List.append_cancel_left_eq] at lines
  have texts := congrArg List.flatten lines
  rw [flatten_completeLines, flatten_completeLines, List.append_assoc] at texts
  exact partly (List.self_eq_append_left.mp texts.symm)

/-- The bytes of a text. -/
def bytesOf (text : String) : List UInt8 :=
  utf8 text.toList

theorem fromUtf8_bytesOf (text : String) : fromUtf8 (bytesOf text) ≠ none := by
  rw [bytesOf, fromUtf8_utf8]
  exact Option.some_ne_none text

/-- A command arrives in two pieces, and the timers win before and after it. -/
theorem delivered_of_unbroken_pieces :
    Throughout CommandClient.step Delivered start
      [.push true, .arrive (bytesOf "\x7b\"action\":"), .readLine 100,
        .arrive (bytesOf "\"ping\"\x7d\n"), .readLine 100, .push true, .stop] := by
  apply delivered_of_unbroken
  refine ⟨fun _ => rfl, trivial, ?_, trivial, ?_, fun _ => ?_, trivial, trivial⟩
  · intro _ text completed
    have pending : (run CommandClient.step start
        [.push true, .arrive (bytesOf "\x7b\"action\":")]).completes 100 = none := by
      decide +kernel
    exact absurd (pending.symm.trans completed) nofun
  · intro _ text completed
    have line : (run CommandClient.step start
        [.push true, .arrive (bytesOf "\x7b\"action\":"), .readLine 100,
          .arrive (bytesOf "\"ping\"\x7d\n")]).completes 100 =
        some (bytesOf "\x7b\"action\":\"ping\"\x7d\n") := by
      decide +kernel
    obtain rfl := Option.some.inj (line.symm.trans completed)
    exact fromUtf8_bytesOf _
  · decide +kernel

/-- A timer wins while the first half of a command is in the buffer. -/
theorem not_delivered_split :
    ¬ ∀ events, Throughout CommandClient.step Delivered start events := by
  intro claimed
  have delivered := (claimed [.arrive (bytesOf "\x7b\"action\":"), .readLine 100, .push true,
    .arrive (bytesOf "\"ping\"\x7d\n"), .readLine 100]).run
  exact absurd delivered.lines (by decide +kernel)

end CommandClient

end Mirage
