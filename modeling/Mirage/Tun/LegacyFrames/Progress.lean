import Mirage.Tun.LegacyFrames

/-!
# The frames of the way back are consumed

A complete frame is consumed whatever is in it, so what stays in the buffer is less
than a frame.  One frame is not: a domain's mark with nothing behind it.  The parser
returns early where it looks for the domain's length, as if the frame were not yet
complete, and every later chunk is added to the buffer.
-/

namespace Mirage.Tun

open Mirage.Foundations
open Mirage.Proxy (Complete length_of_incomplete)

theorem parseUdpFrameBody_eq_none_iff {frame : List UInt8} :
    parseUdpFrameBody frame = none ↔ frame = [3] := by
  have found : ∀ off, (if frame.length < off then some [] else some (frame.drop off)) ≠ none := by
    intro off
    split
    · exact Option.some_ne_none _
    · exact Option.some_ne_none _
  rcases frame with _ | ⟨atyp, rest⟩
  · exact iff_of_false (Option.some_ne_none _) (List.cons_ne_nil 3 []).symm
  · rw [List.cons.injEq]
    simp only [parseUdpFrameBody]
    split
    next domain =>
      rcases rest with _ | ⟨dlen, rest⟩
      · exact iff_of_true rfl ⟨domain, rfl⟩
      · exact iff_of_false (found _) (fun both => List.cons_ne_nil dlen rest both.2)
    next other =>
      have differs : ¬(atyp = 3 ∧ rest = []) := fun both => other both.1
      split
      next => exact iff_of_false (found _) differs
      next =>
        split
        next => exact iff_of_false (found _) differs
        next => exact iff_of_false (Option.some_ne_none _) differs

/-- The buffer begins with a frame of one byte, the mark of a domain. -/
def Stalls (buf : List UInt8) : Prop :=
  [0, 1, 3] <+: buf

theorem stalls_iff {buf : List UInt8} (complete : Complete buf) :
    Stalls buf ↔ (buf.drop 2).take (ofBigEndian (buf.take 2)) = [3] := by
  constructor
  · rintro ⟨rest, rfl⟩
    rfl
  · intro alone
    rcases buf with _ | ⟨high, _ | ⟨low, rest⟩⟩
    · cases complete.1
    · exact absurd complete.1 (by simp)
    · have length_eq : ofBigEndian [high, low] = high.toNat * 256 + low.toNat := by
        simp [ofBigEndian]
      have whole := complete.2
      simp only [List.take_succ_cons, List.take_zero, List.drop_succ_cons, List.drop_zero,
        List.length_cons, length_eq] at alone whole
      have one := congrArg List.length alone
      rw [List.length_take_of_le (by omega), List.length_singleton] at one
      have high_eq : high = 0 := UInt8.toNat_inj.mp (by change high.toNat = 0; omega)
      have low_eq : low = 1 := UInt8.toNat_inj.mp (by change low.toNat = 1; omega)
      rw [one] at alone
      rcases rest with _ | ⟨mark, rest⟩
      · cases alone
      · cases alone
        rw [high_eq, low_eq]
        exact ⟨rest, rfl⟩

/-- A complete frame is consumed unless it is the one which stalls. -/
theorem consumed_iff {buf : List UInt8} (complete : Complete buf) :
    (∃ payload, parseUdpFramePayload buf = some (payload, 2 + ofBigEndian (buf.take 2))) ↔
      ¬Stalls buf := by
  rw [stalls_iff complete, ← parseUdpFrameBody_eq_none_iff,
    parseUdpFramePayload_of_complete complete]
  cases parseUdpFrameBody ((buf.drop 2).take (ofBigEndian (buf.take 2))) with
  | none => exact iff_of_false (fun found => nomatch found) (fun differs => differs rfl)
  | some payload => exact iff_of_true ⟨payload, rfl⟩ nofun

/-- What the loop over a stream has done, and what it keeps -/
structure Downlink.Flowing (stream : List UInt8) (downlink : Downlink) : Prop where
  /-- All complete frames are consumed. -/
  consumed : downlink.acc = (lengthPrefixed.drain stream).2
  incomplete : ¬Complete downlink.acc
  /-- The buffer is less than a frame of the greatest length. -/
  bounded : downlink.acc.length < 2 + 65535

theorem run_recvData_acc (chunks : List (List UInt8)) :
    (run Downlink.recvData .start chunks).acc =
      ((lengthPrefixed.decoding parseUdpFrameBody).drain chunks.flatten).2 := by
  have drained : ∀ (frames replies : List (List UInt8)) (acc : List UInt8),
      (run Downlink.recvData ⟨acc, replies⟩ chunks).acc =
        (run legacyParser.feed (frames, acc) chunks).2 := by
    induction chunks with
    | nil => exact fun _ _ _ => rfl
    | cons chunk chunks ih =>
        intro frames replies acc
        rw [run_cons, run_cons, FrameParser.feed, Downlink.recvData, ih]
  rw [Downlink.start, drained [] [] [], FrameParser.run_feed rfl, legacyParser_eq,
    List.nil_append, List.nil_append]

theorem flowing_iff (chunks : List (List UInt8)) :
    (run Downlink.recvData .start chunks).Flowing chunks.flatten ↔
      [3] ∉ (lengthPrefixed.drain chunks.flatten).1 := by
  have decoded : (∀ frame ∈ (lengthPrefixed.drain chunks.flatten).1,
      parseUdpFrameBody frame ≠ none) ↔ [3] ∉ (lengthPrefixed.drain chunks.flatten).1 := by
    constructor
    · intro all member
      exact all [3] member rfl
    · intro absent frame member none
      rw [parseUdpFrameBody_eq_none_iff.mp none] at member
      exact absent member
  have at_end := @FrameParser.first_drain_decoding_iff _ _ lengthPrefixed _ parseUdpFrameBody
    chunks.flatten
  rw [decoded, ← run_recvData_acc, lengthPrefixed_first_eq_none_iff] at at_end
  constructor
  · intro flowing
    exact at_end.mp flowing.incomplete
  · intro absent
    have incomplete := at_end.mpr absent
    have bounded := length_of_incomplete incomplete
    refine ⟨?_, incomplete, by omega⟩
    rw [run_recvData_acc, FrameParser.drain_decoding (decoded.mpr absent)]

/-- The frames of a part of a stream are frames of the stream. -/
theorem drained_mono {part stream : List UInt8} (shorter : part <+: stream) :
    (lengthPrefixed.drain part).1 ⊆ (lengthPrefixed.drain stream).1 := by
  rcases shorter with ⟨rest, rfl⟩
  rw [lengthPrefixed.drain_append]
  exact List.subset_append_left _ _

/--
Whatever is in a complete frame, it is consumed, and the loop keeps less than a
frame of a stream all along; but not if the mark of a domain stands alone in a frame.
-/
theorem legacy_progress (buf : List UInt8) (chunks : List (List UInt8)) :
    ((Complete buf →
        ∃ payload, parseUdpFramePayload buf = some (payload, 2 + ofBigEndian (buf.take 2))) ↔
      ¬Stalls buf) ∧
    ((∀ arrived, arrived <+: chunks →
        (run Downlink.recvData .start arrived).Flowing arrived.flatten) ↔
      [3] ∉ (lengthPrefixed.drain chunks.flatten).1) := by
  constructor
  · by_cases complete : Complete buf
    · rw [← consumed_iff complete]
      exact forall_prop_of_true complete
    · have no_stall : ¬Stalls buf := by
        rintro ⟨rest, rfl⟩
        exact complete ⟨by simp, by simp [ofBigEndian]⟩
      exact iff_of_true (fun whole => absurd whole complete) no_stall
  · constructor
    · intro flowing
      exact (flowing_iff chunks).mp (flowing chunks (List.prefix_refl chunks))
    · intro absent arrived part
      apply (flowing_iff arrived).mpr
      intro member
      rcases part with ⟨later, rfl⟩
      rw [List.flatten_append] at absent
      exact absent (drained_mono (List.prefix_append _ _) member)

theorem not_consumed_loneMark :
    ¬(Complete [0, 1, 3] →
      ∃ payload, parseUdpFramePayload [0, 1, 3] = some (payload, 2 + ofBigEndian [0, 1])) := by
  intro consumed
  obtain ⟨payload, parsed⟩ := consumed (by decide)
  have stalled : parseUdpFramePayload [0, 1, 3] = none := by decide
  rw [stalled] at parsed
  cases parsed

end Mirage.Tun
