import Mirage.Foundations.Records
import Mirage.Proxy.UdpMux

/-!
# The frames of a mux tunnel

What the pump parses from a stream of frames does not depend on the chunks in
which it arrives.  Any bytes are a row of complete frames and a rest which is
shorter than the longest frame, so the limit on the buffer is never reached; a
complete frame with a malformed address is parsed as one without a payload.
-/

namespace Mirage.Proxy

open Mirage.Foundations

/-- The first frame has arrived in full. -/
def Complete (buf : List UInt8) : Prop :=
  2 ≤ buf.length ∧ 2 + ofBigEndian (buf.take 2) ≤ buf.length

theorem ofBigEndian_two_lt {bytes : List UInt8} (two : bytes.length ≤ 2) :
    ofBigEndian bytes < 65536 :=
  calc ofBigEndian bytes
      < 256 ^ bytes.length := ofBigEndian_lt bytes
    _ ≤ 256 ^ 2 := Nat.pow_le_pow_right (by decide) two

theorem parseMuxFrame_of_complete {buf : List UInt8} (complete : Complete buf) :
    parseMuxFrame buf =
      some ((parseMuxBody ((buf.drop 2).take (ofBigEndian (buf.take 2)))).1,
        (parseMuxBody ((buf.drop 2).take (ofBigEndian (buf.take 2)))).2,
        2 + ofBigEndian (buf.take 2)) := by
  rcases complete with ⟨header, whole⟩
  simp only [parseMuxFrame, if_neg (Nat.not_lt.mpr header), if_neg (Nat.not_lt.mpr whole)]

theorem parseMuxFrame_of_incomplete {buf : List UInt8} (incomplete : ¬Complete buf) :
    parseMuxFrame buf = none := by
  simp only [parseMuxFrame]
  split
  · rfl
  · rename_i header
    split
    · rfl
    · rename_i whole
      exact absurd ⟨Nat.not_lt.mp header, Nat.not_lt.mp whole⟩ incomplete

theorem parseMuxFrame_eq_none_iff {buf : List UInt8} :
    parseMuxFrame buf = none ↔ ¬Complete buf := by
  constructor
  · intro none complete
    rw [parseMuxFrame_of_complete complete] at none
    cases none
  · exact parseMuxFrame_of_incomplete

theorem complete_of_parsed {buf : List UInt8} {parsed : UInt32 × List UInt8 × ℕ}
    (some_eq : parseMuxFrame buf = some parsed) : Complete buf := by
  by_contra incomplete
  rw [parseMuxFrame_of_incomplete incomplete] at some_eq
  cases some_eq

/-- A buffer without a complete frame is shorter than the longest frame. -/
theorem length_of_incomplete {buf : List UInt8} (incomplete : ¬Complete buf) :
    buf.length ≤ 65536 := by
  have short := ofBigEndian_two_lt (List.length_take_le 2 buf)
  by_contra long
  apply incomplete
  constructor <;> omega

instance : DecidablePred Complete :=
  fun _ => inferInstanceAs (Decidable (_ ∧ _))

theorem Complete.take_append {buf : List UInt8} (complete : Complete buf) (more : List UInt8) :
    (buf ++ more).take 2 = buf.take 2 :=
  List.take_append_of_le_length complete.1

theorem Complete.append {buf : List UInt8} (complete : Complete buf) (more : List UInt8) :
    Complete (buf ++ more) := by
  refine ⟨?_, ?_⟩
  · rw [List.length_append]
    exact Nat.le_add_right_of_le complete.1
  · rw [complete.take_append, List.length_append]
    exact Nat.le_add_right_of_le complete.2

/-- The body of a complete frame stays the same when more arrives. -/
theorem Complete.body_append {buf : List UInt8} (complete : Complete buf) (more : List UInt8) :
    ((buf ++ more).drop 2).take (ofBigEndian (buf.take 2)) =
      (buf.drop 2).take (ofBigEndian (buf.take 2)) := by
  rw [List.drop_append_of_le_length complete.1]
  apply List.take_append_of_le_length
  have whole := complete.2
  rw [List.length_drop]
  omega

theorem parseMuxFrame_append {buf : List UInt8} {parsed : UInt32 × List UInt8 × ℕ}
    (some_eq : parseMuxFrame buf = some parsed) (more : List UInt8) :
    parseMuxFrame (buf ++ more) = some parsed := by
  have complete := complete_of_parsed some_eq
  rw [parseMuxFrame_of_complete (complete.append more), complete.take_append,
    complete.body_append, ← some_eq, parseMuxFrame_of_complete complete]

/-- The parser of the demux pump. -/
def muxParser : FrameParser UInt8 (UInt32 × List UInt8) where
  first buf := (parseMuxFrame buf).map fun (sid, payload, consumed) => ((sid, payload), consumed)
  size_pos := by
    intro buffer frame size found
    rcases Option.map_eq_some_iff.mp found with ⟨⟨sid, payload, consumed⟩, parsed, same⟩
    cases same
    have bounds := parseMuxFrame_consumed parsed
    omega
  size_le := by
    intro buffer frame size found
    rcases Option.map_eq_some_iff.mp found with ⟨⟨sid, payload, consumed⟩, parsed, same⟩
    cases same
    exact (parseMuxFrame_consumed parsed).2
  stable := by
    intro buffer frame size found more
    rcases Option.map_eq_some_iff.mp found with ⟨parsed, some_eq, same⟩
    rw [parseMuxFrame_append some_eq more, Option.map_some, same]

theorem muxParser_first_eq_none_iff {buf : List UInt8} :
    muxParser.first buf = none ↔ ¬Complete buf := by
  rw [← parseMuxFrame_eq_none_iff]
  exact Option.map_eq_none_iff

theorem muxParser_first_nil : muxParser.first [] = none :=
  rfl

theorem drainFrames_eq (acc : List UInt8) : drainFrames acc = muxParser.drain acc := by
  induction acc using muxParser.drain_induction with
  | incomplete acc none =>
      rw [FrameParser.drain_of_none none, drainFrames]
      split
      · rfl
      · rename_i sid payload consumed parsed
        simp [muxParser, parsed] at none
  | complete acc frame size found ih =>
      rcases Option.map_eq_some_iff.mp found with ⟨⟨sid, payload, consumed⟩, parsed, same⟩
      cases same
      rw [FrameParser.drain_of_some found, drainFrames]
      split
      · rename_i none
        rw [parsed] at none
        cases none
      · rename_i sid' payload' consumed' again
        rw [parsed] at again
        cases again
        rw [ih]

/-- The buffer never grows over its limit, and the pump reads on. -/
theorem run_recvData (chunks : List (List UInt8)) (frames : List (UInt32 × List UInt8))
    (acc : List UInt8) :
    run DemuxPump.recvData ⟨acc, frames, true⟩ chunks =
      ⟨(run muxParser.feed (frames, acc) chunks).2, (run muxParser.feed (frames, acc) chunks).1,
        true⟩ := by
  induction chunks generalizing frames acc with
  | nil => rfl
  | cons chunk chunks ih =>
      have left := muxParser_first_eq_none_iff.mp (muxParser.first_drain (acc ++ chunk))
      have short := length_of_incomplete left
      rw [run_cons, run_cons, FrameParser.feed, ← ih]
      congr 1
      simp only [DemuxPump.recvData, if_true, drainFrames_eq, DemuxPump.mk.injEq, true_and]
      rw [Bool.not_eq_true', decide_eq_false_iff_not]
      omega

/-! ## Encoded frames -/

/-- What is in front of a body of the length is read as the length. -/
theorem parseMuxFrame_framed {body : List UInt8} (fits : body.length ≤ 65535) :
    parseMuxFrame (bigEndian 2 body.length ++ body) =
      some ((parseMuxBody body).1, (parseMuxBody body).2,
        (bigEndian 2 body.length ++ body).length) := by
  have header_length := bigEndian_length 2 body.length
  have header : (bigEndian 2 body.length ++ body).take 2 = bigEndian 2 body.length :=
    List.take_left' header_length
  have read : ofBigEndian (bigEndian 2 body.length) = body.length :=
    ofBigEndian_bigEndian 2 body.length (by omega)
  have complete : Complete (bigEndian 2 body.length ++ body) := by
    refine ⟨?_, ?_⟩
    · rw [List.length_append, header_length]
      omega
    · rw [header, read, List.length_append, header_length]
  rw [parseMuxFrame_of_complete complete, header, read, List.drop_left' header_length,
    List.take_length, List.length_append, header_length]

theorem parseMuxBody_wrapped (sid : UInt32) {atypAndAddr : List UInt8} (port : UInt16)
    (payload : List UInt8)
    (offset : ∀ rest, portOffset (atypAndAddr ++ rest) = some atypAndAddr.length) :
    parseMuxBody (bigEndian 4 sid.toNat ++ atypAndAddr ++ bigEndian 2 port.toNat ++ payload) =
      (sid, payload) := by
  have sid_length := bigEndian_length 4 sid.toNat
  have port_length := bigEndian_length 2 port.toNat
  have read : UInt32.ofNat (ofBigEndian (bigEndian 4 sid.toNat)) = sid := by
    rw [ofBigEndian_bigEndian 4 sid.toNat sid.toNat_lt, UInt32.ofNat_toNat]
  have skipped : (atypAndAddr ++ (bigEndian 2 port.toNat ++ payload)).drop
      (atypAndAddr.length + 2) = payload := by
    rw [← List.append_assoc]
    apply List.drop_left'
    rw [List.length_append, port_length]
  simp only [parseMuxBody, List.append_assoc]
  rw [if_neg (by rw [List.length_append, sid_length]; omega), List.take_left' sid_length,
    List.drop_left' sid_length, read, offset]
  simp only
  rw [if_neg (by simp only [List.length_append, port_length]; omega), skipped]

/-- What `wrap_frame` returns is parsed again. -/
theorem parseMuxFrame_wrapFrame {sid : UInt32} {atypAndAddr : List UInt8} {port : UInt16}
    {payload bytes : List UInt8} (wrapped : wrapFrame sid atypAndAddr port payload = some bytes)
    (offset : ∀ rest, portOffset (atypAndAddr ++ rest) = some atypAndAddr.length) :
    parseMuxFrame bytes = some (sid, payload, bytes.length) := by
  simp only [wrapFrame] at wrapped
  split at wrapped
  · cases wrapped
  · rename_i fits
    cases wrapped
    have length_eq :
        (bigEndian 4 sid.toNat ++ atypAndAddr ++ bigEndian 2 port.toNat ++ payload).length =
          4 + atypAndAddr.length + 2 + payload.length := by
      simp only [List.length_append, bigEndian_length]
    have framed := parseMuxFrame_framed (Nat.not_lt.mp (length_eq ▸ fits))
    rw [parseMuxBody_wrapped sid port payload offset, length_eq] at framed
    simp only [List.append_assoc] at framed ⊢
    exact framed

/-- A frame of any of the three kinds is parsed into its session id and its payload. -/
theorem parseMuxFrame_frame {datagram : MuxDatagram} {bytes : List UInt8}
    (accepted : datagram.frame = some bytes) :
    parseMuxFrame bytes = some (datagram.sid, datagram.payload, bytes.length) := by
  rcases datagram with ⟨sid, address, port, payload⟩
  cases address with
  | ipv4 ip =>
      apply parseMuxFrame_wrapFrame accepted
      intro rest
      simp [portOffset]
  | ipv6 ip =>
      apply parseMuxFrame_wrapFrame accepted
      intro rest
      simp [portOffset]
  | domain name =>
      simp only [MuxDatagram.frame, frameMuxDomain] at accepted
      split at accepted
      · cases accepted
      · rename_i fits
        apply parseMuxFrame_wrapFrame accepted
        intro rest
        have read : (UInt8.ofNat name.toUTF8.toList.length).toNat = name.toUTF8.toList.length := by
          rw [UInt8.toNat_ofNat']
          omega
        simp only [portOffset, List.cons_append, read, List.length_cons]
        rw [if_neg (by decide), if_neg (by decide), if_pos trivial, Option.some.injEq]
        omega

/-- The stream was read as whole frames, of which the bodies are given, and a rest. -/
structure DemuxPump.Demuxed (pump : DemuxPump) (bodies : List (List UInt8))
    (stream : List UInt8) : Prop where
  stream_eq : stream =
    (bodies.map fun body => bigEndian 2 body.length ++ body).flatten ++ pump.acc
  frames : pump.frames = bodies.map parseMuxBody
  incomplete : ¬Complete pump.acc
  reading : pump.reading = true

/-- The frames which a buffer begins with are consumed and parsed, each on its own. -/
theorem drain_bodies (buffer : List UInt8) :
    ∃ bodies : List (List UInt8),
      buffer = (bodies.map fun body => bigEndian 2 body.length ++ body).flatten ++
          (muxParser.drain buffer).2 ∧
        (muxParser.drain buffer).1 = bodies.map parseMuxBody := by
  induction buffer using muxParser.drain_induction with
  | incomplete buffer none =>
      refine ⟨[], ?_, ?_⟩ <;> simp [FrameParser.drain_of_none none]
  | complete buffer frame size found ih =>
      rcases Option.map_eq_some_iff.mp found with ⟨parsed, some_eq, same⟩
      have complete := complete_of_parsed some_eq
      rw [parseMuxFrame_of_complete complete, Option.some.injEq] at some_eq
      subst some_eq
      cases same
      rcases ih with ⟨bodies, stream_eq, frames⟩
      have whole := complete.2
      have body_length : ((buffer.drop 2).take (ofBigEndian (buffer.take 2))).length =
          ofBigEndian (buffer.take 2) := by
        rw [List.length_take, List.length_drop]
        omega
      have header_length : (buffer.take 2).length = 2 := List.length_take_of_le complete.1
      have header := bigEndian_ofBigEndian (buffer.take 2)
      rw [header_length] at header
      refine ⟨(buffer.drop 2).take (ofBigEndian (buffer.take 2)) :: bodies, ?_, ?_⟩
      · rw [FrameParser.drain_of_some found, List.map_cons, List.flatten_cons, body_length, header,
          List.append_assoc, List.append_assoc, ← stream_eq, ← List.drop_drop,
          List.take_append_drop, List.take_append_drop]
      · rw [FrameParser.drain_of_some found, List.map_cons, frames]

/-- What the pump has parsed and kept of a stream, in whatever chunks it came. -/
theorem run_recvData_start (chunks : List (List UInt8)) :
    run DemuxPump.recvData .start chunks =
      ⟨(muxParser.drain chunks.flatten).2, (muxParser.drain chunks.flatten).1, true⟩ := by
  rw [DemuxPump.start, run_recvData, FrameParser.run_feed muxParser_first_nil, List.nil_append,
    List.nil_append]

def nameQuery : MuxDatagram :=
  ⟨1, .domain "a.example", 53, [1, 2, 3]⟩

def addressQuery : MuxDatagram :=
  ⟨2, .ipv4 (ipv4 9 9 9 9), 443, [4]⟩

end Mirage.Proxy
