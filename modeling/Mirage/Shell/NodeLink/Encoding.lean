import Mirage.Shell.NodeLink

/-!
# What `percentEncode` writes and the two decoders read

The text which `percentEncode` writes is that of `encoded`: letters, digits,
four further characters and escapes.  Both decoders read it back if everything
which has been escaped is ASCII, and the kernel's reads nothing else back.
-/

namespace Mirage.Shell

open Mirage.Foundations

namespace Node

variable (data : CharacterData)

def encodedChar (char : Char) : List Char :=
  (unitsOf char).flatMap fun unit =>
    if keeps data unit then [Char.ofNat unit] else '%' :: formatHex unit

/-- What `percentEncode` makes of a text -/
def encoded (text : List Char) : List Char := text.flatMap (encodedChar data)

/-- A unit which is kept, or which its escape has two digits and one byte for. -/
def Codable (unit : ℕ) : Prop := unit < 128 ∨ keeps data unit = true

/-- Everything that is escaped is ASCII. -/
def Encodable (text : List Char) : Prop := ∀ unit ∈ utf16 text, Codable data unit

variable {data}

section Units

theorem toNat_ofNat {unit : ℕ} (scalar : unit < 0xD800 ∨ 0xE000 ≤ unit) (narrow : unit < 0x10000) :
    (Char.ofNat unit).toNat = unit := by
  have valid : unit.isValidChar := by
    rcases scalar with low | high
    · exact Or.inl low
    · exact Or.inr ⟨by omega, by omega⟩
  rw [Char.ofNat, dif_pos valid]
  rfl

theorem unitsOf_ofNat {unit : ℕ} (scalar : unit < 0xD800 ∨ 0xE000 ≤ unit)
    (narrow : unit < 0x10000) :
    unitsOf (Char.ofNat unit) = [unit] := by
  rw [unitsOf]
  simp only [toNat_ofNat scalar narrow]
  rw [if_pos narrow]

theorem unitsOf_narrow {char : Char} (narrow : char.toNat < 0x10000) :
    unitsOf char = [char.toNat] := by
  rw [unitsOf]
  exact if_pos narrow

theorem lt_of_mem_unitsOf {char : Char} {unit : ℕ} (member : unit ∈ unitsOf char) :
    unit < 0x10000 := by
  have valid : char.toNat < 0xD800 ∨ 0xDFFF < char.toNat ∧ char.toNat < 0x110000 := char.valid
  rw [unitsOf] at member
  split at member
  · rw [List.mem_singleton] at member
    omega
  · simp only [List.mem_cons, List.not_mem_nil, or_false] at member
    omega

theorem utf16_append (first second : List Char) :
    utf16 (first ++ second) = utf16 first ++ utf16 second :=
  List.flatMap_append

theorem utf16_cons {char : Char} (narrow : char.toNat < 0x10000) (text : List Char) :
    utf16 (char :: text) = char.toNat :: utf16 text := by
  rw [utf16, List.flatMap_cons, unitsOf_narrow narrow]
  rfl

theorem utf16_flatMap {Source : Type} (source : List Source) (write : Source → List Char) :
    utf16 (source.flatMap write) = source.flatMap fun element => utf16 (write element) :=
  List.flatMap_assoc

theorem utf16_of_ascii {text : List Char} (ascii : ∀ char ∈ text, char.toNat < 128) :
    utf16 text = text.map Char.toNat := by
  induction text with
  | nil => rfl
  | cons char text ih =>
      rw [List.forall_mem_cons] at ascii
      rw [utf16_cons (by omega), List.map_cons, ih ascii.2]

/-- A character below the surrogates is in a text exactly if its unit is. -/
theorem mem_utf16 {char : Char} (low : char.toNat < 0xD800) {text : List Char} :
    char.toNat ∈ utf16 text ↔ char ∈ text := by
  rw [utf16, List.mem_flatMap]
  constructor
  · rintro ⟨other, member, unit⟩
    rw [unitsOf] at unit
    split at unit
    · rw [List.mem_singleton] at unit
      rwa [Char.toNat_inj.mp unit]
    · simp only [List.mem_cons, List.not_mem_nil, or_false] at unit
      omega
  · intro member
    exact ⟨char, member, by rw [unitsOf_narrow (by omega), List.mem_singleton]⟩

end Units

section Written

/-- A kept unit is not a surrogate. -/
theorem scalar_of_keeps {unit : ℕ} (kept : keeps data unit = true) :
    unit < 0xD800 ∨ 0xE000 ≤ unit := by
  by_contra surrogate
  have not_letter := data.letter_surrogate unit (by omega) (by omega)
  rw [keeps, not_letter, Bool.false_or, List.contains_iff_mem] at kept
  have low : unit < 128 := by
    revert kept
    simp [units, utf16, unitsOf]
    omega
  omega

theorem percentEncode_utf16 (text : List Char) :
    percentEncode data (utf16 text) = utf16 (encoded data text) := by
  rw [encoded, utf16_flatMap, percentEncode, utf16, List.flatMap_assoc]
  refine List.flatMap_congr fun char _ => ?_
  rw [encodedChar, utf16_flatMap]
  refine List.flatMap_congr fun unit member => ?_
  split
  · rename_i kept
    have narrow := lt_of_mem_unitsOf member
    simp [utf16, unitsOf_ofNat (scalar_of_keeps kept) narrow]
  · rfl

/-- A property of all hexadecimal digits. -/
theorem hexDigit_cases (good : Char → ℕ → Prop)
    (checked : ∀ value < 16, good (Nat.digitChar value).toUpper value) (value : ℕ) :
    good (hexDigit value) (value % 16) :=
  checked (value % 16) (Nat.mod_lt _ (by decide))

theorem isAlphanum_hexDigit (value : ℕ) :
    (hexDigit value).isAlphanum = true ∧ (hexDigit value).toNat < 128 :=
  hexDigit_cases (fun char _ => char.isAlphanum = true ∧ char.toNat < 128) (by decide) value

theorem isAlphanum_of_mem_formatHex {code : ℕ} {char : Char} (member : char ∈ formatHex code) :
    char.isAlphanum = true ∧ char.toNat < 128 := by
  rw [formatHex] at member
  split at member
  · simp only [List.mem_cons, List.not_mem_nil, or_false] at member
    rcases member with rfl | rfl
    all_goals exact isAlphanum_hexDigit _
  · split at member
    · simp only [List.mem_cons, List.not_mem_nil, or_false] at member
      rcases member with rfl | rfl | rfl
      all_goals exact isAlphanum_hexDigit _
    · simp only [List.mem_cons, List.not_mem_nil, or_false] at member
      rcases member with rfl | rfl | rfl | rfl
      all_goals exact isAlphanum_hexDigit _

theorem ascii_escape (code : ℕ) : ∀ char ∈ '%' :: formatHex code, char.toNat < 128 := by
  rw [List.forall_mem_cons]
  exact ⟨by decide, fun char member => (isAlphanum_of_mem_formatHex member).2⟩

/-- The units of an encoded text. -/
theorem written_of_mem_percentEncode {text : List ℕ} {unit : ℕ}
    (member : unit ∈ percentEncode data text) :
    data.isLetterOrDigit unit = true ∨ unit ∈ units "-_.~%" := by
  rcases List.mem_flatMap.mp member with ⟨source, _, written⟩
  split at written
  · rename_i kept
    obtain rfl := List.mem_singleton.mp written
    rw [keeps, Bool.or_eq_true] at kept
    refine kept.imp_right fun other => ?_
    have known : ∀ unit ∈ units "-_.~", unit ∈ units "-_.~%" := by decide
    exact known unit (List.contains_iff_mem.mp other)
  · rw [utf16_of_ascii (ascii_escape source), List.map_cons, List.mem_cons, List.mem_map] at written
    rcases written with rfl | ⟨digit, here, rfl⟩
    · exact Or.inr (by decide)
    · rcases isAlphanum_of_mem_formatHex here with ⟨alphanum, ascii⟩
      left
      rw [data.letter_ascii _ ascii, Char.ofNat_toNat, alphanum]

/-- A delimiter of the URI is not in an encoded text. -/
theorem notMem_percentEncode {char : Char} (ascii : char.toNat < 128)
    (plain : char.isAlphanum = false) (other : char.toNat ∉ units "-_.~%") (text : List ℕ) :
    char.toNat ∉ percentEncode data text := by
  intro member
  rcases written_of_mem_percentEncode member with letter | there
  · rw [data.letter_ascii _ ascii, Char.ofNat_toNat, plain] at letter
    cases letter
  · exact other there

theorem notMem_encoded {char : Char} (ascii : char.toNat < 128)
    (plain : char.isAlphanum = false) (other : char.toNat ∉ units "-_.~%") (text : List Char) :
    char ∉ encoded data text := by
  intro member
  apply notMem_percentEncode ascii plain other (utf16 text)
  rw [percentEncode_utf16]
  exact (mem_utf16 (by omega)).mpr member

theorem not_space_of_mem_encoded {text : List Char} {char : Char}
    (member : char ∈ encoded data text) : isRustWhitespace char = false := by
  by_contra space
  rw [Bool.not_eq_false] at space
  have low : char.toNat < 0xD800 := by
    simp only [isRustWhitespace, Bool.or_eq_true, Bool.and_eq_true, decide_eq_true_eq,
      beq_iff_eq] at space
    omega
  have unit : char.toNat ∈ percentEncode data (utf16 text) := by
    rw [percentEncode_utf16]
    exact (mem_utf16 low).mpr member
  rcases written_of_mem_percentEncode unit with letter | other
  · rw [data.letter_space char.toNat (by rwa [Char.ofNat_toNat])] at letter
    cases letter
  · have known : ∀ unit ∈ units "-_.~%", isRustWhitespace (Char.ofNat unit) = false := by decide
    have plain := known char.toNat other
    rw [Char.ofNat_toNat, space] at plain
    cases plain

end Written

section Units

theorem not_keeps_percent : keeps data '%'.toNat = false := by
  have plain := data.letter_ascii '%'.toNat (by decide)
  rw [keeps, plain]
  decide

theorem decodeUnits_keep {unit : ℕ} (kept : keeps data unit = true) (rest : List ℕ) :
    decodeUnits data (unit :: rest) = unit :: decodeUnits data rest := by
  have different : unit ≠ '%'.toNat := by
    rintro rfl
    rw [not_keeps_percent] at kept
    cases kept
  rw [decodeUnits.eq_def]
  exact if_neg different

/-- `Character.digit` reads a digit of an escape. -/
theorem digit_hexDigit (value : ℕ) : data.digit (hexDigit value).toNat = some (value % 16) := by
  rw [data.digit_ascii _ (isAlphanum_hexDigit value).2]
  exact hexDigit_cases (fun char value => hexValue char.toNat = some value) (by decide) value

theorem hexChar_hexDigit (high low : ℕ) :
    hexChar data (hexDigit high).toNat (hexDigit low).toNat =
      some (high % 16 * 16 + low % 16) := by
  have not_sign : ¬(hexDigit high).toNat < '0'.toNat :=
    hexDigit_cases (fun char _ => ¬char.toNat < '0'.toNat) (by decide) high
  rw [hexChar, if_neg not_sign, digit_hexDigit, digit_hexDigit]

theorem decodeUnits_escape (first second : ℕ) (rest : List ℕ) :
    decodeUnits data ('%'.toNat :: first :: second :: rest) =
      (hexChar data first second).getD '%'.toNat :: decodeUnits data rest := by
  rw [decodeUnits.eq_def]
  exact if_pos rfl

theorem decodeUnits_percentEncode {text : List ℕ} (codable : ∀ unit ∈ text, Codable data unit) :
    decodeUnits data (percentEncode data text) = text := by
  induction text with
  | nil => rfl
  | cons unit text ih =>
      rw [List.forall_mem_cons] at codable
      rcases codable with ⟨here, rest⟩
      have cons : percentEncode data (unit :: text) =
          (if keeps data unit then [unit] else utf16 ('%' :: formatHex unit)) ++
            percentEncode data text := rfl
      rw [cons]
      split
      · rename_i kept
        rw [List.singleton_append, decodeUnits_keep kept, ih rest]
      · rename_i escaped
        have ascii := here.resolve_right escaped
        have escape : utf16 ('%' :: formatHex unit) =
            ['%'.toNat, (hexDigit (unit / 0x10)).toNat, (hexDigit unit).toNat] := by
          rw [utf16_of_ascii (ascii_escape unit), formatHex, if_pos (by omega)]
          rfl
        have value : unit / 0x10 % 16 * 16 + unit % 16 = unit := by omega
        rw [escape, List.cons_append, List.cons_append, List.cons_append, List.nil_append,
          decodeUnits_escape, hexChar_hexDigit, value, ih rest, Option.getD_some]

theorem decodeUnits_eq_self {text : List ℕ} (no_escape : '%'.toNat ∉ text) :
    decodeUnits data text = text := by
  induction text with
  | nil => rfl
  | cons unit text ih =>
      rw [List.mem_cons, not_or] at no_escape
      rw [decodeUnits.eq_def]
      simp only
      rw [if_neg (Ne.symm no_escape.1), ih no_escape.2]

theorem percentDecode_percentEncode {text : List ℕ} (codable : ∀ unit ∈ text, Codable data unit) :
    percentDecode data (percentEncode data text) = text := by
  have decoded := decodeUnits_percentEncode codable
  rw [percentDecode]
  split
  · rename_i no_escape
    rwa [decodeUnits_eq_self no_escape] at decoded
  · exact decoded

end Units

section Bytes

/-- The bytes of an ASCII text. -/
theorem utf8_of_ascii {text : List Char} (ascii : ∀ char ∈ text, char.toNat < 128) :
    utf8 text = text.map fun char => UInt8.ofNat char.toNat := by
  induction text with
  | nil => rfl
  | cons char text ih =>
      rw [List.forall_mem_cons] at ascii
      rw [utf8, List.flatMap_cons, utf8EncodeChar_of_lt ascii.1, List.map_cons, ← ih ascii.2]
      rfl

theorem decodeBytes_keep {byte : UInt8} (kept : byte ≠ NodeUri.percent) (rest : List UInt8) :
    NodeUri.decodeBytes (byte :: rest) = (NodeUri.decodeBytes rest).map (byte :: ·) := by
  rw [NodeUri.decodeBytes.eq_def]
  exact if_neg kept

/-- Bytes without a percent sign stand for themselves. -/
theorem decodeBytes_append {bytes : List UInt8} (kept : ∀ byte ∈ bytes, byte ≠ NodeUri.percent)
    (rest : List UInt8) :
    NodeUri.decodeBytes (bytes ++ rest) = (NodeUri.decodeBytes rest).map (bytes ++ ·) := by
  induction bytes with
  | nil =>
      rw [List.nil_append]
      cases NodeUri.decodeBytes rest <;> rfl
  | cons byte bytes ih =>
      rw [List.forall_mem_cons] at kept
      rw [List.cons_append, decodeBytes_keep kept.1, ih kept.2]
      cases NodeUri.decodeBytes rest <;> rfl

theorem fromHex_hexDigit (high low : ℕ) :
    NodeUri.fromHex (UInt8.ofNat (hexDigit high).toNat) (UInt8.ofNat (hexDigit low).toNat) =
      some (UInt8.ofNat (high % 16 * 16 + low % 16)) := by
  have digit (value : ℕ) : NodeUri.hexDigit (UInt8.ofNat (hexDigit value).toNat) =
      some (UInt8.ofNat (value % 16)) :=
    hexDigit_cases (fun char value => NodeUri.hexDigit (UInt8.ofNat char.toNat) =
      some (UInt8.ofNat value)) (by decide) value
  have not_sign : UInt8.ofNat (hexDigit high).toNat ≠ 0x2B :=
    hexDigit_cases (fun char _ => UInt8.ofNat char.toNat ≠ 0x2B) (by decide) high
  rw [NodeUri.fromHex, if_neg not_sign, digit, digit, UInt8.ofNat_add, UInt8.ofNat_mul]
  rfl

theorem decodeBytes_escape (high low : ℕ) (rest : List UInt8) :
    NodeUri.decodeBytes (NodeUri.percent :: UInt8.ofNat (hexDigit high).toNat ::
        UInt8.ofNat (hexDigit low).toNat :: rest) =
      (NodeUri.decodeBytes rest).map (UInt8.ofNat (high % 16 * 16 + low % 16) :: ·) := by
  rw [NodeUri.decodeBytes.eq_def]
  simp only [if_true, fromHex_hexDigit]

/-- Surrogates are escaped. -/
theorem not_codable_wide {char : Char} (wide : ¬char.toNat < 0x10000) :
    ¬Codable data (0xD800 + (char.toNat - 0x10000) / 0x400) := by
  have valid : char.toNat < 0xD800 ∨ 0xDFFF < char.toNat ∧ char.toNat < 0x110000 := char.valid
  rintro (ascii | kept)
  · omega
  · have scalar := scalar_of_keeps kept
    omega

theorem encodedChar_narrow {char : Char} (narrow : char.toNat < 0x10000) :
    encodedChar data char =
      if keeps data char.toNat then [char] else '%' :: formatHex char.toNat := by
  rw [encodedChar, unitsOf_narrow narrow, List.flatMap_singleton, Char.ofNat_toNat]

theorem utf8_kept {char : Char} (kept : keeps data char.toNat = true) :
    ∀ byte ∈ utf8 [char], byte ≠ NodeUri.percent := by
  intro byte member
  rw [utf8, List.flatMap_singleton] at member
  by_cases ascii : char.toNat < 128
  · rw [utf8EncodeChar_of_lt ascii, List.mem_singleton] at member
    rintro rfl
    have code : char.toNat = '%'.toNat := by
      have same := congrArg UInt8.toNat member
      rw [UInt8.toNat_ofNat', Nat.mod_eq_of_lt (by omega)] at same
      exact same.symm
    rw [code, not_keeps_percent] at kept
    cases kept
  · have large := le_of_mem_utf8EncodeChar (Nat.le_of_not_lt ascii) member
    rintro rfl
    exact absurd large (by decide)

/-- A character which can be coded is read back. -/
theorem decodeBytes_encodedChar {char : Char} (codable : ∀ unit ∈ unitsOf char, Codable data unit)
    (rest : List UInt8) :
    NodeUri.decodeBytes (utf8 (encodedChar data char) ++ rest) =
      (NodeUri.decodeBytes rest).map (utf8 [char] ++ ·) := by
  by_cases narrow : char.toNat < 0x10000
  · rw [unitsOf_narrow narrow, List.forall_mem_singleton] at codable
    rw [encodedChar_narrow narrow]
    split
    · rename_i kept
      exact decodeBytes_append (utf8_kept kept) rest
    · rename_i escaped
      have ascii := codable.resolve_right escaped
      have value : char.toNat / 0x10 % 16 * 16 + char.toNat % 16 = char.toNat := by omega
      have byte : utf8 [char] = [UInt8.ofNat char.toNat] := by
        rw [utf8, List.flatMap_singleton, utf8EncodeChar_of_lt ascii]
      rw [utf8_of_ascii (ascii_escape _), formatHex, if_pos (by omega), byte]
      refine (decodeBytes_escape _ _ rest).trans ?_
      rw [value]
      rfl
  · refine absurd (codable _ ?_) (not_codable_wide narrow)
    rw [unitsOf, if_neg narrow]
    exact List.mem_cons_self

/-- The first escape of a character which cannot be coded. -/
theorem exists_escape {char : Char} (codable : ¬∀ unit ∈ unitsOf char, Codable data unit) :
    ∃ unit rest, encodedChar data char = '%' :: formatHex unit ++ rest ∧ ¬Codable data unit ∧
      128 ≤ char.toNat ∧ (unit < 256 → char.toNat = unit) := by
  by_cases narrow : char.toNat < 0x10000
  · rw [unitsOf_narrow narrow, List.forall_mem_singleton] at codable
    have escaped : keeps data char.toNat = false :=
      Bool.eq_false_iff.mpr fun kept => codable (Or.inr kept)
    refine ⟨char.toNat, [], ?_, codable, ?_, fun _ => rfl⟩
    · rw [encodedChar_narrow narrow, escaped]
      simp
    · exact Nat.le_of_not_lt fun ascii => codable (Or.inl ascii)
  · have high : ¬Codable data (0xD800 + (char.toNat - 0x10000) / 0x400) :=
      not_codable_wide narrow
    have escaped : keeps data (0xD800 + (char.toNat - 0x10000) / 0x400) = false :=
      Bool.eq_false_iff.mpr fun kept => high (Or.inr kept)
    obtain ⟨rest, written⟩ : ∃ rest, encodedChar data char =
        '%' :: formatHex (0xD800 + (char.toNat - 0x10000) / 0x400) ++ rest := by
      rw [encodedChar, unitsOf, if_neg narrow, List.flatMap_cons, escaped,
        if_neg Bool.false_ne_true]
      exact ⟨_, rfl⟩
    exact ⟨_, rest, written, high, by omega, fun small => by omega⟩

theorem exists_of_map_eq_ok {bytes : Except NodeUriError (List UInt8)}
    {change : List UInt8 → List UInt8} {result : List UInt8}
    (mapped : bytes.map change = .ok result) :
    ∃ found, bytes = .ok found ∧ change found = result := by
  cases bytes with
  | error error => cases mapped
  | ok found => exact ⟨found, rfl, Except.ok.inj mapped⟩

/-- An escape of more than two digits. -/
theorem formatHex_long {unit : ℕ} (large : ¬unit < 256) :
    ∃ high low third rest,
      formatHex unit = hexDigit high :: hexDigit low :: hexDigit third :: rest := by
  rw [formatHex, if_neg large]
  split
  · exact ⟨_, _, _, _, rfl⟩
  · exact ⟨_, _, _, _, rfl⟩

/-- Of a character which cannot be coded something else is read. -/
theorem decodeBytes_encodedChar_ne {char : Char}
    (codable : ¬∀ unit ∈ unitsOf char, Codable data unit) (rest more : List UInt8) :
    NodeUri.decodeBytes (utf8 (encodedChar data char) ++ rest) ≠ .ok (utf8 [char] ++ more) := by
  rcases exists_escape codable with ⟨unit, others, written, not_codable, wide, latin⟩
  rcases exists_utf8EncodeChar wide with ⟨first, second, bytes, encoding, lead⟩
  have original : utf8 [char] = first :: second :: bytes := by
    rw [utf8, List.flatMap_singleton, encoding]
  intro decoded
  rw [written, utf8_append, utf8_of_ascii (ascii_escape unit), original] at decoded
  rw [List.append_assoc] at decoded
  by_cases small : unit < 256
  · rw [formatHex, if_pos small] at decoded
    have step := (decodeBytes_escape _ _ _).symm.trans decoded
    rcases exists_of_map_eq_ok step with ⟨_, _, same⟩
    -- the byte of the escape would be the first of a character which is kept
    have value : unit / 0x10 % 16 * 16 + unit % 16 = unit := by omega
    have code : unit = first.toNat := by
      rw [← (List.cons.inj same).1, value, UInt8.toNat_ofNat', Nat.mod_eq_of_lt small]
    apply not_codable
    rcases lead (by rw [latin small]; exact small) with circumflex | tilde
    · rw [code, circumflex]
      exact Or.inr (by rw [keeps, Bool.or_eq_true]; exact Or.inl data.letter_circumflex)
    · rw [code, tilde]
      exact Or.inr (by rw [keeps, Bool.or_eq_true]; exact Or.inl data.letter_tilde)
  · rcases formatHex_long small with ⟨high, low, third, digits, escape⟩
    rw [escape] at decoded
    have step := (decodeBytes_escape _ _ _).symm.trans decoded
    rcases exists_of_map_eq_ok step with ⟨_, following, same⟩
    have literal : UInt8.ofNat (hexDigit third).toNat ≠ NodeUri.percent :=
      hexDigit_cases (fun char _ => UInt8.ofNat char.toNat ≠ NodeUri.percent) (by decide) third
    have after := (decodeBytes_keep literal _).symm.trans following
    rcases exists_of_map_eq_ok after with ⟨_, _, next⟩
    -- a digit of the escape would be the second byte of a character outside ASCII
    have digit : UInt8.ofNat (hexDigit third).toNat = second := by
      rw [← next] at same
      exact (List.cons.inj (List.cons.inj same).2).1
    have large := le_of_mem_utf8EncodeChar wide
      (encoding ▸ List.mem_cons_of_mem first List.mem_cons_self : second ∈ _)
    have ascii := (isAlphanum_hexDigit third).2
    rw [← digit, UInt8.toNat_ofNat'] at large
    omega

theorem decodeBytes_encoded_iff (text : List Char) :
    NodeUri.decodeBytes (utf8 (encoded data text)) = .ok (utf8 text) ↔ Encodable data text := by
  induction text with
  | nil => simp [encoded, utf8, utf16, Encodable, NodeUri.decodeBytes]
  | cons char text ih =>
      have split : utf8 (encoded data (char :: text)) =
          utf8 (encodedChar data char) ++ utf8 (encoded data text) := utf8_append _ _
      have cons : utf8 (char :: text) = utf8 [char] ++ utf8 text := utf8_append [char] text
      have both : Encodable data (char :: text) ↔
          (∀ unit ∈ unitsOf char, Codable data unit) ∧ Encodable data text :=
        List.forall_mem_append
      rw [split, cons, both]
      by_cases codable : ∀ unit ∈ unitsOf char, Codable data unit
      · rw [decodeBytes_encodedChar codable, ← ih]
        cases NodeUri.decodeBytes (utf8 (encoded data text)) with
        | error error => simp [Except.map]
        | ok bytes =>
            simp only [Except.map, Except.ok.injEq, List.append_cancel_left_eq]
            exact (and_iff_right codable).symm
      · exact iff_of_false (decodeBytes_encodedChar_ne codable _ _) fun both => codable both.1

/-- The kernel reads a text back exactly if all that is escaped is ASCII. -/
theorem percentDecode_encoded_iff (text : String) :
    NodeUri.percentDecode (encoded data text.toList) = .ok text ↔
      Encodable data text.toList := by
  rw [← decodeBytes_encoded_iff, NodeUri.percentDecode]
  constructor
  · intro decoded
    split at decoded
    · rename_i bytes read
      split at decoded
      · rename_i found valid
        obtain rfl : found = text := Except.ok.inj decoded
        rw [read, utf8_of_fromUtf8 valid]
      · cases decoded
    · cases decoded
  · intro read
    rw [read]
    simp only
    rw [fromUtf8_utf8]

end Bytes

end Node

end Mirage.Shell
