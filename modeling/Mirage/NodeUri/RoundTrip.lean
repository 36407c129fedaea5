import Mirage.Foundations.Access
import Mirage.Foundations.Trimming
import Mirage.Shell.NodeLink.Agreement

/-!
# Node URIs which are put together

A node is written as a URI with percent escapes: its password, its endpoint and
its parameters, with any further parameters among them.  The URI is taken apart at
the last `@`, at the first `?` after it, and at each `&`; an encoded text has none
of these signs, so it comes apart into what was put in.

A further parameter is passed over, whatever it holds, but for an `@` as such: the
parser takes the last one for the end of the password.
-/

namespace Mirage.NodeUri

open Mirage.Foundations Mirage.Shell

/-- The characters which stand for themselves; neither delimiters nor blanks are among them. -/
structure PercentEncoding where
  keeps : Char → Bool
  keeps_plain : ∀ {char}, keeps char = true →
    char ∉ ['%', '@', '&'] ∧ isRustWhitespace char = false

/-- Neither a delimiter between the parts of a URI nor a blank -/
def Plain (char : Char) : Prop := char ∉ ['@', '&'] ∧ isRustWhitespace char = false

namespace PercentEncoding

theorem not_isAlphanum_of_delimiter {char : Char} (delimiter : char ∈ ['%', '@', '&']) :
    char.isAlphanum = false := by
  simp only [List.mem_cons, List.not_mem_nil, or_false] at delimiter
  rcases delimiter with rfl | rfl | rfl
  all_goals rfl

theorem plain_of_isAlphanum {char : Char} (alphanum : char.isAlphanum = true) : Plain char := by
  refine ⟨fun delimiter => ?_, not_blank_of_isAlphanum alphanum⟩
  rw [not_isAlphanum_of_delimiter (List.mem_cons_of_mem _ delimiter)] at alphanum
  cases alphanum

/-- The letters, digits and signs which a URI never needs to escape -/
def unreserved : PercentEncoding where
  keeps char := char.isAlphanum || ['-', '.', '_', '~'].contains char
  keeps_plain := by
    intro char kept
    rw [Bool.or_eq_true, List.contains_iff_mem] at kept
    rcases kept with alphanum | sign
    · refine ⟨fun delimiter => ?_, not_blank_of_isAlphanum alphanum⟩
      rw [not_isAlphanum_of_delimiter delimiter] at alphanum
      cases alphanum
    · simp only [List.mem_cons, List.not_mem_nil, or_false] at sign
      rcases sign with rfl | rfl | rfl | rfl
      all_goals exact ⟨by decide, rfl⟩

variable (encoding : PercentEncoding)

def escape (byte : UInt8) : List Char :=
  ['%', Shell.hexDigit (byte.toNat / 16), Shell.hexDigit byte.toNat]

def encodeChar (char : Char) : List Char :=
  if encoding.keeps char then [char] else (String.utf8EncodeChar char).flatMap escape

def encode (text : String) : List Char := text.toList.flatMap encoding.encodeChar

variable {encoding}

theorem mem_escape {byte : UInt8} {char : Char} (member : char ∈ escape byte) :
    char = '%' ∨ char.isAlphanum = true ∧ char.toNat < 128 := by
  simp only [escape, List.mem_cons, List.not_mem_nil, or_false] at member
  rcases member with rfl | rfl | rfl
  · exact Or.inl rfl
  · exact Or.inr (Node.isAlphanum_hexDigit _)
  · exact Or.inr (Node.isAlphanum_hexDigit _)

/-- An encoded text has no delimiter of the URI and no blank. -/
theorem plain_of_mem_encode {text : String} {char : Char} (member : char ∈ encoding.encode text) :
    Plain char := by
  rcases List.mem_flatMap.mp member with ⟨source, _, written⟩
  rw [encodeChar] at written
  split at written
  · rename_i kept
    rw [List.mem_singleton.mp written]
    have plain := encoding.keeps_plain kept
    exact ⟨fun delimiter => plain.1 (List.mem_cons_of_mem _ delimiter), plain.2⟩
  · rcases List.mem_flatMap.mp written with ⟨byte, _, escaped⟩
    rcases mem_escape escaped with rfl | ⟨alphanum, ascii⟩
    · exact ⟨by decide, by decide⟩
    · exact plain_of_isAlphanum alphanum

theorem decodeBytes_escape (byte : UInt8) (rest : List UInt8) :
    decodeBytes (utf8 (escape byte) ++ rest) = (decodeBytes rest).map (byte :: ·) := by
  have ascii : ∀ char ∈ escape byte, char.toNat < 128 := by
    intro char member
    rcases mem_escape member with rfl | ⟨_, small⟩
    · decide
    · exact small
  have value : byte.toNat / 16 % 16 * 16 + byte.toNat % 16 = byte.toNat := by
    have bound := byte.toNat_lt
    omega
  rw [Node.utf8_of_ascii ascii]
  refine (Node.decodeBytes_escape (byte.toNat / 16) byte.toNat rest).trans ?_
  rw [value, UInt8.ofNat_toNat]

theorem decodeBytes_escapes (bytes rest : List UInt8) :
    decodeBytes (utf8 (bytes.flatMap escape) ++ rest) = (decodeBytes rest).map (bytes ++ ·) := by
  induction bytes with
  | nil => cases h : decodeBytes rest <;> simp [utf8, h, Except.map]
  | cons byte bytes ih =>
      rw [List.flatMap_cons, utf8_append, List.append_assoc, decodeBytes_escape, ih]
      cases decodeBytes rest <;> rfl

/-- The bytes of a character that stands for itself have no percent sign. -/
theorem utf8_kept {char : Char} (kept : encoding.keeps char = true) :
    ∀ byte ∈ utf8 [char], byte ≠ percent := by
  intro byte member
  rw [utf8, List.flatMap_singleton] at member
  rintro rfl
  by_cases ascii : char.toNat < 128
  · rw [utf8EncodeChar_of_lt ascii, List.mem_singleton] at member
    have code : char.toNat = '%'.toNat := by
      have same := congrArg UInt8.toNat member
      rw [UInt8.toNat_ofNat', Nat.mod_eq_of_lt (by omega)] at same
      exact same.symm
    apply (encoding.keeps_plain kept).1
    rw [Char.toNat_inj.mp code]
    exact List.mem_cons_self
  · have large := le_of_mem_utf8EncodeChar (Nat.le_of_not_lt ascii) member
    exact absurd large (by decide)

theorem decodeBytes_encodeChar (char : Char) (rest : List UInt8) :
    decodeBytes (utf8 (encoding.encodeChar char) ++ rest) =
      (decodeBytes rest).map (utf8 [char] ++ ·) := by
  rw [encodeChar]
  split
  · rename_i kept
    exact Node.decodeBytes_append (utf8_kept kept) rest
  · rw [decodeBytes_escapes, utf8, List.flatMap_singleton]

/-- What is encoded is read back, whatever follows. -/
theorem decodeBytes_encode (text : String) (rest : List UInt8) :
    decodeBytes (utf8 (encoding.encode text) ++ rest) =
      (decodeBytes rest).map (utf8 text.toList ++ ·) := by
  rw [encode]
  induction text.toList with
  | nil => cases h : decodeBytes rest <;> simp [utf8, h, Except.map]
  | cons char chars ih =>
      rw [List.flatMap_cons, utf8_append, List.append_assoc, decodeBytes_encodeChar, ih,
        utf8_cons]
      cases decodeBytes rest <;> simp [Except.map, utf8]

theorem percentDecode_encode (text : String) : percentDecode (encoding.encode text) = .ok text := by
  have decoded : decodeBytes (utf8 (encoding.encode text) ++ []) = _ := decodeBytes_encode text []
  rw [List.append_nil] at decoded
  rw [percentDecode, decoded]
  simp [decodeBytes, Except.map, fromUtf8_utf8]

/-- What follows an encoded text is not lost. -/
theorem ne_of_percentDecode_append {text decoded : String} {more : List Char}
    (read : percentDecode (encoding.encode text ++ '@' :: more) = .ok decoded) :
    decoded ≠ text := by
  have sign : utf8 ('@' :: more) = 0x40 :: utf8 more := by
    rw [utf8_cons, utf8EncodeChar_of_lt (by decide)]
    rfl
  rw [percentDecode, utf8_append, decodeBytes_encode, sign,
    Node.decodeBytes_keep (by decide)] at read
  cases following : decodeBytes (utf8 more) with
  | error error =>
      rw [following] at read
      cases read
  | ok bytes =>
      rw [following] at read
      simp only [Except.map] at read
      split at read
      · rename_i found valid
        rw [← Except.ok.inj read]
        rintro rfl
        have same := utf8_of_fromUtf8 valid
        have longer := congrArg List.length same
        rw [List.length_append, List.length_cons] at longer
        omega
      · cases read

end PercentEncoding

/-- A parameter and how its value is written -/
def pairText (pair : String × List Char) : List Char := pair.1.toList ++ '=' :: pair.2

/-- What a node URI says; a parser takes no empty text for a password or an SNI. -/
structure Fields where
  password : String
  endpoint : Endpoint
  sni : String
  poolSize : Option ℕ
  udpMux : Option Bool
  password_nonempty : password ≠ ""
  sni_nonempty : sni ≠ ""
  poolSize_fits : ∀ size ∈ poolSize, 0 < size ∧ size ≤ u64Max

namespace Fields

variable (encoding : PercentEncoding) (fields : Fields)

def node : NodeUri where
  password := fields.password
  host := fields.endpoint.host
  port := fields.endpoint.port
  sni := fields.sni
  poolSize := fields.poolSize
  udpMux := fields.udpMux

def parameters : List (List Char) :=
  pairText ("sni", encoding.encode fields.sni) ::
    ((fields.poolSize.toList.map fun size => pairText ("pool_size", (toString size).toList)) ++
      fields.udpMux.toList.map fun on => pairText ("udp_mux", (toString on).toList))

def front : List Char :=
  scheme ++ (encoding.encode fields.password ++ '@' :: fields.endpoint.hostPort)

def uri (query : List Char) : String := String.ofList (fields.front encoding ++ '?' :: query)

end Fields

/-- A parameter which the parser does not know -/
def IsExtra (text : List Char) : Prop :=
  '&' ∉ text ∧ ∀ key value, splitFirst '=' text = some (key, value) →
    String.ofList key ∉ ["sni", "pool_size", "pool", "udp_mux", "mux"]

section Reading

variable {encoding : PercentEncoding} {fields : Fields} {query : List Char}

theorem splitFirst_pairText {key : String} (plain : '=' ∉ key.toList) (value : List Char) :
    splitFirst '=' (pairText (key, value)) = some (key.toList, value) :=
  splitFirst_append plain

theorem readPair_sni (sni : String) (before : Query) :
    readPair before (pairText ("sni", encoding.encode sni)) = .ok { before with sni } := by
  rw [readPair, splitFirst_pairText (by decide)]
  simp only [String.ofList_toList, if_true, PercentEncoding.percentDecode_encode]
  rfl

theorem readPair_poolSize {size : ℕ} (fits : 0 < size ∧ size ≤ u64Max) (before : Query) :
    readPair before (pairText ("pool_size", (toString size).toList)) =
      .ok { before with poolSize := some size } := by
  have other : "pool_size" ≠ "sni" := by decide
  rw [readPair, splitFirst_pairText (by decide)]
  simp only [String.ofList_toList, if_neg other, true_or, if_true, parseUnsigned_toString fits.2,
    if_pos fits.1]

theorem readPair_udpMux (on : Bool) (before : Query) :
    readPair before (pairText ("udp_mux", (toString on).toList)) =
      .ok { before with udpMux := some on } := by
  have others : "udp_mux" ≠ "sni" ∧ "udp_mux" ≠ "pool_size" ∧ "udp_mux" ≠ "pool" := by decide
  have read : readSwitch (toString on).toList = some on := by
    cases on <;> rfl
  rw [readPair, splitFirst_pairText (by decide)]
  simp only [String.ofList_toList, if_neg others.1, others.2, or_self, true_or, if_true, if_false,
    read]

theorem readPair_of_isExtra {extra : List Char} (isExtra : IsExtra extra) (before : Query) :
    readPair before extra = .ok before := by
  rw [readPair]
  split
  · rfl
  · rename_i key value split
    have unknown := isExtra.2 key value split
    simp only [List.mem_cons, List.not_mem_nil, or_false, not_or] at unknown
    simp only [unknown, or_self, if_false]

/-- Blanks behind a parameter which is not known make no difference. -/
theorem isExtra_rdropWhile {extra : List Char} (isExtra : IsExtra extra) :
    IsExtra (extra.rdropWhile isRustWhitespace) := by
  have front := List.rdropWhile_prefix isRustWhitespace extra
  refine ⟨fun inside => isExtra.1 (front.subset inside), fun key value split => ?_⟩
  rcases splitFirst_eq_some_iff.mp split with ⟨whole, absent⟩
  rcases front with ⟨blanks, same⟩
  apply isExtra.2 key (value ++ blanks)
  rw [← same, whole, List.append_assoc, List.cons_append]
  exact splitFirst_append absent

theorem readQuery_eq (query : List Char) :
    readQuery query = (query.splitOn '&').foldlM readPair ⟨"", none, none⟩ := by
  rw [readQuery, List.foldlM_filter]
  congr 1
  funext before piece
  cases piece <;> rfl

/-- Trimming reaches the last parameter only. -/
theorem readQuery_rdropWhile (safe : ∀ piece ∈ query.splitOn '&', ∀ before,
    readPair before (piece.rdropWhile isRustWhitespace) = readPair before piece) :
    readQuery (query.rdropWhile isRustWhitespace) = readQuery query := by
  rw [readQuery_eq, readQuery_eq]
  by_cases several : '&' ∈ query
  · rcases exists_last_of_mem several with ⟨front, last, rfl, absent⟩
    have trimmed : '&' ∉ last.rdropWhile isRustWhitespace := fun inside =>
      absent ((List.rdropWhile_prefix isRustWhitespace last).subset inside)
    rw [List.splitOn_append_cons_self, List.splitOn_eq_singleton absent] at safe
    rw [rdropWhile_append_cons (by decide), List.splitOn_append_cons_self,
      List.splitOn_append_cons_self, List.splitOn_eq_singleton trimmed,
      List.splitOn_eq_singleton absent, List.foldlM_append, List.foldlM_append]
    simp only [List.foldlM_cons, List.foldlM_nil, safe last (by simp)]
  · have trimmed : '&' ∉ query.rdropWhile isRustWhitespace := fun inside =>
      several ((List.rdropWhile_prefix isRustWhitespace query).subset inside)
    rw [List.splitOn_eq_singleton several] at safe
    rw [List.splitOn_eq_singleton trimmed, List.splitOn_eq_singleton several]
    simp only [List.foldlM_cons, List.foldlM_nil, safe query List.mem_cons_self]

end Reading

section Parameters

variable {encoding : PercentEncoding} {fields : Fields} {piece : List Char}

/-- What a parameter does to the fields which have been read -/
inductive Effect (fields : Fields) (piece : List Char) : Prop where
  | sni (read : ∀ before, readPair before piece = .ok { before with sni := fields.sni })
  | poolSize (read : ∀ before, readPair before piece =
      .ok { before with poolSize := fields.poolSize })
  | udpMux (read : ∀ before, readPair before piece = .ok { before with udpMux := fields.udpMux })
  | none (read : ∀ before, readPair before piece = .ok before)

/-- The fields after a parameter -/
def settle (before : Query) (piece : List Char) : Query :=
  (readPair before piece).toOption.getD before

theorem Effect.read_eq (effect : Effect fields piece) (before : Query) :
    readPair before piece = .ok (settle before piece) := by
  rw [settle]
  cases effect with
  | sni read | poolSize read | udpMux read | none read => rw [read]; rfl

/-- Parameters can be read in any order, for each field has one value. -/
theorem Effect.comm {other : List Char} (effect : Effect fields piece)
    (another : Effect fields other) (before : Query) :
    settle (settle before piece) other = settle (settle before other) piece := by
  simp only [settle]
  cases effect with
  | sni read | poolSize read | udpMux read | none read =>
      cases another with
      | sni reads | poolSize reads | udpMux reads | none reads =>
          simp only [read, reads, Except.toOption, Option.getD_some]

theorem effect_of_mem_parameters (there : piece ∈ fields.parameters encoding) :
    Effect fields piece := by
  rw [Fields.parameters, List.mem_cons, List.mem_append, List.mem_map, List.mem_map] at there
  rcases there with rfl | ⟨size, inside, rfl⟩ | ⟨on, inside, rfl⟩
  · exact .sni (readPair_sni fields.sni)
  · have here := Option.mem_toList.mp inside
    refine .poolSize fun before => ?_
    rw [readPair_poolSize (fields.poolSize_fits size here), Option.mem_def.mp here]
  · refine .udpMux fun before => ?_
    rw [readPair_udpMux, Option.mem_def.mp (Option.mem_toList.mp inside)]

theorem plain_of_literal {text : List Char}
    (letters : (text.all fun char => char.isAlphanum || char == '_') = true) :
    ∀ char ∈ text, Plain char := by
  intro char inside
  have letter := List.all_eq_true.mp letters char inside
  rw [Bool.or_eq_true, beq_iff_eq] at letter
  rcases letter with alphanum | rfl
  · exact PercentEncoding.plain_of_isAlphanum alphanum
  · exact ⟨by decide, rfl⟩

theorem plain_pairText {key : String} {value : List Char}
    (letters : (key.toList.all fun char => char.isAlphanum || char == '_') = true)
    (plain : ∀ char ∈ value, Plain char) : ∀ char ∈ pairText (key, value), Plain char := by
  rw [pairText]
  refine List.forall_mem_append.mpr ⟨plain_of_literal letters, ?_⟩
  exact List.forall_mem_cons.mpr ⟨⟨by decide, rfl⟩, plain⟩

/-- A parameter of the fields has no delimiter and no blank. -/
theorem plain_of_mem_parameters (there : piece ∈ fields.parameters encoding) :
    ∀ char ∈ piece, Plain char := by
  rw [Fields.parameters, List.mem_cons, List.mem_append, List.mem_map, List.mem_map] at there
  rcases there with rfl | ⟨size, _, rfl⟩ | ⟨on, _, rfl⟩
  · exact plain_pairText (by decide) fun char => PercentEncoding.plain_of_mem_encode
  · refine plain_pairText (by decide) fun char inside => ?_
    rw [Nat.toString_eq_repr, Nat.toList_repr] at inside
    have digit := Nat.isDigit_of_mem_toDigits (by decide) (by decide) inside
    apply PercentEncoding.plain_of_isAlphanum
    rw [Char.isAlphanum, digit, Bool.or_true]
  · refine plain_pairText (by decide) (plain_of_literal ?_)
    cases on <;> decide

theorem splitOn_pieces {pieces extras : List (List Char)}
    (isExtra : ∀ extra ∈ extras, IsExtra extra)
    (mixed : pieces.Perm (fields.parameters encoding ++ extras)) :
    (['&'].intercalate pieces).splitOn '&' = pieces := by
  apply List.splitOn_intercalate
  · intro piece there inside
    rcases List.mem_append.mp (mixed.mem_iff.mp there) with parameter | extra
    · exact (plain_of_mem_parameters parameter _ inside).1 (by decide)
    · exact (isExtra piece extra).1 inside
  · intro empty
    have size := mixed.length_eq
    rw [empty, List.length_append, Fields.parameters, List.length_cons, List.length_nil] at size
    omega

theorem settle_of_read {before after : Query} (read : readPair before piece = .ok after) :
    settle before piece = after := by
  rw [settle, read]
  rfl

theorem foldl_settle_poolSize (before : Query) :
    (fields.poolSize.toList.map fun size =>
        pairText ("pool_size", (toString size).toList)).foldl settle before =
      { before with poolSize := fields.poolSize.or before.poolSize } := by
  cases here : fields.poolSize with
  | none => rfl
  | some size =>
      rw [Option.toList_some, List.map_singleton, List.foldl_cons, List.foldl_nil,
        settle_of_read (readPair_poolSize (fields.poolSize_fits size here) before),
        Option.some_or]

theorem foldl_settle_udpMux (before : Query) :
    (fields.udpMux.toList.map fun on => pairText ("udp_mux", (toString on).toList)).foldl settle
        before =
      { before with udpMux := fields.udpMux.or before.udpMux } := by
  cases fields.udpMux with
  | none => rfl
  | some on =>
      rw [Option.toList_some, List.map_singleton, List.foldl_cons, List.foldl_nil,
        settle_of_read (readPair_udpMux on before), Option.some_or]

theorem foldl_settle_parameters (encoding : PercentEncoding) (fields : Fields) :
    (fields.parameters encoding).foldl settle ⟨"", none, none⟩ =
      ⟨fields.sni, fields.poolSize, fields.udpMux⟩ := by
  rw [Fields.parameters, List.foldl_cons, List.foldl_append,
    settle_of_read (readPair_sni fields.sni _), foldl_settle_poolSize, foldl_settle_udpMux]
  simp only [Option.or_none]

theorem foldl_settle_extras {extras : List (List Char)}
    (isExtra : ∀ extra ∈ extras, IsExtra extra) (before : Query) :
    extras.foldl settle before = before := by
  induction extras with
  | nil => rfl
  | cons extra extras ih =>
      rw [List.forall_mem_cons] at isExtra
      rw [List.foldl_cons, settle_of_read (readPair_of_isExtra isExtra.1 before)]
      exact ih isExtra.2

theorem foldlM_readPair {pieces : List (List Char)}
    (effects : ∀ piece ∈ pieces, Effect fields piece) (before : Query) :
    pieces.foldlM readPair before = .ok (pieces.foldl settle before) := by
  induction pieces generalizing before with
  | nil => rfl
  | cons piece pieces ih =>
      rw [List.forall_mem_cons] at effects
      rw [List.foldlM_cons, effects.1.read_eq]
      exact ih effects.2 _

/-- Blanks at the end of a parameter are those of one which is not known. -/
theorem readPair_rdropWhile {extras : List (List Char)} (isExtra : ∀ extra ∈ extras, IsExtra extra)
    (there : piece ∈ fields.parameters encoding ++ extras) (before : Query) :
    readPair before (piece.rdropWhile isRustWhitespace) = readPair before piece := by
  rcases List.mem_append.mp there with parameter | extra
  · rw [rdropWhile_of_neg fun char inside => (plain_of_mem_parameters parameter char inside).2]
  · rw [readPair_of_isExtra (isExtra piece extra),
      readPair_of_isExtra (isExtra_rdropWhile (isExtra piece extra))]

/-- Read in any order, with any others among them, the parameters give the fields. -/
theorem readQuery_pieces {pieces extras : List (List Char)}
    (isExtra : ∀ extra ∈ extras, IsExtra extra)
    (mixed : pieces.Perm (fields.parameters encoding ++ extras)) :
    readQuery ((['&'].intercalate pieces).rdropWhile isRustWhitespace) =
      .ok ⟨fields.sni, fields.poolSize, fields.udpMux⟩ := by
  have effects (piece : List Char) (there : piece ∈ pieces) : Effect fields piece := by
    rcases List.mem_append.mp (mixed.mem_iff.mp there) with parameter | extra
    · exact effect_of_mem_parameters parameter
    · exact .none (readPair_of_isExtra (isExtra piece extra))
  have safe : ∀ piece ∈ (['&'].intercalate pieces).splitOn '&', ∀ before,
      readPair before (piece.rdropWhile isRustWhitespace) = readPair before piece := by
    rw [splitOn_pieces isExtra mixed]
    exact fun piece there => readPair_rdropWhile isExtra (mixed.mem_iff.mp there)
  have any_order := mixed.foldl_eq' (fun first there second here =>
    (effects first there).comm (effects second here)) ⟨"", none, none⟩
  rw [readQuery_rdropWhile safe, readQuery_eq, splitOn_pieces isExtra mixed,
    foldlM_readPair effects, any_order, List.foldl_append, foldl_settle_extras isExtra,
    foldl_settle_parameters]

end Parameters

section Parsing

variable {encoding : PercentEncoding} {fields : Fields} {query : List Char}

theorem trim_uri : (trim (fields.uri encoding query)).toList =
    fields.front encoding ++ '?' :: query.rdropWhile isRustWhitespace := by
  have starts : (fields.front encoding ++ '?' :: query).dropWhile isRustWhitespace =
      fields.front encoding ++ '?' :: query := rfl
  rw [trim, Fields.uri, String.toList_ofList, String.toList_ofList, starts,
    rdropWhile_append_cons (by decide)]

theorem isPrefixOf_front (rest : List Char) :
    scheme.isPrefixOf (fields.front encoding ++ rest) = true := by
  rw [Fields.front, List.append_assoc]
  exact List.isPrefixOf_iff_prefix.mpr (List.prefix_append _ _)

theorem drop_front (rest : List Char) :
    (fields.front encoding ++ rest).drop scheme.length =
      encoding.encode fields.password ++ '@' :: (fields.endpoint.hostPort ++ rest) := by
  rw [Fields.front, List.append_assoc, List.drop_left, List.append_assoc, List.cons_append]

/-- Where no parameter holds an `@`, only the parameters are left to be read. -/
theorem parse_uri_of_notMem (absent : '@' ∉ query) :
    parse (fields.uri encoding query) =
      (readQuery (query.rdropWhile isRustWhitespace)).bind
        (complete fields.password fields.endpoint.host fields.endpoint.port) := by
  have no_at : '@' ∉ fields.endpoint.hostPort ++ '?' :: query.rdropWhile isRustWhitespace := by
    rw [List.mem_append, List.mem_cons]
    rintro (host | mark | inside)
    · exact Endpoint.notMem_hostPort (by decide) host
    · exact absurd mark (by decide)
    · exact absent ((List.rdropWhile_prefix isRustWhitespace query).subset inside)
  have no_query : '?' ∉ fields.endpoint.hostPort := Endpoint.notMem_hostPort (by decide)
  rw [parse]
  simp only [trim_uri, isPrefixOf_front, drop_front, splitLast_append no_at,
    splitFirst_append no_query, Option.getD_some, NodeUri.splitHostPort_hostPort]
  rw [if_neg (by decide)]
  simp only [bind, Except.bind, NodeUri.parsePort_portText, String.ofList_toList,
    PercentEncoding.percentDecode_encode]

/-- What is read as the password ends at the last `@`. -/
theorem password_of_parse {encoded rest : List Char} {uri : String} {found : NodeUri}
    (trimmed : (trim uri).toList = scheme ++ (encoded ++ '@' :: rest)) (absent : '@' ∉ rest)
    (read : parse uri = .ok found) : percentDecode encoded = .ok found.password := by
  have starts : scheme.isPrefixOf (scheme ++ (encoded ++ '@' :: rest)) = true :=
    List.isPrefixOf_iff_prefix.mpr (List.prefix_append _ _)
  rw [parse] at read
  simp only [trimmed, starts, List.drop_left, splitLast_append absent] at read
  rw [if_neg (by decide)] at read
  rcases bind_eq_ok read with ⟨parts, _, read⟩
  rcases bind_eq_ok read with ⟨port, _, read⟩
  rcases bind_eq_ok read with ⟨query, _, read⟩
  rcases bind_eq_ok read with ⟨password, decoded, read⟩
  rcases complete_eq_ok.mp read with ⟨_, rfl⟩
  exact decoded

/-- An `@` in a parameter is taken for the end of the password. -/
theorem password_ne_of_mem {found : NodeUri} (inside : '@' ∈ query)
    (read : parse (fields.uri encoding query) = .ok found) :
    found.password ≠ fields.password := by
  rcases exists_last_of_mem inside with ⟨before, after, rfl, absent⟩
  have no_at : '@' ∉ after.rdropWhile isRustWhitespace := fun later =>
    absent ((List.rdropWhile_prefix isRustWhitespace after).subset later)
  have trimmed : (trim (fields.uri encoding (before ++ '@' :: after))).toList =
      scheme ++ ((encoding.encode fields.password ++ '@' ::
        (fields.endpoint.hostPort ++ '?' :: before)) ++
          '@' :: after.rdropWhile isRustWhitespace) := by
    rw [trim_uri, rdropWhile_append_cons (by decide), Fields.front]
    simp only [List.append_assoc, List.cons_append]
  exact PercentEncoding.ne_of_percentDecode_append (password_of_parse trimmed no_at read)

/-- A node comes back from its URI, whatever the order of the parameters, exactly if no
further parameter holds an `@`; and parameters without one never change the password and
the endpoint. -/
theorem Fields.parse_uri (encoding : PercentEncoding) (fields : Fields) :
    (∀ query, '@' ∉ query → ∀ found, parse (fields.uri encoding query) = .ok found →
      found.password = fields.password ∧ found.host = fields.endpoint.host ∧
        found.port = fields.endpoint.port) ∧
    ∀ extras pieces, (∀ extra ∈ extras, IsExtra extra) →
      pieces.Perm (fields.parameters encoding ++ extras) →
      (parse (fields.uri encoding (['&'].intercalate pieces)) = .ok fields.node ↔
        ∀ extra ∈ extras, '@' ∉ extra) := by
  constructor
  · intro query absent found read
    rw [parse_uri_of_notMem absent] at read
    rcases bind_eq_ok read with ⟨parameters, _, read⟩
    rcases complete_eq_ok.mp read with ⟨_, rfl⟩
    exact ⟨rfl, rfl, rfl⟩
  · intro extras pieces isExtra mixed
    constructor
    · intro same extra there inside
      have somewhere : '@' ∈ ['&'].intercalate pieces :=
        mem_intercalate_of_mem (mixed.mem_iff.mpr (List.mem_append_right _ there)) inside
      exact password_ne_of_mem somewhere same rfl
    · intro plain
      have absent : '@' ∉ ['&'].intercalate pieces := by
        intro inside
        rcases mem_intercalate inside with separator | ⟨piece, there, here⟩
        · exact absurd separator (by decide)
        · rcases List.mem_append.mp (mixed.mem_iff.mp there) with parameter | extra
          · exact (plain_of_mem_parameters parameter '@' here).1 (by decide)
          · exact plain piece extra here
      rw [parse_uri_of_notMem absent, readQuery_pieces isExtra mixed]
      exact complete_eq_ok.mpr ⟨⟨fields.password_nonempty, fields.endpoint.host_nonempty,
        fields.sni_nonempty⟩, rfl⟩

def Fields.sample : Fields where
  password := "p@s:"
  endpoint := ⟨"2606::1", 443, by decide, by simp, by decide, by decide⟩
  sni := "x.com"
  poolSize := some 4
  udpMux := none
  password_nonempty := by decide
  sni_nonempty := by decide
  poolSize_fits := by decide

/-- A password, an IPv6 literal and another parameter with delimiters in them -/
theorem Fields.parse_uri_escaped :
    parse "mirage://p%40s%3A@[2606::1]:443?note=a%40b:c#d&sni=x.com&pool_size=4" =
      .ok ⟨"p@s:", "2606::1", 443, "x.com", some 4, none⟩ := by
  have isExtra : ∀ extra ∈ ["note=a%40b:c#d".toList], IsExtra extra := by
    rw [List.forall_mem_singleton]
    refine ⟨by decide, fun key value split => ?_⟩
    cases split
    decide
  have text : Fields.sample.uri PercentEncoding.unreserved
      (['&'].intercalate (["note=a%40b:c#d".toList] ++
        Fields.sample.parameters PercentEncoding.unreserved)) =
      "mirage://p%40s%3A@[2606::1]:443?note=a%40b:c#d&sni=x.com&pool_size=4" := by
    decide +kernel
  rw [← text]
  apply ((Fields.sample.parse_uri PercentEncoding.unreserved).2 _ _ isExtra
    List.perm_append_comm).mpr
  exact List.forall_mem_singleton.mpr (by decide)

/-- An empty password is refused, and an `@` in another parameter changes the password and
the endpoint. -/
theorem not_parse_uri_delimited :
    parse "mirage://@h:1?sni=x.com" = .error .emptyPassword ∧
      parse "mirage://p@h:1?sni=x.com" = .ok ⟨"p", "h", 1, "x.com", none, none⟩ ∧
      parse "mirage://p@h:1?sni=x.com&note=a@b:2?sni=y.com" =
        .ok ⟨"p@h:1?sni=x.com&note=a", "b", 2, "y.com", none, none⟩ := by
  decide +kernel

end Parsing

end Mirage.NodeUri
