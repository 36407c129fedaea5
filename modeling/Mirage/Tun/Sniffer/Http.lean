import Mirage.Foundations.Trimming
import Mirage.Tun.Sniffer

/-!
# The hosts of HTTP requests

A request is a structure here, with a `Host` among its other header fields.  Its host is
sniffed when the method is one of those which are looked for, the host is not in brackets,
and the bytes which are looked at are those of a text.
-/

namespace Mirage.Tun

open Mirage.Foundations

/-! ## Lines -/

section Lines

variable {line rest : List Char} {host : String}

theorem lines_append_cons (absent : '\n' ∉ line) (rest : List Char) :
    lines (String.ofList (line ++ '\n' :: rest)) =
      String.ofList (withoutReturn line) :: lines (String.ofList rest) := by
  have more : rest.splitOn '\n' ≠ [] := List.splitOn_ne_nil _ _
  simp only [lines, String.toList_ofList]
  rw [List.splitOn_append_cons_self, List.splitOn_eq_singleton absent, List.singleton_append,
    List.dropLast_cons_of_ne_nil more, List.getLast?_cons_of_ne_nil more, List.map_cons,
    List.cons_append, List.map_cons]

theorem lines_of_not_mem (absent : '\n' ∉ line) (nonempty : line ≠ []) :
    lines (String.ofList line) = [String.ofList line] := by
  simp only [lines, String.toList_ofList]
  rw [List.splitOn_eq_singleton absent]
  simp [nonempty]

theorem trim_withoutReturn (line : List Char) :
    trim (String.ofList (withoutReturn line)) = trim (String.ofList line) := by
  unfold withoutReturn
  split
  · case isTrue ended =>
      rcases List.getLast?_eq_some_iff.mp ended with ⟨front, rfl⟩
      rw [List.dropLast_concat, trim_append_blank (by decide)]
  · rfl

/-- A line which names no host is passed. -/
theorem hostOfLines_skip (absent : '\n' ∉ line) (visible : trim (String.ofList line) ≠ "")
    (other : hostOfLine (trim (String.ofList line)) = none) (rest : List Char) :
    hostOfLines (lines (String.ofList (line ++ '\n' :: rest))) =
      hostOfLines (lines (String.ofList rest)) := by
  rw [lines_append_cons absent, hostOfLines, trim_withoutReturn, if_neg visible, other]

theorem hostOfLines_found (absent : '\n' ∉ line)
    (found : hostOfLine (trim (String.ofList line)) = some host)
    (ended : rest = [] ∨ ∃ more, rest = '\n' :: more) :
    hostOfLines (lines (String.ofList (line ++ rest))) = some host := by
  have visible : trim (String.ofList line) ≠ "" := by
    intro empty
    rw [empty] at found
    cases found
  rcases ended with rfl | ⟨more, rfl⟩
  · have nonempty : line ≠ [] := by
      rintro rfl
      exact visible rfl
    rw [List.append_nil, lines_of_not_mem absent nonempty, hostOfLines, if_neg visible, found]
  · rw [lines_append_cons absent, hostOfLines, trim_withoutReturn, if_neg visible, found]

end Lines

/-! ## Requests -/

structure Header where
  name : List Char
  value : List Char

/-- A header field of another name than that of the host, on a line of its own -/
structure Header.Other (header : Header) : Prop where
  visible : Visible header.name
  no_colon : ':' ∉ header.name
  other : toAsciiLowercase (String.ofList header.name) ≠ "host"
  one_line : '\n' ∉ header.value

def Header.line (header : Header) : List Char :=
  header.name ++ ':' :: (header.value ++ ['\r', '\n'])

/-- A name, or an address of version 4, which has the form of one -/
structure HostName (name : List Char) : Prop where
  no_colon : ':' ∉ name
  no_open : '[' ∉ name
  no_close : ']' ∉ name
  letter : ∃ char ∈ name, char ≠ '.'

/-- A host as it is written in a header -/
inductive HostForm where
  /-- A name or an address of version 4 -/
  | plain (name : List Char)
  /-- An address of version 6 -/
  | bracketed (address : List Char)

def HostForm.text : HostForm → List Char
  | .plain name => name
  | .bracketed address => '[' :: (address ++ [']'])

/-- The host without its brackets, as the sniffer writes hosts -/
def HostForm.sniffed : HostForm → String
  | .plain name => sniffedName (String.ofList name)
  | .bracketed address => sniffedName (String.ofList address)

structure HttpRequest where
  method : String
  target : List Char
  minor : Char
  before : List Header
  hostName : List Char
  spaceBefore : List Char
  host : HostForm
  port : Option (List Char)
  spaceAfter : List Char
  /-- The other header fields and the body -/
  after : List UInt8

namespace HttpRequest

def requestLine (request : HttpRequest) : List Char :=
  request.method.toList ++ (' ' :: (request.target ++ (" HTTP/1".toList ++
    '.' :: [request.minor, '\r', '\n'])))

def hostValue (request : HttpRequest) : List Char :=
  request.host.text ++ (request.port.elim [] fun port => ':' :: port)

/-- The request through the host -/
def start (request : HttpRequest) : List Char :=
  request.requestLine ++ (request.before.flatMap Header.line ++
    (request.hostName ++ ':' :: (request.spaceBefore ++ request.hostValue)))

def bytes (request : HttpRequest) : List UInt8 :=
  utf8 request.start ++ (utf8 (request.spaceAfter ++ ['\r', '\n']) ++ request.after)

/-- How the parts of a request are written -/
structure WellFormed (request : HttpRequest) : Prop where
  method : Visible request.method.toList
  target : Visible request.target
  minor : request.minor.isDigit
  before : ∀ header ∈ request.before, header.Other
  named : toAsciiLowercase (String.ofList request.hostName) = "host"
  spaceBefore : ∀ char ∈ request.spaceBefore, char = ' ' ∨ char = '\t'
  spaceAfter : ∀ char ∈ request.spaceAfter, char = ' ' ∨ char = '\t'
  host : ∀ char ∈ request.host.text, isRustWhitespace char = false
  plain : ∀ name, request.host = .plain name → HostName name
  port : ∀ port, request.port = some port → ∀ digit ∈ port, digit.isDigit

/-- The host lies within the bytes which are looked at. -/
def Within (request : HttpRequest) : Prop :=
  (utf8 request.start).length ≤ 1024

end HttpRequest

/-! ## The lines of a request -/

theorem httpMethods_chars : ∀ method ∈ httpMethods, Visible method.toList ∧ ':' ∉ method.toList ∧
    '\n' ∉ method.toList ∧ ¬method.toList.map Char.toLower <+: "host".toList := by
  decide

section Fields

variable {name : List Char} {header : Header}

theorem visible_of_lowercase (named : toAsciiLowercase (String.ofList name) = "host") :
    Visible name ∧ ':' ∉ name := by
  have lower : ∀ char ∈ name, char.toLower ∈ "host".toList := by
    intro char member
    rw [← named, toAsciiLowercase, String.toList_ofList, String.toList_ofList]
    exact List.mem_map_of_mem member
  constructor
  · intro char member
    by_contra blank
    rw [Bool.not_eq_false] at blank
    have same : char.toLower = char := by
      apply toLower_of_not_upper
      intro upper
      simp only [isRustWhitespace, Bool.or_eq_true, Bool.and_eq_true, decide_eq_true_eq,
        beq_iff_eq] at blank
      omega
    have visible : Visible "host".toList := by decide
    rw [visible char (same ▸ lower char member)] at blank
    cases blank
  · intro member
    exact absurd (lower ':' member) (by decide)

/-- A header field of another name names no host. -/
theorem Header.Other.hostOfLine (other : header.Other) :
    trim (String.ofList (header.name ++ ':' :: (header.value ++ ['\r']))) ≠ "" ∧
      hostOfLine (trim (String.ofList (header.name ++ ':' :: (header.value ++ ['\r'])))) =
        none := by
  rw [trim_name other.visible (by decide)]
  constructor
  · intro empty
    have chars := congrArg String.toList empty
    rw [String.toList_ofList, String.toList_empty, List.append_eq_nil_iff] at chars
    cases chars.2
  · rw [Tun.hostOfLine, splitOnce_append other.no_colon]
    simp only [Option.bind_eq_bind, Option.bind_some]
    rw [trim_of_visible other.visible, if_pos other.other]

/-- Nor does the request line: its method is not how the name of that field begins. -/
theorem hostOfLine_request {method : String} (common : method ∈ httpMethods) (rest : List Char) :
    hostOfLine (String.ofList (method.toList ++ ' ' :: rest)) = none := by
  rcases httpMethods_chars method common with ⟨visible, no_colon, -, other⟩
  by_cases colon : ':' ∈ rest
  · rcases List.eq_append_cons_of_mem colon with ⟨before, after, rfl, absent⟩
    have not_before : ':' ∉ method.toList ++ ' ' :: before := by
      rw [List.mem_append, List.mem_cons]
      rintro (inside | same | inside)
      · exact no_colon inside
      · exact absurd same (by decide)
      · exact absent inside
    have begins := prefix_trim visible (' ' :: before)
    have split := splitOnce_append not_before after
    rw [List.append_assoc, List.cons_append] at split
    rw [hostOfLine, split]
    simp only [Option.bind_eq_bind, Option.bind_some]
    rw [if_pos]
    intro named
    apply other
    rw [← named, toAsciiLowercase, String.toList_ofList]
    exact begins.map Char.toLower
  · have absent : ':' ∉ method.toList ++ ' ' :: rest := by
      rw [List.mem_append, List.mem_cons]
      rintro (inside | same | inside)
      · exact no_colon inside
      · exact absurd same (by decide)
      · exact colon inside
    rw [hostOfLine, splitOnce_eq_none absent]
    rfl

end Fields

/-! ## The line of the host -/

section Hosts

variable {name : List Char}

theorem visible_port {port : Option (List Char)}
    (digits : ∀ text, port = some text → ∀ digit ∈ text, digit.isDigit) :
    Visible (port.elim [] fun port => ':' :: port) := by
  cases port with
  | none => exact fun _ member => absurd member List.not_mem_nil
  | some port =>
      rw [Option.elim_some, Visible, List.forall_mem_cons]
      refine ⟨by decide, ?_⟩
      intro char member
      have digit := digits port rfl char member
      by_contra blank
      rw [Bool.not_eq_false] at blank
      simp only [isRustWhitespace, Bool.or_eq_true, Bool.and_eq_true, decide_eq_true_eq,
        beq_iff_eq] at blank
      rw [Char.isDigit_iff_toNat] at digit
      have zero : '0'.toNat = 48 := rfl
      have nine : '9'.toNat = 57 := rfl
      omega

theorem trimBrackets_of_not_mem (no_open : '[' ∉ name) (no_close : ']' ∉ name) :
    trimBrackets (String.ofList name) = String.ofList name := by
  have kept : ∀ char ∈ name, (char == '[' || char == ']') = false := by
    intro char member
    rw [Bool.or_eq_false_iff, beq_eq_false_iff_ne, beq_eq_false_iff_ne]
    exact ⟨fun same => no_open (same ▸ member), fun same => no_close (same ▸ member)⟩
  rw [trimBrackets, String.toList_ofList, dropWhile_of_neg kept, rdropWhile_of_neg kept]

theorem trimEndMatches_ne_empty (letter : ∃ char ∈ name, char ≠ '.') :
    trimEndMatches (String.ofList name) '.' ≠ "" := by
  rcases letter with ⟨char, member, other⟩
  intro empty
  have chars := congrArg String.toList empty
  rw [trimEndMatches, String.toList_ofList, String.toList_ofList, String.toList_empty,
    List.rdropWhile_eq_nil_iff] at chars
  exact other (beq_iff_eq.mp (chars char member))

/-- A name is what is left of it with a port and without. -/
theorem hostOfLine_plain {hostName space : List Char} {port : Option (List Char)}
    (named : toAsciiLowercase (String.ofList hostName) = "host") (blank : Blank space)
    (visible : Visible name) (plain : HostName name)
    (digits : ∀ text, port = some text → ∀ digit ∈ text, digit.isDigit) :
    hostOfLine (String.ofList (hostName ++ ':' :: (space ++ (name ++
      (port.elim [] fun port => ':' :: port))))) = some (sniffedName (String.ofList name)) := by
  have key := visible_of_lowercase named
  have value : trim (String.ofList (space ++ (name ++ (port.elim [] fun port => ':' :: port)))) =
      String.ofList (name ++ (port.elim [] fun port => ':' :: port)) := by
    have whole := trim_between blank (List.forall_mem_append.mpr ⟨visible, visible_port digits⟩)
      (fun _ absent => absurd absent List.not_mem_nil)
    rwa [List.append_nil] at whole
  have cleaned := trimBrackets_of_not_mem plain.no_open plain.no_close
  have not_empty := trimEndMatches_ne_empty plain.letter
  have at_key : toAsciiLowercase (trim (String.ofList hostName)) = "host" := by
    rw [trim_of_visible key.1, named]
  rw [hostOfLine, splitOnce_append key.2]
  simp only [Option.bind_eq_bind, Option.bind_some]
  rw [if_neg (not_not_intro at_key), value, String.toList_ofList]
  cases port with
  | none =>
      rw [Option.elim_none, List.append_nil, splitLast_eq_none plain.no_colon]
      simp only [cleaned]
      rw [if_neg not_empty]
      rfl
  | some port =>
      have no_more : ':' ∉ port := by
        intro member
        exact absurd (digits port rfl ':' member) (by decide)
      have outside : (name ++ ':' :: port).head? ≠ some '[' ∨
          (name ++ ':' :: port).getLast? = some ']' := by
        rcases plain.letter with ⟨char, member, -⟩
        cases name with
        | nil => cases member
        | cons first name =>
            refine .inl fun opened => plain.no_open ?_
            rw [List.cons_append, List.head?_cons, Option.some.injEq] at opened
            exact opened ▸ List.mem_cons_self
      rw [Option.elim_some, splitLast_append no_more]
      simp only [if_pos outside, cleaned]
      rw [if_neg not_empty]
      rfl

end Hosts

/-! ## What the decoded text begins with -/

section Decoding

variable {blank text : List Char} {body : List UInt8} {size : ℕ}

/-- What is read behind the host goes on with blanks, to the end of the line or of it all. -/
theorem exists_blank (blanks : ∀ char ∈ blank, char = ' ' ∨ char = '\t' ∨ char = '\r')
    (bytes : utf8 text = (utf8 (blank ++ ['\n']) ++ body).take size) :
    ∃ read more, text = read ++ more ∧ Blank read ∧ '\n' ∉ read ∧
      (more = [] ∨ ∃ rest, more = '\n' :: rest) := by
  have ended : ∀ {text : List Char}, text = [] → ∃ read more, text = read ++ more ∧
      Blank read ∧ '\n' ∉ read ∧ (more = [] ∨ ∃ rest, more = '\n' :: rest) :=
    fun {text} empty => ⟨[], text, rfl, fun _ member => absurd member List.not_mem_nil,
      List.not_mem_nil, .inl empty⟩
  induction blank generalizing text size with
  | nil =>
      cases size with
      | zero => exact ended (utf8_eq_nil bytes)
      | succ size =>
          rcases @exists_append_of_utf8 ['\n'] text (body.take size) bytes with ⟨rest, rfl, -⟩
          exact ⟨[], '\n' :: rest, rfl, fun _ member => absurd member List.not_mem_nil,
            List.not_mem_nil, .inr ⟨rest, rfl⟩⟩
  | cons char blank ih =>
      rw [List.forall_mem_cons] at blanks
      cases size with
      | zero => exact ended (utf8_eq_nil bytes)
      | succ size =>
          have ascii : char.toNat < 128 ∧ isRustWhitespace char = true ∧ '\n' ≠ char := by
            rcases blanks.1 with rfl | rfl | rfl
            all_goals decide
          have encoded : utf8 [char] = [UInt8.ofNat char.toNat] := by
            rw [utf8_cons, utf8EncodeChar_of_lt ascii.1]
            rfl
          rw [List.cons_append, utf8_cons, utf8EncodeChar_of_lt ascii.1, List.append_assoc,
            List.singleton_append, List.take_succ_cons, ← List.singleton_append, ← encoded] at bytes
          rcases exists_append_of_utf8 bytes with ⟨back, rfl, later⟩
          rcases ih blanks.2 later with ⟨read, more, rfl, all_blank, one_line, ending⟩
          exact ⟨char :: read, more, rfl, List.forall_mem_cons.mpr ⟨ascii.2.1, all_blank⟩,
            List.not_mem_cons_of_ne_of_not_mem ascii.2.2 one_line, ending⟩

end Decoding

/-! ## Requests are sniffed -/

section Sniffed

variable {request : HttpRequest} {name : List Char}

theorem isHttp_bytes (common : request.method ∈ httpMethods) :
    (httpMethods.any fun method => (utf8 method.toList ++ [0x20]).isPrefixOf request.bytes) =
      true := by
  rw [List.any_eq_true]
  refine ⟨request.method, common, List.isPrefixOf_iff_prefix.mpr ?_⟩
  have space : ∀ text, utf8 (' ' :: text) = [0x20] ++ utf8 text :=
    fun text => utf8_cons ' ' text
  rw [HttpRequest.bytes, HttpRequest.start, HttpRequest.requestLine, List.append_assoc,
    utf8_append request.method.toList, List.cons_append, space, List.append_assoc,
    List.append_assoc, ← List.append_assoc]
  exact List.prefix_append _ _

theorem hostOfLines_headers {before : List Header} (others : ∀ header ∈ before, header.Other)
    (rest : List Char) :
    hostOfLines (lines (String.ofList (before.flatMap Header.line ++ rest))) =
      hostOfLines (lines (String.ofList rest)) := by
  induction before with
  | nil => rfl
  | cons header before ih =>
      rw [List.forall_mem_cons] at others
      have absent : '\n' ∉ header.name ++ ':' :: (header.value ++ ['\r']) := by
        rw [List.mem_append, List.mem_cons, List.mem_append, List.mem_singleton]
        rintro (inside | same | inside | same)
        · exact absurd (others.1.visible _ inside) (by decide)
        · exact absurd same (by decide)
        · exact others.1.one_line inside
        · exact absurd same (by decide)
      have split : (header :: before).flatMap Header.line ++ rest =
          (header.name ++ ':' :: (header.value ++ ['\r'])) ++
            '\n' :: (before.flatMap Header.line ++ rest) := by
        simp only [List.flatMap_cons, Header.line, List.append_assoc, List.cons_append,
          List.nil_append]
      rcases others.1.hostOfLine with ⟨visible, other⟩
      rw [split, hostOfLines_skip absent visible other, ih others.2]

theorem hostOfLines_request (wellFormed : request.WellFormed)
    (common : request.method ∈ httpMethods) (rest : List Char) :
    hostOfLines (lines (String.ofList (request.requestLine ++ rest))) =
      hostOfLines (lines (String.ofList rest)) := by
  rcases httpMethods_chars request.method common with ⟨visible, -, one_line, other⟩
  have nonempty : request.method.toList ≠ [] := by
    intro empty
    exact other (empty ▸ List.nil_prefix)
  have split : request.requestLine ++ rest =
      (request.method.toList ++ (' ' :: (request.target ++ " HTTP/1".toList) ++
        '.' :: [request.minor, '\r'])) ++ '\n' :: rest := by
    simp only [HttpRequest.requestLine, List.append_assoc, List.cons_append, List.nil_append]
  have trimmed : trim (String.ofList (request.method.toList ++
      (' ' :: (request.target ++ " HTTP/1".toList) ++ '.' :: [request.minor, '\r']))) =
      String.ofList (request.method.toList ++ ' ' :: (request.target ++ " HTTP/1".toList ++
        '.' :: [request.minor, '\r'].rdropWhile isRustWhitespace)) := by
    rw [trim_append visible nonempty, rdropWhile_append_cons (by decide), List.cons_append]
  have absent : '\n' ∉ request.method.toList ++ (' ' :: (request.target ++ " HTTP/1".toList) ++
      '.' :: [request.minor, '\r']) := by
    simp only [List.mem_append, List.mem_cons, not_or, List.not_mem_nil, not_false_eq_true,
      and_true]
    have target : '\n' ∉ request.target := fun inside =>
      absurd (wellFormed.target _ inside) (by decide)
    have minor : '\n' ≠ request.minor := by
      intro same
      exact absurd (same ▸ wellFormed.minor) (by decide)
    exact ⟨one_line, ⟨by decide, target, by decide⟩, by decide, minor, by decide⟩
  rw [split, hostOfLines_skip absent]
  · rw [trimmed]
    intro empty
    have chars := congrArg String.toList empty
    rw [String.toList_ofList, String.toList_empty, List.append_eq_nil_iff] at chars
    exact nonempty chars.1
  · rw [trimmed]
    exact hostOfLine_request common _

/-- The line of a host in plain form is the last which is read. -/
theorem hostOfLines_host (wellFormed : request.WellFormed) (plain : request.host = .plain name)
    {read more : List Char} (blank : Blank read) (one_line : '\n' ∉ read)
    (ended : more = [] ∨ ∃ rest, more = '\n' :: rest) :
    hostOfLines (lines (String.ofList (request.hostName ++ ':' :: (request.spaceBefore ++
      request.hostValue) ++ (read ++ more)))) = some (sniffedName (String.ofList name)) := by
  have plain_name := wellFormed.plain name plain
  have value : request.hostValue = name ++ (request.port.elim [] fun port => ':' :: port) := by
    rw [HttpRequest.hostValue, plain, HostForm.text]
  have key := visible_of_lowercase wellFormed.named
  have visible_name : Visible name := by
    have visible := wellFormed.host
    rwa [plain] at visible
  have visible : Visible request.hostValue := by
    rw [value]
    exact List.forall_mem_append.mpr ⟨visible_name, visible_port wellFormed.port⟩
  have nonempty : request.hostValue ≠ [] := by
    rcases plain_name.letter with ⟨char, member, -⟩
    rw [value]
    exact List.append_ne_nil_of_left_ne_nil (List.ne_nil_of_mem member) _
  have space : Blank request.spaceBefore := by
    intro char member
    rcases wellFormed.spaceBefore char member with rfl | rfl
    all_goals decide
  have trimmed : trim (String.ofList (request.hostName ++
      ':' :: (request.spaceBefore ++ request.hostValue ++ read))) =
      String.ofList (request.hostName ++ ':' :: (request.spaceBefore ++ request.hostValue)) := by
    rw [trim_name key.1 (by decide), rdropWhile_append_of_pos blank,
      rdropWhile_append_of_neg visible nonempty]
  have absent : '\n' ∉ request.hostName ++
      ':' :: (request.spaceBefore ++ request.hostValue ++ read) := by
    have not_host : '\n' ∉ request.hostName := fun inside =>
      absurd (key.1 _ inside) (by decide)
    have not_space : '\n' ∉ request.spaceBefore := by
      intro inside
      rcases wellFormed.spaceBefore _ inside with same | same
      all_goals exact absurd same (by decide)
    have not_value : '\n' ∉ request.hostValue := fun inside =>
      absurd (visible _ inside) (by decide)
    simp only [List.mem_append, List.mem_cons, not_or]
    exact ⟨not_host, by decide, ⟨not_space, not_value⟩, one_line⟩
  have split : request.hostName ++ ':' :: (request.spaceBefore ++ request.hostValue) ++
      (read ++ more) = (request.hostName ++
        ':' :: (request.spaceBefore ++ request.hostValue ++ read)) ++ more := by
    simp only [List.append_assoc, List.cons_append]
  rw [split]
  refine hostOfLines_found absent ?_ ended
  rw [trimmed, value]
  exact hostOfLine_plain wellFormed.named space visible_name plain_name wellFormed.port

/--
For each request with one of the common methods and a plain host, which lies within the
bytes which are looked at, this host is sniffed if these bytes are those of a text.
-/
theorem parseHttpHost_plain (wellFormed : request.WellFormed) (within : request.Within)
    (common : request.method ∈ httpMethods) (plain : request.host = .plain name)
    (isText : fromUtf8 (request.bytes.take 1024) ≠ none) :
    parseHttpHost request.bytes = some request.host.sniffed := by
  rcases Option.ne_none_iff_exists'.mp isText with ⟨text, decoded⟩
  have read : utf8 text.toList = utf8 request.start ++
      (utf8 (request.spaceAfter ++ ['\r'] ++ ['\n']) ++ request.after).take
        (1024 - (utf8 request.start).length) := by
    rw [utf8_of_fromUtf8 decoded, HttpRequest.bytes, List.take_append,
      List.take_of_length_le within, List.append_assoc]
    rfl
  have blanks : ∀ char ∈ request.spaceAfter ++ ['\r'],
      char = ' ' ∨ char = '\t' ∨ char = '\r' := by
    intro char member
    rcases List.mem_append.mp member with inside | last
    · exact (wellFormed.spaceAfter char inside).imp_right Or.inl
    · exact .inr (.inr (List.mem_singleton.mp last))
  rcases exists_append_of_utf8 read with ⟨back, chars, later⟩
  rcases exists_blank blanks later with ⟨blank, more, rfl, all_blank, one_line, ended⟩
  have same : text = String.ofList (request.requestLine ++ (request.before.flatMap Header.line ++
      (request.hostName ++ ':' :: (request.spaceBefore ++ request.hostValue) ++
        (blank ++ more)))) := by
    rw [← String.toList_inj, chars, String.toList_ofList, HttpRequest.start]
    simp only [List.append_assoc]
  rw [parseHttpHost, if_pos (isHttp_bytes common), decoded, Option.bind_eq_bind, Option.bind_some,
    same, hostOfLines_request wellFormed common, hostOfLines_headers wellFormed.before,
    hostOfLines_host wellFormed plain all_blank one_line ended, plain, HostForm.sniffed]

/-- A request for the start page at port 8080 -/
def startPage (method : String) (host : HostForm) (after : List UInt8) : HttpRequest where
  method := method
  target := ['/']
  minor := '1'
  before := [⟨"Accept".toList, " */*".toList⟩]
  hostName := "HOST".toList
  spaceBefore := [' ']
  host := host
  port := some "8080".toList
  spaceAfter := []
  after := after

theorem wellFormed_startPage {method : String} {host : HostForm}
    (named : Visible method.toList) (visible : Visible host.text)
    (plain : ∀ name, host = .plain name → HostName name) (after : List UInt8) :
    (startPage method host after).WellFormed where
  method := named
  target := (by decide : Visible ['/'])
  minor := (by decide : '1'.isDigit = true)
  before := by
    intro header member
    obtain rfl := List.mem_singleton.mp member
    exact ⟨by decide, by decide, by decide, by decide⟩
  named := (by decide : toAsciiLowercase (String.ofList "HOST".toList) = "host")
  spaceBefore := List.forall_mem_singleton.mpr (.inl rfl)
  spaceAfter := fun _ absent => absurd absent List.not_mem_nil
  host := visible
  plain := plain
  port := by
    intro port same
    obtain rfl := Option.some.inj same
    have digits : "8080".toList.all Char.isDigit = true := by decide
    exact List.all_eq_true.mp digits

def sampleHost : HostForm :=
  .plain "A.Example.".toList

theorem hostName_sampleHost (name : List Char) (same : sampleHost = .plain name) :
    HostName name := by
  obtain rfl := HostForm.plain.inj same
  exact ⟨by decide, by decide, by decide, 'A', by decide, by decide⟩

theorem parseHttpHost_plain_startPage :
    parseHttpHost (startPage "GET" sampleHost [13, 10]).bytes = some "a.example" := by
  have name : sampleHost.sniffed = "a.example" := by decide +kernel
  have wellFormed := @wellFormed_startPage "GET" sampleHost (by decide) (by decide)
    hostName_sampleHost [13, 10]
  have within : (startPage "GET" sampleHost [13, 10]).Within := by
    unfold HttpRequest.Within
    decide +kernel
  rw [← name]
  exact parseHttpHost_plain wellFormed within (by decide) rfl (by decide +kernel)

/--
A method which is not looked for, a host in brackets, and bytes of the body which are not
those of a text each leave the host unseen.
-/
theorem not_sniffed_startPage :
    let trace := startPage "TRACE" sampleHost [13, 10]
    let bracketed := startPage "GET" (.bracketed "::1".toList) [13, 10]
    let binary := startPage "POST" sampleHost [13, 10, 0xFF]
    (trace.WellFormed ∧ trace.Within ∧ parseHttpHost trace.bytes ≠ some trace.host.sniffed) ∧
      (bracketed.WellFormed ∧ bracketed.Within ∧
        parseHttpHost bracketed.bytes ≠ some bracketed.host.sniffed) ∧
      (binary.WellFormed ∧ binary.Within ∧
        parseHttpHost binary.bytes ≠ some binary.host.sniffed) := by
  intro trace bracketed binary
  refine ⟨⟨?_, ?_, ?_⟩, ⟨?_, ?_, ?_⟩, ⟨?_, ?_, ?_⟩⟩
  · exact wellFormed_startPage (by decide) (by decide) hostName_sampleHost [13, 10]
  · unfold HttpRequest.Within
    decide +kernel
  · decide +kernel
  · refine wellFormed_startPage (by decide) (by decide) ?_ [13, 10]
    intro name same
    cases same
  · unfold HttpRequest.Within
    decide +kernel
  · decide +kernel
  · exact wellFormed_startPage (by decide) (by decide) hostName_sampleHost [13, 10, 0xFF]
  · unfold HttpRequest.Within
    decide +kernel
  · decide +kernel

end Sniffed

end Mirage.Tun
