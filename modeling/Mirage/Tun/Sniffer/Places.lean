import Mirage.Tun.Sniffer

/-!
# Places of sniffed names

Where the bytes of a ClientHello are looked at depends on the lengths in it.  The
checked parsers panic where an index or a range is out of bounds; they never do, on any
bytes, and a name is what some server name extension inside of the bytes holds, in the
spelling of `sniffedName`.
-/

namespace Mirage.Tun

open Mirage.Foundations
open Mirage.Foundations.Checked (refuseIf refuseIf_bind_eq index indexNumber slice attempt)

/-! ## The checked parsers -/

/-- `sniffNames`, with the bytes which it indexes -/
def sniffNamesChecked (extData : List UInt8) (cur : ℕ) : Checked String :=
  if cur + 3 ≤ extData.length then do
    let nameType ← indexNumber extData cur 1
    let nameLen ← indexNumber extData (cur + 1) 2
    let found ←
      if nameType = 0 ∧ cur + 3 + nameLen ≤ extData.length then do
        let nameBytes ← slice extData (cur + 3) (cur + 3 + nameLen)
        .done (fromUtf8 nameBytes)
      else .done none
    match found with
    | some host => .done (sniffedName host)
    | none => sniffNamesChecked extData (cur + 3 + nameLen)
  else .refused
termination_by extData.length - cur

/-- `sniffExtensions`, with the bytes which it indexes -/
def sniffExtensionsChecked (data : List UInt8) (extEnd cur : ℕ) : Checked String :=
  if cur + 4 ≤ extEnd then do
    let extType ← indexNumber data cur 2
    let extLen ← indexNumber data (cur + 2) 2
    if cur + 4 + extLen > extEnd then .refused
    else do
      let found ←
        if extType = 0 then do
          let extData ← slice data (cur + 4) (cur + 4 + extLen)
          if 2 ≤ extData.length then attempt (sniffNamesChecked extData 2) else .done none
        else .done none
      match found with
      | some host => .done host
      | none => sniffExtensionsChecked data extEnd (cur + 4 + extLen)
  else .refused
termination_by extEnd - cur

def parseClientHelloPayloadChecked (data : List UInt8) : Checked String := do
  refuseIf (data.length < 4)
  let msgType ← indexNumber data 0 1
  refuseIf (msgType ≠ 1)
  -- the header, the version and the random
  let cur := 4
  refuseIf (cur + 2 > data.length)
  let cur := cur + 2
  refuseIf (cur + 32 > data.length)
  let cur := cur + 32
  refuseIf (cur ≥ data.length)
  let sessionIdLen ← indexNumber data cur 1
  let cur := cur + 1 + sessionIdLen
  refuseIf (cur + 2 > data.length)
  let cipherSuitesLen ← indexNumber data cur 2
  let cur := cur + 2 + cipherSuitesLen
  refuseIf (cur ≥ data.length)
  let compMethodsLen ← indexNumber data cur 1
  let cur := cur + 1 + compMethodsLen
  refuseIf (cur + 2 > data.length)
  let extensionsLen ← indexNumber data cur 2
  let cur := cur + 2
  sniffExtensionsChecked data (min (cur + extensionsLen) data.length) cur

/-- The body of the loop of `parse_quic_sni`: the name, if a ClientHello begins here -/
def sniffHelloAt (buf : List UInt8) (limit i : ℕ) : Checked (Option String) := do
  let first ← index buf i
  if first = 0x01 ∧ i + 1 < limit then do
    let second ← index buf (i + 1)
    if second = 0x00 then do
      let data ← slice buf i buf.length
      attempt (parseClientHelloPayloadChecked data)
    else .done none
  else .done none

/-- The loop of `parse_quic_sni` -/
def scanHellos (buf : List UInt8) (limit i : ℕ) : Checked String :=
  if i < limit - 40 then do
    let found ← sniffHelloAt buf limit i
    match found with
    | some sni => .done sni
    | none => scanHellos buf limit (i + 1)
  else .refused
termination_by limit - i

def parseQuicSni (buf : List UInt8) : Checked String :=
  scanHellos buf (min buf.length 1200) 0

section Checks

variable {data extData : List UInt8}

theorem sniffNamesChecked_eq (extData : List UInt8) (cur : ℕ) :
    sniffNamesChecked extData cur = .ofOption (sniffNames extData cur) := by
  induction size : extData.length - cur using Nat.strong_induction_on generalizing cur with
  | _ size ih =>
      rw [sniffNamesChecked, sniffNames]
      by_cases inside : cur + 3 ≤ extData.length
      · rw [if_pos inside, if_pos inside, indexNumber_eq_numberAt (by omega), Checked.done_bind,
          indexNumber_eq_numberAt (by omega), Checked.done_bind]
        have next := ih _ (by omega) (cur + 3 + numberAt extData (cur + 1) 2) rfl
        simp only [next]
        by_cases named : numberAt extData cur 1 = 0 ∧
            cur + 3 + numberAt extData (cur + 1) 2 ≤ extData.length
        · rw [if_pos named, if_pos named, slice_eq_bytesAt (Nat.le_add_right _ _) named.2,
            Nat.add_sub_cancel_left]
          simp only [Checked.done_bind]
          cases fromUtf8 (bytesAt extData (cur + 3) (numberAt extData (cur + 1) 2)) <;> rfl
        · rw [if_neg named, if_neg named]
          rfl
      · rw [if_neg inside, if_neg inside]
        rfl

theorem sniffExtensionsChecked_eq {extEnd : ℕ} (ends : extEnd ≤ data.length) (cur : ℕ) :
    sniffExtensionsChecked data extEnd cur = .ofOption (sniffExtensions data extEnd cur) := by
  induction size : extEnd - cur using Nat.strong_induction_on generalizing cur with
  | _ size ih =>
      rw [sniffExtensionsChecked, sniffExtensions]
      by_cases inside : cur + 4 ≤ extEnd
      · rw [if_pos inside, if_pos inside, indexNumber_eq_numberAt (by omega), Checked.done_bind,
          indexNumber_eq_numberAt (by omega), Checked.done_bind]
        by_cases beyond : cur + 4 + numberAt data (cur + 2) 2 > extEnd
        · rw [if_pos beyond, if_pos beyond]
          rfl
        · have next := ih _ (by omega) (cur + 4 + numberAt data (cur + 2) 2) rfl
          have sized := @bytesAt_length data (cur + 4) (numberAt data (cur + 2) 2) (by omega)
          rw [if_neg beyond, if_neg beyond, slice_eq_bytesAt (Nat.le_add_right _ _) (by omega),
            Nat.add_sub_cancel_left]
          simp only [Checked.done_bind, sized, sniffNamesChecked_eq, Checked.attempt_ofOption,
            next, ite_and]
          generalize numberAt data cur 2 = extType
          split_ifs
          · cases sniffNames (bytesAt data (cur + 4) (numberAt data (cur + 2) 2)) 2 <;> rfl
          · rfl
          · rfl
      · rw [if_neg inside, if_neg inside]
        rfl

theorem parseClientHelloPayloadChecked_eq (data : List UInt8) :
    parseClientHelloPayloadChecked data = .ofOption (parseClientHelloPayload data) := by
  rw [parseClientHelloPayloadChecked, parseClientHelloPayload]
  simp only [ite_or]
  refine refuseIf_bind_eq fun long => ?_
  rw [indexNumber_eq_numberAt (by omega), Checked.done_bind]
  refine refuseIf_bind_eq fun _ => refuseIf_bind_eq fun _ => refuseIf_bind_eq fun _ =>
    refuseIf_bind_eq fun _ => ?_
  rw [indexNumber_eq_numberAt (by omega), Checked.done_bind]
  refine refuseIf_bind_eq fun _ => ?_
  rw [indexNumber_eq_numberAt (by omega), Checked.done_bind]
  refine refuseIf_bind_eq fun _ => ?_
  rw [indexNumber_eq_numberAt (by omega), Checked.done_bind]
  refine refuseIf_bind_eq fun _ => ?_
  rw [indexNumber_eq_numberAt (by omega), Checked.done_bind]
  exact sniffExtensionsChecked_eq (Nat.min_le_right _ _) _

end Checks

/-! ## Names inside -/

/-- A type of so many bytes, and data behind its length -/
structure Entry (width : ℕ) where
  kind : ℕ
  data : List UInt8
  kind_lt : kind < 256 ^ width
  data_lt : data.length < 256 ^ 2

def Entry.bytes {width : ℕ} (entry : Entry width) : List UInt8 :=
  bigEndian width entry.kind ++ vector 2 entry.data

theorem Entry.mem_bytes {width : ℕ} {entry : Entry width} {byte : UInt8}
    (member : byte ∈ entry.data) : byte ∈ entry.bytes :=
  List.mem_append_right _ (List.mem_append_right _ member)

/-- A server name extension as far as one of its host names; the length of the list is not
looked at. -/
structure NameList where
  size : List UInt8
  before : List (Entry 1)
  host : Entry 1
  after : List UInt8
  size_length : size.length = 2
  host_kind : host.kind = 0

def NameList.bytes (names : NameList) : List UInt8 :=
  names.size ++ (names.before.flatMap Entry.bytes ++ (names.host.bytes ++ names.after))

/-- The extensions of a ClientHello as far as one of its server name extensions -/
structure NamedExtensions where
  before : List (Entry 2)
  serverName : Entry 2
  names : NameList
  serverName_kind : serverName.kind = 0
  serverName_data : serverName.data = names.bytes

def NamedExtensions.bytes (extensions : NamedExtensions) : List UInt8 :=
  extensions.before.flatMap Entry.bytes ++ extensions.serverName.bytes

/-- With another extension in front -/
def NamedExtensions.behind (extensions : NamedExtensions) (entry : Entry 2) : NamedExtensions :=
  { extensions with before := entry :: extensions.before }

theorem NamedExtensions.bytes_behind (extensions : NamedExtensions) (entry : Entry 2) :
    (extensions.behind entry).bytes = entry.bytes ++ extensions.bytes :=
  List.append_assoc entry.bytes _ _

/-- A ClientHello with a server name, all of which is inside the part for the extensions -/
structure NamedHello where
  /-- The header, the version and the random -/
  opening : List UInt8
  sessionId : List UInt8
  cipherSuites : List UInt8
  compMethods : List UInt8
  extensionsLen : ℕ
  extensions : NamedExtensions
  after : List UInt8
  opening_length : opening.length = 38
  is_hello : numberAt opening 0 1 = 1
  sessionId_lt : sessionId.length < 256
  cipherSuites_lt : cipherSuites.length < 256 ^ 2
  compMethods_lt : compMethods.length < 256
  extensionsLen_lt : extensionsLen < 256 ^ 2
  inside : extensions.bytes.length ≤ extensionsLen

def NamedHello.bytes (hello : NamedHello) : List UInt8 :=
  hello.opening ++ (vector 1 hello.sessionId ++ (vector 2 hello.cipherSuites ++
    (vector 1 hello.compMethods ++ (bigEndian 2 hello.extensionsLen ++
      (hello.extensions.bytes ++ hello.after)))))

/-- The content of the server name -/
def NamedHello.name (hello : NamedHello) : List UInt8 :=
  hello.extensions.names.host.data

theorem NamedHello.mem_bytes {hello : NamedHello} {byte : UInt8} (member : byte ∈ hello.name) :
    byte ∈ hello.bytes := by
  have in_names : byte ∈ hello.extensions.names.bytes :=
    List.mem_append_right _ (List.mem_append_right _ (List.mem_append_left _
      (Entry.mem_bytes member)))
  rw [← hello.extensions.serverName_data] at in_names
  have in_extensions : byte ∈ hello.extensions.bytes :=
    List.mem_append_right _ (Entry.mem_bytes in_names)
  exact List.mem_append_right _ (List.mem_append_right _ (List.mem_append_right _
    (List.mem_append_right _ (List.mem_append_right _ (List.mem_append_left _ in_extensions)))))

section Walks

variable {data extData : List UInt8} {host : String}

/-- The entry which stands at a place -/
def entryAt (width : ℕ) (data : List UInt8) (cur : ℕ)
    (inside : cur + width + 2 + numberAt data (cur + width) 2 ≤ data.length) : Entry width where
  kind := numberAt data cur width
  data := bytesAt data (cur + width + 2) (numberAt data (cur + width) 2)
  kind_lt := numberAt_lt (by omega)
  data_lt := by
    rw [bytesAt_length inside]
    exact numberAt_lt (by omega)

theorem drop_eq_entryAt {width cur : ℕ}
    (inside : cur + width + 2 + numberAt data (cur + width) 2 ≤ data.length) :
    data.drop cur = (entryAt width data cur inside).bytes ++
      data.drop (cur + width + 2 + numberAt data (cur + width) 2) := by
  rw [Entry.bytes, entryAt, bigEndian_numberAt (by omega), List.append_assoc,
    ← drop_eq_vector inside, ← drop_eq_bytesAt_append]

theorem entryAt_length {width cur : ℕ}
    (inside : cur + width + 2 + numberAt data (cur + width) 2 ≤ data.length) :
    (entryAt width data cur inside).bytes.length =
      width + 2 + numberAt data (cur + width) 2 := by
  simp only [Entry.bytes, entryAt, vector, List.length_append, bigEndian_length,
    bytesAt_length inside]
  omega

theorem sniffNames_inside {cur : ℕ} (found : sniffNames extData cur = some host) :
    cur + 3 ≤ extData.length := by
  rw [sniffNames] at found
  by_contra beyond
  rw [if_neg beyond] at found
  cases found

/-- A name is that of an entry, with other entries in front of it. -/
theorem sniffNames_sound {cur : ℕ} (found : sniffNames extData cur = some host) :
    ∃ (before : List (Entry 1)) (entry : Entry 1) (after : List UInt8) (text : String),
      extData.drop cur = before.flatMap Entry.bytes ++ (entry.bytes ++ after) ∧
        entry.kind = 0 ∧ entry.data = utf8 text.toList ∧ host = sniffedName text := by
  induction size : extData.length - cur using Nat.strong_induction_on generalizing cur with
  | _ size ih =>
      have start := sniffNames_inside found
      rw [sniffNames, if_pos start] at found
      dsimp only at found
      split at found
      · next text decoded =>
          split_ifs at decoded with named
          rw [Option.some.injEq] at found
          have inside : cur + 1 + 2 + numberAt extData (cur + 1) 2 ≤ extData.length := named.2
          have content : (entryAt 1 extData cur inside).data = utf8 text.toList :=
            (utf8_of_fromUtf8 decoded).symm
          refine ⟨[], entryAt 1 extData cur inside,
            extData.drop (cur + 1 + 2 + numberAt extData (cur + 1) 2), text, ?_, named.1, content,
            found.symm⟩
          rw [List.flatMap_nil, List.nil_append]
          exact drop_eq_entryAt inside
      · next =>
          have later := sniffNames_inside found
          have inside : cur + 1 + 2 + numberAt extData (cur + 1) 2 ≤ extData.length := by omega
          obtain ⟨before, entry, after, text, rest, facts⟩ := ih _ (by omega) found rfl
          refine ⟨entryAt 1 extData cur inside :: before, entry, after, text, ?_, facts⟩
          rw [List.flatMap_cons, List.append_assoc, ← rest]
          exact drop_eq_entryAt inside

theorem nameList_of_sniffNames (long : 2 ≤ extData.length)
    (found : sniffNames extData 2 = some host) :
    ∃ (names : NameList) (text : String),
      extData = names.bytes ∧ names.host.data = utf8 text.toList ∧ host = sniffedName text := by
  obtain ⟨before, entry, after, text, rest, kind, content, spelled⟩ := sniffNames_sound found
  refine ⟨⟨extData.take 2, before, entry, after, ?_, kind⟩, text, ?_, content, spelled⟩
  · rw [List.length_take, Nat.min_eq_left long]
  · rw [NameList.bytes, ← rest, List.take_append_drop]

theorem sniffExtensions_inside {extEnd cur : ℕ}
    (found : sniffExtensions data extEnd cur = some host) : cur + 4 ≤ extEnd := by
  rw [sniffExtensions] at found
  by_contra beyond
  rw [if_neg beyond] at found
  cases found

/-- A name is that of a server name extension, with other extensions in front of it. -/
theorem sniffExtensions_sound {extEnd cur : ℕ} (ends : extEnd ≤ data.length)
    (found : sniffExtensions data extEnd cur = some host) :
    ∃ (extensions : NamedExtensions) (after : List UInt8) (text : String),
      data.drop cur = extensions.bytes ++ after ∧ cur + extensions.bytes.length ≤ extEnd ∧
        extensions.names.host.data = utf8 text.toList ∧ host = sniffedName text := by
  induction size : extEnd - cur using Nat.strong_induction_on generalizing cur with
  | _ size ih =>
      have start := sniffExtensions_inside found
      rw [sniffExtensions, if_pos start] at found
      dsimp only at found
      by_cases beyond : cur + 4 + numberAt data (cur + 2) 2 > extEnd
      · rw [if_pos beyond] at found
        cases found
      · rw [if_neg beyond] at found
        have inside : cur + 2 + 2 + numberAt data (cur + 2) 2 ≤ data.length := by omega
        have sized := entryAt_length inside
        split at found
        · next name named =>
            cases found
            split_ifs at named with chosen
            have long : 2 ≤ (bytesAt data (cur + 4) (numberAt data (cur + 2) 2)).length := by
              rw [bytesAt_length (by omega)]
              exact chosen.2
            obtain ⟨names, text, content, facts⟩ := nameList_of_sniffNames long named
            refine ⟨⟨[], entryAt 2 data cur inside, names, chosen.1, content⟩,
              data.drop (cur + 2 + 2 + numberAt data (cur + 2) 2), text, ?_, ?_, facts⟩
            · rw [NamedExtensions.bytes, List.flatMap_nil, List.nil_append]
              exact drop_eq_entryAt inside
            · rw [NamedExtensions.bytes, List.flatMap_nil, List.nil_append, sized]
              omega
        · next =>
            obtain ⟨extensions, after, text, rest, short, facts⟩ := ih _ (by omega) found rfl
            refine ⟨extensions.behind (entryAt 2 data cur inside), after, text, ?_, ?_, facts⟩
            · rw [NamedExtensions.bytes_behind, List.append_assoc, ← rest]
              exact drop_eq_entryAt inside
            · rw [NamedExtensions.bytes_behind, List.length_append, sized]
              omega

theorem exists_vector {width cur : ℕ}
    (inside : cur + width + numberAt data cur width ≤ data.length) :
    ∃ bytes, numberAt data cur width = bytes.length ∧ bytes.length < 256 ^ width ∧
      data.drop cur = vector width bytes ++ data.drop (cur + width + bytes.length) := by
  have sized := bytesAt_length inside
  refine ⟨bytesAt data (cur + width) (numberAt data cur width), sized.symm, ?_, ?_⟩
  · rw [sized]
    exact numberAt_lt (by omega)
  · rw [sized]
    exact drop_eq_vector inside

theorem parseClientHelloPayload_sound (found : parseClientHelloPayload data = some host) :
    ∃ (hello : NamedHello) (text : String),
      data = hello.bytes ∧ hello.name = utf8 text.toList ∧ host = sniffedName text := by
  rw [parseClientHelloPayload] at found
  simp only [Nat.reduceAdd] at found
  split_ifs at found with not_hello no_version no_random no_session no_suites no_methods
    no_extensions
  rw [not_or, not_not] at not_hello
  obtain ⟨extensions, after, text, rest, short, content, spelled⟩ :=
    sniffExtensions_sound (Nat.min_le_right _ _) found
  clear found
  obtain ⟨sessionId, session_length, session_lt, session⟩ :=
    @exists_vector data 1 38 (by omega)
  simp only [session_length, Nat.reduceAdd] at *
  obtain ⟨cipherSuites, suites_length, suites_lt, suites⟩ :=
    @exists_vector data 2 (39 + sessionId.length) (by omega)
  simp only [suites_length] at *
  obtain ⟨compMethods, methods_length, methods_lt, methods⟩ :=
    @exists_vector data 1 (39 + sessionId.length + 2 + cipherSuites.length) (by omega)
  simp only [methods_length] at *
  have extensionsLen := @bigEndian_numberAt data
    (39 + sessionId.length + 2 + cipherSuites.length + 1 + compMethods.length) 2 (by omega)
  have extensionsLen_lt := @numberAt_lt data
    (39 + sessionId.length + 2 + cipherSuites.length + 1 + compMethods.length) 2 (by omega)
  refine ⟨{
    opening := data.take 38
    sessionId, cipherSuites, compMethods, extensions, after
    extensionsLen := _
    opening_length := List.length_take_of_le (by omega)
    is_hello := ?_
    sessionId_lt := session_lt
    cipherSuites_lt := suites_lt
    compMethods_lt := methods_lt
    extensionsLen_lt
    inside := by omega
  }, text, ?_, content, spelled⟩
  · rw [numberAt, bytesAt_take (by decide)]
    exact not_hello.2
  · rw [NamedHello.bytes, ← rest, extensionsLen, ← drop_eq_bytesAt_append, ← methods, ← suites,
      ← session, List.take_append_drop]

theorem safe_sniffHelloAt {buf : List UInt8} {limit i : ℕ} (inside : i < buf.length)
    (ends : limit ≤ buf.length) :
    (sniffHelloAt buf limit i).Safe fun found =>
      ∀ sni ∈ found, parseClientHelloPayload (buf.drop i) = some sni := by
  have rest : slice buf i buf.length = .done (buf.drop i) := by
    rw [slice_eq_bytesAt (by omega) (Nat.le_refl _), bytesAt,
      List.take_of_length_le (by rw [List.length_drop])]
  rw [sniffHelloAt, rest, Checked.done_bind, parseClientHelloPayloadChecked_eq,
    Checked.attempt_ofOption]
  refine Checked.safe_bind (Checked.safe_index inside) fun first _ => ?_
  split
  · next marked =>
      refine Checked.safe_bind (Checked.safe_index (by omega)) fun second _ => ?_
      split
      · exact fun sni found => found
      · exact fun sni found => absurd found (Option.not_mem_none sni)
  · exact fun sni found => absurd found (Option.not_mem_none sni)

theorem safe_scanHellos {buf : List UInt8} {limit : ℕ} (ends : limit ≤ buf.length) (i : ℕ) :
    (scanHellos buf limit i).Safe fun sni =>
      ∃ start, parseClientHelloPayload (buf.drop start) = some sni := by
  induction size : limit - i using Nat.strong_induction_on generalizing i with
  | _ size ih =>
      unfold scanHellos
      by_cases more : i < limit - 40
      · rw [if_pos more]
        refine Checked.safe_bind (safe_sniffHelloAt (by omega) ends) fun found read => ?_
        cases found with
        | none => exact ih _ (by omega) (i + 1) rfl
        | some sni => exact ⟨i, read sni rfl⟩
      · rw [if_neg more]
        trivial

end Walks

/-! ## What is sniffed -/

/-- The content of a server name extension inside is this host, or what is spelled so. -/
def SniffedIn (data : List UInt8) (host : String) : Prop :=
  ∃ (hello : NamedHello) (text : String),
    data = hello.bytes ∧ hello.name = utf8 text.toList ∧ host = sniffedName text

/-- The sniffers look at their bytes only, and sniff nothing but names which are inside. -/
theorem sniffed_inside :
    (∀ data, (parseClientHelloPayloadChecked data).Safe (SniffedIn data)) ∧
      ∀ buf, (parseQuicSni buf).Safe fun host => ∃ start, SniffedIn (buf.drop start) host := by
  constructor
  · intro data
    rw [parseClientHelloPayloadChecked_eq]
    cases found : parseClientHelloPayload data with
    | none => trivial
    | some host => exact parseClientHelloPayload_sound found
  · intro buf
    refine (safe_scanHellos (Nat.min_le_left _ _) 0).imp fun host found => ?_
    obtain ⟨start, parsed⟩ := found
    exact ⟨start, parseClientHelloPayload_sound parsed⟩

/-- A ClientHello for the host `A` -/
def capitalHello : List UInt8 :=
  0x01 :: (List.replicate 37 0 ++ (0x00 :: ([0x00, 0x00] ++ (0x00 :: ([0x00, 0x0A] ++
    [0x00, 0x00, 0x00, 0x06, 0x00, 0x04, 0x00, 0x00, 0x01, 0x41])))))

/-- The name is not as it stands there. -/
theorem not_sniffed_verbatim :
    ¬∀ data, (parseClientHelloPayloadChecked data).Safe fun host =>
      ∃ hello : NamedHello, data = hello.bytes ∧ hello.name = utf8 host.toList := by
  intro verbatim
  have sniffed : parseClientHelloPayloadChecked capitalHello = .done "a" := by decide +kernel
  have inside := verbatim capitalHello
  rw [sniffed] at inside
  obtain ⟨hello, bytes, name⟩ := inside
  have small_letter : 0x61 ∈ hello.name := by
    rw [name]
    decide
  have absent : 0x61 ∉ capitalHello := by decide
  exact absent (bytes ▸ NamedHello.mem_bytes small_letter)

end Mirage.Tun
