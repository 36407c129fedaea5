import Mirage.Crypto.ClientHello.Builders
import Mirage.Crypto.ClientHello.Template
import Mirage.Tun.Sniffer

/-!
# The server names of the ClientHellos which are built

The sniffer reads out of a ClientHello of this program the name which was put into it,
in whichever order the extensions have been drawn.  Its walk passes every other
extension, as none has the type of the server name.
-/

namespace Mirage.Tun

open Mirage.Foundations Mirage.Crypto

/-- A record of which the header holds the length -/
def FitsHeader (record : List UInt8) : Prop :=
  record.length ≤ 5 + u16Max

/-! ## The walk along the extensions -/

/-- An extension of another type than that of the server name -/
def IsOther (bytes : List UInt8) : Prop :=
  ∃ kind data, kind ≠ 0 ∧ bytes = ext kind data

section Walking

variable {front after data : List UInt8} {extType : UInt16} {cur extEnd : ℕ} {host : String}

theorem numberAt_ext_type (at_end : cur = front.length) :
    numberAt (front ++ (ext extType data ++ after)) cur 2 = extType.toNat := by
  rw [ext, List.append_assoc]
  exact numberAt_append_of_lt at_end extType.toNat_lt _

theorem numberAt_ext_length (fits : data.length ≤ u16Max) (at_end : cur = front.length) :
    numberAt (front ++ (ext extType data ++ after)) (cur + 2) 2 = data.length := by
  have behind : cur + 2 = (front ++ bigEndian 2 extType.toNat).length := by
    rw [List.length_append, bigEndian_length, at_end]
  rw [ext, List.append_assoc, List.append_assoc, ← List.append_assoc front]
  exact numberAt_append_of_lt behind (Nat.lt_succ_of_le fits) _

theorem bytesAt_ext (at_end : cur = front.length) :
    bytesAt (front ++ (ext extType data ++ after)) (cur + 4) data.length = data := by
  have behind : cur + 4 =
      (front ++ (bigEndian 2 extType.toNat ++ bigEndian 2 data.length)).length := by
    simp only [List.length_append, bigEndian_length, at_end]
  have split : front ++ (ext extType data ++ after) =
      (front ++ (bigEndian 2 extType.toNat ++ bigEndian 2 data.length)) ++ (data ++ after) := by
    simp only [ext, List.append_assoc]
  rw [split]
  exact bytesAt_append behind rfl after

/-- One turn of the walk -/
theorem sniffExtensions_step (fits : data.length ≤ u16Max) (at_end : cur = front.length)
    (inside : cur + 4 + data.length ≤ extEnd) :
    sniffExtensions (front ++ (ext extType data ++ after)) extEnd cur =
      (if extType.toNat = 0 ∧ 2 ≤ data.length then sniffNames data 2 else none).or
        (sniffExtensions (front ++ (ext extType data ++ after)) extEnd
          (cur + 4 + data.length)) := by
  rw [sniffExtensions, if_pos (by omega)]
  simp only [numberAt_ext_type at_end, numberAt_ext_length fits at_end, bytesAt_ext at_end]
  rw [if_neg (by omega)]
  generalize (if extType.toNat = 0 ∧ 2 ≤ data.length then sniffNames data 2 else none) = named
  cases named with
  | none => rfl
  | some host => rfl

theorem sniffExtensions_ext (other : extType ≠ 0) (fits : data.length ≤ u16Max)
    (at_end : cur = front.length) (inside : cur + 4 + data.length ≤ extEnd) :
    sniffExtensions (front ++ (ext extType data ++ after)) extEnd cur =
      sniffExtensions (front ++ (ext extType data ++ after)) extEnd (cur + 4 + data.length) := by
  have skipped : ¬(extType.toNat = 0 ∧ 2 ≤ data.length) := by
    intro named
    exact other (UInt16.toNat_inj.mp named.1)
  rw [sniffExtensions_step fits at_end inside, if_neg skipped, Option.none_or]

/-- The entry of a server name is read at once. -/
theorem sniffNames_entry {size : ℕ} {name : List UInt8} (fits : name.length ≤ u16Max)
    (decoded : fromUtf8 name = some host) :
    sniffNames (bigEndian 2 size ++ (0 :: (bigEndian 2 name.length ++ name))) 2 =
      some (sniffedName host) := by
  have length_eq : (bigEndian 2 size ++ (0 :: (bigEndian 2 name.length ++ name))).length =
      5 + name.length := by
    simp only [List.length_append, List.length_cons, bigEndian_length]
    omega
  have nameType : numberAt (bigEndian 2 size ++ (0 :: (bigEndian 2 name.length ++ name))) 2 1 =
      0 := by
    rw [numberAt, bytesAt_one rfl]
    rfl
  have nameLen : numberAt (bigEndian 2 size ++ (0 :: (bigEndian 2 name.length ++ name))) 3 2 =
      name.length := by
    have number := @numberAt_append_of_lt (bigEndian 2 size ++ [0]) 3 2 rfl name.length
      (Nat.lt_succ_of_le fits) name
    rwa [List.append_assoc] at number
  have read : bytesAt (bigEndian 2 size ++ (0 :: (bigEndian 2 name.length ++ name))) 5
      name.length = name := by
    have bytes := @bytesAt_append (bigEndian 2 size ++ (0 :: bigEndian 2 name.length)) name 5
      name.length rfl rfl []
    rwa [List.append_nil, List.append_assoc] at bytes
  rw [sniffNames, length_eq, if_pos (by omega)]
  simp only [nameType, nameLen, read]
  rw [if_pos ⟨trivial, by omega⟩, decoded]

theorem sniffExtensions_sniExt {name : List UInt8} (fits : name.length ≤ u16Max)
    (decoded : fromUtf8 name = some host) (at_end : cur = front.length)
    (inside : cur + (sniExt name).length ≤ extEnd) (small : extEnd ≤ u16Max) :
    sniffExtensions (front ++ (sniExt name ++ after)) extEnd cur = some (sniffedName host) := by
  rw [sniExt_length] at inside
  generalize data_eq : bigEndian 2 (0 :: (bigEndian 2 name.length ++ name)).length ++
    (0 :: (bigEndian 2 name.length ++ name)) = data
  have encoded : sniExt name = ext 0 data := by
    rw [← data_eq]
    rfl
  have size : data.length = 5 + name.length := by
    simp only [← data_eq, List.length_append, List.length_cons, bigEndian_length]
    omega
  have found : sniffNames data 2 = some (sniffedName host) := by
    rw [← data_eq]
    exact sniffNames_entry fits decoded
  rw [encoded, sniffExtensions_step (by omega) at_end (by omega), if_pos ⟨rfl, by omega⟩, found,
    Option.some_or]

end Walking

section Chains

variable {front after name : List UInt8} {extensions : List (List UInt8)} {host : String}

theorem sniffExtensions_others {before : List (List UInt8)} {cur extEnd : ℕ}
    (others : ∀ extension ∈ before, IsOther extension) (fits : name.length ≤ u16Max)
    (decoded : fromUtf8 name = some host) (at_end : cur = front.length)
    (inside : cur + before.flatten.length + (sniExt name).length ≤ extEnd)
    (small : extEnd ≤ u16Max) :
    sniffExtensions (front ++ (before.flatten ++ (sniExt name ++ after))) extEnd cur =
      some (sniffedName host) := by
  induction before generalizing front cur with
  | nil => exact sniffExtensions_sniExt fits decoded at_end inside small
  | cons extension before ih =>
      rw [List.forall_mem_cons] at others
      rcases others with ⟨⟨kind, data, other, rfl⟩, others⟩
      rw [List.flatten_cons, List.length_append, ext_length] at inside
      have next : cur + 4 + data.length = (front ++ ext kind data).length := by
        rw [List.length_append, ext_length, at_end]
        omega
      rw [List.flatten_cons, List.append_assoc,
        sniffExtensions_ext other (by omega) at_end (by omega), ← List.append_assoc front]
      exact ih others next (by omega)

/-- The first server name among the extensions is found. -/
theorem sniffExtensions_chain (others : ∀ extension ∈ extensions,
      extension = sniExt name ∨ IsOther extension) (member : sniExt name ∈ extensions)
    (decoded : fromUtf8 name = some host)
    (small : (front ++ extensions.flatten).length ≤ u16Max) :
    sniffExtensions (front ++ extensions.flatten) (front ++ extensions.flatten).length
      front.length = some (sniffedName host) := by
  rcases List.eq_append_cons_of_mem member with ⟨before, after, rfl, absent⟩
  have length_eq : (front ++ (before ++ sniExt name :: after).flatten).length =
      front.length + before.flatten.length + (sniExt name).length + after.flatten.length := by
    simp only [List.flatten_append, List.flatten_cons, List.length_append]
    omega
  have split : (before ++ sniExt name :: after).flatten =
      before.flatten ++ (sniExt name ++ after.flatten) := by
    rw [List.flatten_append, List.flatten_cons]
  have name_fits : name.length ≤ u16Max := by
    rw [length_eq, sniExt_length] at small
    omega
  have only_others : ∀ extension ∈ before, IsOther extension := by
    intro extension extension_mem
    rcases others extension (List.mem_append_left _ extension_mem) with same | other
    · exact absurd (same ▸ extension_mem) absent
    · exact other
  rw [length_eq] at small
  rw [length_eq, split]
  exact sniffExtensions_others only_others name_fits decoded rfl (by omega) small

end Chains

/-! ## The way to the extensions -/

section Assembled

variable {sessionId clientRandom : Bytes32} {suites : List UInt8} {host : String}
variable {name : List UInt8}

/-- A handshake up to the length of its session identifier -/
def helloFront (clientRandom : Bytes32) (bodyLength : ℕ) : List UInt8 :=
  0x01 :: (bigEndian 3 bodyLength ++ ([0x03, 0x03] ++ clientRandom.1))

theorem helloFront_length (clientRandom : Bytes32) (bodyLength : ℕ) :
    (helloFront clientRandom bodyLength).length = 38 := by
  simp only [helloFront, List.length_cons, List.length_append, bigEndian_length, clientRandom.2]
  rfl

/-- The handshake of a record -/
def handshake (sessionId clientRandom : Bytes32) (suites extensions : List UInt8)
    (bodyLength : ℕ) : List UInt8 :=
  helloFront clientRandom bodyLength ++ (bigEndian 1 32 ++ (sessionId.1 ++
    (bigEndian 2 suites.length ++ (suites ++ (bigEndian 1 1 ++ ([0x00] ++
      (bigEndian 2 extensions.length ++ extensions)))))))

theorem assemble_eq (sessionId clientRandom : Bytes32) (suites extensions : List UInt8) :
    ∃ bodyLength, assemble sessionId clientRandom suites extensions =
      [0x16, 0x03, 0x01] ++
        sized (handshake sessionId clientRandom suites extensions bodyLength) := by
  refine ⟨([0x03, 0x03] ++ (clientRandom.1 ++ (UInt8.ofNat sessionId.1.length ::
    (sessionId.1 ++ (sized suites ++ ([0x01, 0x00] ++ sized extensions)))))).length, ?_⟩
  rw [assemble, handshake, helloFront]
  simp only [sized, List.cons_append, List.append_assoc]
  rw [sessionId.2]
  rfl

theorem parseTlsSni_record {payload : List UInt8} (fits : payload.length ≤ u16Max) :
    parseTlsSni ([0x16, 0x03, 0x01] ++ sized payload) = parseClientHelloPayload payload := by
  have length_eq : ([0x16, 0x03, 0x01] ++ sized payload).length = 5 + payload.length := by
    simp only [sized, List.length_append, bigEndian_length, List.length_cons, List.length_nil]
    omega
  have recordType : numberAt ([0x16, 0x03, 0x01] ++ sized payload) 0 1 = 0x16 := by
    rw [numberAt, bytesAt_one rfl]
    rfl
  have recordLen : numberAt ([0x16, 0x03, 0x01] ++ sized payload) 3 2 = payload.length :=
    numberAt_append_of_lt rfl (Nat.lt_succ_of_le fits) payload
  have read : bytesAt ([0x16, 0x03, 0x01] ++ sized payload) 5 payload.length = payload := by
    have bytes := @bytesAt_append ([0x16, 0x03, 0x01] ++ bigEndian 2 payload.length) payload 5
      payload.length rfl rfl []
    rwa [List.append_nil, List.append_assoc] at bytes
  rw [parseTlsSni, recordType, recordLen, length_eq, if_neg (by omega)]
  simp only [ge_iff_le, le_refl, if_true, read]

theorem handshake_length {extensions : List UInt8} {bodyLength : ℕ} :
    (handshake sessionId clientRandom suites extensions bodyLength).length =
      77 + suites.length + extensions.length := by
  simp only [handshake, List.length_append, bigEndian_length, helloFront_length, sessionId.2,
    List.length_cons, List.length_nil]
  omega

/-- The numbers by which the parser finds its way -/
theorem handshake_fields {extensions : List UInt8} {bodyLength : ℕ}
    (suites_fit : suites.length < 256 ^ 2) (extensions_fit : extensions.length < 256 ^ 2) :
    numberAt (handshake sessionId clientRandom suites extensions bodyLength) 0 1 = 1 ∧
      numberAt (handshake sessionId clientRandom suites extensions bodyLength) 38 1 = 32 ∧
      numberAt (handshake sessionId clientRandom suites extensions bodyLength) 71 2 =
        suites.length ∧
      numberAt (handshake sessionId clientRandom suites extensions bodyLength)
        (73 + suites.length) 1 = 1 ∧
      numberAt (handshake sessionId clientRandom suites extensions bodyLength)
        (75 + suites.length) 2 = extensions.length := by
  have front_length := helloFront_length clientRandom bodyLength
  have method_length : ([0x00] : List UInt8).length = 1 := rfl
  have at_suites : 71 = 38 + (1 + (32 + 0)) := rfl
  have at_comp : 73 + suites.length = 38 + (1 + (32 + (2 + (suites.length + 0)))) := by omega
  have at_extensions : 75 + suites.length =
      38 + (1 + (32 + (2 + (suites.length + (1 + (1 + 0)))))) := by omega
  refine ⟨?_, ?_, ?_, ?_, ?_⟩
  · rw [numberAt, bytesAt_one rfl]
    rfl
  · exact numberAt_append_of_lt front_length.symm (by decide) _
  · rw [at_suites, handshake, numberAt_behind front_length,
      numberAt_behind (bigEndian_length 1 32), numberAt_behind sessionId.2]
    exact numberAt_start suites_fit _
  · rw [at_comp, handshake, numberAt_behind front_length, numberAt_behind (bigEndian_length 1 32),
      numberAt_behind sessionId.2, numberAt_behind (bigEndian_length 2 _), numberAt_behind rfl]
    exact numberAt_start (by decide) _
  · rw [at_extensions, handshake, numberAt_behind front_length,
      numberAt_behind (bigEndian_length 1 32), numberAt_behind sessionId.2,
      numberAt_behind (bigEndian_length 2 _), numberAt_behind rfl,
      numberAt_behind (bigEndian_length 1 1), numberAt_behind method_length]
    exact numberAt_start extensions_fit _

theorem parseClientHelloPayload_handshake {extensions : List UInt8} {bodyLength : ℕ}
    (fits : (handshake sessionId clientRandom suites extensions bodyLength).length ≤ u16Max) :
    ∃ front, handshake sessionId clientRandom suites extensions bodyLength = front ++ extensions ∧
      parseClientHelloPayload (handshake sessionId clientRandom suites extensions bodyLength) =
        sniffExtensions (front ++ extensions) (front ++ extensions).length front.length := by
  have length_eq := @handshake_length sessionId clientRandom suites extensions bodyLength
  rw [length_eq, u16Max] at fits
  rcases @handshake_fields sessionId clientRandom suites extensions bodyLength (by omega)
    (by omega) with ⟨msgType, sessionIdLen, cipherSuitesLen, compMethodsLen, extensionsLen⟩
  have whole : (helloFront clientRandom bodyLength ++ (bigEndian 1 32 ++ (sessionId.1 ++
      (bigEndian 2 suites.length ++ (suites ++ (bigEndian 1 1 ++ ([0x00] ++
        bigEndian 2 extensions.length))))))) ++ extensions =
      handshake sessionId clientRandom suites extensions bodyLength := by
    simp only [handshake, List.append_assoc]
  have start : (helloFront clientRandom bodyLength ++ (bigEndian 1 32 ++ (sessionId.1 ++
      (bigEndian 2 suites.length ++ (suites ++ (bigEndian 1 1 ++ ([0x00] ++
        bigEndian 2 extensions.length))))))).length = 77 + suites.length := by
    have sum := congrArg List.length whole
    rw [List.length_append, length_eq] at sum
    omega
  refine ⟨_, whole.symm, ?_⟩
  rw [whole, start, parseClientHelloPayload, msgType, length_eq, if_neg (by omega),
    if_neg (by omega), if_neg (by omega), if_neg (by omega)]
  simp only [sessionIdLen]
  rw [if_neg (by omega)]
  simp only [cipherSuitesLen]
  rw [if_neg (by omega)]
  have at_comp : 4 + 2 + 32 + 1 + 32 + 2 + suites.length = 73 + suites.length := by omega
  simp only [at_comp, compMethodsLen]
  rw [if_neg (by omega)]
  have at_extensions : 73 + suites.length + 1 + 1 = 75 + suites.length := by omega
  simp only [at_extensions, extensionsLen]
  have ending : 75 + suites.length + 2 = 77 + suites.length := by omega
  rw [ending, Nat.min_self]

theorem sniffTcp_assemble {extensions : List (List UInt8)}
    (others : ∀ extension ∈ extensions, extension = sniExt name ∨ IsOther extension)
    (member : sniExt name ∈ extensions) (decoded : fromUtf8 name = some host)
    (fits : FitsHeader (assemble sessionId clientRandom suites extensions.flatten)) :
    sniffTcp (assemble sessionId clientRandom suites extensions.flatten) =
      ⟨.tls, some (sniffedName host)⟩ := by
  rcases assemble_eq sessionId clientRandom suites extensions.flatten with ⟨bodyLength, record⟩
  rw [record, FitsHeader, List.length_append, sized_length] at fits
  have payload_fits : (handshake sessionId clientRandom suites extensions.flatten
      bodyLength).length ≤ u16Max := by
    have header : ([0x16, 0x03, 0x01] : List UInt8).length = 3 := rfl
    omega
  rcases parseClientHelloPayload_handshake payload_fits with ⟨front, split, parsed⟩
  rw [split] at payload_fits
  have sni : parseTlsSni (assemble sessionId clientRandom suites extensions.flatten) =
      some (sniffedName host) := by
    rw [record, parseTlsSni_record (split ▸ payload_fits), parsed]
    exact sniffExtensions_chain others member decoded payload_fits
  have not_empty : assemble sessionId clientRandom suites extensions.flatten ≠ [] := by
    rw [record]
    exact List.cons_ne_nil _ _
  rw [sniffTcp, if_neg not_empty, sni]

end Assembled

/-! ## The three builders -/

theorem ne_zero_of_grease (value : Grease) : value.1 ≠ 0 := by
  have no_zero : 0 ∉ greaseValues := by decide
  intro zero
  exact no_zero (zero ▸ value.2)

/-- A record which one of the builders may write -/
inductive Built (sniBytes : List UInt8) (sessionId clientRandom : Bytes32) : List UInt8 → Prop where
  | chromium (draws : ChromiumDraws) :
      Built sniBytes sessionId clientRandom
        (buildChromium draws sniBytes sessionId clientRandom)
  | firefox (draws : FirefoxDraws) :
      Built sniBytes sessionId clientRandom (buildFirefox draws sniBytes sessionId clientRandom)
  | okhttp (draws : OkhttpDraws) :
      Built sniBytes sessionId clientRandom (buildOkhttp draws sniBytes sessionId clientRandom)

/-- Extensions among which the only server name is this one -/
def NamedBy (sniBytes : List UInt8) (extensions : List (List UInt8)) : Prop :=
  ∀ extension ∈ extensions, extension = sniExt sniBytes ∨ IsOther extension

section Named

variable {sniBytes data : List UInt8} {kind : UInt16} {extensions shuffled : List (List UInt8)}

theorem NamedBy.nil : NamedBy sniBytes [] :=
  fun _ member => absurd member List.not_mem_nil

theorem NamedBy.sni (named : NamedBy sniBytes extensions) :
    NamedBy sniBytes (sniExt sniBytes :: extensions) :=
  List.forall_mem_cons.mpr ⟨.inl rfl, named⟩

theorem NamedBy.other (other : kind ≠ 0) (named : NamedBy sniBytes extensions) :
    NamedBy sniBytes (ext kind data :: extensions) :=
  List.forall_mem_cons.mpr ⟨.inr ⟨kind, data, other, rfl⟩, named⟩

theorem NamedBy.append (named : NamedBy sniBytes extensions)
    (more : NamedBy sniBytes shuffled) : NamedBy sniBytes (extensions ++ shuffled) :=
  List.forall_mem_append.mpr ⟨named, more⟩

theorem NamedBy.perm (named : NamedBy sniBytes extensions) (same : shuffled.Perm extensions) :
    NamedBy sniBytes shuffled :=
  fun extension member => named extension (same.subset member)

theorem namedBy_chromiumMiddle (draws : ChromiumDraws) (sniBytes : List UInt8) :
    NamedBy sniBytes (chromiumMiddle draws sniBytes) := by
  unfold chromiumMiddle
  iterate 11 refine NamedBy.other (by decide) ?_
  refine NamedBy.sni ?_
  iterate 4 refine NamedBy.other (by decide) ?_
  exact NamedBy.nil

theorem namedBy_firefoxExtensions (draws : FirefoxDraws) (sniBytes : List UInt8) :
    NamedBy sniBytes (firefoxExtensions draws sniBytes) := by
  unfold firefoxExtensions
  refine NamedBy.sni ?_
  iterate 16 refine NamedBy.other (by decide) ?_
  exact NamedBy.nil

theorem namedBy_okhttpExtensions (draws : OkhttpDraws) (sniBytes : List UInt8) :
    NamedBy sniBytes (okhttpExtensions draws sniBytes) := by
  unfold okhttpExtensions
  refine NamedBy.other (ne_zero_of_grease draws.ends.first) (NamedBy.sni ?_)
  iterate 13 refine NamedBy.other (by decide) ?_
  exact NamedBy.other (ne_zero_of_grease draws.ends.last) NamedBy.nil

end Named

/-! ## The builders are inverted. -/

section Inverted

variable {sessionId clientRandom : Bytes32} {host : String} {sniBytes record : List UInt8}

theorem sniExt_mem_shuffle (draws : ChromiumDraws) (sniBytes : List UInt8) :
    sniExt sniBytes ∈ shuffle draws.order (chromiumMiddle draws sniBytes) := by
  apply (shuffle_perm draws.order (chromiumMiddle draws sniBytes)).symm.subset
  simp only [chromiumMiddle, List.mem_cons, true_or, or_true]

/-- Each builder assembles extensions with the server name among them. -/
theorem Built.exists_extensions (built : Built sniBytes sessionId clientRandom record) :
    ∃ suites extensions, record = assemble sessionId clientRandom suites extensions.flatten ∧
      NamedBy sniBytes extensions ∧ sniExt sniBytes ∈ extensions := by
  cases built with
  | chromium draws =>
      have middle := (namedBy_chromiumMiddle draws sniBytes).perm
        (shuffle_perm draws.order (chromiumMiddle draws sniBytes))
      have member := sniExt_mem_shuffle draws sniBytes
      refine ⟨u16s (draws.cipherGrease :: chromiumCiphers), ext draws.ends.first [] ::
        (shuffle draws.order (chromiumMiddle draws sniBytes) ++ [ext draws.ends.last [0x00]]),
        ?_, ?_, ?_⟩
      · rw [List.flatten_cons, List.flatten_append, List.flatten_singleton]
        rfl
      · exact NamedBy.other (ne_zero_of_grease draws.ends.first)
          (middle.append (NamedBy.other (ne_zero_of_grease draws.ends.last) NamedBy.nil))
      · exact List.mem_cons_of_mem _ (List.mem_append_left _ member)
  | firefox draws =>
      exact ⟨_, firefoxExtensions draws sniBytes, rfl, namedBy_firefoxExtensions draws sniBytes,
        List.mem_cons_self⟩
  | okhttp draws =>
      have named := namedBy_okhttpExtensions draws sniBytes
      have member : sniExt sniBytes ∈ okhttpExtensions draws sniBytes :=
        List.mem_cons_of_mem _ List.mem_cons_self
      have padded : ∀ data, assemble sessionId clientRandom
            (u16s (draws.cipherGrease :: chromiumCiphers))
            ((okhttpExtensions draws sniBytes).flatten ++ ext 0x0015 data) =
          assemble sessionId clientRandom (u16s (draws.cipherGrease :: chromiumCiphers))
            (okhttpExtensions draws sniBytes ++ [ext 0x0015 data]).flatten := by
        intro data
        rw [List.flatten_append, List.flatten_singleton]
      simp only [buildOkhttp]
      split
      · exact ⟨_, _, padded _, named.append (NamedBy.other (by decide) NamedBy.nil),
          List.mem_append_left _ member⟩
      · exact ⟨_, okhttpExtensions draws sniBytes, by rw [List.append_nil], named, member⟩

/-- A record is at most two kilobytes longer than its name. -/
theorem Built.length_le (built : Built sniBytes sessionId clientRandom record) :
    record.length ≤ 1883 + sniBytes.length := by
  cases built with
  | chromium draws =>
      rw [buildChromium_length]
      omega
  | firefox draws => rw [buildFirefox_length]
  | okhttp draws =>
      rw [buildOkhttp_length, okhttpPadTarget]
      split
      · omega
      · omega

/--
The sniffer inverts the builders: from what they make of a host, whatever they draw, it
reads this host.  Their lengths are written with 16 bits, which are enough for all hosts
of up to 60000 bytes.
-/
theorem sniffTcp_inverts_builders
    (built : Built (utf8 host.toList) sessionId clientRandom record) :
    (FitsHeader record → sniffTcp record = ⟨.tls, some (sniffedName host)⟩) ∧
      ((utf8 host.toList).length ≤ 60000 → FitsHeader record) := by
  constructor
  · intro fits
    rcases built.exists_extensions with ⟨suites, extensions, rfl, named, member⟩
    exact sniffTcp_assemble named member (fromUtf8_utf8 host) fits
  · intro short
    have bound := built.length_le
    rw [FitsHeader, u16Max]
    omega

def blank (size : ℕ) : Filled size :=
  ⟨List.replicate size 0, List.length_replicate⟩

def anyGrease : Grease :=
  ⟨0x0A0A, by decide⟩

/-- Draws by which each extension is swapped with the first -/
def swappedDraws : ChromiumDraws where
  cipherGrease := anyGrease
  versions := anyGrease
  groups := anyGrease
  keyShareGrease := anyGrease
  ech := ⟨0, blank 32, blank 208⟩
  keyShare := ⟨⟨List.replicate 384 (0, 0), List.length_replicate, blank 32⟩, blank 32, blank 32⟩
  order := fun _ => 0
  ends := ⟨anyGrease, ⟨0x1A1A, by decide⟩, by decide⟩

theorem sniffTcp_inverts_swappedDraws :
    sniffTcp (buildChromium swappedDraws (utf8 "Example.COM.".toList) (blank 32) (blank 32)) =
      ⟨.tls, some "example.com"⟩ := by
  have built : Built (utf8 "Example.COM.".toList) (blank 32) (blank 32)
      (buildChromium swappedDraws (utf8 "Example.COM.".toList) (blank 32) (blank 32)) :=
    Built.chromium swappedDraws
  have name : sniffedName "Example.COM." = "example.com" := by decide +kernel
  have inverted := sniffTcp_inverts_builders built
  rw [← name]
  exact inverted.1 (inverted.2 (by decide +kernel))

end Inverted

end Mirage.Tun
