import Mathlib.Data.List.Sort
import Mirage.Crypto.ClientHello.Builders
import Mirage.Crypto.ClientHello.Template
import Mirage.Foundations.Encodings

/-!
# The fingerprint of a ClientHello

`ja4` reads the suites and the extensions of a ClientHello, without those of GREASE,
and hashes them in order.  It is meant to be the same for all which one browser sends:
for those which are written from a template, and for those which a builder draws.
-/

namespace Mirage.Crypto

open Mirage.Foundations
open Mirage.Foundations.Checked (done index slice)

/-! ## What is read -/

def isGreaseVal (v : UInt16) : Bool :=
  v &&& 0x0f0f == 0x0a0a && v >>> 8 == v &&& 0xff

/-- `u16::from_be_bytes([bytes[off], bytes[off + 1]])` -/
def u16At (bytes : List UInt8) (off : ℕ) : Checked UInt16 := do
  let high ← index bytes off
  let low ← index bytes (off + 1)
  pure (UInt16.ofNat (high.toNat * 256 + low.toNat))

def u16sAt (bytes : List UInt8) : ℕ → ℕ → Checked (List UInt16)
  | 0, _ => pure []
  | count + 1, off => do
      let value ← u16At bytes off
      let values ← u16sAt bytes count (off + 2)
      pure (value :: values)

/-- The numbers which lie in the bytes as a whole -/
def wholePairs : List UInt8 → List UInt16
  | high :: low :: rest => UInt16.ofNat (high.toNat * 256 + low.toNat) :: wholePairs rest
  | _ => []

/-- What is kept of the extensions besides their types -/
structure Ja4Details where
  sni : Bool
  alpn : Option String
  sigalgs : List UInt16
  maxVer : UInt16
  deriving DecidableEq

def Ja4Details.start : Ja4Details := ⟨false, none, [], 0x0303⟩

/-- The name of a protocol behind the length of the list and its own -/
def firstAlpn : List UInt8 → Option String
  | _ :: _ :: pl :: names =>
      if pl.toNat ≤ names.length then some (fromUtf8Lossy (names.take pl.toNat)) else none
  | _ => none

def greaterVersion (maxVer v : UInt16) : UInt16 :=
  if !isGreaseVal v && maxVer < v then v else maxVer

/-- The greatest of the versions so far and those behind the length of the list -/
def offeredVersion (maxVer : UInt16) : List UInt8 → UInt16
  | [] => maxVer
  | vl :: versions => (wholePairs (versions.take vl.toNat)).foldl greaterVersion maxVer

def readSigalgs : List UInt8 → List UInt16
  | high :: low :: algorithms => wholePairs (algorithms.take (high.toNat * 256 + low.toNat))
  | _ => []

def Ja4Details.note (details : Ja4Details) (extension : Extension) : Ja4Details :=
  if extension.kind = 0x0000 then { details with sni := true }
  else if extension.kind = 0x0010 then
    { details with alpn := (firstAlpn extension.data).or details.alpn }
  else if extension.kind = 0x002b then
    { details with maxVer := offeredVersion details.maxVer extension.data }
  else if extension.kind = 0x000d then
    { details with sigalgs := details.sigalgs ++ readSigalgs extension.data }
  else details

/-- The types of the extensions in order, and the details -/
abbrev Ja4Seen : Type :=
  List UInt16 × Ja4Details

def see (seen : Ja4Seen) (extension : Extension) : Ja4Seen :=
  if isGreaseVal extension.kind then seen
  else (seen.1 ++ [extension.kind], seen.2.note extension)

def seeExtensions (ch : List UInt8) (stop i : ℕ) (seen : Ja4Seen) : Checked Ja4Seen :=
  if i < stop then
    u16At ch i >>= fun et =>
      u16At ch (i + 2) >>= fun le =>
        slice ch (i + 4) (i + 4 + le.toNat) >>= fun data =>
          seeExtensions ch stop (i + (4 + le.toNat)) (see seen ⟨et, data⟩)
  else pure seen
termination_by stop - i

/-! ## The text -/

/-- A number of at least so many digits -/
def padded (base width value : ℕ) : String :=
  let digits := Nat.toDigits base value
  String.ofList (List.replicate (width - digits.length) '0' ++ digits)

def h12 (sha256 : List UInt8 → Bytes32) (s : String) : String :=
  String.join (((sha256 (utf8 s.toList)).1.take 6).map fun byte => padded 16 2 byte.toNat)

def inOrder (values : List UInt16) : List UInt16 :=
  values.insertionSort fun first second => first.toNat ≤ second.toNat

def commaHex (values : List UInt16) : String :=
  ",".intercalate (values.map fun value => padded 16 4 value.toNat)

def Ja4Details.version (details : Ja4Details) : String :=
  if details.maxVer = 0x0304 then "13"
  else if details.maxVer = 0x0303 then "12"
  else if details.maxVer = 0x0302 then "11"
  else if details.maxVer = 0x0301 then "10"
  else "00"

/-- The first and the last byte, each as a character -/
def Ja4Details.alpnEnds (details : Ja4Details) : String :=
  match details.alpn.map fun name => utf8 name.toList with
  | some (first :: rest) =>
      String.ofList [Char.ofNat first.toNat, Char.ofNat ((first :: rest).getLast nofun).toNat]
  | _ => "00"

def ja4A (ciphers exts : ℕ) (details : Ja4Details) : String :=
  "t" ++ details.version ++ (if details.sni then "d" else "i") ++ padded 10 2 (min ciphers 99) ++
    padded 10 2 (min exts 99) ++ details.alpnEnds

def hashedExts (exts : List UInt16) : List UInt16 :=
  inOrder (exts.filter fun e => e != 0x0000 && e != 0x0010)

def ja4Text (sha256 : List UInt8 → Bytes32) (ciphers exts : List UInt16) (details : Ja4Details) :
    String :=
  ja4A ciphers.length exts.length details ++ "_" ++ h12 sha256 (commaHex (inOrder ciphers)) ++
    "_" ++ h12 sha256 (commaHex (hashedExts exts) ++ "_" ++ commaHex details.sigalgs)

def ja4 (sha256 : List UInt8 → Bytes32) (ch : List UInt8) : Checked String := do
  let sid ← index ch (5 + 4 + 2 + 32)
  let i := 5 + 4 + 2 + 32 + (1 + sid.toNat)
  let cl ← u16At ch i
  let ciphers ← u16sAt ch ((cl.toNat + 1) / 2) (i + 2)
  let i := i + 2 + cl.toNat
  let cm ← index ch i
  let i := i + (1 + cm.toNat)
  let el ← u16At ch i
  let (exts, details) ← seeExtensions ch (i + 2 + el.toNat) (i + 2) ([], .start)
  pure (ja4Text sha256 (ciphers.filter fun c => !isGreaseVal c) exts details)


/-! ## Reading what was written -/

section Reading

variable {before after : List UInt8} {off : ℕ} {value : UInt16}

theorem u16At_append (at_end : off = before.length) :
    u16At (before ++ (bigEndian 2 value.toNat ++ after)) off = done value := by
  have low : index (before ++ (bigEndian 2 value.toNat ++ after)) (off + 1) =
      done (UInt8.ofNat value.toNat) := by
    rw [bigEndian_two, List.cons_append, List.append_cons]
    apply Checked.index_append
    rw [List.length_append, at_end]
    rfl
  have high : index (before ++ (bigEndian 2 value.toNat ++ after)) off =
      done (UInt8.ofNat (value.toNat / 256)) :=
    Checked.index_append at_end
  have bound := value.toNat_lt
  have same : (value.toNat / 256 % 2 ^ 8) * 256 + value.toNat % 2 ^ 8 = value.toNat := by omega
  rw [u16At, high, Checked.done_bind, low, Checked.done_bind, Checked.pure_eq, UInt8.toNat_ofNat',
    UInt8.toNat_ofNat', same, UInt16.ofNat_toNat]

/-- A length which fits is read as it is. -/
theorem lengthAt_append {n : ℕ} (fits : n ≤ u16Max) (at_end : off = before.length) :
    u16At (before ++ (bigEndian 2 n ++ after)) off = done (UInt16.ofNat n) ∧
      (UInt16.ofNat n).toNat = n := by
  rw [u16Max] at fits
  have same : (UInt16.ofNat n).toNat = n := by
    rw [UInt16.toNat_ofNat']
    omega
  refine ⟨?_, same⟩
  conv_lhs => rw [← same]
  exact u16At_append at_end

theorem u16sAt_append {values : List UInt16} (at_end : off = before.length) :
    u16sAt (before ++ (u16s values ++ after)) values.length off = done values := by
  induction values generalizing before off with
  | nil => rfl
  | cons value values ih =>
      have split : u16s (value :: values) ++ after =
          bigEndian 2 value.toNat ++ (u16s values ++ after) := by
        rw [u16s, List.flatMap_cons, List.append_assoc]
        rfl
      rw [List.length_cons, u16sAt, split, u16At_append at_end, Checked.done_bind,
        ← List.append_assoc]
      rw [@ih (before ++ bigEndian 2 value.toNat) (off + 2)
        (by rw [List.length_append, bigEndian_length, at_end]), Checked.done_bind, Checked.pure_eq]

theorem seeExtensions_chain {extensions : List Extension} {stop i : ℕ} {seen : Ja4Seen}
    (fits : ∀ extension ∈ extensions, extension.data.length ≤ u16Max) (at_end : i = before.length)
    (stops : stop = i + (encodeExtensions extensions).length) :
    seeExtensions (before ++ (encodeExtensions extensions ++ after)) stop i seen =
      done (extensions.foldl see seen) := by
  induction extensions generalizing before i seen with
  | nil =>
      have same : stop = i := stops
      rw [seeExtensions, if_neg (by omega)]
      rfl
  | cons extension extensions ih =>
      rw [List.forall_mem_cons] at fits
      have chain : encodeExtensions (extension :: extensions) =
          ext extension.kind extension.data ++ encodeExtensions extensions :=
        List.flatMap_cons
      rw [chain, List.length_append, ext_length] at stops
      have view : before ++ (encodeExtensions (extension :: extensions) ++ after) =
          before ++ (bigEndian 2 extension.kind.toNat ++ (bigEndian 2 extension.data.length ++
            (extension.data ++ (encodeExtensions extensions ++ after)))) := by
        rw [chain, ext]
        simp only [List.append_assoc]
      have kind := @u16At_append before (bigEndian 2 extension.data.length ++
        (extension.data ++ (encodeExtensions extensions ++ after))) i extension.kind at_end
      have length := @lengthAt_append (before ++ bigEndian 2 extension.kind.toNat)
        (extension.data ++ (encodeExtensions extensions ++ after)) (i + 2) _ fits.1
        (by rw [List.length_append, bigEndian_length, at_end])
      have content := @Checked.slice_append _ (before ++ (bigEndian 2 extension.kind.toNat ++
        bigEndian 2 extension.data.length)) (encodeExtensions extensions ++ after) (i + 4)
        extension.data (by simp only [List.length_append, bigEndian_length, at_end])
      have later := @ih (before ++ ext extension.kind extension.data)
        (i + (4 + extension.data.length)) (see seen extension) fits.2
        (by rw [List.length_append, ext_length, at_end]) (by omega)
      simp only [ext, List.append_assoc] at length content later
      rw [seeExtensions, if_pos (by omega), view, kind, Checked.done_bind, length.1,
        Checked.done_bind, length.2, content, Checked.done_bind, later, List.foldl_cons]

end Reading

/-- A record by its parts, which have lengths in front of them -/
def helloBytes (head sid : List UInt8) (suites : List UInt16) (compression : List UInt8)
    (extensions : List Extension) : List UInt8 :=
  head ++ (UInt8.ofNat sid.length :: (sid ++ (sized (u16s suites) ++
    (UInt8.ofNat compression.length :: (compression ++ sized (encodeExtensions extensions))))))

/-- The fingerprint of what is in a record -/
def ja4Of (sha256 : List UInt8 → Bytes32) (suites : List UInt16) (extensions : List Extension) :
    String :=
  let seen := extensions.foldl see ([], .start)
  ja4Text sha256 (suites.filter fun c => !isGreaseVal c) seen.1 seen.2

theorem ja4_helloBytes (sha256 : List UInt8 → Bytes32) {head sid compression : List UInt8}
    {suites : List UInt16} {extensions : List Extension} (head_length : head.length = 43)
    (sid_fits : sid.length ≤ u8Max) (suites_fit : (u16s suites).length ≤ u16Max)
    (compression_fits : compression.length ≤ u8Max)
    (extensions_fit : (encodeExtensions extensions).length ≤ u16Max) :
    ja4 sha256 (helloBytes head sid suites compression extensions) =
      done (ja4Of sha256 suites extensions) := by
  have byte {n : ℕ} (fits : n ≤ u8Max) : (UInt8.ofNat n).toNat = n := by
    rw [u8Max] at fits
    rw [UInt8.toNat_ofNat']
    omega
  have read_sid : index (helloBytes head sid suites compression extensions) (5 + 4 + 2 + 32) =
      done (UInt8.ofNat sid.length) :=
    Checked.index_append head_length.symm
  let start := head ++ UInt8.ofNat sid.length :: sid
  have start_length : start.length = 44 + sid.length := by
    simp only [start, List.length_append, List.length_cons, head_length]
    omega
  let coded := start ++ (bigEndian 2 (u16s suites).length ++ u16s suites)
  have coded_length : coded.length = 44 + sid.length + 2 + (u16s suites).length := by
    simp only [coded, List.length_append, start_length, bigEndian_length]
    omega
  let packed := coded ++ UInt8.ofNat compression.length :: compression
  have packed_length : packed.length =
      44 + sid.length + 2 + (u16s suites).length + (1 + compression.length) := by
    simp only [packed, List.length_append, List.length_cons, coded_length]
    omega
  have at_suites : helloBytes head sid suites compression extensions =
      start ++ (bigEndian 2 (u16s suites).length ++ (u16s suites ++ (UInt8.ofNat
        compression.length :: (compression ++ sized (encodeExtensions extensions))))) := by
    simp only [helloBytes, start, sized, List.append_assoc, List.cons_append]
  have at_compression : helloBytes head sid suites compression extensions = coded ++
      UInt8.ofNat compression.length :: (compression ++ sized (encodeExtensions extensions)) := by
    simp only [at_suites, coded, List.append_assoc]
  have at_extensions : helloBytes head sid suites compression extensions =
      packed ++ (bigEndian 2 (encodeExtensions extensions).length ++
        encodeExtensions extensions) := by
    simp only [at_compression, packed, sized, List.append_assoc, List.cons_append]
  have count : ((u16s suites).length + 1) / 2 = suites.length := by
    rw [u16s_length]
    omega
  have read_suites := @lengthAt_append start (u16s suites ++ (UInt8.ofNat compression.length ::
    (compression ++ sized (encodeExtensions extensions)))) (44 + sid.length) _ suites_fit
    start_length.symm
  have suites_read := @u16sAt_append (start ++ bigEndian 2 (u16s suites).length)
    (UInt8.ofNat compression.length :: (compression ++ sized (encodeExtensions extensions)))
    (44 + sid.length + 2) suites
    (by rw [List.length_append, bigEndian_length, start_length])
  rw [List.append_assoc] at suites_read
  rw [← at_suites] at read_suites suites_read
  have read_compression : index (helloBytes head sid suites compression extensions)
      (44 + sid.length + 2 + (u16s suites).length) = done (UInt8.ofNat compression.length) := by
    rw [at_compression]
    exact Checked.index_append coded_length.symm
  have read_extensions := @lengthAt_append packed (encodeExtensions extensions) _ _ extensions_fit
    packed_length.symm
  have extensions_read := @seeExtensions_chain (packed ++
    bigEndian 2 (encodeExtensions extensions).length) [] extensions _ _ ([], .start)
    (fun extension member => by have inside := length_of_mem_extensions member; omega)
    (by rw [List.length_append, bigEndian_length, packed_length]) rfl
  rw [List.append_nil, List.append_assoc] at extensions_read
  rw [← at_extensions] at read_extensions extensions_read
  have first : 5 + 4 + 2 + 32 + (1 + sid.length) = 44 + sid.length := by omega
  simp only [ja4, read_sid, Checked.done_bind, byte sid_fits, first, read_suites.1, read_suites.2,
    count, suites_read, read_compression, byte compression_fits, read_extensions.1,
    read_extensions.2, extensions_read, Checked.pure_eq, ja4Of]

/-! ## What a fingerprint does not show -/

section Order

def plainExtensions (extensions : List Extension) : List Extension :=
  extensions.filter fun extension => !isGreaseVal extension.kind

theorem foldl_see (extensions : List Extension) (seen : Ja4Seen) :
    extensions.foldl see seen =
      (seen.1 ++ (plainExtensions extensions).map Extension.kind,
        (plainExtensions extensions).foldl Ja4Details.note seen.2) := by
  induction extensions generalizing seen with
  | nil => simp [plainExtensions]
  | cons extension extensions ih =>
      rw [List.foldl_cons, ih, see, plainExtensions]
      cases grease : isGreaseVal extension.kind with
      | true => simp [grease, plainExtensions]
      | false => simp [grease, plainExtensions]

/-- Extensions of different types are noted at different places. -/
theorem note_comm {first second : Extension} (differ : first.kind ≠ second.kind)
    (details : Ja4Details) :
    (details.note first).note second = (details.note second).note first := by
  simp only [Ja4Details.note]
  split_ifs <;> first | rfl | grind

theorem inOrder_perm {first second : List UInt16} (perm : first.Perm second) :
    inOrder first = inOrder second := by
  let before (first second : UInt16) : Prop := first.toNat ≤ second.toNat
  have total : Std.Total before := ⟨fun first second => Nat.le_total first.toNat second.toNat⟩
  have trans : IsTrans UInt16 before := ⟨fun _ _ _ => Nat.le_trans⟩
  have sorted (values : List UInt16) : (inOrder values).Pairwise before :=
    List.pairwise_insertionSort before values
  have same (values : List UInt16) : (inOrder values).Perm values :=
    List.perm_insertionSort before values
  refine List.Perm.eq_of_pairwise (fun first second _ _ le ge => ?_) (sorted first) (sorted second)
    ((same first).trans (perm.trans (same second).symm))
  exact UInt16.toNat_inj.mp (Nat.le_antisymm le ge)

/-- The order of the extensions, as long as each type comes once, and all of GREASE -/
theorem ja4Of_perm (sha256 : List UInt8 → Bytes32) {suites suites' : List UInt16}
    {extensions extensions' : List Extension}
    (same_suites : (suites.filter fun c => !isGreaseVal c).Perm
      (suites'.filter fun c => !isGreaseVal c))
    (same_extensions : (plainExtensions extensions).Perm (plainExtensions extensions'))
    (distinct : ((plainExtensions extensions).map Extension.kind).Nodup) :
    ja4Of sha256 suites extensions = ja4Of sha256 suites' extensions' := by
  have details : (plainExtensions extensions).foldl Ja4Details.note .start =
      (plainExtensions extensions').foldl Ja4Details.note .start := by
    apply same_extensions.foldl_eq'
    intro first first_mem second second_mem details
    by_cases same : first.kind = second.kind
    · rw [List.inj_on_of_nodup_map distinct first_mem second_mem same]
    · exact note_comm same details
  have kinds := same_extensions.map Extension.kind
  have hashed : hashedExts ((plainExtensions extensions).map Extension.kind) =
      hashedExts ((plainExtensions extensions').map Extension.kind) :=
    inOrder_perm (kinds.filter _)
  simp only [ja4Of, foldl_see, ja4Text, List.nil_append, details, hashed, kinds.length_eq,
    same_suites.length_eq, inOrder_perm same_suites]

end Order

/-! ## Templates -/

def sniData (sniBytes : List UInt8) : List UInt8 :=
  sized (0 :: sized sniBytes)

/-- The extensions in their order -/
def ClientHello.extensions (hello : ClientHello) : List Extension :=
  hello.before ++ ⟨0, sniData hello.host⟩ :: hello.after

section Notes

variable (details : Ja4Details) (data : List UInt8)

theorem note_sni : details.note ⟨0x0000, data⟩ = { details with sni := true } := by
  simp [Ja4Details.note]

theorem note_alpn : details.note ⟨0x0010, data⟩ =
    { details with alpn := (firstAlpn data).or details.alpn } := by
  simp [Ja4Details.note]

theorem note_versions : details.note ⟨0x002b, data⟩ =
    { details with maxVer := offeredVersion details.maxVer data } := by
  simp [Ja4Details.note]

theorem note_sigalgs : details.note ⟨0x000d, data⟩ =
    { details with sigalgs := details.sigalgs ++ readSigalgs data } := by
  simp [Ja4Details.note]

end Notes

/-- Of a server name it is only seen that it is there. -/
theorem see_serverName (seen : Ja4Seen) (data : List UInt8) :
    see seen ⟨0, data⟩ = (seen.1 ++ [0], { seen.2 with sni := true }) := by
  have plain : isGreaseVal 0 = false := by decide
  rw [see, note_sni, plain]
  rfl

theorem ClientHello.encode_eq (hello : ClientHello) :
    hello.encode = helloBytes
      (0x16 :: (bigEndian 2 hello.recordVersion.toNat ++ (bigEndian 2 hello.recordLength ++
        (0x01 :: (bigEndian 3 hello.bodyLength ++ (bigEndian 2 hello.version.toNat ++
          hello.random.1))))))
      hello.sessionId.1 hello.cipherSuites hello.compression hello.extensions := by
  have chain : encodeExtensions hello.extensions = hello.encodeChain := by
    simp only [encodeExtensions, extensions, List.flatMap_append, List.flatMap_cons, encodeChain]
    rfl
  have suites : u16s hello.cipherSuites = hello.encodeSuites := rfl
  have length : UInt8.ofNat hello.sessionId.1.length = 32 := by
    rw [hello.sessionId.2]
    rfl
  simp only [helloBytes, sized, chain, suites, length, encode, bytes, start, rest,
    extensionsLength, List.append_assoc, List.cons_append]

theorem ClientHello.Valid.ja4_encode {hello : ClientHello} {limit : ℕ} (valid : hello.Valid limit)
    (bounded : limit ≤ u16Max) (sha256 : List UInt8 → Bytes32) :
    ja4 sha256 hello.encode = done (ja4Of sha256 hello.cipherSuites hello.extensions) := by
  have small := valid.small bounded
  have chain : encodeExtensions hello.extensions = hello.encodeChain := by
    simp only [encodeExtensions, extensions, List.flatMap_append, List.flatMap_cons, encodeChain]
    rfl
  have suites : u16s hello.cipherSuites = hello.encodeSuites := rfl
  have extensions : hello.encodeChain.length = hello.extensionsLength := rfl
  rw [extensionsOffset] at small
  rw [encode_eq]
  apply ja4_helloBytes sha256
  · simp only [List.length_cons, List.length_append, bigEndian_length, hello.random.2]
  · rw [hello.sessionId.2]
    decide
  · rw [suites]
    omega
  · exact valid.compressionFits
  · rw [chain]
    omega

/--
A record which is written from a template has the fingerprint of the template, whatever
the server name, the session identifier and the random in it.
-/
theorem ja4_replayed (sha256 : List UInt8 → Bytes32) {limit : ℕ} (bounded : limit ≤ u16Max)
    {hello : ClientHello} (valid : hello.Valid limit) {host : List UInt8} (named : host ≠ [])
    (fits : hello.recordLength + host.length ≤ limit + hello.host.length)
    (sessionId random : Bytes32) :
    ∃ out fingerprint, buildFromTemplate hello.encode host sessionId random = done out ∧
      ja4 sha256 hello.encode = done fingerprint ∧ ja4 sha256 out = done fingerprint := by
  have still := valid.rewritten sessionId random named fits
  have same : ja4Of sha256 hello.cipherSuites (hello.rewritten host sessionId random).extensions =
      ja4Of sha256 hello.cipherSuites hello.extensions := by
    simp only [ja4Of, ClientHello.extensions, ClientHello.rewritten, List.foldl_append,
      List.foldl_cons, see_serverName]
  refine ⟨_, _, ClientHello.buildFromTemplate_encode valid bounded host sessionId random,
    valid.ja4_encode bounded sha256, ?_⟩
  rw [still.ja4_encode bounded sha256, ← same]
  rfl

theorem ja4_replayed_shortHello :
    ∃ out fingerprint,
      buildFromTemplate shortHello.encode [0x78] shortHello.random shortHello.sessionId =
          done out ∧
        ja4 (fun _ => shortHello.random) shortHello.encode = done fingerprint ∧
          ja4 (fun _ => shortHello.random) out = done fingerprint :=
  ja4_replayed _ (show 16384 ≤ u16Max by decide) shortHello_valid
    (show [0x78] ≠ [] by decide)
    (show shortHello.recordLength + [0x78].length ≤ 16384 + shortHello.host.length by decide) _ _

/-! ## Builders -/

section Builders

variable {sha256 : List UInt8 → Bytes32} {sessionId clientRandom : Bytes32}

theorem isGreaseVal_grease (grease : Grease) : isGreaseVal grease = true := by
  have all : greaseValues.all isGreaseVal = true := by decide
  exact List.all_eq_true.mp all grease grease.2

theorem wholePairs_u16s (values : List UInt16) : wholePairs (u16s values) = values := by
  induction values with
  | nil => rfl
  | cons value values ih =>
      have bound := value.toNat_lt
      have same : (value.toNat / 256 % 2 ^ 8) * 256 + value.toNat % 2 ^ 8 = value.toNat := by omega
      have split : u16s (value :: values) = UInt8.ofNat (value.toNat / 256) ::
          UInt8.ofNat value.toNat :: u16s values := rfl
      rw [split, wholePairs, ih, UInt8.toNat_ofNat', UInt8.toNat_ofNat', same, UInt16.ofNat_toNat]

theorem ja4_assemble {suites : List UInt16} {extensions : List Extension}
    (suites_fit : (u16s suites).length ≤ u16Max)
    (extensions_fit : (encodeExtensions extensions).length ≤ u16Max) :
    ja4 sha256 (assemble sessionId clientRandom (u16s suites) (encodeExtensions extensions)) =
      done (ja4Of sha256 suites extensions) := by
  let behind := UInt8.ofNat sessionId.1.length :: (sessionId.1 ++ (sized (u16s suites) ++
    ([0x01, 0x00] ++ sized (encodeExtensions extensions))))
  let helloBody := [0x03, 0x03] ++ (clientRandom.1 ++ behind)
  have view : assemble sessionId clientRandom (u16s suites) (encodeExtensions extensions) =
      helloBytes ([0x16, 0x03, 0x01] ++ (bigEndian 2
        (0x01 :: (bigEndian 3 helloBody.length ++ helloBody)).length ++ (0x01 ::
          (bigEndian 3 helloBody.length ++ ([0x03, 0x03] ++ clientRandom.1)))))
        sessionId.1 suites [0] extensions := by
    simp only [assemble, helloBytes, helloBody, behind, sized, List.append_assoc, List.cons_append]
    rfl
  rw [view]
  apply ja4_helloBytes sha256
  · simp only [List.length_cons, List.length_append, List.length_nil, bigEndian_length,
      clientRandom.2]
  · rw [sessionId.2]
    decide
  · exact suites_fit
  · decide
  · exact extensions_fit

/-- Extensions of these types as they are written -/
def splitExtensions (kinds : List UInt16) (written : List (List UInt8)) : List Extension :=
  List.zipWith (fun kind bytes => ⟨kind, bytes.drop 4⟩) kinds written

/-- Whether `ja4` looks into extensions of a type -/
def isRead (kind : UInt16) : Bool :=
  kind == 0x0000 || kind == 0x0010 || kind == 0x002b || kind == 0x000d

theorem foldl_note_filter (extensions : List Extension) (details : Ja4Details) :
    extensions.foldl Ja4Details.note details =
      (extensions.filter fun extension => isRead extension.kind).foldl Ja4Details.note details := by
  induction extensions generalizing details with
  | nil => rfl
  | cons extension extensions ih =>
      rw [List.filter_cons]
      cases read : isRead extension.kind with
      | true => rw [if_pos rfl, List.foldl_cons, List.foldl_cons, ih]
      | false =>
          simp only [isRead, Bool.or_eq_false_iff, beq_eq_false_iff_ne] at read
          have kept : details.note extension = details := by
            simp only [Ja4Details.note, read.1.1.1, read.1.1.2, read.1.2, read.2, if_false]
          rw [if_neg (by decide), List.foldl_cons, kept, ih]

/-- A version of GREASE in front of the others is passed. -/
theorem offeredVersion_grease (maxVer : UInt16) {vl : UInt8} (grease : Grease)
    {versions : List UInt16} (whole : (u16s (grease :: versions)).length ≤ vl.toNat) :
    offeredVersion maxVer (vl :: u16s (grease :: versions)) =
      versions.foldl greaterVersion maxVer := by
  have passed : greaterVersion maxVer grease = maxVer := by
    rw [greaterVersion, isGreaseVal_grease]
    rfl
  rw [offeredVersion, List.take_of_length_le whole, wholePairs_u16s, List.foldl_cons, passed]

theorem firstAlpn_alpn : firstAlpn alpn = some "h2" := by
  decide

theorem splitExtensions_kinds {kinds : List UInt16} {written : List (List UInt8)}
    (same_length : kinds.length = written.length) :
    (splitExtensions kinds written).map Extension.kind = kinds := by
  induction kinds generalizing written with
  | nil => rfl
  | cons kind kinds ih =>
      cases written with
      | nil => cases same_length
      | cons bytes written =>
          have later := ih (Nat.succ.inj same_length)
          rw [splitExtensions, List.zipWith_cons_cons, List.map_cons]
          exact congrArg (kind :: ·) later

theorem filter_plain {values : List UInt16} (plain : values.any isGreaseVal = false) :
    (values.filter fun v => !isGreaseVal v) = values := by
  rw [List.filter_eq_self]
  intro v member
  rw [Bool.not_eq_true', ← Bool.not_eq_true]
  exact List.any_eq_false.mp plain v member

theorem plainExtensions_eq {extensions : List Extension}
    (plain : (extensions.map Extension.kind).any isGreaseVal = false) :
    plainExtensions extensions = extensions := by
  rw [plainExtensions, List.filter_eq_self]
  intro extension member
  rw [Bool.not_eq_true', ← Bool.not_eq_true]
  exact List.any_eq_false.mp plain extension.kind (List.mem_map_of_mem member)

/-- The fingerprint of extensions which are written in any order, each type once -/
theorem ja4Of_written {suites kinds : List UInt16} {written : List (List UInt8)}
    {extensions read : List Extension} (same_length : kinds.length = written.length)
    (plain : kinds.any isGreaseVal = false) (distinct : kinds.Nodup)
    (order : (plainExtensions extensions).Perm (splitExtensions kinds written))
    (only : (splitExtensions kinds written).filter (fun extension => isRead extension.kind) =
      read) :
    ja4Of sha256 suites extensions =
      ja4Text sha256 (suites.filter fun c => !isGreaseVal c) kinds
        (read.foldl Ja4Details.note .start) := by
  have kinds_eq := splitExtensions_kinds same_length
  have all_plain : plainExtensions (splitExtensions kinds written) =
      splitExtensions kinds written :=
    plainExtensions_eq (by rw [kinds_eq]; exact plain)
  rw [ja4Of_perm sha256 (List.Perm.refl _) (all_plain.symm ▸ order)
    ((order.map Extension.kind).nodup_iff.mpr (kinds_eq.symm ▸ distinct))]
  rw [ja4Of, foldl_see, all_plain, List.nil_append, kinds_eq, foldl_note_filter, only]

end Builders

/-- The fingerprint of three texts, of which two are hashed -/
def ja4Joined (sha256 : List UInt8 → Bytes32) (a b c : String) : String :=
  a ++ "_" ++ h12 sha256 b ++ "_" ++ h12 sha256 c

theorem encodeExtensions_eq (extensions : List Extension) :
    encodeExtensions extensions =
      (extensions.map fun extension => ext extension.kind extension.data).flatten :=
  List.flatMap_def

section Suites

variable (grease : Grease)

theorem filter_grease {suites : List UInt16} (plain : suites.any isGreaseVal = false) :
    ((grease : UInt16) :: suites).filter (fun c => !isGreaseVal c) = suites := by
  rw [List.filter_cons, isGreaseVal_grease, filter_plain plain]
  rfl

theorem chromiumCiphers_plain : chromiumCiphers.any isGreaseVal = false := by
  decide

theorem inOrder_chromiumCiphers : commaHex (inOrder chromiumCiphers) =
    "002f,0035,009c,009d,1301,1302,1303,c013,c014,c02b,c02c,c02f,c030,cca8,cca9" := by
  decide

end Suites

/-- Two extensions of GREASE among others -/
theorem plainExtensions_ends (first last : Grease) (extensions more : List Extension)
    (data data' : List UInt8) :
    plainExtensions (⟨first, data⟩ :: (extensions ++ ⟨last, data'⟩ :: more)) =
      plainExtensions (extensions ++ more) := by
  simp [plainExtensions, isGreaseVal_grease]

/-- The extensions of a record which is not too long fit. -/
theorem ja4_assemble_of_length {sha256 : List UInt8 → Bytes32} {sessionId clientRandom : Bytes32}
    {suites : List UInt16} {extensions : List Extension}
    (fits : (assemble sessionId clientRandom (u16s suites)
      (encodeExtensions extensions)).length ≤ u16Max) :
    ja4 sha256 (assemble sessionId clientRandom (u16s suites) (encodeExtensions extensions)) =
      done (ja4Of sha256 suites extensions) := by
  rw [assemble_length] at fits
  exact ja4_assemble (by omega) (by omega)

/-! ### Chromium -/

section Chromium

def chromiumKinds : List UInt16 :=
  [0x002B, 0xFE0D, 0x000B, 0x0017, 0x000A, 0x002D, 0x0023, 0xFF01, 0x0010, 0x0005, 0x0012, 0x0000,
    0x44CD, 0x000D, 0x0033, 0x001B]

theorem chromiumKinds_plain : chromiumKinds.any isGreaseVal = false := by
  decide

def chromiumJa4 (sha256 : List UInt8 → Bytes32) : String :=
  ja4Joined sha256 "t13d1516h2"
    "002f,0035,009c,009d,1301,1302,1303,c013,c014,c02b,c02c,c02f,c030,cca8,cca9"
    ("0005,000a,000b,000d,0012,0017,001b,0023,002b,002d,0033,44cd,fe0d,ff01_" ++
      "0904,0905,0906,0403,0804,0401,0503,0805,0501,0806,0601")

variable {sha256 : List UInt8 → Bytes32}

theorem chromium_text :
    ja4Text sha256 chromiumCiphers chromiumKinds ⟨true, some "h2", readSigalgs sigalgs, 0x0304⟩ =
      chromiumJa4 sha256 := by
  have a : ja4A chromiumCiphers.length chromiumKinds.length
      ⟨true, some "h2", readSigalgs sigalgs, 0x0304⟩ = "t13d1516h2" := by decide
  have c : commaHex (hashedExts chromiumKinds) ++ "_" ++ commaHex (readSigalgs sigalgs) =
      "0005,000a,000b,000d,0012,0017,001b,0023,002b,002d,0033,44cd,fe0d,ff01_" ++
        "0904,0905,0906,0403,0804,0401,0503,0805,0501,0806,0601" := by decide
  rw [ja4Text, a, inOrder_chromiumCiphers, c, chromiumJa4, ja4Joined]

/-- The extensions between the two of GREASE -/
def chromiumExtensions (draws : ChromiumDraws) (sniBytes : List UInt8) : List Extension :=
  splitExtensions chromiumKinds (chromiumMiddle draws sniBytes)

theorem chromiumExtensions_written (draws : ChromiumDraws) (sniBytes : List UInt8) :
    (chromiumExtensions draws sniBytes).map (fun extension =>
      ext extension.kind extension.data) = chromiumMiddle draws sniBytes :=
  rfl

theorem chromiumExtensions_read (draws : ChromiumDraws) (sniBytes : List UInt8) :
    (chromiumExtensions draws sniBytes).filter (fun extension => isRead extension.kind) =
      [⟨0x002B, 6 :: u16s [draws.versions, 0x0304, 0x0303]⟩, ⟨0x0010, alpn⟩,
        ⟨0x0000, sniData sniBytes⟩, ⟨0x000D, sigalgs⟩] :=
  rfl

theorem chromium_details (draws : ChromiumDraws) (sniBytes : List UInt8) :
    [⟨0x002B, 6 :: u16s [draws.versions, 0x0304, 0x0303]⟩, ⟨0x0010, alpn⟩,
        ⟨0x0000, sniData sniBytes⟩, ⟨0x000D, sigalgs⟩].foldl Ja4Details.note .start =
      ⟨true, some "h2", readSigalgs sigalgs, 0x0304⟩ := by
  have version := @offeredVersion_grease 0x0303 6 draws.versions [0x0304, 0x0303]
    (by rw [u16s_length]; exact Nat.le_refl 6)
  simp only [List.foldl_cons, List.foldl_nil, note_sni, note_alpn, note_versions, note_sigalgs,
    Ja4Details.start, version, firstAlpn_alpn, List.nil_append]
  rfl

/-- All extensions in the order which was drawn -/
def chromiumOrder (draws : ChromiumDraws) (sniBytes : List UInt8) : List Extension :=
  ⟨draws.ends.first, []⟩ ::
    (shuffle draws.order (chromiumExtensions draws sniBytes) ++ [⟨draws.ends.last, [0x00]⟩])

theorem buildChromium_eq (draws : ChromiumDraws) (sniBytes : List UInt8)
    (sessionId clientRandom : Bytes32) :
    buildChromium draws sniBytes sessionId clientRandom =
      assemble sessionId clientRandom (u16s (draws.cipherGrease :: chromiumCiphers))
        (encodeExtensions (chromiumOrder draws sniBytes)) := by
  rw [encodeExtensions_eq, chromiumOrder, List.map_cons, List.map_append, ← shuffle_map,
    chromiumExtensions_written, List.flatten_cons, List.flatten_append]
  rfl

theorem chromiumOrder_perm (draws : ChromiumDraws) (sniBytes : List UInt8) :
    (plainExtensions (chromiumOrder draws sniBytes)).Perm (chromiumExtensions draws sniBytes) := by
  have plain : plainExtensions (chromiumExtensions draws sniBytes) =
      chromiumExtensions draws sniBytes :=
    plainExtensions_eq chromiumKinds_plain
  have order : (plainExtensions (shuffle draws.order (chromiumExtensions draws sniBytes))).Perm
      (plainExtensions (chromiumExtensions draws sniBytes)) :=
    (shuffle_perm draws.order _).filter _
  rw [plain] at order
  rw [chromiumOrder, plainExtensions_ends, List.append_nil]
  exact order

theorem ja4_buildChromium (draws : ChromiumDraws) {sniBytes : List UInt8}
    (short : sniBytes.length ≤ 60000) (sessionId clientRandom : Bytes32) :
    ja4 sha256 (buildChromium draws sniBytes sessionId clientRandom) =
      done (chromiumJa4 sha256) := by
  have length := buildChromium_length sniBytes sessionId clientRandom draws
  have written := @ja4Of_written sha256 (draws.cipherGrease :: chromiumCiphers) chromiumKinds
    (chromiumMiddle draws sniBytes) _ _ rfl chromiumKinds_plain (by decide)
    (chromiumOrder_perm draws sniBytes) (chromiumExtensions_read draws sniBytes)
  rw [filter_grease draws.cipherGrease chromiumCiphers_plain, chromium_details,
    chromium_text] at written
  rw [buildChromium_eq] at length ⊢
  rw [ja4_assemble_of_length (by rw [length, u16Max]; omega), written]

end Chromium

/-! ### Firefox -/

section Firefox

variable {sha256 : List UInt8 → Bytes32}

def firefoxKinds : List UInt16 :=
  [0x0000, 0x0017, 0xFF01, 0x000A, 0x000B, 0x0023, 0x0010, 0x0005, 0x0022, 0x0012, 0x0033, 0x002B,
    0x000D, 0x002D, 0x001C, 0x001B, 0xFE0D]

theorem firefoxKinds_plain : firefoxKinds.any isGreaseVal = false := by
  decide

def firefoxJa4 (sha256 : List UInt8 → Bytes32) : String :=
  ja4Joined sha256 "t13d1617h2"
    "002f,0035,009c,009d,1301,1302,1303,c00a,c013,c014,c02b,c02c,c02f,c030,cca8,cca9"
    ("0005,000a,000b,000d,0012,0017,001b,001c,0022,0023,002b,002d,0033,fe0d,ff01_" ++
      "0403,0503,0603,0804,0805,0806,0401,0501,0601,0203,0201")

theorem firefox_text :
    ja4Text sha256 (firefoxCiphers.filter fun c => !isGreaseVal c) firefoxKinds
        ⟨true, some "h2", readSigalgs firefoxSigalgs, 0x0304⟩ =
      firefoxJa4 sha256 := by
  have plain : firefoxCiphers.filter (fun c => !isGreaseVal c) = firefoxCiphers :=
    filter_plain (by decide)
  have a : ja4A firefoxCiphers.length firefoxKinds.length
      ⟨true, some "h2", readSigalgs firefoxSigalgs, 0x0304⟩ = "t13d1617h2" := by decide
  have b : commaHex (inOrder firefoxCiphers) =
      "002f,0035,009c,009d,1301,1302,1303,c00a,c013,c014,c02b,c02c,c02f,c030,cca8,cca9" := by
    decide
  have c : commaHex (hashedExts firefoxKinds) ++ "_" ++ commaHex (readSigalgs firefoxSigalgs) =
      "0005,000a,000b,000d,0012,0017,001b,001c,0022,0023,002b,002d,0033,fe0d,ff01_" ++
        "0403,0503,0603,0804,0805,0806,0401,0501,0601,0203,0201" := by decide
  rw [plain, ja4Text, a, b, c, firefoxJa4, ja4Joined]

theorem firefoxExtensions_written (draws : FirefoxDraws) (sniBytes : List UInt8) :
    (splitExtensions firefoxKinds (firefoxExtensions draws sniBytes)).map (fun extension =>
      ext extension.kind extension.data) = firefoxExtensions draws sniBytes :=
  rfl

theorem firefoxExtensions_read (draws : FirefoxDraws) (sniBytes : List UInt8) :
    (splitExtensions firefoxKinds (firefoxExtensions draws sniBytes)).filter
        (fun extension => isRead extension.kind) =
      [⟨0x0000, sniData sniBytes⟩, ⟨0x0010, alpn⟩, ⟨0x002B, [0x04, 0x03, 0x04, 0x03, 0x03]⟩,
        ⟨0x000D, firefoxSigalgs⟩] :=
  rfl

theorem firefox_details (sniBytes : List UInt8) :
    [⟨0x0000, sniData sniBytes⟩, ⟨0x0010, alpn⟩, ⟨0x002B, [0x04, 0x03, 0x04, 0x03, 0x03]⟩,
        ⟨0x000D, firefoxSigalgs⟩].foldl Ja4Details.note .start =
      ⟨true, some "h2", readSigalgs firefoxSigalgs, 0x0304⟩ := by
  have version : offeredVersion 0x0303 [0x04, 0x03, 0x04, 0x03, 0x03] = 0x0304 := by
    decide
  simp only [List.foldl_cons, List.foldl_nil, note_sni, note_alpn, note_versions, note_sigalgs,
    Ja4Details.start, version, firstAlpn_alpn, List.nil_append]
  rfl

theorem ja4_buildFirefox (draws : FirefoxDraws) {sniBytes : List UInt8}
    (short : sniBytes.length ≤ 60000) (sessionId clientRandom : Bytes32) :
    ja4 sha256 (buildFirefox draws sniBytes sessionId clientRandom) =
      done (firefoxJa4 sha256) := by
  have length := buildFirefox_length sniBytes sessionId clientRandom draws
  let extensions := splitExtensions firefoxKinds (firefoxExtensions draws sniBytes)
  have plain : plainExtensions extensions = extensions :=
    plainExtensions_eq firefoxKinds_plain
  have written := @ja4Of_written sha256 firefoxCiphers firefoxKinds
    (firefoxExtensions draws sniBytes) extensions _ rfl firefoxKinds_plain (by decide)
    (List.Perm.of_eq plain) (firefoxExtensions_read draws sniBytes)
  rw [firefox_details, firefox_text] at written
  have built : buildFirefox draws sniBytes sessionId clientRandom =
      assemble sessionId clientRandom (u16s firefoxCiphers) (encodeExtensions extensions) := by
    rw [encodeExtensions_eq, firefoxExtensions_written]
    rfl
  rw [built] at length ⊢
  rw [ja4_assemble_of_length (by rw [length, u16Max]; omega), written]

end Firefox

/-! ### OkHttp -/

section Okhttp

variable {sha256 : List UInt8 → Bytes32}

def okhttpKinds : List UInt16 :=
  [0x0000, 0x0017, 0xFF01, 0x000A, 0x000B, 0x0023, 0x0010, 0x0005, 0x000D, 0x0012, 0x0033, 0x002D,
    0x002B, 0x001B]

def okhttpJa4 (sha256 : List UInt8 → Bytes32) (padded : Bool) : String :=
  ja4Joined sha256 (if padded then "t13d1515h2" else "t13d1514h2")
    "002f,0035,009c,009d,1301,1302,1303,c013,c014,c02b,c02c,c02f,c030,cca8,cca9"
    ("0005,000a,000b,000d,0012," ++ (if padded then "0015," else "") ++
      "0017,001b,0023,002b,002d,0033,ff01_0403,0804,0401,0503,0805,0501,0806,0601")

/-- The types with padding or without -/
def paddedKinds (padded : Bool) : List UInt16 :=
  okhttpKinds ++ if padded then [0x0015] else []

theorem paddedKinds_plain (padded : Bool) : (paddedKinds padded).any isGreaseVal = false := by
  cases padded <;> decide

theorem okhttp_text (padded : Bool) :
    ja4Text sha256 chromiumCiphers (paddedKinds padded)
        ⟨true, some "h2", readSigalgs okhttpSigalgs, 0x0304⟩ =
      okhttpJa4 sha256 padded := by
  have a : ja4A chromiumCiphers.length (paddedKinds padded).length
      ⟨true, some "h2", readSigalgs okhttpSigalgs, 0x0304⟩ =
        if padded then "t13d1515h2" else "t13d1514h2" := by
    cases padded <;> decide
  have c : commaHex (hashedExts (paddedKinds padded)) ++ "_" ++
      commaHex (readSigalgs okhttpSigalgs) =
        "0005,000a,000b,000d,0012," ++ (if padded then "0015," else "") ++
          "0017,001b,0023,002b,002d,0033,ff01_0403,0804,0401,0503,0805,0501,0806,0601" := by
    cases padded <;> decide
  rw [ja4Text, a, inOrder_chromiumCiphers, c, okhttpJa4, ja4Joined]

/-- What stands between the two extensions of GREASE -/
def okhttpMiddle (draws : OkhttpDraws) (sniBytes : List UInt8) : List (List UInt8) :=
  ((okhttpExtensions draws sniBytes).drop 1).take 14

/-- All extensions, with padding of this data or without -/
def okhttpOrder (draws : OkhttpDraws) (sniBytes : List UInt8) (padding : Option (List UInt8)) :
    List Extension :=
  ⟨draws.ends.first, []⟩ :: (splitExtensions okhttpKinds (okhttpMiddle draws sniBytes) ++
    ⟨draws.ends.last, [0x00]⟩ :: (padding.map (Extension.mk 0x0015)).toList)

theorem okhttp_details (draws : OkhttpDraws) (sniBytes : List UInt8) :
    [⟨0x0000, sniData sniBytes⟩, ⟨0x0010, alpn⟩, ⟨0x000D, okhttpSigalgs⟩,
        ⟨0x002B, 10 :: u16s [draws.versions, 0x0304, 0x0303, 0x0302, 0x0301]⟩].foldl
          Ja4Details.note .start =
      ⟨true, some "h2", readSigalgs okhttpSigalgs, 0x0304⟩ := by
  have version := @offeredVersion_grease 0x0303 10 draws.versions
    [0x0304, 0x0303, 0x0302, 0x0301] (by rw [u16s_length]; exact Nat.le_refl 10)
  simp only [List.foldl_cons, List.foldl_nil, note_sni, note_alpn, note_versions, note_sigalgs,
    Ja4Details.start, version, firstAlpn_alpn, List.nil_append]
  rfl

theorem ja4Of_okhttpOrder (draws : OkhttpDraws) (sniBytes : List UInt8)
    (padding : Option (List UInt8)) :
    ja4Of sha256 (draws.cipherGrease :: chromiumCiphers) (okhttpOrder draws sniBytes padding) =
      okhttpJa4 sha256 padding.isSome := by
  let written := okhttpMiddle draws sniBytes ++ (padding.map (ext 0x0015)).toList
  have split : splitExtensions okhttpKinds (okhttpMiddle draws sniBytes) ++
      (padding.map (Extension.mk 0x0015)).toList =
        splitExtensions (paddedKinds padding.isSome) written := by
    cases padding <;> rfl
  have same_length : (paddedKinds padding.isSome).length = written.length := by
    cases padding <;> rfl
  have plain : plainExtensions (okhttpOrder draws sniBytes padding) =
      splitExtensions (paddedKinds padding.isSome) written := by
    rw [okhttpOrder, plainExtensions_ends, split]
    apply plainExtensions_eq
    rw [splitExtensions_kinds same_length]
    exact paddedKinds_plain padding.isSome
  have distinct : (paddedKinds padding.isSome).Nodup := by
    cases padding.isSome <;> decide
  have only : (splitExtensions (paddedKinds padding.isSome) written).filter
      (fun extension => isRead extension.kind) =
        [⟨0x0000, sniData sniBytes⟩, ⟨0x0010, alpn⟩, ⟨0x000D, okhttpSigalgs⟩,
          ⟨0x002B, 10 :: u16s [draws.versions, 0x0304, 0x0303, 0x0302, 0x0301]⟩] := by
    cases padding <;> rfl
  rw [ja4Of_written same_length (paddedKinds_plain padding.isSome) distinct
    (List.Perm.of_eq plain) only, filter_grease draws.cipherGrease chromiumCiphers_plain,
    okhttp_details, okhttp_text]

theorem encode_okhttpOrder (draws : OkhttpDraws) (sniBytes : List UInt8)
    (padding : Option (List UInt8)) :
    encodeExtensions (okhttpOrder draws sniBytes padding) =
      (okhttpExtensions draws sniBytes).flatten ++ (padding.map (ext 0x0015)).getD [] := by
  have written : encodeExtensions (okhttpOrder draws sniBytes none) =
      (okhttpExtensions draws sniBytes).flatten :=
    (encodeExtensions_eq _).trans (congrArg List.flatten rfl)
  cases padding with
  | none => exact written.trans (List.append_nil _).symm
  | some data =>
      have behind : okhttpOrder draws sniBytes (some data) =
          okhttpOrder draws sniBytes none ++ [⟨0x0015, data⟩] := by
        simp [okhttpOrder]
      rw [behind, encodeExtensions, List.flatMap_append, ← encodeExtensions, written]
      simp

/-- The padding which fills a record up to its target -/
def okhttpPadding (sniBytes : List UInt8) : Option (List UInt8) :=
  if sniBytes.length < 220 then some (List.replicate (220 - sniBytes.length) 0) else none

theorem buildOkhttp_eq (draws : OkhttpDraws) (sniBytes : List UInt8)
    (sessionId clientRandom : Bytes32) :
    buildOkhttp draws sniBytes sessionId clientRandom =
      assemble sessionId clientRandom (u16s (draws.cipherGrease :: chromiumCiphers))
        (encodeExtensions (okhttpOrder draws sniBytes (okhttpPadding sniBytes))) := by
  have trial : (assemble sessionId clientRandom (u16s (draws.cipherGrease :: chromiumCiphers))
      (okhttpExtensions draws sniBytes).flatten).length = 293 + sniBytes.length := by
    rw [assemble_length, u16s_length, okhttpExtensions_length]
    exact (by omega : ∀ n, 82 + 2 * 16 + (179 + n) = 293 + n) sniBytes.length
  have target : okhttpPadTarget = 512 := rfl
  simp only [buildOkhttp, trial, encode_okhttpOrder, okhttpPadding, target]
  by_cases short : sniBytes.length < 220
  · have left : 512 - (293 + sniBytes.length - 5) - 4 = 220 - sniBytes.length := by omega
    rw [if_pos short, if_pos (by omega), left]
    rfl
  · rw [if_neg short, if_neg (by omega)]
    rfl

theorem ja4_buildOkhttp (draws : OkhttpDraws) {sniBytes : List UInt8}
    (short : sniBytes.length ≤ 60000) (sessionId clientRandom : Bytes32) :
    ja4 sha256 (buildOkhttp draws sniBytes sessionId clientRandom) =
      done (okhttpJa4 sha256 (sniBytes.length < 220)) := by
  have length := buildOkhttp_length sniBytes sessionId clientRandom draws
  have padded : (okhttpPadding sniBytes).isSome = decide (sniBytes.length < 220) := by
    rw [okhttpPadding]
    split <;> simp_all
  have fits : (buildOkhttp draws sniBytes sessionId clientRandom).length ≤ u16Max := by
    rw [length, u16Max, okhttpPadTarget]
    split <;> omega
  rw [buildOkhttp_eq] at fits ⊢
  rw [ja4_assemble_of_length fits, ja4Of_okhttpOrder, padded]

end Okhttp

/--
All records which one builder writes have one fingerprint, that of the browser, whatever it
draws and in which order, and whatever the server name, the session identifier and the random
are.  The one of OkHttp has two: the padding shows in it, which a long name leaves no room for.
-/
theorem ja4_builders (sha256 : List UInt8 → Bytes32) {sniBytes : List UInt8}
    (short : sniBytes.length ≤ 60000) (sessionId clientRandom : Bytes32) :
    (∀ draws, ja4 sha256 (buildChromium draws sniBytes sessionId clientRandom) =
        done (chromiumJa4 sha256)) ∧
      (∀ draws, ja4 sha256 (buildFirefox draws sniBytes sessionId clientRandom) =
        done (firefoxJa4 sha256)) ∧
      ∀ draws, ja4 sha256 (buildOkhttp draws sniBytes sessionId clientRandom) =
        done (okhttpJa4 sha256 (sniBytes.length < 220)) :=
  ⟨fun draws => ja4_buildChromium draws short sessionId clientRandom,
    fun draws => ja4_buildFirefox draws short sessionId clientRandom,
    fun draws => ja4_buildOkhttp draws short sessionId clientRandom⟩

def drawnGrease : Grease :=
  ⟨0x2A2A, by decide⟩

def plainDraws : OkhttpDraws where
  cipherGrease := drawnGrease
  ends := ⟨drawnGrease, ⟨0x3A3A, by decide⟩, by decide⟩
  groups := drawnGrease
  keyShareGrease := drawnGrease
  x := shortHello.random
  versions := drawnGrease

theorem ja4_builders_plainDraws :
    ja4 (fun _ => shortHello.random)
        (buildOkhttp plainDraws [0x61] shortHello.sessionId shortHello.random) =
      done "t13d1515h2_222222222222_222222222222" := by
  have text : okhttpJa4 (fun _ => shortHello.random) true =
      "t13d1515h2_222222222222_222222222222" := by decide
  rw [← text]
  exact (ja4_builders (fun _ => shortHello.random) (show [0x61].length ≤ 60000 by decide)
    shortHello.sessionId shortHello.random).2.2 plainDraws

end Mirage.Crypto
