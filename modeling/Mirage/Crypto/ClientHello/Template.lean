import Mirage.Crypto.ClientHello
import Mirage.Foundations.Text

/-!
# Rewriting a ClientHello

A ClientHello is a structure here, with a server name among its other
extensions, and its record is what `encode` writes.  A template is rewritten to
the record of the structure with the new random, session identifier and server
name.  That record is well formed as long as it does not become too long: its
three lengths are written with 16, 24 and 16 bits, and wrap past them.
-/

namespace Mirage.Crypto

open Mirage.Foundations
open Mirage.Foundations.Checked (done index get slice overwrite)

structure Extension where
  kind : UInt16
  data : List UInt8
  deriving DecidableEq, Repr

def encodeExtensions (extensions : List Extension) : List UInt8 :=
  extensions.flatMap fun extension => ext extension.kind extension.data

/-- A ClientHello with a server name, which stands between other extensions. -/
structure ClientHello where
  recordVersion : UInt16
  version : UInt16
  random : Bytes32
  sessionId : Bytes32
  cipherSuites : List UInt16
  compression : List UInt8
  before : List Extension
  host : List UInt8
  after : List Extension
  deriving DecidableEq, Repr

namespace ClientHello

def encodeSuites (hello : ClientHello) : List UInt8 :=
  hello.cipherSuites.flatMap fun suite => bigEndian 2 suite.toNat

def encodeChain (hello : ClientHello) : List UInt8 :=
  encodeExtensions hello.before ++ (sniExt hello.host ++ encodeExtensions hello.after)

/-- The record up to the end of the session identifier -/
def start (hello : ClientHello) (recordLength bodyLength : ℕ) : List UInt8 :=
  0x16 :: (bigEndian 2 hello.recordVersion.toNat ++ (bigEndian 2 recordLength ++
    (0x01 :: (bigEndian 3 bodyLength ++ (bigEndian 2 hello.version.toNat ++
      (hello.random.1 ++ (32 :: hello.sessionId.1)))))))

/-- The record from there on -/
def rest (hello : ClientHello) (extensionsLength : ℕ) : List UInt8 :=
  bigEndian 2 hello.encodeSuites.length ++ (hello.encodeSuites ++
    (UInt8.ofNat hello.compression.length :: (hello.compression ++
      (bigEndian 2 extensionsLength ++ hello.encodeChain))))

/-- The record, with what is written for its three lengths -/
def bytes (hello : ClientHello) (recordLength bodyLength extensionsLength : ℕ) : List UInt8 :=
  hello.start recordLength bodyLength ++ hello.rest extensionsLength

def extensionsLength (hello : ClientHello) : ℕ :=
  hello.encodeChain.length

/-- Where the length of the extensions stands -/
def extensionsOffset (hello : ClientHello) : ℕ :=
  44 + 32 + (2 + hello.encodeSuites.length) + (1 + hello.compression.length)

def bodyLength (hello : ClientHello) : ℕ :=
  hello.extensionsOffset + 2 + hello.extensionsLength - 9

def recordLength (hello : ClientHello) : ℕ :=
  hello.extensionsOffset + 2 + hello.extensionsLength - 5

def encode (hello : ClientHello) : List UInt8 :=
  hello.bytes hello.recordLength hello.bodyLength hello.extensionsLength

/-- A well-formed record of at most `limit` bytes -/
structure Valid (limit : ℕ) (hello : ClientHello) : Prop where
  suites : hello.cipherSuites ≠ []
  compression : hello.compression ≠ []
  compressionFits : hello.compression.length ≤ u8Max
  named : hello.host ≠ []
  distinct : (0 :: (hello.before ++ hello.after).map Extension.kind).Nodup
  fits : hello.recordLength ≤ limit

/-- The structure with other dynamic fields -/
def rewritten (hello : ClientHello) (host : List UInt8) (sessionId random : Bytes32) :
    ClientHello :=
  { hello with random := random, sessionId := sessionId, host := host }

end ClientHello

/-! ## Numbers in a record -/

theorem bigEndian_two (n : ℕ) : bigEndian 2 n = [UInt8.ofNat (n / 256), UInt8.ofNat n] := rfl

theorem bigEndian_three (n : ℕ) :
    bigEndian 3 n = [UInt8.ofNat (n / 256 / 256), UInt8.ofNat (n / 256), UInt8.ofNat n] := rfl

section Numbers

variable {before after : List UInt8} {off n m : ℕ} {delta : ℤ}

theorem u16be_append (fits : n ≤ u16Max) (at_end : off = before.length) :
    u16be (before ++ (bigEndian 2 n ++ after)) off = done n := by
  have low : get (before ++ (bigEndian 2 n ++ after)) (off + 1) = done (UInt8.ofNat n) := by
    rw [bigEndian_two, List.cons_append, List.append_cons]
    apply Checked.get_append
    rw [List.length_append, at_end]
    rfl
  have high : get (before ++ (bigEndian 2 n ++ after)) off = done (UInt8.ofNat (n / 256)) :=
    Checked.get_append at_end
  rw [u16be, high, Checked.done_bind, low, Checked.done_bind, Checked.pure_eq, UInt8.toNat_ofNat',
    UInt8.toNat_ofNat']
  rw [u16Max] at fits
  congr 1
  omega

/-- A length is patched to the sum. -/
theorem patchU16_append (fits : n ≤ u16Max) (at_end : off = before.length)
    (sum : (m : ℤ) = n + delta) :
    patchU16 (before ++ (bigEndian 2 n ++ after)) off delta =
      done (before ++ (bigEndian 2 m ++ after)) := by
  have low : index (before ++ (bigEndian 2 n ++ after)) (off + 1) = done (UInt8.ofNat n) := by
    rw [bigEndian_two, List.cons_append, List.append_cons]
    apply Checked.index_append
    rw [List.length_append, at_end]
    rfl
  have high : index (before ++ (bigEndian 2 n ++ after)) off = done (UInt8.ofNat (n / 256)) :=
    Checked.index_append at_end
  have value : bigEndian 2 (((((UInt8.ofNat (n / 256)).toNat * 256 +
      (UInt8.ofNat n).toNat : ℕ) : ℤ) + delta) % 2 ^ 16).toNat = bigEndian 2 m := by
    rw [UInt8.toNat_ofNat', UInt8.toNat_ofNat', bigEndian_two, bigEndian_two, List.cons.injEq,
      List.cons.injEq, ← UInt8.toNat_inj, ← UInt8.toNat_inj]
    simp only [UInt8.toNat_ofNat', and_true]
    rw [u16Max] at fits
    omega
  simp only [patchU16, high, low, Checked.done_bind, value]
  exact Checked.overwrite_append at_end rfl

theorem patchU24_append (fits : n < 2 ^ 24) (at_end : off = before.length)
    (sum : (m : ℤ) = n + delta) :
    patchU24 (before ++ (bigEndian 3 n ++ after)) off delta =
      done (before ++ (bigEndian 3 m ++ after)) := by
  have low : index (before ++ (bigEndian 3 n ++ after)) (off + 2) = done (UInt8.ofNat n) := by
    rw [bigEndian_three, List.cons_append, List.cons_append, List.append_cons, List.append_cons]
    apply Checked.index_append
    rw [List.length_append, List.length_append, at_end]
    rfl
  have middle : index (before ++ (bigEndian 3 n ++ after)) (off + 1) =
      done (UInt8.ofNat (n / 256)) := by
    rw [bigEndian_three, List.cons_append, List.append_cons]
    apply Checked.index_append
    rw [List.length_append, at_end]
    rfl
  have high : index (before ++ (bigEndian 3 n ++ after)) off =
      done (UInt8.ofNat (n / 256 / 256)) :=
    Checked.index_append at_end
  have value : bigEndian 3 (((((UInt8.ofNat (n / 256 / 256)).toNat * 2 ^ 16 +
      (UInt8.ofNat (n / 256)).toNat * 2 ^ 8 + (UInt8.ofNat n).toNat : ℕ) : ℤ) + delta) %
        2 ^ 32).toNat = bigEndian 3 m := by
    simp only [bigEndian_three, List.cons.injEq, ← UInt8.toNat_inj, UInt8.toNat_ofNat', and_true]
    omega
  simp only [patchU24, high, middle, low, Checked.done_bind, value]
  exact Checked.overwrite_append at_end rfl

end Numbers

namespace ClientHello

section Record

variable (hello : ClientHello) {rl bl el m : ℕ} {delta : ℤ}

theorem start_length : (hello.start rl bl).length = 44 + 32 := by
  have random_length := hello.random.2
  have sessionId_length := hello.sessionId.2
  simp only [start, List.length_cons, List.length_append, bigEndian_length, random_length,
    sessionId_length]

theorem index_kind : index (hello.bytes rl bl el) 0 = done 0x16 := rfl

theorem index_handshake : index (hello.bytes rl bl el) 5 = done 0x01 := rfl

theorem index_sessionIdLength : index (hello.bytes rl bl el) 43 = done 32 := by
  have view : hello.bytes rl bl el = (0x16 :: (bigEndian 2 hello.recordVersion.toNat ++
      (bigEndian 2 rl ++ (0x01 :: (bigEndian 3 bl ++ (bigEndian 2 hello.version.toNat ++
        hello.random.1)))))) ++ 32 :: (hello.sessionId.1 ++ hello.rest el) := by
    simp only [bytes, start, List.cons_append, List.append_assoc]
  rw [view]
  apply Checked.index_append
  simp only [List.length_cons, List.length_append, bigEndian_length, hello.random.2]

theorem u16be_suites (fits : hello.encodeSuites.length ≤ u16Max) :
    u16be (hello.bytes rl bl el) (44 + 32) = done hello.encodeSuites.length :=
  u16be_append fits hello.start_length.symm

/-- The record up to the compression methods -/
theorem bytes_eq_compression :
    hello.bytes rl bl el =
      (hello.start rl bl ++ (bigEndian 2 hello.encodeSuites.length ++ hello.encodeSuites)) ++
        UInt8.ofNat hello.compression.length :: (hello.compression ++
          (bigEndian 2 el ++ hello.encodeChain)) := by
  simp only [bytes, rest, List.append_assoc]

theorem get_compression :
    get (hello.bytes rl bl el) (44 + 32 + (2 + hello.encodeSuites.length)) =
      done (UInt8.ofNat hello.compression.length) := by
  rw [bytes_eq_compression]
  apply Checked.get_append
  simp only [List.length_append, start_length, bigEndian_length]

/-- The record up to the length of the extensions -/
def upToExtensions (rl bl : ℕ) : List UInt8 :=
  hello.start rl bl ++ (bigEndian 2 hello.encodeSuites.length ++ (hello.encodeSuites ++
    (UInt8.ofNat hello.compression.length :: hello.compression)))

theorem bytes_eq_extensions :
    hello.bytes rl bl el =
      hello.upToExtensions rl bl ++ (bigEndian 2 el ++ hello.encodeChain) := by
  simp only [bytes, rest, upToExtensions, List.append_assoc, List.cons_append]

theorem upToExtensions_length : (hello.upToExtensions rl bl).length = hello.extensionsOffset := by
  simp only [upToExtensions, extensionsOffset, List.length_append, List.length_cons, start_length,
    bigEndian_length]
  omega

theorem u16be_extensions (fits : el ≤ u16Max) :
    u16be (hello.bytes rl bl el) hello.extensionsOffset = done el := by
  rw [bytes_eq_extensions]
  exact u16be_append fits hello.upToExtensions_length.symm

theorem bytes_length :
    (hello.bytes rl bl el).length = hello.extensionsOffset + 2 + hello.extensionsLength := by
  rw [bytes_eq_extensions, List.length_append, List.length_append, upToExtensions_length,
    bigEndian_length, extensionsLength, Nat.add_assoc]

/-! ### What is written over it -/

theorem overwrite_random (random : Bytes32) :
    overwrite (hello.bytes rl bl el) 11 random.1 =
      done (({ hello with random := random } : ClientHello).bytes rl bl el) := by
  have view (random : Bytes32) : ({ hello with random := random } : ClientHello).bytes rl bl el =
      (0x16 :: (bigEndian 2 hello.recordVersion.toNat ++ (bigEndian 2 rl ++ (0x01 ::
        (bigEndian 3 bl ++ bigEndian 2 hello.version.toNat))))) ++
          (random.1 ++ (32 :: (hello.sessionId.1 ++ hello.rest el))) := by
    simp only [bytes, start, List.cons_append, List.append_assoc]
    rfl
  rw [show hello.bytes rl bl el = _ from view hello.random, view random]
  apply Checked.overwrite_append
  · rfl
  · rw [random.2, hello.random.2]

theorem overwrite_sessionId (sessionId : Bytes32) :
    overwrite (hello.bytes rl bl el) 44 sessionId.1 =
      done (({ hello with sessionId := sessionId } : ClientHello).bytes rl bl el) := by
  have view (sessionId : Bytes32) :
      ({ hello with sessionId := sessionId } : ClientHello).bytes rl bl el =
        (0x16 :: (bigEndian 2 hello.recordVersion.toNat ++ (bigEndian 2 rl ++ (0x01 ::
          (bigEndian 3 bl ++ (bigEndian 2 hello.version.toNat ++ (hello.random.1 ++ [32]))))))) ++
            (sessionId.1 ++ hello.rest el) := by
    simp only [bytes, start, List.cons_append, List.append_assoc, List.nil_append]
    rfl
  rw [show hello.bytes rl bl el = _ from view hello.sessionId, view sessionId]
  apply Checked.overwrite_append
  · simp only [List.length_cons, List.length_append, bigEndian_length, hello.random.2,
      List.length_nil]
  · rw [sessionId.2, hello.sessionId.2]

theorem bytes_eq_record :
    hello.bytes rl bl el =
      (0x16 :: bigEndian 2 hello.recordVersion.toNat) ++ (bigEndian 2 rl ++ (0x01 ::
        (bigEndian 3 bl ++ (bigEndian 2 hello.version.toNat ++ (hello.random.1 ++
          (32 :: (hello.sessionId.1 ++ hello.rest el))))))) := by
  simp only [bytes, start, List.cons_append, List.append_assoc]

theorem bytes_eq_body :
    hello.bytes rl bl el =
      (0x16 :: (bigEndian 2 hello.recordVersion.toNat ++ (bigEndian 2 rl ++ [0x01]))) ++
        (bigEndian 3 bl ++ (bigEndian 2 hello.version.toNat ++ (hello.random.1 ++
          (32 :: (hello.sessionId.1 ++ hello.rest el))))) := by
  simp only [bytes, start, List.cons_append, List.append_assoc, List.nil_append]

theorem patch_record (fits : rl ≤ u16Max) (sum : (m : ℤ) = rl + delta) :
    patchU16 (hello.bytes rl bl el) 3 delta = done (hello.bytes m bl el) := by
  rw [bytes_eq_record, bytes_eq_record]
  exact patchU16_append fits rfl sum

theorem patch_body (fits : bl < 2 ^ 24) (sum : (m : ℤ) = bl + delta) :
    patchU24 (hello.bytes rl bl el) 6 delta = done (hello.bytes rl m el) := by
  rw [bytes_eq_body, bytes_eq_body]
  exact patchU24_append fits rfl sum

theorem patch_extensions (fits : el ≤ u16Max) (sum : (m : ℤ) = el + delta) :
    patchU16 (hello.bytes rl bl el) hello.extensionsOffset delta = done (hello.bytes rl bl m) := by
  rw [bytes_eq_extensions, bytes_eq_extensions]
  exact patchU16_append fits hello.upToExtensions_length.symm sum

end Record

end ClientHello

/-! ## The walk along the extensions -/

theorem length_of_mem_extensions {extensions : List Extension} {extension : Extension}
    (member : extension ∈ extensions) :
    4 + extension.data.length ≤ (encodeExtensions extensions).length := by
  rw [← ext_length extension.kind]
  have encoded : ext extension.kind extension.data ∈
      extensions.map fun extension => ext extension.kind extension.data :=
    List.mem_map_of_mem member
  exact (List.sublist_flatten_of_mem encoded).length_le

/-- One turn of the walk reads the type and the length of an extension. -/
theorem findServerName_step {left right data : List UInt8} {extType : UInt16} {extEnd p : ℕ}
    (fits : data.length ≤ u16Max) (at_end : p = left.length) (inside : p + 4 ≤ extEnd) :
    findServerName (left ++ (ext extType data ++ right)) extEnd p =
      if extType = 0 then done (p, 4 + data.length)
      else findServerName (left ++ (ext extType data ++ right)) extEnd (p + (4 + data.length)) := by
  have kind_fits : extType.toNat ≤ u16Max := by
    have bound := extType.toNat_lt
    rw [u16Max]
    omega
  have kind : u16be (left ++ (ext extType data ++ right)) p = done extType.toNat := by
    rw [ext, List.append_assoc]
    exact u16be_append kind_fits at_end
  have length : u16be (left ++ (ext extType data ++ right)) (p + 2) = done data.length := by
    rw [ext, List.append_assoc, List.append_assoc, ← List.append_assoc]
    apply u16be_append fits
    rw [List.length_append, bigEndian_length, at_end]
  have zero : extType.toNat = 0 ↔ extType = 0 := by
    rw [← UInt16.toNat_inj]
    rfl
  rw [findServerName, if_pos inside, kind, Checked.done_bind, length, Checked.done_bind]
  simp only [zero, Checked.pure_eq]

/-- The walk passes the other extensions and finds the server name. -/
theorem findServerName_chain {before : List Extension} {left right sniBytes : List UInt8}
    {extEnd p : ℕ} (others : ∀ extension ∈ before, extension.kind ≠ 0)
    (fits : ∀ extension ∈ before, extension.data.length ≤ u16Max)
    (sniFits : 5 + sniBytes.length ≤ u16Max) (at_end : p = left.length)
    (inside : p + (encodeExtensions before).length + 4 ≤ extEnd) :
    findServerName (left ++ (encodeExtensions before ++ (sniExt sniBytes ++ right))) extEnd p =
      done (p + (encodeExtensions before).length, (sniExt sniBytes).length) := by
  induction before generalizing left p with
  | nil =>
      have data : (bigEndian 2 (0 :: (bigEndian 2 sniBytes.length ++ sniBytes)).length ++
          (0 :: (bigEndian 2 sniBytes.length ++ sniBytes))).length ≤ u16Max := by
        simp only [List.length_append, List.length_cons, bigEndian_length]
        omega
      rw [encodeExtensions, List.flatMap_nil, List.nil_append, sniExt,
        findServerName_step data at_end (by simpa [encodeExtensions] using inside), if_pos rfl,
        ext_length]
      rfl
  | cons extension before ih =>
      rw [List.forall_mem_cons] at others fits
      have chain : encodeExtensions (extension :: before) =
          ext extension.kind extension.data ++ encodeExtensions before :=
        List.flatMap_cons
      rw [chain, List.length_append, ext_length] at inside ⊢
      rw [List.append_assoc, findServerName_step fits.1 at_end (by omega), if_neg others.1,
        ← List.append_assoc, ih others.2 fits.2]
      · congr 2
        omega
      · rw [List.length_append, ext_length, at_end]
      · omega

namespace ClientHello

variable {hello : ClientHello} {limit : ℕ}

/-- What the validity of a record says about the lengths in it. -/
theorem Valid.small (valid : hello.Valid limit) (bounded : limit ≤ u16Max) :
    hello.extensionsOffset + 2 + hello.extensionsLength ≤ u16Max + 5 := by
  have fits := valid.fits
  rw [recordLength] at fits
  omega

theorem extensionsLength_eq :
    hello.extensionsLength = (encodeExtensions hello.before).length + (9 + hello.host.length) +
      (encodeExtensions hello.after).length := by
  simp only [extensionsLength, encodeChain, List.length_append, sniExt_length]
  omega

theorem Valid.others (valid : hello.Valid limit) :
    ∀ extension ∈ hello.before, extension.kind ≠ 0 := by
  intro extension member same
  have fresh := (List.nodup_cons.mp valid.distinct).1
  apply fresh
  rw [List.mem_map]
  exact ⟨extension, List.mem_append_left _ member, same⟩

/-- The record around the server name -/
def upToServerName (hello : ClientHello) (rl bl el : ℕ) : List UInt8 :=
  hello.upToExtensions rl bl ++ (bigEndian 2 el ++ encodeExtensions hello.before)

theorem bytes_eq_serverName {rl bl el : ℕ} :
    hello.bytes rl bl el = hello.upToServerName rl bl el ++
      (sniExt hello.host ++ encodeExtensions hello.after) := by
  simp only [bytes_eq_extensions, upToServerName, encodeChain, List.append_assoc]

theorem upToServerName_length {rl bl el : ℕ} :
    (hello.upToServerName rl bl el).length =
      hello.extensionsOffset + 2 + (encodeExtensions hello.before).length := by
  simp only [upToServerName, List.length_append, upToExtensions_length, bigEndian_length]
  omega

theorem Valid.findServerName (valid : hello.Valid limit) (bounded : limit ≤ u16Max) {rl bl el : ℕ} :
    Crypto.findServerName (hello.bytes rl bl el)
        (hello.extensionsOffset + 2 + hello.extensionsLength) (hello.extensionsOffset + 2) =
      done (hello.extensionsOffset + 2 + (encodeExtensions hello.before).length,
        (sniExt hello.host).length) := by
  have small := valid.small bounded
  have lengths := @extensionsLength_eq hello
  rw [extensionsOffset] at small
  have view : hello.bytes rl bl el = (hello.upToExtensions rl bl ++ bigEndian 2 el) ++
      (encodeExtensions hello.before ++ (sniExt hello.host ++ encodeExtensions hello.after)) := by
    simp only [bytes_eq_extensions, encodeChain, List.append_assoc]
  rw [view]
  apply findServerName_chain valid.others
  · intro extension member
    have inside := length_of_mem_extensions member
    omega
  · omega
  · rw [List.length_append, upToExtensions_length, bigEndian_length]
  · omega

theorem slice_before {rl bl el : ℕ} :
    slice (hello.bytes rl bl el) 0
        (hello.extensionsOffset + 2 + (encodeExtensions hello.before).length) =
      done (hello.upToServerName rl bl el) := by
  rw [bytes_eq_serverName]
  exact Checked.slice_prefix upToServerName_length.symm

theorem slice_after {rl bl el : ℕ} :
    slice (hello.bytes rl bl el)
        (hello.extensionsOffset + 2 + (encodeExtensions hello.before).length +
          (sniExt hello.host).length) (hello.bytes rl bl el).length =
      done (encodeExtensions hello.after) := by
  rw [bytes_eq_serverName, ← List.append_assoc]
  apply Checked.slice_suffix
  rw [List.length_append, upToServerName_length]

theorem rewritten_extensionsOffset (host : List UInt8) (sessionId random : Bytes32) :
    (hello.rewritten host sessionId random).extensionsOffset = hello.extensionsOffset := rfl

variable (hello) in
theorem rewritten_extensionsLength (host : List UInt8) (sessionId random : Bytes32) :
    (hello.rewritten host sessionId random).extensionsLength + hello.host.length =
      hello.extensionsLength + host.length := by
  rw [extensionsLength_eq, extensionsLength_eq]
  simp only [rewritten]
  omega

variable (hello) in
theorem rewritten_recordLength (host : List UInt8) (sessionId random : Bytes32) :
    (hello.rewritten host sessionId random).recordLength + hello.host.length =
      hello.recordLength + host.length := by
  have moved := hello.rewritten_extensionsLength host sessionId random
  have offset : 76 ≤ hello.extensionsOffset := by
    rw [extensionsOffset]
    omega
  rw [recordLength, recordLength, rewritten_extensionsOffset]
  omega

/-- A template is rewritten to the record of the rewritten structure. -/
theorem buildFromTemplate_encode (valid : hello.Valid limit) (bounded : limit ≤ u16Max)
    (sniBytes : List UInt8) (sessionId random : Bytes32) :
    buildFromTemplate hello.encode sniBytes sessionId random =
      done (hello.rewritten sniBytes sessionId random).encode := by
  have small := valid.small bounded
  have lengths := @extensionsLength_eq hello
  have offset : hello.extensionsOffset = 44 + 32 + (2 + hello.encodeSuites.length) +
      (1 + hello.compression.length) := rfl
  have compression : (UInt8.ofNat hello.compression.length).toNat = hello.compression.length := by
    have fits := valid.compressionFits
    rw [u8Max] at fits
    rw [UInt8.toNat_ofNat']
    omega
  have length : (hello.bytes hello.recordLength hello.bodyLength hello.extensionsLength).length =
      hello.extensionsOffset + 2 + hello.extensionsLength :=
    hello.bytes_length
  unfold buildFromTemplate
  rw [encode, Checked.refuseIf_of_not (by omega), Checked.done_bind, index_kind, Checked.done_bind,
    Checked.refuseIf_of_not (by decide), Checked.done_bind, index_handshake, Checked.done_bind,
    Checked.refuseIf_of_not (by decide), Checked.done_bind, index_sessionIdLength,
    Checked.done_bind, Checked.refuseIf_of_not (by decide), Checked.done_bind,
    u16be_suites hello (by omega), Checked.done_bind]
  dsimp only
  rw [get_compression, Checked.done_bind, compression, ← offset,
    u16be_extensions hello (by omega), Checked.done_bind, Checked.refuseIf_of_not (by omega),
    Checked.done_bind, valid.findServerName bounded, Checked.done_bind]
  dsimp only
  rw [Checked.refuseIf_of_not (by rw [sniExt_length]; omega), Checked.done_bind, slice_before,
    Checked.done_bind, slice_after, Checked.done_bind]
  have named : hello.upToServerName hello.recordLength hello.bodyLength hello.extensionsLength ++
      (sniExt sniBytes ++ encodeExtensions hello.after) =
        ({ hello with host := sniBytes } : ClientHello).bytes hello.recordLength hello.bodyLength
          hello.extensionsLength :=
    (@bytes_eq_serverName { hello with host := sniBytes } _ _ _).symm
  have shift : ((hello.rewritten sniBytes sessionId random).extensionsLength : ℤ) =
      hello.extensionsLength + ((sniExt sniBytes).length - (sniExt hello.host).length) := by
    rw [sniExt_length, sniExt_length]
    have moved := rewritten_extensionsLength hello sniBytes sessionId random
    omega
  have record : ((hello.rewritten sniBytes sessionId random).recordLength : ℤ) =
      hello.recordLength + ((sniExt sniBytes).length - (sniExt hello.host).length) := by
    rw [recordLength, recordLength, rewritten_extensionsOffset]
    omega
  have body : ((hello.rewritten sniBytes sessionId random).bodyLength : ℤ) =
      hello.bodyLength + ((sniExt sniBytes).length - (sniExt hello.host).length) := by
    rw [bodyLength, bodyLength, rewritten_extensionsOffset]
    omega
  rw [named, overwrite_random, Checked.done_bind, overwrite_sessionId, Checked.done_bind,
    patch_record _ (by rw [recordLength]; omega) record, Checked.done_bind,
    patch_body _ (by rw [bodyLength]; rw [u16Max] at small; omega) body, Checked.done_bind]
  exact patch_extensions _ (by omega) shift

/-! ## Exact lengths -/

/-- The three lengths in a record are those of what follows them. -/
structure Exact (hello : ClientHello) (bytes : List UInt8) : Prop where
  record : ofBigEndian ((bytes.drop 3).take 2) + 5 = bytes.length
  body : ofBigEndian ((bytes.drop 6).take 3) + 9 = bytes.length
  extensions : ofBigEndian ((bytes.drop hello.extensionsOffset).take 2) +
    (hello.extensionsOffset + 2) = bytes.length

theorem number_append {before after : List UInt8} {off width n : ℕ} (fits : n < 256 ^ width)
    (at_end : off = before.length) :
    ofBigEndian (((before ++ (bigEndian width n ++ after)).drop off).take width) = n := by
  rw [at_end, List.drop_left, List.take_left' (bigEndian_length width n),
    ofBigEndian_bigEndian width n fits]

theorem Valid.exact (valid : hello.Valid limit) (bounded : limit ≤ u16Max) :
    hello.Exact hello.encode := by
  have small := valid.small bounded
  rw [u16Max] at small
  have offset : 76 ≤ hello.extensionsOffset := by
    rw [extensionsOffset]
    omega
  have record : hello.recordLength < 256 ^ 2 := by
    rw [recordLength]
    omega
  have body : hello.bodyLength < 256 ^ 3 := by
    rw [bodyLength]
    omega
  have extensions : hello.extensionsLength < 256 ^ 2 := by omega
  have length : hello.encode.length = hello.extensionsOffset + 2 + hello.extensionsLength :=
    hello.bytes_length
  have record_written : ofBigEndian ((hello.encode.drop 3).take 2) = hello.recordLength := by
    rw [encode, bytes_eq_record]
    exact number_append record rfl
  have body_written : ofBigEndian ((hello.encode.drop 6).take 3) = hello.bodyLength := by
    rw [encode, bytes_eq_body]
    exact number_append body rfl
  have extensions_written : ofBigEndian ((hello.encode.drop hello.extensionsOffset).take 2) =
      hello.extensionsLength := by
    rw [encode, bytes_eq_extensions]
    exact number_append extensions hello.upToExtensions_length.symm
  constructor
  · rw [record_written, length, recordLength]
    omega
  · rw [body_written, length, bodyLength]
    omega
  · rw [extensions_written, length]
    omega

/-! ## Rewriting -/

/--
What a rewriting should give: a well-formed record with exact lengths, which has the
new fields and everything else of the template, and from which the template's own
fields give back the template.
-/
structure Rewrites (limit : ℕ) (hello : ClientHello) (host : List UInt8)
    (sessionId random : Bytes32) (out : List UInt8) : Prop where
  built : buildFromTemplate hello.encode host sessionId random = done out
  encoded : out = (hello.rewritten host sessionId random).encode
  valid : (hello.rewritten host sessionId random).Valid limit
  exact : (hello.rewritten host sessionId random).Exact out
  back : buildFromTemplate out hello.host hello.sessionId hello.random = done hello.encode

theorem Valid.rewritten (valid : hello.Valid limit) {host : List UInt8}
    (sessionId random : Bytes32) (named : host ≠ [])
    (fits : hello.recordLength + host.length ≤ limit + hello.host.length) :
    (hello.rewritten host sessionId random).Valid limit := by
  refine ⟨valid.suites, valid.compression, valid.compressionFits, named, valid.distinct, ?_⟩
  have moved := hello.rewritten_recordLength host sessionId random
  omega

/-- The rewritten record is right exactly if it is not too long. -/
theorem rewrites_iff (valid : hello.Valid limit) (bounded : limit ≤ u16Max) {host : List UInt8}
    (sessionId random : Bytes32) (named : host ≠ []) :
    (∃ out, Rewrites limit hello host sessionId random out) ↔
      hello.recordLength + host.length ≤ limit + hello.host.length := by
  constructor
  · rintro ⟨out, rewrites⟩
    have moved := hello.rewritten_recordLength host sessionId random
    have fits := rewrites.valid.fits
    omega
  · intro fits
    have still := valid.rewritten sessionId random named fits
    refine ⟨_, buildFromTemplate_encode valid bounded host sessionId random, rfl, still,
      still.exact bounded, ?_⟩
    exact buildFromTemplate_encode still bounded hello.host hello.sessionId hello.random

end ClientHello

/--
No byte string makes the program panic.  A well-formed template is rewritten to a
well-formed record exactly if the server name does not make it too long, for every
limit up to that of the length field.
-/
theorem buildFromTemplate_rewrites_iff (sessionId random : Bytes32) :
    (∀ tpl serverName : List UInt8,
        buildFromTemplate tpl serverName sessionId random ≠ .panicked) ∧
      ∀ limit ≤ u16Max, ∀ hello : ClientHello, hello.Valid limit →
        ∀ host : List UInt8, 1 ≤ host.length → host.length ≤ 253 →
          ((∃ out, ClientHello.Rewrites limit hello host sessionId random out) ↔
            hello.recordLength + host.length ≤ limit + hello.host.length) := by
  constructor
  · intro tpl serverName
    exact (safe_buildFromTemplate tpl serverName sessionId random).not_panicked
  · intro limit bounded hello valid host some_host _
    exact ClientHello.rewrites_iff valid bounded sessionId random
      (List.ne_nil_of_length_pos some_host)

/-- A template for `a.cn`, with an extension on each side of the server name -/
def shortHello : ClientHello where
  recordVersion := 0x0301
  version := 0x0303
  random := ⟨List.replicate 32 0x22, rfl⟩
  sessionId := ⟨List.replicate 32 0x11, rfl⟩
  cipherSuites := [0x1301, 0x1302]
  compression := [0]
  before := [⟨0x002b, [2, 3, 4]⟩]
  host := [0x61, 0x2e, 0x63, 0x6e]
  after := [⟨0x0a0a, []⟩]

theorem shortHello_valid : shortHello.Valid 16384 :=
  ⟨by decide, by decide, by decide, by decide, by decide, by decide⟩

theorem buildFromTemplate_rewrites_iff_shortHello :
    (∃ out, ClientHello.Rewrites 16384 shortHello [0x78] shortHello.random shortHello.sessionId
        out) ↔
      shortHello.recordLength + 1 ≤ 16384 + shortHello.host.length :=
  (buildFromTemplate_rewrites_iff shortHello.random shortHello.sessionId).2 16384 (by decide)
    shortHello shortHello_valid [0x78] (by decide) (by decide)

/-- A template which is padded to the greatest length of a record -/
def paddedHello : ClientHello where
  recordVersion := 0x0301
  version := 0x0303
  random := ⟨List.replicate 32 0x22, rfl⟩
  sessionId := ⟨List.replicate 32 0x11, rfl⟩
  cipherSuites := [0x1301]
  compression := [0]
  before := []
  host := [0x61]
  after := [⟨0x0015, List.replicate 65442 0⟩]

theorem paddedHello_recordLength : paddedHello.recordLength = 65535 := by
  -- The data is a variable, so that nothing computes with the list itself.
  have one (kind : UInt16) (data : List UInt8) (long : data.length = 65442) :
      (encodeExtensions [⟨kind, data⟩]).length = 65446 := by
    rw [encodeExtensions, List.flatMap_cons, List.flatMap_nil, List.append_nil, ext_length, long]
  have padding : (encodeExtensions paddedHello.after).length = 65446 :=
    one 0x0015 _ List.length_replicate
  rw [ClientHello.recordLength, ClientHello.extensionsLength_eq, padding]
  rfl

theorem paddedHello_valid : paddedHello.Valid u16Max :=
  ⟨by decide, by decide, by decide, by decide, by decide, paddedHello_recordLength.le⟩

/-- One more byte of the server name, and 0 is written for the length of the record. -/
theorem not_rewrites_paddedHello :
    paddedHello.Valid u16Max ∧
      ∃ out, buildFromTemplate paddedHello.encode [0x61, 0x62] paddedHello.sessionId
          paddedHello.random = done out ∧
        ¬ClientHello.Rewrites u16Max paddedHello [0x61, 0x62] paddedHello.sessionId
          paddedHello.random out ∧
        (out.drop 3).take 2 = [0, 0] ∧ out.length = 65541 := by
  have grown : (paddedHello.rewritten [0x61, 0x62] paddedHello.sessionId
      paddedHello.random).recordLength = 65536 := by
    have moved := paddedHello.rewritten_recordLength [0x61, 0x62] paddedHello.sessionId
      paddedHello.random
    have one : paddedHello.host.length = 1 := rfl
    have two : [0x61, (0x62 : UInt8)].length = 2 := rfl
    rw [paddedHello_recordLength, one, two] at moved
    omega
  refine ⟨paddedHello_valid, _,
    ClientHello.buildFromTemplate_encode paddedHello_valid (Nat.le_refl _) _ _ _, ?_, ?_, ?_⟩
  · intro rewrites
    have fits := rewrites.valid.fits
    rw [grown] at fits
    revert fits
    decide
  · rw [ClientHello.encode, grown, ClientHello.bytes_eq_record]
    rfl
  · rw [ClientHello.encode, ClientHello.bytes_length]
    rw [ClientHello.recordLength] at grown
    omega

end Mirage.Crypto
