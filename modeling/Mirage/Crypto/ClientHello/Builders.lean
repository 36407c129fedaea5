import Mirage.Crypto.ClientHello

/-!
# ClientHellos of three browsers

`build_chromium`, `build_firefox` and `build_okhttp` write records like those which
were captured from the browsers.  What they draw at random is an argument here.
-/

namespace Mirage.Crypto

open Mirage.Foundations

/-! ## What is drawn -/

/-- A buffer which `rand::fill` has filled -/
abbrev Filled (size : ℕ) : Type :=
  { bytes : List UInt8 // bytes.length = size }

def greaseValues : List UInt16 :=
  [0x0A0A, 0x1A1A, 0x2A2A, 0x3A3A, 0x4A4A, 0x5A5A, 0x6A6A, 0x7A7A, 0x8A8A, 0x9A9A, 0xAAAA, 0xBABA,
    0xCACA, 0xDADA, 0xEAEA, 0xFAFA]

/-- What `get_grease` may return -/
abbrev Grease : Type :=
  { value : UInt16 // value ∈ greaseValues }

/-- The two at the ends, which are drawn until they differ -/
structure GreaseEnds where
  first : Grease
  last : Grease
  differ : last ≠ first

structure EncapKeyDraws where
  coefficients : List (Fin 3329 × Fin 3329)
  count : coefficients.length = 384
  rho : Filled 32

/-- Two coefficients of 12 bits in three bytes -/
def packCoefficients (c0 c1 : ℕ) : List UInt8 :=
  [UInt8.ofNat (c0 % 2 ^ 8), UInt8.ofNat (c0 / 2 ^ 8 % 2 ^ 4 + c1 % 2 ^ 4 * 2 ^ 4),
    UInt8.ofNat (c1 / 2 ^ 4 % 2 ^ 8)]

def mlkem768ValidEncapKey (draws : EncapKeyDraws) : List UInt8 :=
  (draws.coefficients.flatMap fun pair => packCoefficients pair.1 pair.2) ++ draws.rho.1

/-! ## Parts -/

def u16s (values : List UInt16) : List UInt8 :=
  values.flatMap fun value => bigEndian 2 value.toNat

/-- Bytes behind their length -/
def sized (bytes : List UInt8) : List UInt8 :=
  bigEndian 2 bytes.length ++ bytes

def assemble (sessionId clientRandom : Bytes32) (cipherSuites extensions : List UInt8) :
    List UInt8 :=
  let helloBody := [0x03, 0x03] ++ (clientRandom.1 ++ (UInt8.ofNat sessionId.1.length ::
    (sessionId.1 ++ (sized cipherSuites ++ ([0x01, 0x00] ++ sized extensions)))))
  let hs := 0x01 :: (bigEndian 3 helloBody.length ++ helloBody)
  [0x16, 0x03, 0x01] ++ sized hs

def chromiumCiphers : List UInt16 :=
  [0x1301, 0x1302, 0x1303, 0xC02B, 0xC02F, 0xC02C, 0xC030, 0xCCA9, 0xCCA8, 0xC013, 0xC014, 0x009C,
    0x009D, 0x002F, 0x0035]

def chromiumGroups : List UInt16 :=
  [0x11EC, 0x001D, 0x0017, 0x0018]

def sigalgs : List UInt8 :=
  [0x00, 0x16, 0x09, 0x04, 0x09, 0x05, 0x09, 0x06, 0x04, 0x03, 0x08, 0x04, 0x04, 0x01, 0x05, 0x03,
    0x08, 0x05, 0x05, 0x01, 0x08, 0x06, 0x06, 0x01]

/-- "h2" and "http/1.1" -/
def alpn : List UInt8 :=
  [0x00, 0x0C, 0x02, 0x68, 0x32, 0x08, 0x68, 0x74, 0x74, 0x70, 0x2F, 0x31, 0x2E, 0x31]

def alps : List UInt8 :=
  [0x00, 0x03, 0x02, 0x68, 0x32]

def certCompress : List UInt8 :=
  [0x02, 0x00, 0x02]

def statusRequest : List UInt8 :=
  [0x01, 0x00, 0x00, 0x00, 0x00]

def ecPointFormats : List UInt8 :=
  [0x01, 0x00]

def pskModes : List UInt8 :=
  [0x01, 0x01]

def hybridKeyshareLen : ℕ := 1216

/-! ## Chromium -/

def supportedVersionsExt (grease : Grease) : List UInt8 :=
  ext 0x002B (6 :: u16s [grease, 0x0304, 0x0303])

def supportedGroupsExt (grease : Grease) : List UInt8 :=
  ext 0x000A (sized (u16s (grease :: chromiumGroups)))

structure KeyShareDraws where
  encapKey : EncapKeyDraws
  xHybrid : Filled 32
  x25519 : Filled 32

def keyShareExt (grease : Grease) (draws : KeyShareDraws) : List UInt8 :=
  let greaseEntry := u16s [grease, 1] ++ [0x00]
  let hybridEntry := u16s [0x11EC] ++ (bigEndian 2 hybridKeyshareLen ++
    (mlkem768ValidEncapKey draws.encapKey ++ draws.xHybrid.1))
  let plainEntry := u16s [0x001D, 32] ++ draws.x25519.1
  ext 0x0033 (sized (greaseEntry ++ (hybridEntry ++ plainEntry)))

/-- A forged ECH, of which the payload has this length -/
structure EchDraws (payloadLen : ℕ) where
  configId : UInt8
  enc : Filled 32
  payload : Filled payloadLen

def echExt {payloadLen : ℕ} (aead : UInt16) (draws : EchDraws payloadLen) : List UInt8 :=
  ext 0xFE0D (0x00 :: (u16s [0x0001, aead] ++ (draws.configId :: (u16s [32] ++ (draws.enc.1 ++
    (bigEndian 2 payloadLen ++ draws.payload.1))))))

def echGreaseExt (draws : EchDraws 208) : List UInt8 :=
  echExt 0x0001 draws

/-- `items.swap(i, j)` -/
def swap {Item : Type} (items : List Item) (i j : ℕ) : List Item :=
  match items[i]?, items[j]? with
  | some first, some second => (items.set i second).set j first
  | _, _ => items

/-- The shuffle of Fisher and Yates, from the last item to the second -/
def shuffle {Item : Type} (draw : (i : ℕ) → Fin (i + 1)) (items : List Item) : List Item :=
  (List.range' 1 (items.length - 1)).reverse.foldl (fun items i => swap items i (draw i)) items

structure ChromiumDraws where
  cipherGrease : Grease
  versions : Grease
  groups : Grease
  keyShareGrease : Grease
  ech : EchDraws 208
  keyShare : KeyShareDraws
  order : (i : ℕ) → Fin (i + 1)
  ends : GreaseEnds

def chromiumMiddle (draws : ChromiumDraws) (sniBytes : List UInt8) : List (List UInt8) :=
  [supportedVersionsExt draws.versions, echGreaseExt draws.ech, ext 0x000B ecPointFormats,
    ext 0x0017 [], supportedGroupsExt draws.groups, ext 0x002D pskModes, ext 0x0023 [],
    ext 0xFF01 [0x00], ext 0x0010 alpn, ext 0x0005 statusRequest, ext 0x0012 [], sniExt sniBytes,
    ext 0x44CD alps, ext 0x000D sigalgs, keyShareExt draws.keyShareGrease draws.keyShare,
    ext 0x001B certCompress]

def buildChromium (draws : ChromiumDraws) (sniBytes : List UInt8)
    (sessionId clientRandom : Bytes32) : List UInt8 :=
  let ciphers := u16s (draws.cipherGrease :: chromiumCiphers)
  let middle := shuffle draws.order (chromiumMiddle draws sniBytes)
  assemble sessionId clientRandom ciphers
    (ext draws.ends.first [] ++ (middle.flatten ++ ext draws.ends.last [0x00]))

/-! ## Firefox -/

def firefoxCiphers : List UInt16 :=
  [0x1301, 0x1303, 0x1302, 0xC02B, 0xC02F, 0xCCA9, 0xCCA8, 0xC02C, 0xC030, 0xC00A, 0xC013, 0xC014,
    0x009C, 0x009D, 0x002F, 0x0035]

def firefoxGroups : List UInt16 :=
  [0x11EC, 0x001D, 0x0017, 0x0018, 0x0019, 0x0100, 0x0101]

def firefoxSigalgs : List UInt8 :=
  [0x00, 0x16, 0x04, 0x03, 0x05, 0x03, 0x06, 0x03, 0x08, 0x04, 0x08, 0x05, 0x08, 0x06, 0x04, 0x01,
    0x05, 0x01, 0x06, 0x01, 0x02, 0x03, 0x02, 0x01]

def firefoxDelegCreds : List UInt8 :=
  [0x00, 0x08, 0x04, 0x03, 0x05, 0x03, 0x06, 0x03, 0x02, 0x03]

def firefoxCertCompress : List UInt8 :=
  [0x06, 0x00, 0x01, 0x00, 0x02, 0x00, 0x03]

def ffSupportedVersionsExt : List UInt8 :=
  ext 0x002B [0x04, 0x03, 0x04, 0x03, 0x03]

def ffSupportedGroupsExt : List UInt8 :=
  ext 0x000A (sized (u16s firefoxGroups))

structure FfKeyShareDraws extends KeyShareDraws where
  /-- The 65 bytes of a point; the first is replaced. -/
  point : Filled 65

def ffKeyShareExt (draws : FfKeyShareDraws) : List UInt8 :=
  let hybridEntry := u16s [0x11EC] ++ (bigEndian 2 hybridKeyshareLen ++
    (mlkem768ValidEncapKey draws.encapKey ++ draws.xHybrid.1))
  let plainEntry := u16s [0x001D, 32] ++ draws.x25519.1
  let pointEntry := u16s [0x0017, 65] ++ draws.point.1.set 0 0x04
  ext 0x0033 (sized (hybridEntry ++ (plainEntry ++ pointEntry)))

structure FirefoxDraws where
  keyShare : FfKeyShareDraws
  /-- The draw between two algorithms -/
  aead : Bool
  ech : EchDraws 239

def ffEchExt (draws : FirefoxDraws) : List UInt8 :=
  echExt (if draws.aead then 0x0001 else 0x0003) draws.ech

def firefoxExtensions (draws : FirefoxDraws) (sniBytes : List UInt8) : List (List UInt8) :=
  [sniExt sniBytes, ext 0x0017 [], ext 0xFF01 [0x00], ffSupportedGroupsExt,
    ext 0x000B ecPointFormats, ext 0x0023 [], ext 0x0010 alpn, ext 0x0005 statusRequest,
    ext 0x0022 firefoxDelegCreds, ext 0x0012 [], ffKeyShareExt draws.keyShare,
    ffSupportedVersionsExt, ext 0x000D firefoxSigalgs, ext 0x002D pskModes,
    ext 0x001C [0x40, 0x01], ext 0x001B firefoxCertCompress, ffEchExt draws]

def buildFirefox (draws : FirefoxDraws) (sniBytes : List UInt8)
    (sessionId clientRandom : Bytes32) : List UInt8 :=
  assemble sessionId clientRandom (u16s firefoxCiphers)
    (firefoxExtensions draws sniBytes).flatten

/-! ## OkHttp -/

def okhttpSigalgs : List UInt8 :=
  [0x00, 0x10, 0x04, 0x03, 0x08, 0x04, 0x04, 0x01, 0x05, 0x03, 0x08, 0x05, 0x05, 0x01, 0x08, 0x06,
    0x06, 0x01]

def okhttpPadTarget : ℕ := 512

def okSupportedGroupsExt (grease : Grease) : List UInt8 :=
  ext 0x000A (sized (u16s [grease, 0x001D, 0x0017, 0x0018]))

def okSupportedVersionsExt (grease : Grease) : List UInt8 :=
  ext 0x002B (10 :: u16s [grease, 0x0304, 0x0303, 0x0302, 0x0301])

def okKeyShareExt (grease : Grease) (x : Filled 32) : List UInt8 :=
  ext 0x0033 (sized (u16s [grease, 1] ++ (0x00 :: (u16s [0x001D, 32] ++ x.1))))

structure OkhttpDraws where
  cipherGrease : Grease
  ends : GreaseEnds
  groups : Grease
  keyShareGrease : Grease
  x : Filled 32
  versions : Grease

def okhttpExtensions (draws : OkhttpDraws) (sniBytes : List UInt8) : List (List UInt8) :=
  [ext draws.ends.first [], sniExt sniBytes, ext 0x0017 [], ext 0xFF01 [0x00],
    okSupportedGroupsExt draws.groups, ext 0x000B ecPointFormats, ext 0x0023 [], ext 0x0010 alpn,
    ext 0x0005 statusRequest, ext 0x000D okhttpSigalgs, ext 0x0012 [],
    okKeyShareExt draws.keyShareGrease draws.x, ext 0x002D pskModes,
    okSupportedVersionsExt draws.versions, ext 0x001B certCompress, ext draws.ends.last [0x00]]

def buildOkhttp (draws : OkhttpDraws) (sniBytes : List UInt8)
    (sessionId clientRandom : Bytes32) : List UInt8 :=
  let ciphers := u16s (draws.cipherGrease :: chromiumCiphers)
  let extsBytes := (okhttpExtensions draws sniBytes).flatten
  -- A first attempt shows how much padding there has to be.
  let trial := assemble sessionId clientRandom ciphers extsBytes
  let payload := trial.length - 5
  let padding :=
    if payload + 4 < okhttpPadTarget then
      ext 0x0015 (List.replicate (okhttpPadTarget - payload - 4) 0)
    else []
  assemble sessionId clientRandom ciphers (extsBytes ++ padding)

/-! ## Sizes -/

theorem u16s_length (values : List UInt16) : (u16s values).length = 2 * values.length := by
  induction values with
  | nil => rfl
  | cons value values ih =>
      have split : u16s (value :: values) = bigEndian 2 value.toNat ++ u16s values := rfl
      rw [split, List.length_append, bigEndian_length, ih, List.length_cons]
      omega

theorem sized_length (bytes : List UInt8) : (sized bytes).length = 2 + bytes.length := by
  rw [sized, List.length_append, bigEndian_length]

theorem packed_length (pairs : List (Fin 3329 × Fin 3329)) :
    (pairs.flatMap fun pair => packCoefficients pair.1 pair.2).length = 3 * pairs.length := by
  induction pairs with
  | nil => rfl
  | cons pair pairs ih =>
      rw [List.flatMap_cons, List.length_append, ih, List.length_cons]
      exact Nat.add_comm 3 _

theorem mlkem768ValidEncapKey_length (draws : EncapKeyDraws) :
    (mlkem768ValidEncapKey draws).length = 1184 := by
  rw [mlkem768ValidEncapKey, List.length_append, packed_length, draws.count, draws.rho.2]

theorem assemble_length (sessionId clientRandom : Bytes32) (cipherSuites extensions : List UInt8) :
    (assemble sessionId clientRandom cipherSuites extensions).length =
      82 + cipherSuites.length + extensions.length := by
  simp only [assemble, sized_length, List.length_append, List.length_cons, List.length_nil,
    bigEndian_length, sessionId.2, clientRandom.2]
  omega

/-! ## Every order is one of the same extensions. -/

section Shuffling

variable {Item : Type}

theorem swap_perm (items : List Item) (i j : ℕ) : (swap items i j).Perm items := by
  unfold swap
  split
  · case h_1 first second at_i at_j =>
      rcases List.getElem?_eq_some_iff.mp at_i with ⟨i_inside, rfl⟩
      rcases List.getElem?_eq_some_iff.mp at_j with ⟨j_inside, rfl⟩
      exact List.set_set_perm i_inside j_inside
  · exact List.Perm.refl items

theorem foldl_swap_perm (draw : (i : ℕ) → Fin (i + 1)) (turns : List ℕ) (items : List Item) :
    (turns.foldl (fun items i => swap items i (draw i)) items).Perm items := by
  induction turns generalizing items with
  | nil => exact List.Perm.refl items
  | cons i turns ih => exact (ih (swap items i (draw i))).trans (swap_perm items i (draw i))

theorem shuffle_perm (draw : (i : ℕ) → Fin (i + 1)) (items : List Item) :
    (shuffle draw items).Perm items :=
  foldl_swap_perm draw _ items

variable {Image : Type}

theorem swap_map (act : Item → Image) (items : List Item) (i j : ℕ) :
    swap (items.map act) i j = (swap items i j).map act := by
  simp only [swap, List.getElem?_map]
  cases items[i]? with
  | none => rfl
  | some first =>
      cases items[j]? with
      | none => rfl
      | some second => simp only [Option.map_some, List.map_set]

/-- The draws do not depend on what the items are. -/
theorem shuffle_map (draw : (i : ℕ) → Fin (i + 1)) (act : Item → Image) (items : List Item) :
    shuffle draw (items.map act) = (shuffle draw items).map act := by
  have turns (turns : List ℕ) (items : List Item) :
      turns.foldl (fun items i => swap items i (draw i)) (items.map act) =
        (turns.foldl (fun items i => swap items i (draw i)) items).map act := by
    induction turns generalizing items with
    | nil => rfl
    | cons i turns ih => rw [List.foldl_cons, swap_map, ih, List.foldl_cons]
  rw [shuffle, List.length_map, turns, shuffle]

end Shuffling

/-! ## Lengths of the records -/

section Lengths

variable {payloadLen : ℕ} (sniBytes : List UInt8) (sessionId clientRandom : Bytes32)

theorem echExt_length (aead : UInt16) (draws : EchDraws payloadLen) :
    (echExt aead draws).length = 46 + payloadLen := by
  simp only [echExt, ext_length, List.length_cons, List.length_append, List.length_nil,
    u16s_length, bigEndian_length, draws.enc.2, draws.payload.2]
  omega

theorem keyShareExt_length (grease : Grease) (draws : KeyShareDraws) :
    (keyShareExt grease draws).length = 1267 := by
  simp only [keyShareExt, ext_length, sized_length, List.length_cons, List.length_append,
    List.length_nil, u16s_length, bigEndian_length, mlkem768ValidEncapKey_length,
    draws.xHybrid.2, draws.x25519.2]

theorem ffKeyShareExt_length (draws : FfKeyShareDraws) :
    (ffKeyShareExt draws).length = 1331 := by
  simp only [ffKeyShareExt, ext_length, sized_length, List.length_cons, List.length_append,
    List.length_nil, u16s_length, bigEndian_length, mlkem768ValidEncapKey_length,
    List.length_set, draws.xHybrid.2, draws.x25519.2, draws.point.2]

theorem okKeyShareExt_length (grease : Grease) (x : Filled 32) :
    (okKeyShareExt grease x).length = 47 := by
  simp only [okKeyShareExt, ext_length, sized_length, List.length_cons, List.length_append,
    List.length_nil, u16s_length, x.2]

theorem chromiumMiddle_length (draws : ChromiumDraws) :
    (chromiumMiddle draws sniBytes).flatten.length = 1657 + sniBytes.length := by
  simp only [chromiumMiddle, supportedVersionsExt, supportedGroupsExt, echGreaseExt,
    List.flatten_cons, List.flatten_nil, List.length_append, List.length_cons, List.length_nil,
    ext_length, sniExt_length, echExt_length, keyShareExt_length, sized_length, u16s_length]
  simp only [ecPointFormats, pskModes, alpn, statusRequest, alps, sigalgs, certCompress,
    chromiumGroups, List.length_cons, List.length_nil]
  omega

theorem buildChromium_length (draws : ChromiumDraws) :
    (buildChromium draws sniBytes sessionId clientRandom).length = 1780 + sniBytes.length := by
  simp only [buildChromium, assemble_length, List.length_append, ext_length, u16s_length,
    (shuffle_perm draws.order (chromiumMiddle draws sniBytes)).flatten.length_eq,
    chromiumMiddle_length, chromiumCiphers, List.length_cons, List.length_nil]
  omega

theorem buildFirefox_length (draws : FirefoxDraws) :
    (buildFirefox draws sniBytes sessionId clientRandom).length = 1883 + sniBytes.length := by
  simp only [buildFirefox, assemble_length, firefoxExtensions, ffSupportedGroupsExt,
    ffSupportedVersionsExt, ffEchExt, List.flatten_cons, List.flatten_nil, List.length_append,
    List.length_cons, List.length_nil, ext_length, sniExt_length, echExt_length,
    ffKeyShareExt_length, sized_length, u16s_length]
  simp only [firefoxCiphers, firefoxGroups, ecPointFormats, alpn, statusRequest,
    firefoxDelegCreds, firefoxSigalgs, pskModes, firefoxCertCompress, List.length_cons,
    List.length_nil]
  omega

theorem okhttpExtensions_length (draws : OkhttpDraws) :
    (okhttpExtensions draws sniBytes).flatten.length = 179 + sniBytes.length := by
  simp only [okhttpExtensions, okSupportedGroupsExt, okSupportedVersionsExt, List.flatten_cons,
    List.flatten_nil, List.length_append, List.length_cons, List.length_nil, ext_length,
    sniExt_length, okKeyShareExt_length, sized_length, u16s_length]
  simp only [ecPointFormats, alpn, statusRequest, okhttpSigalgs, pskModes, certCompress,
    List.length_cons, List.length_nil]
  omega

/-- The padding ends where it was meant to. -/
theorem buildOkhttp_length (draws : OkhttpDraws) :
    (buildOkhttp draws sniBytes sessionId clientRandom).length =
      if 292 + sniBytes.length < okhttpPadTarget then 5 + okhttpPadTarget
      else 293 + sniBytes.length := by
  have ciphers : (u16s (draws.cipherGrease :: chromiumCiphers)).length = 32 := by
    rw [u16s_length]
    rfl
  have trial : (assemble sessionId clientRandom (u16s (draws.cipherGrease :: chromiumCiphers))
      (okhttpExtensions draws sniBytes).flatten).length = 293 + sniBytes.length := by
    rw [assemble_length, ciphers, okhttpExtensions_length]
    omega
  have short_iff : 293 + sniBytes.length - 5 + 4 < okhttpPadTarget ↔
      292 + sniBytes.length < okhttpPadTarget := by omega
  simp only [buildOkhttp, assemble_length _ _ _ (_ ++ _), ciphers, trial, List.length_append,
    okhttpExtensions_length, short_iff]
  split
  · rw [ext_length, List.length_replicate]
    omega
  · rw [List.length_nil]
    omega

end Lengths

end Mirage.Crypto
