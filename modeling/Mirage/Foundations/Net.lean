import Mirage.Foundations.Splitting
import Mirage.Foundations.Text

/-!
# Addresses

IP addresses are bit vectors, as `u32::from` and `u128::from` see them, and
masks are the code's own shifts.  `and_maskOf_toNat` and `and_not_maskOf_toNat`
turn a masked address into division by the size of the block, which is the form
all range facts are proved in.
-/

namespace Mirage.Foundations

/-- `std::net::Ipv4Addr`, as `u32::from` sees it. -/
abbrev Ipv4Addr := BitVec 32

/-- `std::net::Ipv6Addr`, as `u128::from` sees it. -/
abbrev Ipv6Addr := BitVec 128

inductive IpAddr where
  | v4 (address : Ipv4Addr)
  | v6 (address : Ipv6Addr)
  deriving DecidableEq, Repr

def ipv4 (a b c d : ℕ) : Ipv4Addr :=
  BitVec.ofNat 32 (((a * 256 + b) * 256 + c) * 256 + d)

def octets (address : Ipv4Addr) : List ℕ :=
  [address.toNat / 2 ^ 24 % 256, address.toNat / 2 ^ 16 % 256, address.toNat / 2 ^ 8 % 256,
    address.toNat % 256]

/-- One octet of a dotted IPv4 text: one to three digits, no leading zero. -/
def parseOctet (digits : List Char) : Option ℕ :=
  if digits.length ≤ 3 ∧ (digits.head? = some '0' → digits.length = 1) then
    match digits with
    | [] => none
    | digits => (parseDigits u8Max 0 digits).toOption
  else none

def parseIpv4 (text : String) : Option Ipv4Addr :=
  match text.toList.splitOn '.' with
  | [a, b, c, d] => do
      return ipv4 (← parseOctet a) (← parseOctet b) (← parseOctet c) (← parseOctet d)
  | _ => none

/-- The mask of a prefix length: `if prefix == 0 { 0 } else { !0u32 << (32 - prefix) }`. -/
def maskOf (prefixLen : ℕ) : BitVec 32 :=
  if prefixLen = 0 then 0 else BitVec.allOnes 32 <<< (32 - prefixLen)

theorem maskOf_eq_shift (prefixLen : ℕ) :
    maskOf prefixLen = BitVec.allOnes 32 <<< (32 - prefixLen) := by
  by_cases zero : prefixLen = 0
  · subst prefixLen
    decide
  · simp [maskOf, zero]

/-- Masking with a prefix keeps the start of the block. -/
theorem and_maskOf (address : BitVec 32) (prefixLen : ℕ) :
    address &&& maskOf prefixLen = (address >>> (32 - prefixLen)) <<< (32 - prefixLen) := by
  rw [maskOf_eq_shift]
  ext bit bound
  simp only [BitVec.getElem_and, BitVec.getElem_shiftLeft, BitVec.getElem_allOnes]
  by_cases low : bit < 32 - prefixLen
  · simp [low]
  · have restored : 32 - prefixLen + (bit - (32 - prefixLen)) = bit := by omega
    simp [low, restored, BitVec.getLsbD_eq_getElem bound]

theorem and_maskOf_toNat (address : BitVec 32) (prefixLen : ℕ) :
    (address &&& maskOf prefixLen).toNat =
      2 ^ (32 - prefixLen) * (address.toNat / 2 ^ (32 - prefixLen)) := by
  have bound : 2 ^ (32 - prefixLen) * (address.toNat / 2 ^ (32 - prefixLen)) ≤ address.toNat :=
    Nat.mul_div_le _ _
  rw [and_maskOf, BitVec.toNat_shiftLeft, BitVec.toNat_ushiftRight, Nat.shiftLeft_eq,
    Nat.shiftRight_eq_div_pow, Nat.mul_comm, Nat.mod_eq_of_lt (by omega)]

theorem not_maskOf_toNat (prefixLen : ℕ) :
    (~~~maskOf prefixLen).toNat = 2 ^ (32 - prefixLen) - 1 := by
  have positive : 0 < 2 ^ (32 - prefixLen) := Nat.two_pow_pos _
  have bounded : 2 ^ (32 - prefixLen) ≤ 2 ^ 32 := Nat.pow_le_pow_right (by omega) (by omega)
  rw [maskOf_eq_shift, BitVec.toNat_not, BitVec.toNat_shiftLeft, BitVec.toNat_allOnes,
    Nat.shiftLeft_eq]
  generalize 2 ^ (32 - prefixLen) = size at *
  omega

/-- Masking with the complement of a prefix keeps the host part. -/
theorem and_not_maskOf_toNat (address : BitVec 32) (prefixLen : ℕ) :
    (address &&& ~~~maskOf prefixLen).toNat = address.toNat % 2 ^ (32 - prefixLen) := by
  rw [BitVec.toNat_and, not_maskOf_toNat, Nat.and_two_pow_sub_one_eq_mod]

/-- The first address of a block is a multiple of the size of the block. -/
theorem size_dvd_of_masked {network : BitVec 32} {prefixLen : ℕ}
    (masked : network &&& maskOf prefixLen = network) :
    2 ^ (32 - prefixLen) ∣ network.toNat := by
  have start := and_maskOf_toNat network prefixLen
  rw [masked] at start
  exact ⟨_, start⟩

/-- A block does not wrap around the end of the address space. -/
theorem masked_add_size_le {network : BitVec 32} {prefixLen : ℕ}
    (masked : network &&& maskOf prefixLen = network) :
    network.toNat + 2 ^ (32 - prefixLen) ≤ 2 ^ 32 := by
  rcases size_dvd_of_masked masked with ⟨index, start⟩
  have divides : 2 ^ (32 - prefixLen) ∣ 2 ^ 32 := Nat.pow_dvd_pow 2 (by omega)
  rcases divides with ⟨blocks, total⟩
  have inside : 2 ^ (32 - prefixLen) * index < 2 ^ (32 - prefixLen) * blocks := by
    rw [← start, ← total]
    exact network.isLt
  have next : index + 1 ≤ blocks := Nat.lt_of_mul_lt_mul_left inside
  calc network.toNat + 2 ^ (32 - prefixLen)
      = 2 ^ (32 - prefixLen) * (index + 1) := by rw [start, Nat.mul_add, Nat.mul_one]
    _ ≤ 2 ^ (32 - prefixLen) * blocks := Nat.mul_le_mul_left _ next
    _ = 2 ^ 32 := total.symm

/-- An address is in a block exactly when it lies between the block's bounds. -/
theorem and_maskOf_eq_iff (network address : BitVec 32) (prefixLen : ℕ) :
    address &&& maskOf prefixLen = network ↔
      network.toNat + address.toNat % 2 ^ (32 - prefixLen) = address.toNat := by
  have split := Nat.div_add_mod address.toNat (2 ^ (32 - prefixLen))
  rw [← BitVec.toNat_inj, and_maskOf_toNat]
  omega

/-!
## Addresses as text

The `Display` texts of addresses, and the parser `Ipv6Addr::from_str`.  The
parser reads eight groups, or fewer around one `::`; an IPv4 address may stand
in place of the last two groups.
-/

/-- The `Display` text of a number in base 16. -/
def hexText (number : ℕ) : List Char :=
  Nat.toDigits 16 number

def ipv4Text (address : Ipv4Addr) : String :=
  ".".intercalate ((octets address).map toString)

theorem parseOctet_toDigits {octet : ℕ} (small : octet < 256) :
    parseOctet (Nat.toDigits 10 octet) = some octet := by
  have all : ∀ octet < 256, parseOctet (Nat.toDigits 10 octet) = some octet := by decide +kernel
  exact all octet small

theorem ipv4_octets {address : Ipv4Addr} {a b c d : ℕ} (same : octets address = [a, b, c, d]) :
    ipv4 a b c d = address := by
  simp only [octets, List.cons.injEq, and_true] at same
  rcases same with ⟨rfl, rfl, rfl, rfl⟩
  have bound := address.isLt
  apply BitVec.eq_of_toNat_eq
  rw [ipv4, BitVec.toNat_ofNat]
  omega

/-- The text of an address without the strings -/
theorem ipv4Text_toList (address : Ipv4Addr) :
    (ipv4Text address).toList = ['.'].intercalate ((octets address).map (Nat.toDigits 10)) := by
  have texts : (octets address).map (String.toList ∘ toString) =
      (octets address).map (Nat.toDigits 10) := by
    apply List.map_congr_left
    intro octet _
    simp [Nat.repr]
  rw [ipv4Text, String.toList_intercalate, List.map_map, texts]
  rfl

theorem parseIpv4_ipv4Text (address : Ipv4Addr) : parseIpv4 (ipv4Text address) = some address := by
  have small : ∀ octet ∈ octets address, octet < 256 := by
    simp only [octets, List.forall_mem_cons, List.not_mem_nil, false_implies, implies_true,
      and_true]
    omega
  have parts : (ipv4Text address).toList.splitOn '.' =
      (octets address).map (Nat.toDigits 10) := by
    rw [ipv4Text_toList]
    apply List.splitOn_intercalate
    · intro text member dot
      rcases List.mem_map.mp member with ⟨octet, _, rfl⟩
      exact absurd (Nat.isDigit_of_mem_toDigits (by decide) (by decide) dot) (by decide)
    · simp [octets]
  simp only [octets, List.forall_mem_cons] at small
  rw [parseIpv4, parts]
  simp only [octets, List.map_cons, List.map_nil]
  rw [parseOctet_toDigits small.1, parseOctet_toDigits small.2.1,
    parseOctet_toDigits small.2.2.1, parseOctet_toDigits small.2.2.2.1]
  exact congrArg some (ipv4_octets rfl)

/-- An address is written in digits and dots. -/
theorem mem_ipv4Text {address : Ipv4Addr} {char : Char}
    (member : char ∈ (ipv4Text address).toList) : char = '.' ∨ char.isDigit = true := by
  rw [ipv4Text_toList] at member
  rcases mem_intercalate member with dot | ⟨text, there, inside⟩
  · exact Or.inl dot
  · rcases List.mem_map.mp there with ⟨octet, _, rfl⟩
    exact Or.inr (Nat.isDigit_of_mem_toDigits (by decide) (by decide) inside)

def segments (address : Ipv6Addr) : List ℕ :=
  (List.range 8).map fun index => (address.extractLsb' (112 - 16 * index) 16).toNat

def zeroRun (groups : List ℕ) : ℕ :=
  (groups.takeWhile (· == 0)).length

/-- The start and the length of the first longest run of zero segments. -/
def longestZeroRun (groups : List ℕ) : ℕ × ℕ :=
  (List.range groups.length).foldl
    (fun longest start =>
      if longest.2 < zeroRun (groups.drop start) then (start, zeroRun (groups.drop start))
      else longest)
    (0, 0)

def groupsText (groups : List ℕ) : List Char :=
  [':'].intercalate (groups.map hexText)

def ipv6Text (address : Ipv6Addr) : String :=
  let groups := segments address
  if groups.take 6 = [0, 0, 0, 0, 0, 0xFFFF] then
    "::ffff:" ++ ipv4Text (address.extractLsb' 0 32)
  else
    let (start, length) := longestZeroRun groups
    if length > 1 then
      String.ofList
        (groupsText (groups.take start) ++ "::".toList ++ groupsText (groups.drop (start + length)))
    else String.ofList (groupsText groups)

def socketText (ip : IpAddr) (port : ℕ) : String :=
  match ip with
  | .v4 address => ipv4Text address ++ ":" ++ toString port
  | .v6 address => "[" ++ ipv6Text address ++ "]:" ++ toString port

/-- One group of an IPv6 text: one to four hexadecimal digits. -/
def readGroup (chars : List Char) : Option (ℕ × List Char) :=
  let digits := chars.takeWhile fun char =>
    char.isDigit || ('a' ≤ char.toLower && char.toLower ≤ 'f')
  if digits = [] ∨ 4 < digits.length then none
  else
    some
      (digits.foldl
        (fun value char =>
          value * 16 +
            if char.isDigit then char.toNat - '0'.toNat else char.toLower.toNat - 'a'.toNat + 10)
        0,
      chars.drop digits.length)

/-- The colon between two groups; none stands before the first. -/
def readSeparator (index : ℕ) (chars : List Char) : Option (List Char) :=
  if index = 0 then some chars
  else
    match chars with
    | ':' :: rest => some rest
    | _ => none

/-- An IPv4 address in front of a text: four octets, each as long as it can be. -/
def readIpv4 (chars : List Char) : Option (Ipv4Addr × List Char) :=
  let text := chars.takeWhile fun char => char.isDigit || char == '.'
  let rest := chars.drop text.length
  (parseIpv4 (String.ofList text)).map fun address => (address, rest)

/-- `read_groups`: the groups read, whether an IPv4 address ends them, and the rest. -/
def readGroups (limit : ℕ) : ℕ → List Char → List ℕ × Bool × List Char
  | 0, chars => ([], false, chars)
  | remaining + 1, chars =>
      let index := limit - (remaining + 1)
      match (readSeparator index chars).bind readIpv4, remaining with
      | some (address, rest), _ + 1 =>
          ([address.toNat / 2 ^ 16, address.toNat % 2 ^ 16], true, rest)
      | _, _ =>
          match (readSeparator index chars).bind readGroup with
          | some (group, rest) =>
              let (groups, dotted, rest) := readGroups limit remaining rest
              (group :: groups, dotted, rest)
          | none => ([], false, chars)

/-- `Ipv6Addr::from_str`, as the segments of the address. -/
def parseIpv6 (text : String) : Option (List ℕ) :=
  let (head, dotted, rest) := readGroups 8 8 text.toList
  if head.length = 8 then if rest = [] then some head else none
  else if dotted then none
  else
    match rest with
    | ':' :: ':' :: rest =>
        let limit := 8 - (head.length + 1)
        let (tail, _, rest) := readGroups limit limit rest
        if rest = [] then some (head ++ List.replicate (8 - head.length - tail.length) 0 ++ tail)
        else none
    | _ => none

example : (parseIpv6 "2606:4700::1111").isSome = true := by decide

example : parseIpv6 "1:2:3" = none := by decide

end Mirage.Foundations
