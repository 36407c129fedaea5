import Mirage.Foundations.Net

/-!
# Socket addresses as text

`SocketAddr` with its `Display` text and its `FromStr`.  The parser reads an address
from the front of a text, so what is written for an address is read back in front
of any rest which does not go on with a character of an address.
-/

namespace Mirage.Foundations

/-- A hexadecimal digit -/
def isHex (char : Char) : Bool :=
  char.isDigit || ('a' ≤ char.toLower && char.toLower ≤ 'f')

def hexValue (char : Char) : ℕ :=
  if char.isDigit then char.toNat - '0'.toNat else char.toLower.toNat - 'a'.toNat + 10

/-- A character of an address -/
def isAddressChar (char : Char) : Bool :=
  isHex char || char == '.' || char == ':'

/-- A text goes on with no character of an address. -/
def Ends (rest : List Char) : Prop :=
  ∀ char ∈ rest.head?, isAddressChar char = false

/-- `read_ipv6_addr`: an address in front of a text, by its segments -/
def readIpv6 (chars : List Char) : Option (List ℕ × List Char) :=
  let (head, dotted, rest) := readGroups 8 8 chars
  if head.length = 8 then some (head, rest)
  else if dotted then none
  else
    match rest with
    | ':' :: ':' :: rest =>
        let limit := 8 - (head.length + 1)
        let (tail, _, rest) := readGroups limit limit rest
        some (head ++ List.replicate (8 - head.length - tail.length) 0 ++ tail, rest)
    | _ => none

theorem parseIpv6_eq (text : String) :
    parseIpv6 text =
      (readIpv6 text.toList).bind fun read => if read.2 = [] then some read.1 else none := by
  unfold parseIpv6 readIpv6
  rcases readGroups 8 8 text.toList with ⟨head, dotted, rest⟩
  dsimp only
  split
  · rfl
  split
  · rfl
  split
  · rfl
  · simp

section Groups

theorem takeWhile_ends {p : Char → Bool} {rest : List Char}
    (ends : ∀ char ∈ rest.head?, p char = false) : rest.takeWhile p = [] := by
  cases rest with
  | nil => rfl
  | cons char rest =>
      rw [List.takeWhile_cons_of_neg]
      rw [ends char rfl]
      exact Bool.false_ne_true

theorem takeWhile_append_ends {p : Char → Bool} {front rest : List Char}
    (all : ∀ char ∈ front, p char = true) (ends : ∀ char ∈ rest.head?, p char = false) :
    (front ++ rest).takeWhile p = front := by
  rw [List.takeWhile_append_of_pos all, takeWhile_ends ends, List.append_nil]

theorem readGroup_eq (chars : List Char) :
    readGroup chars =
      let digits := chars.takeWhile isHex
      if digits = [] ∨ 4 < digits.length then none
      else
        some (digits.foldl (fun value char => value * 16 + hexValue char) 0,
          chars.drop digits.length) :=
  rfl

theorem isHex_digitChar {digit : ℕ} (small : digit < 16) : isHex digit.digitChar = true := by
  have all : ∀ digit < 16, isHex (Nat.digitChar digit) = true := by decide
  exact all digit small

theorem hexValue_digitChar {digit : ℕ} (small : digit < 16) :
    hexValue digit.digitChar = digit := by
  have all : ∀ digit < 16, hexValue (Nat.digitChar digit) = digit := by decide
  exact all digit small

theorem isHex_of_mem_hexText {number : ℕ} {char : Char} (there : char ∈ hexText number) :
    isHex char = true := by
  unfold hexText at there
  induction number using Nat.strong_induction_on with
  | _ number ih =>
      rcases Nat.lt_or_ge number 16 with small | large
      · rw [Nat.toDigits_of_lt_base small, List.mem_singleton] at there
        rw [there]
        exact isHex_digitChar small
      · rw [Nat.toDigits_of_base_le (by decide) large, List.mem_append,
          List.mem_singleton] at there
        rcases there with there | rfl
        · exact ih _ (by omega) there
        · exact isHex_digitChar (by omega)

/-- The digits of a number are worth the number. -/
theorem foldl_hexText (number : ℕ) :
    (hexText number).foldl (fun value char => value * 16 + hexValue char) 0 = number := by
  unfold hexText
  induction number using Nat.strong_induction_on with
  | _ number ih =>
      rcases Nat.lt_or_ge number 16 with small | large
      · rw [Nat.toDigits_of_lt_base small, List.foldl_cons, List.foldl_nil,
          hexValue_digitChar small]
        omega
      · rw [Nat.toDigits_of_base_le (by decide) large, List.foldl_append, ih _ (by omega),
          List.foldl_cons, List.foldl_nil, hexValue_digitChar (by omega)]
        omega

theorem readGroup_hexText {group : ℕ} (small : group < 2 ^ 16) {rest : List Char}
    (ends : ∀ char ∈ rest.head?, isHex char = false) :
    readGroup (hexText group ++ rest) = some (group, rest) := by
  have short : (hexText group).length ≤ 4 :=
    (Nat.length_toDigits_le_iff (by decide) (by decide)).mpr small
  have given : ¬(hexText group = [] ∨ 4 < (hexText group).length) := by
    rintro (empty | long)
    · exact Nat.toDigits_ne_nil empty
    · omega
  rw [readGroup_eq, takeWhile_append_ends (fun char there => isHex_of_mem_hexText there) ends]
  dsimp only
  rw [if_neg given, foldl_hexText, List.drop_left]

/-- A text without a dot is no IPv4 address. -/
theorem parseIpv4_of_notMem {text : String} (absent : '.' ∉ text.toList) :
    parseIpv4 text = none := by
  rw [parseIpv4, List.splitOn_eq_singleton absent]

theorem notMem_takeWhile_append {p : Char → Bool} {char : Char} {front rest : List Char}
    (absent : char ∉ front) (ends : ∀ char ∈ rest.head?, p char = false) :
    char ∉ (front ++ rest).takeWhile p := by
  induction front with
  | nil =>
      rw [List.nil_append, takeWhile_ends ends]
      exact List.not_mem_nil
  | cons first front ih =>
      rw [List.mem_cons, not_or] at absent
      rw [List.cons_append, List.takeWhile_cons]
      split
      · exact List.not_mem_cons_of_ne_of_not_mem absent.1 (ih absent.2)
      · exact List.not_mem_nil

theorem readIpv4_of_notMem {front rest : List Char} (absent : '.' ∉ front)
    (ends : ∀ char ∈ rest.head?, char.isDigit = false ∧ char ≠ '.') :
    readIpv4 (front ++ rest) = none := by
  have stops (char : Char) (there : char ∈ rest.head?) :
      (char.isDigit || char == '.') = false := by
    rw [(ends char there).1, beq_eq_false_iff_ne.mpr (ends char there).2]
    rfl
  have undotted := notMem_takeWhile_append absent stops
  rw [readIpv4, parseIpv4_of_notMem (by rwa [String.toList_ofList])]
  rfl

theorem isDigit_of_not_isHex {char : Char} (other : isHex char = false) :
    char.isDigit = false := by
  rw [isHex, Bool.or_eq_false_iff] at other
  exact other.1

/-- The text does not go on with a digit of a group, or with a dot. -/
def GroupEnds (rest : List Char) : Prop :=
  ∀ char ∈ rest.head?, isHex char = false ∧ char ≠ '.'

theorem GroupEnds.decimal {rest : List Char} (ends : GroupEnds rest) :
    ∀ char ∈ rest.head?, char.isDigit = false ∧ char ≠ '.' :=
  fun char there => ⟨isDigit_of_not_isHex (ends char there).1, (ends char there).2⟩

theorem GroupEnds.hexadecimal {rest : List Char} (ends : GroupEnds rest) :
    ∀ char ∈ rest.head?, isHex char = false :=
  fun char there => (ends char there).1

theorem GroupEnds.colon (rest : List Char) : GroupEnds (':' :: rest) := by
  rintro _ ⟨⟩
  exact ⟨by decide, by decide⟩

theorem readIpv4_of_ends {rest : List Char} (ends : GroupEnds rest) : readIpv4 rest = none :=
  @readIpv4_of_notMem [] rest List.not_mem_nil ends.decimal

theorem readGroup_of_ends {rest : List Char} (ends : GroupEnds rest) : readGroup rest = none := by
  rw [readGroup_eq, takeWhile_ends ends.hexadecimal]
  rfl

theorem readIpv4_ipv4Text (address : Ipv4Addr) {rest : List Char}
    (ends : ∀ char ∈ rest.head?, char.isDigit = false ∧ char ≠ '.') :
    readIpv4 ((ipv4Text address).toList ++ rest) = some (address, rest) := by
  have stops (char : Char) (there : char ∈ rest.head?) :
      (char.isDigit || char == '.') = false := by
    rw [(ends char there).1, beq_eq_false_iff_ne.mpr (ends char there).2]
    rfl
  have all (char : Char) (there : char ∈ (ipv4Text address).toList) :
      (char.isDigit || char == '.') = true := by
    rcases mem_ipv4Text there with rfl | digit
    · rfl
    · rw [digit]
      rfl
  rw [readIpv4, takeWhile_append_ends all stops, List.drop_left, String.ofList_toList,
    parseIpv4_ipv4Text]
  rfl

/-- Groups as they stand in an address, with a colon in front unless they are the first ones -/
def spelled : ℕ → List ℕ → List Char
  | _, [] => []
  | index, group :: groups =>
      (if index = 0 then [] else [':']) ++ hexText group ++ spelled (index + 1) groups

theorem groupsText_cons_cons (group next : ℕ) (groups : List ℕ) :
    groupsText (group :: next :: groups) = hexText group ++ ':' :: groupsText (next :: groups) := by
  rw [groupsText, List.map_cons, List.map_cons, List.intercalate_cons_cons, List.append_assoc]
  rfl

theorem spelled_succ (index : ℕ) (group : ℕ) (groups : List ℕ) :
    spelled (index + 1) (group :: groups) = ':' :: groupsText (group :: groups) := by
  induction groups generalizing index group with
  | nil => simp [spelled, groupsText]
  | cons next groups ih =>
      rw [spelled, ih, if_neg (Nat.succ_ne_zero index), groupsText_cons_cons]
      simp

theorem spelled_zero (groups : List ℕ) : spelled 0 groups = groupsText groups := by
  cases groups with
  | nil => rfl
  | cons group groups =>
      cases groups with
      | nil => simp [spelled, groupsText]
      | cons next groups =>
          rw [spelled, if_pos rfl, spelled_succ, groupsText_cons_cons, List.nil_append]

/-- No group is read from the text at the place. -/
structure Stops (index : ℕ) (rest : List Char) : Prop where
  ipv4 : (readSeparator index rest).bind readIpv4 = none
  group : (readSeparator index rest).bind readGroup = none

theorem GroupEnds.spelled {rest : List Char} (ends : GroupEnds rest) (index : ℕ)
    (groups : List ℕ) : GroupEnds (spelled (index + 1) groups ++ rest) := by
  cases groups with
  | nil => exact ends
  | cons group groups =>
      rw [spelled_succ]
      exact .colon _

/-- In the last place no IPv4 address is looked for. -/
theorem readGroups_of_no_ipv4 {limit remaining : ℕ} {chars : List Char}
    (none : (readSeparator (limit - (remaining + 1)) chars).bind readIpv4 = none ∨
      remaining = 0) :
    readGroups limit (remaining + 1) chars =
      match (readSeparator (limit - (remaining + 1)) chars).bind readGroup with
      | some (group, rest) =>
          let (groups, dotted, rest) := readGroups limit remaining rest
          (group :: groups, dotted, rest)
      | .none => ([], false, chars) := by
  conv_lhs => unfold readGroups
  dsimp only
  rcases none with none | rfl
  · rewrite [none]
    cases remaining <;> rfl
  · generalize (readSeparator (limit - (0 + 1)) chars).bind readIpv4 = read
    cases read <;> rfl

theorem readSeparator_colon {index : ℕ} (later : index ≠ 0) (rest : List Char) :
    readSeparator index (':' :: rest) = some rest := by
  unfold readSeparator
  exact if_neg later

theorem readGroups_spelled (limit remaining : ℕ) {groups : List ℕ} {rest : List Char}
    (small : ∀ group ∈ groups, group < 2 ^ 16) (fits : groups.length ≤ remaining)
    (within : remaining ≤ limit) (ends : GroupEnds rest)
    (stops : groups.length < remaining → Stops (limit - remaining + groups.length) rest) :
    readGroups limit remaining (spelled (limit - remaining) groups ++ rest) =
      (groups, false, rest) := by
  induction remaining generalizing groups with
  | zero =>
      rw [List.length_eq_zero_iff.mp (Nat.le_zero.mp fits)]
      rfl
  | succ remaining ih =>
      cases groups with
      | nil =>
          have none := stops (Nat.zero_lt_succ _)
          rw [List.length_nil, Nat.add_zero] at none
          rw [spelled, List.nil_append, readGroups_of_no_ipv4 (.inl none.ipv4), none.group]
      | cons group groups =>
          rw [List.forall_mem_cons] at small
          have next : limit - (remaining + 1) + 1 = limit - remaining := by omega
          have more := ih small.2 (by rw [List.length_cons] at fits; omega) (by omega)
            fun left => by
              have place : limit - (remaining + 1) + (group :: groups).length =
                  limit - remaining + groups.length := by
                rw [List.length_cons]
                omega
              rw [← place]
              exact stops (by rw [List.length_cons]; omega)
          have separated : readSeparator (limit - (remaining + 1))
              (spelled (limit - (remaining + 1)) (group :: groups) ++ rest) =
                some (hexText group ++ (spelled (limit - remaining) groups ++ rest)) := by
            rw [spelled, next]
            by_cases first : limit - (remaining + 1) = 0
            · rw [first, if_pos rfl, List.nil_append, List.append_assoc]
              rfl
            · rw [if_neg first, List.singleton_append, List.cons_append, List.cons_append,
                readSeparator_colon first, List.append_assoc]
          have after : GroupEnds (spelled (limit - remaining) groups ++ rest) := by
            rw [← next]
            exact ends.spelled _ _
          have undotted : '.' ∉ hexText group := fun there =>
            absurd (isHex_of_mem_hexText there) (by decide)
          have no_ipv4 : (readSeparator (limit - (remaining + 1))
              (spelled (limit - (remaining + 1)) (group :: groups) ++ rest)).bind readIpv4 =
                none := by
            rw [separated]
            exact readIpv4_of_notMem undotted after.decimal
          rw [readGroups_of_no_ipv4 (.inl no_ipv4), separated, Option.bind_some,
            readGroup_hexText small.1 after.hexadecimal]
          dsimp only
          rw [more]

theorem readGroups_of_ipv4 {limit remaining : ℕ} {chars rest : List Char} {address : Ipv4Addr}
    (some : (readSeparator (limit - (remaining + 2)) chars).bind readIpv4 =
      .some (address, rest)) :
    readGroups limit (remaining + 2) chars =
      ([address.toNat / 2 ^ 16, address.toNat % 2 ^ 16], true, rest) := by
  unfold readGroups
  dsimp only
  rw [some]

theorem groupEnds_of_ends {rest : List Char} (ends : Ends rest) : GroupEnds rest := by
  intro char there
  have other := ends char there
  simp only [isAddressChar, Bool.or_eq_false_iff, beq_eq_false_iff_ne] at other
  exact other.1

theorem stops_colon {index : ℕ} (rest : List Char) : Stops index (':' :: ':' :: rest) := by
  by_cases first : index = 0
  · rw [first]
    exact ⟨readIpv4_of_ends (.colon (':' :: rest)), readGroup_of_ends (.colon (':' :: rest))⟩
  · have read := readSeparator_colon first (':' :: rest)
    constructor
    · rw [read]
      exact readIpv4_of_ends (.colon rest)
    · rw [read]
      exact readGroup_of_ends (.colon rest)

theorem stops_ends {index : ℕ} {rest : List Char} (ends : Ends rest) : Stops index rest := by
  have group_ends := groupEnds_of_ends ends
  by_cases first : index = 0
  · rw [first]
    exact ⟨readIpv4_of_ends group_ends, readGroup_of_ends group_ends⟩
  · have none : readSeparator index rest = none := by
      unfold readSeparator
      rw [if_neg first]
      split
      · have colon := ends ':' rfl
        exact absurd colon (by decide)
      · rfl
    constructor
    · rw [none]
      rfl
    · rw [none]
      rfl

end Groups

section Ipv6

/-- Eight groups are read as they are. -/
theorem readIpv6_full {groups : List ℕ} {rest : List Char}
    (small : ∀ group ∈ groups, group < 2 ^ 16) (eight : groups.length = 8) (ends : Ends rest) :
    readIpv6 (groupsText groups ++ rest) = some (groups, rest) := by
  have read := readGroups_spelled 8 8 small (Nat.le_of_eq eight) le_rfl (groupEnds_of_ends ends)
    fun fewer => absurd fewer (by omega)
  rw [Nat.sub_self, spelled_zero] at read
  rw [readIpv6, read]
  exact if_pos eight

theorem readIpv6_of_groups {chars rest last : List Char} {front back : List ℕ} {dotted : Bool}
    (head : readGroups 8 8 chars = (front, false, ':' :: ':' :: rest)) (fewer : front.length < 8)
    (tail : readGroups (8 - (front.length + 1)) (8 - (front.length + 1)) rest =
      (back, dotted, last)) :
    readIpv6 chars =
      some (front ++ List.replicate (8 - front.length - back.length) 0 ++ back, last) := by
  have eight : ¬front.length = 8 := by omega
  unfold readIpv6
  simp only [head, eight, tail, Bool.false_eq_true, if_false]

/-- Where groups have been left out there are zeros. -/
theorem readIpv6_elided {front back : List ℕ} {rest : List Char}
    (front_small : ∀ group ∈ front, group < 2 ^ 16) (back_small : ∀ group ∈ back, group < 2 ^ 16)
    (fewer : front.length + back.length < 8) (ends : Ends rest) :
    readIpv6 (groupsText front ++ ':' :: ':' :: (groupsText back ++ rest)) =
      some (front ++ List.replicate (8 - front.length - back.length) 0 ++ back, rest) := by
  have head := readGroups_spelled 8 8 front_small (by omega) le_rfl
    (.colon (':' :: (groupsText back ++ rest))) fun _ => stops_colon _
  have tail := readGroups_spelled (8 - (front.length + 1)) (8 - (front.length + 1)) back_small
    (by omega) le_rfl (groupEnds_of_ends ends) fun _ => stops_ends ends
  rw [Nat.sub_self, spelled_zero] at head tail
  exact readIpv6_of_groups head (by omega) tail

theorem readIpv6_mapped (address : Ipv4Addr) {rest : List Char} (ends : Ends rest) :
    readIpv6 ("::ffff:".toList ++ ((ipv4Text address).toList ++ rest)) =
      some ([0, 0, 0, 0, 0, 0xFFFF, address.toNat / 2 ^ 16, address.toNat % 2 ^ 16], rest) := by
  have text : "::ffff:".toList = ':' :: ':' :: (hexText 0xFFFF ++ [':']) := by decide
  rw [text, List.cons_append, List.cons_append, List.append_assoc, List.singleton_append]
  generalize written : (ipv4Text address).toList ++ rest = more
  have head := @readGroups_spelled 8 8 [] (':' :: ':' :: (hexText 0xFFFF ++ ':' :: more)) nofun
    (by decide) le_rfl
    (.colon (':' :: (hexText 0xFFFF ++ ':' :: more))) fun _ => stops_colon _
  have undotted : '.' ∉ hexText 0xFFFF := fun there =>
    absurd (isHex_of_mem_hexText there) (by decide)
  have no_ipv4 : readIpv4 (hexText 0xFFFF ++ ':' :: more) = none :=
    readIpv4_of_notMem undotted (GroupEnds.colon more).decimal
  have group : readGroup (hexText 0xFFFF ++ ':' :: more) = some (0xFFFF, ':' :: more) :=
    readGroup_hexText (by decide) (GroupEnds.colon more).hexadecimal
  have embedded : readGroups 7 6 (':' :: more) =
      ([address.toNat / 2 ^ 16, address.toNat % 2 ^ 16], true, rest) := by
    apply readGroups_of_ipv4
    rw [readSeparator_colon (by decide), Option.bind_some, ← written]
    exact readIpv4_ipv4Text address (groupEnds_of_ends ends).decimal
  have tail : readGroups 7 7 (hexText 0xFFFF ++ ':' :: more) =
      ([0xFFFF, address.toNat / 2 ^ 16, address.toNat % 2 ^ 16], true, rest) := by
    have first (chars : List Char) : readSeparator (7 - (6 + 1)) chars = some chars := rfl
    rw [readGroups_of_no_ipv4 (.inl (by rw [first]; exact no_ipv4)), first, Option.bind_some, group]
    dsimp only
    rw [embedded]
  rw [Nat.sub_self, spelled, List.nil_append] at head
  exact readIpv6_of_groups head (by decide) tail

theorem length_segments (address : Ipv6Addr) : (segments address).length = 8 := by
  rw [segments, List.length_map, List.length_range]

theorem lt_of_mem_segments {address : Ipv6Addr} {group : ℕ} (there : group ∈ segments address) :
    group < 2 ^ 16 := by
  obtain ⟨index, -, rfl⟩ := List.mem_map.mp there
  exact BitVec.isLt _

theorem take_zeroRun (groups : List ℕ) :
    groups.take (zeroRun groups) = List.replicate (zeroRun groups) 0 := by
  have run : groups.take (zeroRun groups) = groups.takeWhile (· == 0) :=
    (List.prefix_iff_eq_take.mp (List.takeWhile_prefix _)).symm
  rw [run, List.eq_replicate_iff]
  refine ⟨rfl, fun group there => ?_⟩
  have zero : (group == 0) = true := @List.mem_takeWhile_imp _ (· == 0) _ _ there
  exact beq_iff_eq.mp zero

/-- The run which is left out is one of zeros. -/
theorem longestZeroRun_le (groups : List ℕ) :
    (longestZeroRun groups).2 ≤ zeroRun (groups.drop (longestZeroRun groups).1) := by
  unfold longestZeroRun
  generalize List.range groups.length = starts
  generalize begins : ((0, 0) : ℕ × ℕ) = longest
  have run : longest.2 ≤ zeroRun (groups.drop longest.1) := by
    rw [← begins]
    exact Nat.zero_le _
  clear begins
  induction starts generalizing longest with
  | nil => exact run
  | cons start starts ih =>
      rw [List.foldl_cons]
      apply ih
      split
      · exact le_rfl
      · exact run

theorem longestZeroRun_split (groups : List ℕ) :
    let run := longestZeroRun groups
    groups = groups.take run.1 ++ (List.replicate run.2 0 ++ groups.drop (run.1 + run.2)) := by
  intro run
  have zeros : (groups.drop run.1).take run.2 = List.replicate run.2 0 := by
    have whole := take_zeroRun (groups.drop run.1)
    have fewer : run.2 ≤ zeroRun (groups.drop run.1) := longestZeroRun_le groups
    rw [← Nat.min_eq_left fewer, ← List.take_take, whole, List.take_replicate,
      Nat.min_eq_left fewer]
  rw [← zeros, ← List.drop_drop, List.take_append_drop, List.take_append_drop]

theorem segments_of_mapped {address : Ipv6Addr}
    (mapped : (segments address).take 6 = [0, 0, 0, 0, 0, 0xFFFF]) :
    let low := address.extractLsb' 0 32
    segments address =
      [0, 0, 0, 0, 0, 0xFFFF, low.toNat / 2 ^ 16, low.toNat % 2 ^ 16] := by
  intro low
  have last : (segments address).drop 6 = [low.toNat / 2 ^ 16, low.toNat % 2 ^ 16] := by
    simp only [segments, low, List.range_succ, List.range_zero, List.nil_append,
      List.map_cons, List.map_nil, List.cons_append, List.drop_succ_cons, List.drop_zero,
      BitVec.extractLsb'_toNat, Nat.shiftRight_eq_div_pow]
    simp only [List.cons.injEq, and_true]
    omega
  rw [← List.take_append_drop 6 (segments address), mapped, last]
  rfl

/-- The text of an address is read back in front of whatever ends it. -/
theorem readIpv6_ipv6Text (address : Ipv6Addr) {rest : List Char} (ends : Ends rest) :
    readIpv6 ((ipv6Text address).toList ++ rest) = some (segments address, rest) := by
  have eight := length_segments address
  have small (group : ℕ) (there : group ∈ segments address) := lt_of_mem_segments there
  rw [ipv6Text]
  dsimp only
  split
  · rename_i mapped
    rw [String.toList_append, List.append_assoc, readIpv6_mapped _ ends,
      ← segments_of_mapped mapped]
  split
  · rename_i long
    have split := longestZeroRun_split (segments address)
    dsimp only at split
    generalize longestZeroRun (segments address) = run at long split
    have length := congrArg List.length split
    simp only [List.length_append, List.length_replicate, eight] at length
    have front_small (group : ℕ) (there : group ∈ (segments address).take run.1) :=
      small group (List.mem_of_mem_take there)
    have back_small (group : ℕ) (there : group ∈ (segments address).drop (run.1 + run.2)) :=
      small group (List.mem_of_mem_drop there)
    have colons : "::".toList = [':', ':'] := rfl
    have zeros : 8 - ((segments address).take run.1).length -
        ((segments address).drop (run.1 + run.2)).length = run.2 := by omega
    rw [String.toList_ofList, colons, List.append_assoc, List.append_assoc, List.cons_append,
      List.cons_append, List.nil_append,
      readIpv6_elided front_small back_small (by omega) ends, zeros, List.append_assoc, ← split]
  · rw [String.toList_ofList, readIpv6_full small eight ends]

/-- The address with these segments -/
def groupsAddress (groups : List ℕ) : Ipv6Addr :=
  BitVec.ofNat 128 (groups.foldl (fun value group => value * 2 ^ 16 + group) 0)

theorem groupsAddress_segments (address : Ipv6Addr) :
    groupsAddress (segments address) = address := by
  have bound := address.isLt
  apply BitVec.eq_of_toNat_eq
  simp only [groupsAddress, segments, List.range_succ, List.range_zero, List.nil_append,
    List.map_cons, List.map_nil, List.cons_append, List.foldl_cons, List.foldl_nil,
    BitVec.extractLsb'_toNat, Nat.shiftRight_eq_div_pow, BitVec.toNat_ofNat]
  omega

end Ipv6

section Socket

/-- `std::net::SocketAddr` -/
inductive SocketAddr where
  | v4 (ip : Ipv4Addr) (port : UInt16)
  | v6 (ip : Ipv6Addr) (port : UInt16) (flowinfo scopeId : UInt32)
  deriving DecidableEq

/-- The `Display` text of an address; the flow information is not written. -/
def SocketAddr.text : SocketAddr → String
  | .v4 ip port => ipv4Text ip ++ ":" ++ toString port.toNat
  | .v6 ip port _ scopeId =>
      "[" ++ ipv6Text ip ++ (if scopeId = 0 then "" else "%" ++ toString scopeId.toNat) ++ "]:" ++
        toString port.toNat

/-- `read_number(10, None, true)`: leading zeros are fine, a sign is not. -/
def readNumber (bound : ℕ) (chars : List Char) : Option (ℕ × List Char) :=
  let digits := chars.takeWhile Char.isDigit
  if digits = [] then none
  else (parseDigits bound 0 digits).toOption.map fun number => (number, chars.drop digits.length)

def readPort : List Char → Option (UInt16 × List Char)
  | ':' :: rest => (readNumber u16Max rest).map fun read => (UInt16.ofNat read.1, read.2)
  | _ => none

def readScopeId : List Char → Option (UInt32 × List Char)
  | '%' :: rest => (readNumber u32Max rest).map fun read => (UInt32.ofNat read.1, read.2)
  | _ => none

def readSocketAddrV4 (chars : List Char) : Option (SocketAddr × List Char) :=
  (readIpv4 chars).bind fun ip =>
    (readPort ip.2).map fun port => (.v4 ip.1 port.1, port.2)

def readSocketAddrV6 : List Char → Option (SocketAddr × List Char)
  | '[' :: chars =>
      (readIpv6 chars).bind fun groups =>
        let scopeId := (readScopeId groups.2).getD (0, groups.2)
        match scopeId.2 with
        | ']' :: rest =>
            (readPort rest).map fun port =>
              (.v6 (groupsAddress groups.1) port.1 0 scopeId.1, port.2)
        | _ => none
  | _ => none

/-- `SocketAddr::from_str` -/
def parseSocketAddr (text : String) : Option SocketAddr :=
  match (readSocketAddrV4 text.toList).or (readSocketAddrV6 text.toList) with
  | some (address, []) => some address
  | _ => none

example : parseSocketAddr "[fe80::1%2]:080" =
    some (.v6 0xFE800000000000000000000000000001 80 0 2) := by
  decide +kernel

theorem toList_toString (number : ℕ) : (toString number).toList = Nat.toDigits 10 number := by
  simp [Nat.repr]

theorem readNumber_toDigits {bound number : ℕ} (small : number ≤ bound) {rest : List Char}
    (ends : ∀ char ∈ rest.head?, char.isDigit = false) :
    readNumber bound (Nat.toDigits 10 number ++ rest) = some (number, rest) := by
  have digits (char : Char) (there : char ∈ Nat.toDigits 10 number) : char.isDigit = true :=
    Nat.isDigit_of_mem_toDigits (by decide) (by decide) there
  have value : Nat.ofDigitChars 10 (Nat.toDigits 10 number) 0 = number :=
    Nat.ofDigitChars_toDigits (by decide) (by decide)
  rw [readNumber, takeWhile_append_ends digits ends, if_neg Nat.toDigits_ne_nil,
    parseDigits_eq digits (by rwa [value]), value, List.drop_left]
  rfl

theorem readPort_text (port : UInt16) :
    readPort (':' :: (toString port.toNat).toList) = some (port, []) := by
  have small : port.toNat ≤ u16Max := Nat.le_of_lt_succ port.toNat_lt
  have read := @readNumber_toDigits u16Max port.toNat small [] nofun
  rw [List.append_nil] at read
  rw [readPort, toList_toString, read, Option.map_some, UInt16.ofNat_toNat]

theorem parseSocketAddr_v4 (ip : Ipv4Addr) (port : UInt16) :
    parseSocketAddr (SocketAddr.text (.v4 ip port)) = some (.v4 ip port) := by
  have chars : (SocketAddr.text (.v4 ip port)).toList =
      (ipv4Text ip).toList ++ ':' :: (toString port.toNat).toList := by
    rw [SocketAddr.text, String.toList_append, String.toList_append, List.append_assoc]
    rfl
  have read : readSocketAddrV4 ((ipv4Text ip).toList ++ ':' :: (toString port.toNat).toList) =
      some (.v4 ip port, []) := by
    rw [readSocketAddrV4, readIpv4_ipv4Text ip (GroupEnds.colon _).decimal, Option.bind_some,
      readPort_text]
    rfl
  rw [parseSocketAddr, chars, read]
  rfl

theorem ends_of_head {char : Char} (other : isAddressChar char = false) (rest : List Char) :
    Ends (char :: rest) := by
  rintro _ ⟨⟩
  exact other

theorem readScopeId_text (scopeId : UInt32) (rest : List Char) :
    readScopeId ('%' :: ((toString scopeId.toNat).toList ++ ']' :: rest)) =
      some (scopeId, ']' :: rest) := by
  have small : scopeId.toNat ≤ u32Max := Nat.le_of_lt_succ scopeId.toNat_lt
  have ends (char : Char) (there : char ∈ (']' :: rest).head?) : char.isDigit = false := by
    rw [← Option.some.inj there]
    rfl
  rw [readScopeId, toList_toString, readNumber_toDigits small ends, Option.map_some,
    UInt32.ofNat_toNat]

theorem parseSocketAddr_v6 (ip : Ipv6Addr) (port : UInt16) (flowinfo scopeId : UInt32) :
    parseSocketAddr (SocketAddr.text (.v6 ip port flowinfo scopeId)) =
      some (.v6 ip port 0 scopeId) := by
  let ending := ']' :: ':' :: (toString port.toNat).toList
  have chars : (SocketAddr.text (.v6 ip port flowinfo scopeId)).toList =
      '[' :: ((ipv6Text ip).toList ++
        ((if scopeId = 0 then "" else "%" ++ toString scopeId.toNat).toList ++ ending)) := by
    simp only [SocketAddr.text, String.toList_append, List.append_assoc]
    rfl
  have scope : ∃ rest, (if scopeId = 0 then "" else "%" ++ toString scopeId.toNat).toList ++
        ending = rest ∧ Ends rest ∧
      (readScopeId rest).getD (0, rest) = (scopeId, ending) := by
    refine ⟨_, rfl, ?_⟩
    by_cases zero : scopeId = 0
    · rw [if_pos zero, zero]
      exact ⟨ends_of_head (by decide) _, rfl⟩
    · have text : ("%" ++ toString scopeId.toNat).toList ++ ending =
          '%' :: ((toString scopeId.toNat).toList ++ ending) := by
        rw [String.toList_append]
        rfl
      rw [if_neg zero, text, readScopeId_text]
      exact ⟨ends_of_head (by decide) _, rfl⟩
  obtain ⟨rest, text, ends, read⟩ := scope
  have no_v4 : readSocketAddrV4 ('[' :: ((ipv6Text ip).toList ++ rest)) = none := by
    have bracket : GroupEnds ('[' :: ((ipv6Text ip).toList ++ rest)) :=
      groupEnds_of_ends (ends_of_head (by decide) _)
    rw [readSocketAddrV4, readIpv4_of_ends bracket]
    rfl
  have v6 : readSocketAddrV6 ('[' :: ((ipv6Text ip).toList ++ rest)) =
      some (.v6 ip port 0 scopeId, []) := by
    rw [readSocketAddrV6, readIpv6_ipv6Text ip ends, Option.bind_some]
    dsimp only
    rw [read, groupsAddress_segments]
    change (readPort (':' :: (toString port.toNat).toList)).map _ = _
    rw [readPort_text]
    rfl
  rw [parseSocketAddr, chars, text, no_v4, v6]
  rfl

end Socket

section Literals

/-- What has been read of a text are characters of an address. -/
def Consumes (chars rest : List Char) : Prop :=
  ∃ front, chars = front ++ rest ∧ ∀ char ∈ front, isAddressChar char = true

theorem Consumes.refl (chars : List Char) : Consumes chars chars :=
  ⟨[], rfl, nofun⟩

theorem Consumes.trans {chars middle rest : List Char} (first : Consumes chars middle)
    (second : Consumes middle rest) : Consumes chars rest := by
  obtain ⟨front, rfl, front_chars⟩ := first
  obtain ⟨back, rfl, back_chars⟩ := second
  exact ⟨front ++ back, (List.append_assoc _ _ _).symm,
    List.forall_mem_append.mpr ⟨front_chars, back_chars⟩⟩

theorem consumes_cons {char : Char} (inside : isAddressChar char = true) (rest : List Char) :
    Consumes (char :: rest) rest :=
  ⟨[char], rfl, List.forall_mem_singleton.mpr inside⟩

theorem takeWhile_append_drop (p : Char → Bool) (chars : List Char) :
    chars.takeWhile p ++ chars.drop (chars.takeWhile p).length = chars :=
  List.prefix_iff_eq_append.mp (List.takeWhile_prefix p)

theorem consumes_takeWhile {p : Char → Bool} (inside : ∀ char, p char = true →
      isAddressChar char = true) (chars : List Char) :
    Consumes chars (chars.drop (chars.takeWhile p).length) := by
  refine ⟨chars.takeWhile p, ?_, fun char there => inside char (List.mem_takeWhile_imp there)⟩
  exact (takeWhile_append_drop p chars).symm

theorem consumes_readSeparator {index : ℕ} {chars rest : List Char}
    (read : readSeparator index chars = some rest) : Consumes chars rest := by
  unfold readSeparator at read
  split at read
  · rw [Option.some.inj read]
    exact .refl rest
  · split at read
    · rw [← Option.some.inj read]
      exact consumes_cons (by decide) _
    · cases read

/-- A character of an IPv4 address -/
def isDecimal (char : Char) : Bool :=
  char.isDigit || char == '.'

theorem isAddressChar_of_isDecimal {char : Char} (decimal : isDecimal char = true) :
    isAddressChar char = true := by
  rw [isDecimal, Bool.or_eq_true] at decimal
  rcases decimal with digit | dot
  · rw [isAddressChar, isHex, digit]
    rfl
  · rw [isAddressChar, dot, Bool.or_true]
    rfl

theorem consumes_readIpv4 {chars rest : List Char} {address : Ipv4Addr}
    (read : readIpv4 chars = some (address, rest)) : Consumes chars rest := by
  obtain ⟨parsed, -, same⟩ := Option.map_eq_some_iff.mp read
  rw [← (Prod.mk.inj same).2]
  exact consumes_takeWhile (fun char => isAddressChar_of_isDecimal) chars

theorem consumes_readGroup {chars rest : List Char} {group : ℕ}
    (read : readGroup chars = some (group, rest)) : Consumes chars rest := by
  rw [readGroup_eq] at read
  dsimp only at read
  split at read
  · cases read
  · rw [← (Prod.mk.inj (Option.some.inj read)).2]
    refine consumes_takeWhile (fun char inside => ?_) chars
    rw [isAddressChar, inside]
    rfl

theorem consumes_readGroups (limit remaining : ℕ) (chars : List Char) :
    Consumes chars (readGroups limit remaining chars).2.2 := by
  induction remaining generalizing chars with
  | zero => exact .refl chars
  | succ remaining ih =>
      by_cases none : (readSeparator (limit - (remaining + 1)) chars).bind readIpv4 = none ∨
          remaining = 0
      · rw [readGroups_of_no_ipv4 none]
        cases group : (readSeparator (limit - (remaining + 1)) chars).bind readGroup with
        | none => exact .refl chars
        | some read =>
            obtain ⟨after, separated, grouped⟩ := Option.bind_eq_some_iff.mp group
            exact ((consumes_readSeparator separated).trans (consumes_readGroup grouped)).trans
              (ih read.2)
      · obtain ⟨some, more⟩ := not_or.mp none
        obtain ⟨read, ipv4⟩ := Option.ne_none_iff_exists'.mp some
        obtain ⟨left, rfl⟩ := Nat.exists_eq_succ_of_ne_zero more
        rw [readGroups_of_ipv4 ipv4]
        obtain ⟨after, separated, embedded⟩ := Option.bind_eq_some_iff.mp ipv4
        exact (consumes_readSeparator separated).trans (consumes_readIpv4 embedded)

/-- A literal has no other characters. -/
theorem isAddressChar_of_parseIpv6 {text : String} (literal : (parseIpv6 text).isSome = true) :
    ∀ char ∈ text.toList, isAddressChar char = true := by
  have consumed : Consumes text.toList [] := by
    unfold parseIpv6 at literal
    have head := consumes_readGroups 8 8 text.toList
    generalize readGroups 8 8 text.toList = read at literal head
    rcases read with ⟨front, dotted, rest⟩
    dsimp only at literal head
    split at literal
    · split at literal
      · rename_i last
        rwa [last] at head
      · cases literal
    split at literal
    · cases literal
    split at literal
    · rename_i rest
      have tail := consumes_readGroups (8 - (front.length + 1)) (8 - (front.length + 1)) rest
      split at literal
      · rename_i last
        rw [last] at tail
        exact ((head.trans (consumes_cons (by decide) _)).trans
          (consumes_cons (by decide) _)).trans tail
      · cases literal
    · cases literal
  obtain ⟨front, whole, chars⟩ := consumed
  rw [whole, List.append_nil]
  exact chars

theorem isDigit_of_parseDigits {bound value number : ℕ} {digits : List Char}
    (parsed : parseDigits bound value digits = .ok number) :
    ∀ digit ∈ digits, digit.isDigit = true := by
  induction digits generalizing value with
  | nil => exact nofun
  | cons digit digits ih =>
      rw [parseDigits] at parsed
      split at parsed
      · rename_i isDigit
        dsimp only at parsed
        split at parsed
        · exact List.forall_mem_cons.mpr ⟨isDigit, ih parsed⟩
        · cases parsed
      · cases parsed

/-- A number is written in digits, which a plus sign may precede. -/
theorem isDigit_of_parseUnsigned {bound : ℕ} {text : String}
    (parsed : (parseUnsigned bound text).isOk = true) :
    ∀ char ∈ text.toList, char.isDigit = true ∨ char = '+' := by
  have digits {list : List Char} (ok : (parseDigits bound 0 list).isOk = true) :
      ∀ char ∈ list, char.isDigit = true := by
    cases read : parseDigits bound 0 list with
    | error error =>
        rw [read] at ok
        cases ok
    | ok number => exact isDigit_of_parseDigits read
  unfold parseUnsigned at parsed
  intro char there
  split at parsed
  · cases parsed
  · cases parsed
  · cases parsed
  · rename_i signed
    rw [signed, List.mem_cons] at there
    exact there.symm.imp_left (digits parsed char)
  · exact .inl (digits parsed char there)

theorem isDecimal_of_parseIpv4 {text : String} (literal : (parseIpv4 text).isSome = true) :
    ∀ char ∈ text.toList, isDecimal char = true := by
  have octet {digits : List Char} (read : (parseOctet digits).isSome = true) :
      ∀ char ∈ digits, isDecimal char = true := by
    intro char there
    unfold parseOctet at read
    split at read
    · split at read
      · cases read
      · cases parsed : parseDigits u8Max 0 digits with
        | error error =>
            rw [parsed] at read
            cases read
        | ok number =>
            rw [isDecimal, isDigit_of_parseDigits parsed char there]
            rfl
    · cases read
  have joined : ['.'].intercalate (text.toList.splitOn '.') = text.toList :=
    List.intercalate_splitOn '.'
  unfold parseIpv4 at literal
  split at literal
  · rename_i a b c d parts
    rw [parts] at joined
    simp only [Option.pure_def, Option.bind_eq_bind, Option.isSome_bind, Option.any_eq_true,
      Option.isSome_some] at literal
    obtain ⟨first, read_a, second, read_b, third, read_c, fourth, read_d, -⟩ := literal
    intro char there
    rw [← joined] at there
    rcases mem_intercalate there with rfl | ⟨part, member, inside⟩
    · decide
    · simp only [List.mem_cons, List.not_mem_nil, or_false] at member
      rcases member with rfl | rfl | rfl | rfl
      · exact octet (by rw [read_a]; rfl) char inside
      · exact octet (by rw [read_b]; rfl) char inside
      · exact octet (by rw [read_c]; rfl) char inside
      · exact octet (by rw [read_d]; rfl) char inside
  · cases literal

/-! ### What follows a literal has no part in reading it -/

theorem takeWhile_append_of_ends {p : Char → Bool} {rest : List Char}
    (ends : ∀ char ∈ rest.head?, p char = false) (chars : List Char) :
    (chars ++ rest).takeWhile p = chars.takeWhile p := by
  induction chars with
  | nil => exact takeWhile_ends ends
  | cons char chars ih => rw [List.cons_append, List.takeWhile_cons, List.takeWhile_cons, ih]

theorem drop_takeWhile_append (p : Char → Bool) (chars rest : List Char) :
    (chars ++ rest).drop (chars.takeWhile p).length =
      chars.drop (chars.takeWhile p).length ++ rest :=
  List.drop_append_of_le_length (List.takeWhile_prefix p).length_le

theorem readIpv4_append {rest : List Char} (ends : GroupEnds rest) (chars : List Char) :
    readIpv4 (chars ++ rest) = (readIpv4 chars).map fun read => (read.1, read.2 ++ rest) := by
  have stops (char : Char) (there : char ∈ rest.head?) :
      (char.isDigit || char == '.') = false := by
    rw [(ends.decimal char there).1, beq_eq_false_iff_ne.mpr (ends.decimal char there).2]
    rfl
  rw [readIpv4, takeWhile_append_of_ends stops, drop_takeWhile_append, readIpv4, Option.map_map]
  rfl

theorem readGroup_append {rest : List Char} (ends : GroupEnds rest) (chars : List Char) :
    readGroup (chars ++ rest) = (readGroup chars).map fun read => (read.1, read.2 ++ rest) := by
  rw [readGroup_eq, readGroup_eq, takeWhile_append_of_ends ends.hexadecimal]
  dsimp only
  rw [drop_takeWhile_append]
  split <;> rfl

theorem readSeparator_append {rest : List Char} (ends : Ends rest) (index : ℕ)
    (chars : List Char) :
    readSeparator index (chars ++ rest) = (readSeparator index chars).map (· ++ rest) := by
  by_cases first : index = 0
  · rw [first]
    rfl
  · unfold readSeparator
    rw [if_neg first, if_neg first]
    cases chars with
    | nil =>
        split
        · have colon := ends ':' (by rename_i whole; rw [List.nil_append] at whole; rw [whole]; rfl)
          exact absurd colon (by decide)
        · rfl
    | cons char chars =>
        by_cases colon : char = ':'
        · rw [colon]
          rfl
        · split
          · rename_i whole
            exact absurd (List.cons.inj whole).1 colon
          · split
            · rename_i whole
              exact absurd (List.cons.inj whole).1 colon
            · rfl

theorem readGroups_append {rest : List Char} (ends : Ends rest) (limit remaining : ℕ)
    (chars : List Char) :
    readGroups limit remaining (chars ++ rest) =
      ((readGroups limit remaining chars).1, (readGroups limit remaining chars).2.1,
        (readGroups limit remaining chars).2.2 ++ rest) := by
  have group_ends := groupEnds_of_ends ends
  induction remaining generalizing chars with
  | zero => rfl
  | succ remaining ih =>
      have embedded : (readSeparator (limit - (remaining + 1)) (chars ++ rest)).bind readIpv4 =
          ((readSeparator (limit - (remaining + 1)) chars).bind readIpv4).map
            fun read => (read.1, read.2 ++ rest) := by
        rw [readSeparator_append ends]
        cases readSeparator (limit - (remaining + 1)) chars with
        | none => rfl
        | some after => exact readIpv4_append group_ends after
      have grouped : (readSeparator (limit - (remaining + 1)) (chars ++ rest)).bind readGroup =
          ((readSeparator (limit - (remaining + 1)) chars).bind readGroup).map
            fun read => (read.1, read.2 ++ rest) := by
        rw [readSeparator_append ends]
        cases readSeparator (limit - (remaining + 1)) chars with
        | none => rfl
        | some after => exact readGroup_append group_ends after
      by_cases none : (readSeparator (limit - (remaining + 1)) chars).bind readIpv4 = none ∨
          remaining = 0
      · have still : (readSeparator (limit - (remaining + 1)) (chars ++ rest)).bind readIpv4 =
            .none ∨ remaining = 0 := by
          refine none.imp_left fun none => ?_
          rw [embedded, none]
          rfl
        rw [readGroups_of_no_ipv4 none, readGroups_of_no_ipv4 still, grouped]
        cases (readSeparator (limit - (remaining + 1)) chars).bind readGroup with
        | none => rfl
        | some read =>
            dsimp only [Option.map_some]
            rw [ih]
      · obtain ⟨some, more⟩ := not_or.mp none
        obtain ⟨read, ipv4⟩ := Option.ne_none_iff_exists'.mp some
        obtain ⟨left, rfl⟩ := Nat.exists_eq_succ_of_ne_zero more
        rw [ipv4, Option.map_some] at embedded
        rw [readGroups_of_ipv4 ipv4, readGroups_of_ipv4 embedded]

theorem readIpv6_append {rest : List Char} (ends : Ends rest) (chars : List Char) :
    readIpv6 (chars ++ rest) = (readIpv6 chars).map fun read => (read.1, read.2 ++ rest) := by
  unfold readIpv6
  rw [readGroups_append ends]
  generalize readGroups 8 8 chars = read
  rcases read with ⟨front, dotted, last⟩
  dsimp only
  split
  · rfl
  split
  · rfl
  have colon : rest.head? ≠ some ':' := by
    intro there
    exact absurd (ends ':' there) (by decide)
  -- the colons are those of the text itself
  have colons (more : List Char) (whole : last ++ rest = ':' :: ':' :: more) :
      ∃ after, last = ':' :: ':' :: after ∧ more = after ++ rest := by
    match last, whole with
    | [], whole => exact absurd (congrArg List.head? whole) colon
    | [_], whole => exact absurd (congrArg List.head? (List.cons.inj whole).2) colon
    | _ :: _ :: after, whole =>
        obtain ⟨first, whole⟩ := List.cons.inj whole
        obtain ⟨second, whole⟩ := List.cons.inj whole
        exact ⟨after, by rw [first, second], whole.symm⟩
  split
  · rename_i more whole
    obtain ⟨after, rfl, rfl⟩ := colons more whole
    simp only [readGroups_append ends, Option.map_some]
  · rename_i other
    split
    · rename_i after
      exact absurd rfl (other (after ++ rest))
    · rfl

theorem readIpv6_of_literal {host : String} (literal : (parseIpv6 host).isSome = true)
    {rest : List Char} (ends : Ends rest) :
    ∃ groups, readIpv6 (host.toList ++ rest) = some (groups, rest) := by
  rw [parseIpv6_eq] at literal
  obtain ⟨groups, parsed⟩ := Option.isSome_iff_exists.mp literal
  obtain ⟨read, found, whole⟩ := Option.bind_eq_some_iff.mp parsed
  split at whole
  · rename_i last
    refine ⟨read.1, ?_⟩
    rw [readIpv6_append ends, found, Option.map_some, last, List.nil_append]
  · cases whole

theorem readIpv4_of_literal {host : String} (literal : (parseIpv4 host).isSome = true)
    {rest : List Char} (ends : GroupEnds rest) :
    ∃ ip, readIpv4 (host.toList ++ rest) = some (ip, rest) := by
  obtain ⟨ip, parsed⟩ := Option.isSome_iff_exists.mp literal
  have whole : host.toList.takeWhile isDecimal = host.toList :=
    List.takeWhile_eq_self_iff.mpr (isDecimal_of_parseIpv4 literal)
  have read : readIpv4 host.toList = some (ip, []) := by
    change (parseIpv4 (.ofList (host.toList.takeWhile isDecimal))).map
      (fun address => (address, host.toList.drop (host.toList.takeWhile isDecimal).length)) = _
    rw [whole, String.ofList_toList, parsed, List.drop_length]
    rfl
  exact ⟨ip, by rw [readIpv4_append ends, read]; rfl⟩

/-- No IPv4 address begins an IPv6 address. -/
theorem readIpv6_of_ipv4 {host : String} (literal : (parseIpv4 host).isSome = true)
    {rest : List Char} (ends : GroupEnds rest) : readIpv6 (host.toList ++ rest) = none := by
  obtain ⟨ip, read⟩ := readIpv4_of_literal literal ends
  have groups : readGroups 8 8 (host.toList ++ rest) =
      ([ip.toNat / 2 ^ 16, ip.toNat % 2 ^ 16], true, rest) := readGroups_of_ipv4 read
  rw [readIpv6, groups]
  rfl

theorem parseIpv6_of_ipv4 {host : String} (literal : (parseIpv4 host).isSome = true) :
    parseIpv6 host = none := by
  have none := @readIpv6_of_ipv4 host literal [] nofun
  rw [List.append_nil] at none
  rw [parseIpv6_eq, none]
  rfl

/-- The text of an address of either family -/
def IsLiteral (text : String) : Prop :=
  (parseIpv4 text).isSome = true ∨ (parseIpv6 text).isSome = true

instance (text : String) : Decidable (IsLiteral text) :=
  inferInstanceAs (Decidable (_ ∨ _))

theorem IsLiteral.chars {text : String} (literal : IsLiteral text) :
    ∀ char ∈ text.toList, isAddressChar char = true := by
  rcases literal with v4 | v6
  · exact fun char there => isAddressChar_of_isDecimal (isDecimal_of_parseIpv4 v4 char there)
  · exact isAddressChar_of_parseIpv6 v6

theorem IsLiteral.notMem {text : String} (literal : IsLiteral text) {char : Char}
    (other : isAddressChar char = false) : char ∉ text.toList := by
  intro there
  rw [literal.chars char there] at other
  cases other

theorem IsLiteral.ne_nil {text : String} (literal : IsLiteral text) : text.toList ≠ [] := by
  intro empty
  rw [← String.ofList_toList (s := text), empty] at literal
  revert literal
  decide +kernel

theorem isDigit_of_readNumber {bound number : ℕ} {chars : List Char}
    (read : readNumber bound chars = some (number, [])) :
    ∀ char ∈ chars, char.isDigit = true := by
  unfold readNumber at read
  dsimp only at read
  split at read
  · cases read
  · obtain ⟨value, -, whole⟩ := Option.map_eq_some_iff.mp read
    have all := takeWhile_append_drop Char.isDigit chars
    rw [(Prod.mk.inj whole).2, List.append_nil] at all
    intro char there
    rw [← all] at there
    exact List.mem_takeWhile_imp there

theorem isDigit_of_readPort {chars : List Char} {port : UInt16}
    (read : readPort chars = some (port, [])) :
    ∃ digits, chars = ':' :: digits ∧ ∀ char ∈ digits, char.isDigit = true := by
  unfold readPort at read
  split at read
  · rename_i digits
    obtain ⟨⟨number, rest⟩, numbered, whole⟩ := Option.map_eq_some_iff.mp read
    have last : rest = [] := (Prod.mk.inj whole).2
    rw [last] at numbered
    exact ⟨digits, rfl, isDigit_of_readNumber numbered⟩
  · cases read

/-- What is read as a socket address is an IPv4 literal with digits behind a colon, or bracketed. -/
theorem parseSocketAddr_cases {text : String} {address : SocketAddr}
    (parsed : parseSocketAddr text = some address) :
    (∃ host digits, text.toList = host ++ ':' :: digits ∧
        (∀ char ∈ digits, char.isDigit = true) ∧ (parseIpv4 (.ofList host)).isSome = true) ∨
      ∃ rest, text.toList = '[' :: rest := by
  unfold parseSocketAddr at parsed
  split at parsed
  · rename_i read found
    rcases Option.or_eq_some_iff.mp found with v4 | ⟨-, v6⟩
    · left
      obtain ⟨⟨ip, rest⟩, ipv4, ported⟩ := Option.bind_eq_some_iff.mp v4
      obtain ⟨⟨port, last⟩, read_port, whole⟩ := Option.map_eq_some_iff.mp ported
      have ended : last = [] := (Prod.mk.inj whole).2
      rw [ended] at read_port
      obtain ⟨digits, behind, decimal⟩ := isDigit_of_readPort read_port
      obtain ⟨parsed, literal, same⟩ := Option.map_eq_some_iff.mp ipv4
      refine ⟨_, digits, ?_, decimal, by rw [literal]; rfl⟩
      have after : text.toList.drop (text.toList.takeWhile fun char =>
          char.isDigit || char == '.').length = ':' :: digits :=
        (Prod.mk.inj same).2.trans behind
      rw [← after]
      exact (takeWhile_append_drop _ _).symm
    · right
      unfold readSocketAddrV6 at v6
      split at v6
      · rename_i rest bracket
        exact ⟨rest, bracket⟩
      · cases v6
  · cases parsed

theorem ends_bracket (rest : List Char) : Ends (']' :: rest) :=
  ends_of_head (by decide) rest

theorem readNumber_of_parseUnsigned {bound : ℕ} {text : String}
    (parsed : (parseUnsigned bound text).isOk = true) (unsigned : text.toList.head? ≠ some '+') :
    ∃ number, readNumber bound text.toList = some (number, []) := by
  unfold parseUnsigned at parsed
  split at parsed
  · cases parsed
  · cases parsed
  · cases parsed
  · rename_i signed
    rw [signed] at unsigned
    exact absurd rfl unsigned
  · rename_i nonempty _ _ _
    cases read : parseDigits bound 0 text.toList with
    | error error =>
        rw [read] at parsed
        cases parsed
    | ok number =>
        have whole : text.toList.takeWhile Char.isDigit = text.toList :=
          List.takeWhile_eq_self_iff.mpr (isDigit_of_parseDigits read)
        refine ⟨number, ?_⟩
        rw [readNumber, whole, if_neg nonempty, read, List.drop_length]
        rfl

theorem readPort_of_parseUnsigned {text : String}
    (parsed : (parseUnsigned u16Max text).isOk = true)
    (unsigned : text.toList.head? ≠ some '+') :
    ∃ port, readPort (':' :: text.toList) = some (port, []) := by
  obtain ⟨number, read⟩ := readNumber_of_parseUnsigned parsed unsigned
  exact ⟨UInt16.ofNat number, by rw [readPort, read]; rfl⟩

/-- A sign is no part of a port. -/
theorem readPort_signed {text : String} (signed : text.toList.head? = some '+') :
    readPort (':' :: text.toList) = none := by
  obtain ⟨digits, whole⟩ := List.head?_eq_some_iff.mp signed
  rw [whole]
  rfl

variable {host port : String}

theorem toList_plain (host port : String) :
    (host ++ ":" ++ port).toList = host.toList ++ ':' :: port.toList := by
  rw [String.toList_append, String.toList_append, List.append_assoc]
  rfl

theorem toList_bracketed (host port : String) :
    ("[" ++ host ++ "]:" ++ port).toList = '[' :: (host.toList ++ ']' :: ':' :: port.toList) := by
  simp only [String.toList_append, List.append_assoc]
  rfl

theorem toList_doubled (host port : String) :
    ("[[" ++ host ++ "]]:" ++ port).toList =
      '[' :: '[' :: (host.toList ++ ']' :: ']' :: ':' :: port.toList) := by
  simp only [String.toList_append, List.append_assoc]
  rfl

theorem parseSocketAddr_ipv4 (literal : (parseIpv4 host).isSome = true)
    (parsed : (parseUnsigned u16Max port).isOk = true)
    (unsigned : port.toList.head? ≠ some '+') :
    (parseSocketAddr (host ++ ":" ++ port)).isSome = true := by
  obtain ⟨ip, read⟩ := readIpv4_of_literal literal (.colon port.toList)
  obtain ⟨number, ported⟩ := readPort_of_parseUnsigned parsed unsigned
  rw [parseSocketAddr, toList_plain, readSocketAddrV4, read, Option.bind_some, ported]
  rfl

/-- A bracket is no part of an IPv4 address. -/
theorem readSocketAddrV4_bracket (rest : List Char) : readSocketAddrV4 ('[' :: rest) = none := by
  have bracket : GroupEnds ('[' :: rest) := groupEnds_of_ends (ends_of_head (by decide) rest)
  rw [readSocketAddrV4, readIpv4_of_ends bracket]
  rfl

theorem readSocketAddrV6_bracketed (literal : (parseIpv6 host).isSome = true) (rest : List Char) :
    ∃ ip, readSocketAddrV6 ('[' :: (host.toList ++ ']' :: rest)) =
      (readPort rest).map fun port => (.v6 ip port.1 0 0, port.2) := by
  obtain ⟨groups, read⟩ := readIpv6_of_literal literal (ends_bracket rest)
  exact ⟨groupsAddress groups, by rw [readSocketAddrV6, read, Option.bind_some]; rfl⟩

theorem parseSocketAddr_ipv6 (literal : (parseIpv6 host).isSome = true)
    (parsed : (parseUnsigned u16Max port).isOk = true)
    (unsigned : port.toList.head? ≠ some '+') :
    (parseSocketAddr ("[" ++ host ++ "]:" ++ port)).isSome = true := by
  obtain ⟨ip, read⟩ := readSocketAddrV6_bracketed literal (':' :: port.toList)
  obtain ⟨number, ported⟩ := readPort_of_parseUnsigned parsed unsigned
  rw [parseSocketAddr, toList_bracketed, readSocketAddrV4_bracket, read, ported]
  rfl

/-- Without brackets only an IPv4 address with a port in digits is read. -/
theorem parseSocketAddr_plain (no_open : '[' ∉ host.toList) (nonempty : host.toList ≠ [])
    (last : ':' ∉ port.toList)
    (other : (parseIpv4 host).isSome = true → port.toList.head? = some '+') :
    parseSocketAddr (host ++ ":" ++ port) = none := by
  by_contra read
  obtain ⟨address, parsed⟩ := Option.ne_none_iff_exists'.mp read
  rcases parseSocketAddr_cases parsed with ⟨name, digits, same, decimal, literal⟩ |
    ⟨rest, bracket⟩
  · have behind : ':' ∉ digits := fun colon => absurd (decimal ':' colon) (by decide)
    rw [toList_plain] at same
    have first := @splitLast_append _ _ ':' host.toList _ last
    rw [same, splitLast_append behind, Option.some.injEq, Prod.mk.injEq] at first
    rw [first.1, String.ofList_toList] at literal
    have signed := other literal
    rw [← first.2] at signed
    exact absurd (decimal '+' (List.mem_of_head? signed)) (by decide)
  · obtain ⟨char, more, whole⟩ := List.exists_cons_of_ne_nil nonempty
    rw [toList_plain, whole, List.cons_append] at bracket
    apply no_open
    rw [whole, (List.cons.inj bracket).1]
    exact List.mem_cons_self

theorem parseSocketAddr_bracketed_ipv4 (literal : (parseIpv4 host).isSome = true) :
    parseSocketAddr ("[" ++ host ++ "]:" ++ port) = none := by
  have none := readIpv6_of_ipv4 literal
    (groupEnds_of_ends (ends_bracket (':' :: port.toList)))
  rw [parseSocketAddr, toList_bracketed, readSocketAddrV4_bracket, readSocketAddrV6, none]
  rfl

theorem parseSocketAddr_bracketed_signed (literal : (parseIpv6 host).isSome = true)
    (signed : port.toList.head? = some '+') :
    parseSocketAddr ("[" ++ host ++ "]:" ++ port) = none := by
  obtain ⟨ip, read⟩ := readSocketAddrV6_bracketed literal (':' :: port.toList)
  rw [parseSocketAddr, toList_bracketed, readSocketAddrV4_bracket, read, readPort_signed signed]
  rfl

theorem parseSocketAddr_doubled : parseSocketAddr ("[[" ++ host ++ "]]:" ++ port) = none := by
  rw [parseSocketAddr, toList_doubled, readSocketAddrV4_bracket]
  have stops := @stops_ends 0 ('[' :: (host.toList ++ ']' :: ']' :: ':' :: port.toList))
    (ends_of_head (by decide) _)
  have groups : readGroups 8 8 ('[' :: (host.toList ++ ']' :: ']' :: ':' :: port.toList)) =
      ([], false, '[' :: (host.toList ++ ']' :: ']' :: ':' :: port.toList)) := by
    rw [readGroups_of_no_ipv4 (.inl stops.ipv4)]
    have none := stops.group
    rw [none]
  rw [readSocketAddrV6, readIpv6, groups]
  rfl

end Literals

end Mirage.Foundations
