import Mirage.Foundations.Text

/-!
# Trimmed texts

Trimming takes blanks from both ends of a text, and stops at what is visible.  A text
which starts with a visible name before a sign keeps both, so it can still be split
there.
-/

namespace Mirage.Foundations

universe u

section Ends

variable {Element : Type u} {p : Element → Bool} {front back : List Element} {stop : Element}

/-- What fails the test stays, with all in front of it. -/
theorem rdropWhile_append_cons (stays : p stop = false) (front back : List Element) :
    (front ++ stop :: back).rdropWhile p = front ++ stop :: back.rdropWhile p := by
  induction back using List.reverseRecOn with
  | nil => exact List.rdropWhile_concat_neg p front stop (Bool.not_eq_true _ ▸ stays)
  | append_singleton back last ih =>
      rw [← List.cons_append, ← List.append_assoc]
      by_cases dropped : p last = true
      · rw [List.rdropWhile_concat_pos p _ _ dropped, ih,
          List.rdropWhile_concat_pos p _ _ dropped]
      · rw [List.rdropWhile_concat_neg p _ _ dropped, List.rdropWhile_concat_neg p _ _ dropped,
          List.append_assoc, List.cons_append]

theorem rdropWhile_append_of_pos (dropped : ∀ element ∈ back, p element = true) :
    (front ++ back).rdropWhile p = front.rdropWhile p := by
  rw [List.rdropWhile, List.reverse_append, List.dropWhile_append_of_pos, List.rdropWhile]
  intro element member
  exact dropped element (List.mem_reverse.mp member)

theorem dropWhile_of_neg (kept : ∀ element ∈ front, p element = false) :
    front.dropWhile p = front := by
  cases front with
  | nil => rfl
  | cons first front =>
      apply List.dropWhile_cons_of_neg
      rw [kept first List.mem_cons_self]
      exact Bool.false_ne_true

theorem rdropWhile_of_neg (kept : ∀ element ∈ front, p element = false) :
    front.rdropWhile p = front := by
  rw [List.rdropWhile, dropWhile_of_neg, List.reverse_reverse]
  intro element member
  exact kept element (List.mem_reverse.mp member)

/-- Nothing is dropped behind the last element which stays. -/
theorem rdropWhile_append_of_neg (kept : ∀ element ∈ back, p element = false)
    (nonempty : back ≠ []) : (front ++ back).rdropWhile p = front ++ back := by
  rcases (List.eq_nil_or_concat back).resolve_left nonempty with ⟨init, last, rfl⟩
  rw [List.concat_eq_append] at kept ⊢
  rw [← List.append_assoc, rdropWhile_append_cons (kept last List.mem_concat_self),
    List.rdropWhile_nil]

end Ends

theorem toLower_val (char : Char) : char.toLower.val.toNat =
    if 65 ≤ char.val.toNat ∧ char.val.toNat ≤ 90 then char.val.toNat + 32 else char.val.toNat := by
  have upper : (char.val ≥ 'A'.val ∧ char.val ≤ 'Z'.val) ↔
      65 ≤ char.val.toNat ∧ char.val.toNat ≤ 90 := by
    rfl
  delta Char.toLower
  split
  · rename_i isUpper
    rw [if_pos (upper.mp isUpper)]
    have bound := (upper.mp isUpper).2
    change (char.val + 32).toNat = _
    rw [UInt32.toNat_add]
    change (char.val.toNat + 32) % 2 ^ 32 = _
    omega
  · rename_i notUpper
    rw [if_neg (fun h => notUpper (upper.mpr h))]

theorem char_ext (first second : Char) (same : first.val.toNat = second.val.toNat) :
    first = second :=
  Char.ext (UInt32.toNat_inj.mp same)

theorem toLower_toLower (char : Char) : char.toLower.toLower = char.toLower := by
  apply char_ext
  rw [toLower_val char.toLower]
  have first := toLower_val char
  split at first <;> split <;> omega

theorem toAsciiLowercase_toAsciiLowercase (text : String) :
    toAsciiLowercase (toAsciiLowercase text) = toAsciiLowercase text := by
  rw [toAsciiLowercase, toAsciiLowercase, String.toList_ofList, List.map_map]
  congr 1
  apply List.map_congr_left
  intro char _
  exact toLower_toLower char

/-- A letter is no blank, whatever its case. -/
theorem isRustWhitespace_toLower (char : Char) :
    isRustWhitespace char.toLower = isRustWhitespace char := by
  have value := toLower_val char
  split at value
  · simp only [isRustWhitespace, Char.toNat]
    grind
  · rw [char_ext _ _ value]

/-- A character which is not a capital letter is kept. -/
theorem toLower_of_not_upper {char : Char} (other : ¬(65 ≤ char.toNat ∧ char.toNat ≤ 90)) :
    char.toLower = char := by
  apply Char.ext
  apply UInt32.toNat_inj.mp
  rw [toLower_val]
  exact if_neg other

/-- Letters and digits are no blanks. -/
theorem not_blank_of_isAlphanum {char : Char} (alphanum : char.isAlphanum = true) :
    isRustWhitespace char = false := by
  have range : 48 ≤ char.toNat ∧ char.toNat ≤ 122 := by
    change (decide (65 ≤ char.val ∧ char.val ≤ 90) ||
      (decide (97 ≤ char.val) && decide (char.val ≤ 122)) ||
      (decide (48 ≤ char.val) && decide (char.val ≤ 57))) = true at alphanum
    simp only [Bool.or_eq_true, Bool.and_eq_true, decide_eq_true_eq,
      UInt32.le_iff_toNat_le] at alphanum
    change ((65 ≤ char.toNat ∧ char.toNat ≤ 90) ∨ (97 ≤ char.toNat ∧ char.toNat ≤ 122)) ∨
      (48 ≤ char.toNat ∧ char.toNat ≤ 57) at alphanum
    omega
  by_contra blank
  rw [Bool.not_eq_false] at blank
  simp only [isRustWhitespace, Bool.or_eq_true, Bool.and_eq_true, decide_eq_true_eq,
    beq_iff_eq] at blank
  omega

/-- Characters none of which is a blank -/
def Visible (text : List Char) : Prop :=
  ∀ char ∈ text, isRustWhitespace char = false

instance : DecidablePred Visible :=
  fun text => List.decidableBAll (fun char => isRustWhitespace char = false) text

def Blank (text : List Char) : Prop :=
  ∀ char ∈ text, isRustWhitespace char = true

section Trimmed

variable {name front core back rest : List Char} {stop : Char}

theorem trim_append (visible : Visible name) (nonempty : name ≠ []) (rest : List Char) :
    trim (String.ofList (name ++ rest)) =
      String.ofList (name ++ rest.rdropWhile isRustWhitespace) := by
  rcases (List.eq_nil_or_concat name).resolve_left nonempty with ⟨front, last, rfl⟩
  rw [List.concat_eq_append, Visible] at visible
  have start : (front ++ ([last] ++ rest)).dropWhile isRustWhitespace =
      front ++ ([last] ++ rest) := by
    cases front with
    | nil =>
        apply List.dropWhile_cons_of_neg
        rw [visible last List.mem_concat_self]
        exact Bool.false_ne_true
    | cons first front =>
        apply List.dropWhile_cons_of_neg
        rw [visible first List.mem_cons_self]
        exact Bool.false_ne_true
  rw [List.concat_eq_append, List.append_assoc, List.append_assoc, trim, String.toList_ofList,
    start, List.singleton_append, List.singleton_append,
    rdropWhile_append_cons (visible last List.mem_concat_self)]

/-- A name before a visible sign is kept. -/
theorem trim_name (visible : Visible name) (stays : isRustWhitespace stop = false)
    (rest : List Char) :
    trim (String.ofList (name ++ stop :: rest)) =
      String.ofList (name ++ stop :: rest.rdropWhile isRustWhitespace) := by
  have both : Visible (name ++ [stop]) :=
    List.forall_mem_append.mpr ⟨visible, List.forall_mem_singleton.mpr stays⟩
  have nonempty : name ++ [stop] ≠ [] :=
    List.append_ne_nil_of_right_ne_nil name (List.cons_ne_nil stop [])
  have trimmed := trim_append both nonempty rest
  rwa [List.append_assoc, List.append_assoc] at trimmed

theorem prefix_trim (visible : Visible name) (rest : List Char) :
    name <+: (trim (String.ofList (name ++ rest))).toList := by
  rcases eq_or_ne name [] with rfl | nonempty
  · exact List.nil_prefix
  · rw [trim_append visible nonempty, String.toList_ofList]
    exact List.prefix_append name _

theorem trim_between (before : Blank front) (visible : Visible core) (after : Blank back) :
    trim (String.ofList (front ++ (core ++ back))) = String.ofList core := by
  rw [trim, String.toList_ofList, List.dropWhile_append_of_pos before]
  cases core with
  | nil =>
      rw [List.nil_append]
      congr 1
      rw [List.rdropWhile_eq_nil_iff]
      intro char member
      exact after char ((List.dropWhile_sublist _).subset member)
  | cons first core =>
      have start : (first :: core ++ back).dropWhile isRustWhitespace = first :: core ++ back := by
        apply List.dropWhile_cons_of_neg
        rw [visible first List.mem_cons_self]
        exact Bool.false_ne_true
      rw [start, rdropWhile_append_of_pos after, rdropWhile_of_neg visible]

theorem trim_of_visible (visible : Visible core) :
    trim (String.ofList core) = String.ofList core := by
  have same := @trim_between [] core [] (fun _ absent => absurd absent List.not_mem_nil) visible
    (fun _ absent => absurd absent List.not_mem_nil)
  rwa [List.append_nil, List.nil_append] at same

/-- A blank at the end makes no difference. -/
theorem trim_append_blank (blank : isRustWhitespace stop = true) (front : List Char) :
    trim (String.ofList (front ++ [stop])) = trim (String.ofList front) := by
  rw [trim, trim, String.toList_ofList, String.toList_ofList, List.dropWhile_append]
  split
  · case isTrue empty =>
      rw [List.isEmpty_iff.mp empty, List.dropWhile_cons_of_pos blank]
      rfl
  · rw [List.rdropWhile_concat_pos _ _ _ blank]

theorem splitOnce_append (absent : stop ∉ front) (back : List Char) :
    splitOnce (String.ofList (front ++ stop :: back)) stop =
      some (String.ofList front, String.ofList back) := by
  have others : ∀ char ∈ front, (char != stop) = true := by
    intro char member
    exact bne_iff_ne.mpr fun same => absent (same ▸ member)
  have dropped : (stop :: back).dropWhile (· != stop) = stop :: back :=
    List.dropWhile_cons_of_neg (by simp)
  have taken : (stop :: back).takeWhile (· != stop) = [] :=
    List.takeWhile_cons_of_neg (by simp)
  rw [splitOnce, String.toList_ofList, List.dropWhile_append_of_pos others,
    List.takeWhile_append_of_pos others, dropped, taken, List.append_nil]

theorem splitOnce_eq_none (absent : stop ∉ front) :
    splitOnce (String.ofList front) stop = none := by
  have others : ∀ char ∈ front, (char != stop) = true := by
    intro char member
    exact bne_iff_ne.mpr fun same => absent (same ▸ member)
  rw [splitOnce, String.toList_ofList, List.dropWhile_eq_nil_iff.mpr others]

theorem splitOnce_eq_some {text : String} {parts : String × String}
    (split : splitOnce text stop = some parts) :
    text.toList = parts.1.toList ++ stop :: parts.2.toList := by
  rw [← @String.ofList_toList text] at split
  by_cases there : stop ∈ text.toList
  · rcases List.eq_append_cons_of_mem there with ⟨front, back, whole, absent⟩
    rw [whole, splitOnce_append absent] at split
    rw [whole, ← Option.some.inj split, String.toList_ofList, String.toList_ofList]
  · rw [splitOnce_eq_none there] at split
    cases split

end Trimmed

end Mirage.Foundations
