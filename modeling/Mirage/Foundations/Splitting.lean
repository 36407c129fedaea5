import Mathlib.Data.List.DropRight
import Mathlib.Data.List.Infix

/-!
# Splitting at a separator

Texts are taken apart at the first or at the last occurrence of a separator.
What stands before the first occurrence, and after the last one, does not hold
the separator, so texts which have been put together from such parts come apart
into them again.

A line of a stream ends with its terminator and has no other.  The complete lines
of what has been read so far stay the same when more is read.
-/

namespace Mirage.Foundations

universe u

variable {Element : Type u} [DecidableEq Element]

/-- What stands before and after the first occurrence. -/
def splitFirst (separator : Element) : List Element → Option (List Element × List Element)
  | [] => none
  | element :: rest =>
      if element = separator then some ([], rest)
      else (splitFirst separator rest).map fun parts => (element :: parts.1, parts.2)

/-- What stands before and after the last occurrence. -/
def splitLast (separator : Element) : List Element → Option (List Element × List Element)
  | [] => none
  | element :: rest =>
      match splitLast separator rest with
      | some parts => some (element :: parts.1, parts.2)
      | none => if element = separator then some ([], rest) else none

/-- What stands before and after the first occurrence of a word. -/
def splitWord (word : List Element) : List Element → Option (List Element × List Element)
  | [] => if word = [] then some ([], []) else none
  | element :: rest =>
      if word.isPrefixOf (element :: rest) then
        some ([], (element :: rest).drop word.length)
      else (splitWord word rest).map fun parts => (element :: parts.1, parts.2)

variable {separator : Element} {before after : List Element}

theorem splitFirst_append (absent : separator ∉ before) :
    splitFirst separator (before ++ separator :: after) = some (before, after) := by
  induction before with
  | nil => simp [splitFirst]
  | cons element before ih =>
      rw [List.mem_cons, not_or] at absent
      rw [List.cons_append, splitFirst, if_neg (Ne.symm absent.1), ih absent.2, Option.map_some]

theorem splitFirst_eq_none {text : List Element} (absent : separator ∉ text) :
    splitFirst separator text = none := by
  induction text with
  | nil => rfl
  | cons element text ih =>
      rw [List.mem_cons, not_or] at absent
      rw [splitFirst, if_neg (Ne.symm absent.1), ih absent.2, Option.map_none]

theorem splitFirst_eq_none_iff {text : List Element} :
    splitFirst separator text = none ↔ separator ∉ text := by
  constructor
  · intro missing there
    rcases List.eq_append_cons_of_mem there with ⟨first, rest, rfl, absent⟩
    rw [splitFirst_append absent] at missing
    cases missing
  · exact splitFirst_eq_none

/-- The parts are those at the first occurrence. -/
theorem splitFirst_eq_some_iff {text : List Element} :
    splitFirst separator text = some (before, after) ↔
      text = before ++ separator :: after ∧ separator ∉ before := by
  constructor
  · intro split
    by_cases there : separator ∈ text
    · rcases List.eq_append_cons_of_mem there with ⟨first, rest, rfl, absent⟩
      rw [splitFirst_append absent, Option.some.injEq, Prod.mk.injEq] at split
      rcases split with ⟨rfl, rfl⟩
      exact ⟨rfl, absent⟩
    · rw [splitFirst_eq_none there] at split
      cases split
  · rintro ⟨rfl, absent⟩
    exact splitFirst_append absent

theorem splitLast_eq_none {text : List Element} (absent : separator ∉ text) :
    splitLast separator text = none := by
  induction text with
  | nil => rfl
  | cons element text ih =>
      rw [List.mem_cons, not_or] at absent
      rw [splitLast, ih absent.2]
      exact if_neg (Ne.symm absent.1)

/-- The last occurrence of an element -/
theorem exists_last_of_mem {Item : Type*} {item : Item} {items : List Item} (there : item ∈ items) :
    ∃ before after, items = before ++ item :: after ∧ item ∉ after := by
  rcases List.eq_append_cons_of_mem (List.mem_reverse.mpr there) with ⟨newer, older, split, absent⟩
  refine ⟨older.reverse, newer.reverse, ?_, fun later => absent (List.mem_reverse.mp later)⟩
  rw [← List.reverse_reverse items, split]
  simp

theorem splitLast_append (absent : separator ∉ after) :
    splitLast separator (before ++ separator :: after) = some (before, after) := by
  induction before with
  | nil => simp [splitLast, splitLast_eq_none absent]
  | cons element before ih => rw [List.cons_append, splitLast, ih]

/-- The parts make up the text. -/
theorem splitLast_eq_some {text : List Element}
    (split : splitLast separator text = some (before, after)) :
    text = before ++ separator :: after := by
  by_cases there : separator ∈ text
  · obtain ⟨front, back, rfl, absent⟩ := exists_last_of_mem there
    rw [splitLast_append absent, Option.some.injEq, Prod.mk.injEq] at split
    rw [split.1, split.2]
  · rw [splitLast_eq_none there] at split
    cases split

theorem splitWord_eq_some {word text : List Element}
    (split : splitWord word text = some (before, after)) : text = before ++ (word ++ after) := by
  induction text generalizing before after with
  | nil =>
      rw [splitWord] at split
      split at split
      · rename_i empty
        rw [Option.some.injEq, Prod.mk.injEq] at split
        rw [← split.1, ← split.2, empty]
        rfl
      · cases split
  | cons element rest ih =>
      rw [splitWord] at split
      split at split
      · rename_i here
        rw [Option.some.injEq, Prod.mk.injEq] at split
        rw [← split.1, ← split.2, List.nil_append]
        exact (List.prefix_iff_eq_append.mp (List.isPrefixOf_iff_prefix.mp here)).symm
      · obtain ⟨parts, later, same⟩ := Option.map_eq_some_iff.mp split
        rw [← (Prod.mk.inj same).1, List.cons_append, ← (Prod.mk.inj same).2]
        exact congrArg (element :: ·) (ih later)

/-- No word begins where its first element does not occur. -/
theorem splitWord_skip {first : Element} {word : List Element} (absent : first ∉ before)
    (rest : List Element) :
    splitWord (first :: word) (before ++ rest) =
      (splitWord (first :: word) rest).map fun parts => (before ++ parts.1, parts.2) := by
  induction before with
  | nil => exact Option.map_id'.symm
  | cons element before ih =>
      rw [List.mem_cons, not_or] at absent
      have elsewhere : (first :: word).isPrefixOf (element :: (before ++ rest)) = false := by
        rw [List.isPrefixOf_cons_cons, Bool.and_eq_false_iff]
        exact Or.inl (beq_eq_false_iff_ne.mpr absent.1)
      rw [List.cons_append, splitWord, elsewhere, if_neg Bool.false_ne_true, ih absent.2,
        Option.map_map]
      rfl

/-- A word which starts the text is found there. -/
theorem splitWord_start {word : List Element} (nonempty : word ≠ []) :
    splitWord word (word ++ after) = some ([], after) := by
  cases word with
  | nil => exact absurd rfl nonempty
  | cons first word =>
      have here : (first :: word).isPrefixOf (first :: (word ++ after)) = true :=
        List.isPrefixOf_iff_prefix.mpr ⟨after, rfl⟩
      rw [List.cons_append, splitWord, if_pos here]
      simp

/-- A word is found where it stands if its first element does not occur before. -/
theorem splitWord_append {first : Element} {word : List Element} (absent : first ∉ before) :
    splitWord (first :: word) (before ++ first :: (word ++ after)) = some (before, after) := by
  have start : splitWord (first :: word) (first :: (word ++ after)) = some ([], after) :=
    splitWord_start (List.cons_ne_nil first word)
  rw [splitWord_skip absent, start, Option.map_some, List.append_nil]

/-! ## Pieces between separators -/

/-- The pieces between separators which are not empty -/
def pieces (separator : Element) (text : List Element) : List (List Element) :=
  (text.splitOn separator).filter (· ≠ [])

theorem pieces_nil : pieces separator [] = [] :=
  rfl

theorem pieces_append_cons (before after : List Element) :
    pieces separator (before ++ separator :: after) =
      pieces separator before ++ pieces separator after := by
  rw [pieces, List.splitOn_append_cons_self, List.filter_append, pieces, pieces]

theorem pieces_of_not_mem {text : List Element} (absent : separator ∉ text)
    (nonempty : text ≠ []) : pieces separator text = [text] := by
  rw [pieces, List.splitOn_eq_singleton absent, List.filter_singleton, decide_eq_true nonempty]
  rfl

/-- Texts which are joined by separators keep their pieces. -/
theorem pieces_intercalate (texts : List (List Element)) :
    pieces separator ([separator].intercalate texts) = texts.flatMap (pieces separator) := by
  induction texts with
  | nil => rfl
  | cons text texts ih =>
      cases texts with
      | nil => simp
      | cons next texts =>
          rw [List.intercalate_cons_cons, List.append_assoc, List.singleton_append,
            pieces_append_cons, ih]
          rfl

/-- An element of a joined text is the separator, or in one of the texts. -/
theorem mem_intercalate {Item : Type*} {separator element : Item} {texts : List (List Item)}
    (member : element ∈ [separator].intercalate texts) :
    element = separator ∨ ∃ text ∈ texts, element ∈ text := by
  induction texts with
  | nil => cases member
  | cons text texts ih =>
      cases texts with
      | nil => exact Or.inr ⟨text, List.mem_cons_self, by simpa using member⟩
      | cons next texts =>
          rw [List.intercalate_cons_cons, List.append_assoc, List.mem_append, List.mem_append,
            List.mem_singleton] at member
          rcases member with here | rfl | later
          · exact Or.inr ⟨text, List.mem_cons_self, here⟩
          · exact Or.inl rfl
          · rcases ih later with same | ⟨other, there, inside⟩
            · exact Or.inl same
            · exact Or.inr ⟨other, List.mem_cons_of_mem text there, inside⟩

theorem mem_intercalate_of_mem {Item : Type*} {separator element : Item} {text : List Item}
    {texts : List (List Item)} (there : text ∈ texts) (inside : element ∈ text) :
    element ∈ [separator].intercalate texts := by
  induction texts with
  | nil => cases there
  | cons first texts ih =>
      cases texts with
      | nil =>
          rw [List.mem_singleton.mp there] at inside
          simpa using inside
      | cons next texts =>
          rw [List.intercalate_cons_cons, List.mem_append]
          rcases List.mem_cons.mp there with rfl | later
          · exact Or.inl (List.mem_append_left _ inside)
          · exact Or.inr (ih later)

/-- Separators at the end make no difference. -/
theorem pieces_rdropWhile (text : List Element) :
    pieces separator (text.rdropWhile (· == separator)) = pieces separator text := by
  induction text using List.reverseRecOn with
  | nil => rfl
  | append_singleton front last ih =>
      by_cases ends : last = separator
      · rw [List.rdropWhile_concat_pos (· == separator) front last (by simpa using ends), ih,
          ends, pieces_append_cons front [], pieces_nil, List.append_nil]
      · rw [List.rdropWhile_concat_neg _ _ _ (by simpa using ends)]

/-- A piece is a part of the text without a separator. -/
theorem mem_pieces {text piece : List Element} (member : piece ∈ pieces separator text) :
    separator ∉ piece ∧ piece ≠ [] ∧ piece.length ≤ text.length := by
  induction size : text.length using Nat.strong_induction_on generalizing text with
  | _ size ih =>
      by_cases inside : separator ∈ text
      · rcases List.append_of_mem inside with ⟨front, back, rfl⟩
        rw [List.length_append, List.length_cons] at size
        rw [pieces_append_cons, List.mem_append] at member
        rcases member with member | member
        · obtain ⟨absent, nonempty, short⟩ := ih front.length (by omega) member rfl
          exact ⟨absent, nonempty, by omega⟩
        · obtain ⟨absent, nonempty, short⟩ := ih back.length (by omega) member rfl
          exact ⟨absent, nonempty, by omega⟩
      · rcases eq_or_ne text [] with rfl | nonempty
        · cases member
        · rw [pieces_of_not_mem inside nonempty, List.mem_singleton] at member
          rw [member]
          exact ⟨inside, nonempty, Nat.le_of_eq size⟩

theorem notMem_of_mem_splitOn {text piece : List Element}
    (member : piece ∈ text.splitOn separator) : separator ∉ piece := by
  rcases eq_or_ne piece [] with rfl | nonempty
  · exact List.not_mem_nil
  · exact (mem_pieces (List.mem_filter.mpr ⟨member, decide_eq_true nonempty⟩)).1

/-- Lines which end with the separator, and what follows the last one -/
theorem splitOn_flatMap_concat {texts : List (List Element)}
    (absent : ∀ text ∈ texts, separator ∉ text) (rest : List Element) :
    (texts.flatMap (· ++ [separator]) ++ rest).splitOn separator =
      texts ++ rest.splitOn separator := by
  induction texts with
  | nil => rfl
  | cons text texts ih =>
      rw [List.forall_mem_cons] at absent
      rw [List.flatMap_cons, List.append_assoc, List.append_assoc, List.singleton_append,
        List.splitOn_append_cons_self_of_not_mem absent.1, ih absent.2, List.cons_append]

/-! ## The lines of a stream -/

section Lines

variable {terminator : Element}

/-- The complete lines of a text of which `begun` was read before. -/
def linesFrom (terminator : Element) (begun : List Element) : List Element → List (List Element)
  | [] => []
  | element :: rest =>
      if element = terminator then (begun ++ [element]) :: linesFrom terminator [] rest
      else linesFrom terminator (begun ++ [element]) rest

def completeLines (terminator : Element) (text : List Element) : List (List Element) :=
  linesFrom terminator [] text

/-- A text which ends with its only terminator. -/
def IsLine (terminator : Element) (line : List Element) : Prop :=
  ∃ before, terminator ∉ before ∧ line = before ++ [terminator]

theorem linesFrom_append {before : List Element} (absent : terminator ∉ before)
    (begun after : List Element) :
    linesFrom terminator begun (before ++ after) =
      linesFrom terminator (begun ++ before) after := by
  induction before generalizing begun with
  | nil => rw [List.nil_append, List.append_nil]
  | cons element before ih =>
      rw [List.mem_cons, not_or] at absent
      rw [List.cons_append, linesFrom, if_neg (Ne.symm absent.1), ih absent.2,
        List.append_assoc, List.singleton_append]

theorem completeLines_eq_nil {text : List Element} (absent : terminator ∉ text) :
    completeLines terminator text = [] := by
  have appended := linesFrom_append absent [] []
  rw [List.append_nil] at appended
  exact appended

theorem completeLines_line_append {line : List Element} (isLine : IsLine terminator line)
    (rest : List Element) :
    completeLines terminator (line ++ rest) = line :: completeLines terminator rest := by
  rcases isLine with ⟨before, absent, rfl⟩
  rw [completeLines, List.append_assoc, linesFrom_append absent, List.nil_append,
    List.singleton_append, linesFrom, if_pos rfl]
  rfl

/-- What is read as lines are the first lines, and the others follow. -/
theorem completeLines_flatten_append {lines : List (List Element)}
    (all : ∀ line ∈ lines, IsLine terminator line) (rest : List Element) :
    completeLines terminator (lines.flatten ++ rest) =
      lines ++ completeLines terminator rest := by
  induction lines with
  | nil => rfl
  | cons line lines ih =>
      rw [List.flatten_cons, List.append_assoc,
        completeLines_line_append (all line List.mem_cons_self),
        ih fun other there => all other (List.mem_cons_of_mem line there), List.cons_append]

/-- A text which ends with a terminator is the text of its lines. -/
theorem flatten_linesFrom (begun text : List Element) :
    (linesFrom terminator begun (text ++ [terminator])).flatten =
      begun ++ text ++ [terminator] := by
  induction text generalizing begun with
  | nil => simp [linesFrom]
  | cons element text ih =>
      rw [List.cons_append, linesFrom]
      split
      · rw [List.flatten_cons, ih]
        simp
      · rw [ih]
        simp

theorem flatten_completeLines (text : List Element) :
    (completeLines terminator (text ++ [terminator])).flatten = text ++ [terminator] := by
  rw [completeLines, flatten_linesFrom, List.nil_append]

end Lines

end Mirage.Foundations
