import Mathlib.Data.Finset.Lattice.Lemmas
import Mathlib.Data.Nat.Cast.Basic
import Mathlib.Algebra.Ring.Int.Defs
import Mirage.Shell.ElfChecker

/-!
# What the ELF checker reads

Where the checker succeeds no sum has wrapped around, and what it has read is
what the format says about the image.
-/

namespace Mirage.Shell.ElfChecker

open Mirage.Foundations

section Reading

variable {content : FileContent} {format : Elf.Format}

theorem foldl_wrapLong (bytes : List UInt8) (start : ℕ) :
    bytes.foldl (fun value byte => wrapLong (256 * value + byte.toNat)) (wrapLong start) =
      wrapLong (bytes.foldl (fun value byte => 256 * value + byte.toNat) start : ℕ) := by
  induction bytes generalizing start with
  | nil => rw [List.foldl_nil, List.foldl_nil]
  | cons byte bytes ih =>
      rw [List.foldl_cons, List.foldl_cons, ← ih, wrapLong_mul_add, Nat.cast_add, Nat.cast_mul,
        Nat.cast_ofNat]

theorem readFully_eq_ok {position : ℤ} {count : ℕ} {bytes : List UInt8} (positive : 0 < count) :
    (readFully content position count).outcome = .ok bytes ↔
      0 ≤ position ∧ Elf.slice content.bytes position.toNat count = some bytes := by
  rw [readFully]
  split
  · rename_i negative
    exact iff_of_false (by simp) (by omega)
  · rename_i nonneg
    rw [Access.outcome_read_eq_ok positive, Elf.slice_eq_some_iff, and_iff_right (not_lt.mp nonneg)]

theorem readAt_eq_ok {position : ℤ} {width : ℕ} {little : Bool} {value : ℤ}
    (positive : 0 < width) :
    (readAt content position width little).outcome = .ok value ↔
      0 ≤ position ∧ ∃ number : ℕ,
        Elf.field content.bytes little position.toNat width = some number ∧
          value = wrapLong number := by
  have decode (bytes : List UInt8) :
      (Elf.digits little bytes).foldl (fun value byte => wrapLong (256 * value + byte.toNat)) 0 =
        wrapLong (Elf.number little bytes) := by
    have folded := foldl_wrapLong (Elf.digits little bytes) 0
    rwa [Nat.cast_zero, wrapLong_zero] at folded
  simp only [readAt, Access.outcome_bind_eq_ok, readFully_eq_ok positive, Access.outcome_pure,
    Except.ok.injEq, decode, Elf.field, Option.map_eq_some_iff]
  constructor
  · rintro ⟨bytes, ⟨nonneg, there⟩, rfl⟩
    exact ⟨nonneg, Elf.number little bytes, ⟨bytes, there, rfl⟩, rfl⟩
  · rintro ⟨nonneg, number, ⟨bytes, there, same⟩, decoded⟩
    exact ⟨bytes, ⟨nonneg, there⟩, by rw [decoded, same]⟩

/-- No read succeeds at a position which has wrapped around. -/
theorem readAt_wrapLong {position width : ℕ} {little : Bool} {value : ℤ} (positive : 0 < width)
    (bound : position < 2 ^ 64) :
    (readAt content (wrapLong position) width little).outcome = .ok value ↔
      ∃ number : ℕ, Elf.field content.bytes little position width = some number ∧
        value = wrapLong number := by
  rw [readAt_eq_ok positive, wrapLong_nonneg_iff bound]
  by_cases fits : position < 2 ^ 63
  · rw [and_iff_right fits, wrapLong_natCast fits, Int.toNat_natCast]
  · refine iff_of_false (fun both => fits both.1) ?_
    rintro ⟨number, found, -⟩
    have within := (Elf.field_eq_some_iff.mp found).1
    have short := content.length_lt
    omega

theorem classOf_eq_ok {byte : UInt8} {is64 : Bool} :
    (classOf byte).outcome = .ok is64 ↔ Elf.wideOf byte = some is64 := by
  unfold classOf Elf.wideOf
  split <;> simp

theorem dataOf_eq_ok {byte : UInt8} {little : Bool} :
    (dataOf byte).outcome = .ok little ↔ Elf.littleOf byte = some little := by
  unfold dataOf Elf.littleOf
  split <;> simp

theorem readFormat_eq_ok (long : 64 ≤ content.bytes.length) :
    (readFormat content).outcome = .ok format ↔ Elf.formatOf content.bytes = some format := by
  have there : Elf.slice content.bytes 0 16 = some (content.bytes.take 16) :=
    Elf.slice_eq_some_iff.mpr ⟨by omega, rfl⟩
  have at_index (index : ℕ) (early : index < 16) :
      (content.bytes[index]? : Option UInt8) = some ((content.bytes.take 16).getD index 0) := by
    rw [List.getD_eq_getElem?_getD, List.getElem?_take_of_lt early,
      List.getElem?_eq_getElem (by omega)]
    rfl
  simp only [readFormat, Access.outcome_bind_eq_ok, readFully_eq_ok (by omega : 0 < 16), le_refl,
    true_and, Int.toNat_zero, there, Option.some.injEq, exists_eq_left',
    Access.outcome_refuse_eq_ok, List.take_take, Access.outcome_pure, Except.ok.injEq,
    classOf_eq_ok, dataOf_eq_ok, Elf.formatOf, at_index 4 (by omega), at_index 5 (by omega),
    Option.bind_some, ite_eq_left_iff, reduceCtorEq, imp_false, not_not, exists_const,
    Option.ite_none_right_eq_some, Option.bind_eq_bind, Option.bind_eq_some_iff, Option.some.injEq,
    Nat.reduceLeDiff, inf_of_le_left]

/-- What the checker has of a section header table. -/
def SectionHeaders.of (table : Elf.SectionTable) : SectionHeaders where
  shOff := wrapLong table.offset
  shEntSize := table.entrySize
  shNum := table.count

/-- A field of two or four bytes is read as it is. -/
theorem readAt_narrow {position width : ℕ} {little : Bool} {value : ℤ} (positive : 0 < width)
    (narrow : width ≤ 4) (bound : position < 2 ^ 64) :
    (readAt content (wrapLong position) width little).outcome = .ok value ↔
      ∃ number : ℕ, Elf.field content.bytes little position width = some number ∧
        value = number := by
  rw [readAt_wrapLong positive bound]
  refine exists_congr fun number => and_congr_right fun found => ?_
  have small : number < 2 ^ 63 :=
    (Elf.field_lt found).trans_le ((Nat.pow_le_pow_right (by omega) narrow).trans (by decide))
  rw [wrapLong_natCast small]

theorem addressWidth_pos : 0 < format.addressWidth := by
  unfold Elf.Format.addressWidth Elf.Format.pick
  split <;> decide

theorem pick_lt {wide narrow bound : ℕ} (first : wide < bound) (second : narrow < bound) :
    format.pick wide narrow < bound := by
  unfold Elf.Format.pick
  split
  · exact first
  · exact second

theorem readAt_header {wide narrow width : ℕ} (first : wide < 2 ^ 6) (second : narrow < 2 ^ 6)
    (positive : 0 < width) {number : ℤ} :
    (readAt content (format.pick wide narrow) width format.little).outcome = .ok number ↔
      ∃ value : ℕ,
        Elf.field content.bytes format.little (format.pick wide narrow) width = some value ∧
          number = wrapLong value := by
  have small : format.pick wide narrow < 2 ^ 6 := pick_lt first second
  rw [← wrapLong_natCast (by omega : format.pick wide narrow < 2 ^ 63)]
  exact readAt_wrapLong positive (by omega)

theorem wrapInt_wrapLong {value : ℕ} (small : value < 2 ^ 31) :
    wrapInt (wrapLong value) = value := by
  rw [wrapLong_natCast (by omega), wrapInt_natCast small]

theorem readSectionHeaders_eq_ok {sections : SectionHeaders} :
    (readSectionHeaders content format).outcome = .ok sections ↔
      ∃ table, Elf.sectionTable content.bytes format = some table ∧
        SectionHeaders.of table = sections := by
  have two {position value : ℕ}
      (found : Elf.field content.bytes format.little position 2 = some value) :
      wrapInt (wrapLong value) = value :=
    wrapInt_wrapLong ((Elf.field_lt found).trans (by decide))
  simp only [readSectionHeaders, Elf.sectionTable, Access.outcome_bind_eq_ok, Access.outcome_pure,
    readAt_header (by omega : 40 < 2 ^ 6) (by omega : 32 < 2 ^ 6) addressWidth_pos,
    readAt_header (by omega : 58 < 2 ^ 6) (by omega : 46 < 2 ^ 6) (by omega : 0 < 2),
    readAt_header (by omega : 60 < 2 ^ 6) (by omega : 48 < 2 ^ 6) (by omega : 0 < 2),
    Except.ok.injEq, Option.bind_eq_bind, Option.bind_eq_some_iff, Option.some.injEq]
  constructor
  · rintro ⟨_, ⟨offset, atOffset, rfl⟩, _, ⟨entrySize, atEntrySize, rfl⟩, _,
      ⟨count, atCount, rfl⟩, rfl⟩
    refine ⟨⟨offset, entrySize, count⟩, ⟨offset, atOffset, entrySize, atEntrySize, count, atCount,
      rfl⟩, ?_⟩
    rw [SectionHeaders.of, two atEntrySize, two atCount]
  · rintro ⟨_, ⟨offset, atOffset, entrySize, atEntrySize, count, atCount, rfl⟩, rfl⟩
    refine ⟨_, ⟨offset, atOffset, rfl⟩, _, ⟨entrySize, atEntrySize, rfl⟩, _, ⟨count, atCount, rfl⟩,
      ?_⟩
    rw [SectionHeaders.of, two atEntrySize, two atCount]

theorem base_of (table : Elf.SectionTable) (index : ℕ) :
    (SectionHeaders.of table).base index = wrapLong (table.entry index) := by
  rw [SectionHeaders.base, SectionHeaders.of, wrapLong_add_left, Elf.SectionTable.entry,
    Nat.cast_add, Nat.cast_mul]

/-- A field of the section header which starts at `entry`. -/
theorem readField_eq_ok {entry wide narrow width : ℕ} {number : ℤ} (bound : entry + 64 < 2 ^ 64)
    (first : wide < 64) (second : narrow < 64) (positive : 0 < width) :
    (readField content format (wrapLong entry) wide narrow width).outcome = .ok number ↔
      ∃ value : ℕ,
        Elf.field content.bytes format.little (entry + format.pick wide narrow) width =
          some value ∧ number = wrapLong value := by
  have small : format.pick wide narrow < 64 := pick_lt first second
  rw [readField, wrapLong_add_left, ← Nat.cast_add]
  exact readAt_wrapLong positive (by omega)

/-- What the checker has of the header of a symbol table. -/
def SymbolTable.of (header : Elf.DynsymHeader) : SymbolTable where
  symOff := wrapLong header.offset
  symSize := wrapLong header.size
  symEnt := wrapLong header.entrySize
  strIdx := wrapInt (wrapLong header.link)

def StringTable.of (offset size : ℕ) : StringTable where
  strOff := wrapLong offset
  strSize := wrapLong size

/-- The reads of the header of the symbol table. -/
theorem readSymbolTable_reads {base : ℤ} {symbols : SymbolTable} :
    (readSymbolTable content format base).outcome = .ok symbols ↔
      ∃ symOff,
        (readField content format base 0x18 0x10 format.addressWidth).outcome = .ok symOff ∧
      ∃ symSize,
        (readField content format base 0x20 0x14 format.addressWidth).outcome = .ok symSize ∧
      ∃ strIdx, (readField content format base 0x28 0x18 4).outcome = .ok strIdx ∧
      ∃ symEnt,
        (readField content format base 0x38 0x24 format.addressWidth).outcome = .ok symEnt ∧
      { symOff, symSize, symEnt, strIdx := wrapInt strIdx } = symbols := by
  simp only [readSymbolTable, Access.outcome_bind_eq_ok, Access.outcome_pure, Except.ok.injEq]

theorem readSymbolTable_eq_ok {entry : ℕ} {symbols : SymbolTable} (bound : entry + 64 < 2 ^ 64) :
    (readSymbolTable content format (wrapLong entry)).outcome = .ok symbols ↔
      ∃ header, Elf.dynsymHeader content.bytes format entry = some header ∧
        SymbolTable.of header = symbols := by
  simp only [readSymbolTable_reads, Elf.dynsymHeader,
    readField_eq_ok bound (by omega : 0x18 < 64) (by omega : 0x10 < 64) addressWidth_pos,
    readField_eq_ok bound (by omega : 0x20 < 64) (by omega : 0x14 < 64) addressWidth_pos,
    readField_eq_ok bound (by omega : 0x28 < 64) (by omega : 0x18 < 64) (by omega : 0 < 4),
    readField_eq_ok bound (by omega : 0x38 < 64) (by omega : 0x24 < 64) addressWidth_pos,
    Option.bind_eq_bind, Option.bind_eq_some_iff, Option.some.injEq]
  constructor
  · rintro ⟨_, ⟨offset, atOffset, rfl⟩, _, ⟨size, atSize, rfl⟩, _, ⟨link, atLink, rfl⟩, _,
      ⟨entrySize, atEntrySize, rfl⟩, rfl⟩
    exact ⟨⟨offset, size, link, entrySize⟩,
      ⟨offset, atOffset, size, atSize, link, atLink, entrySize, atEntrySize, rfl⟩, rfl⟩
  · rintro ⟨_, ⟨offset, atOffset, size, atSize, link, atLink, entrySize, atEntrySize, rfl⟩, rfl⟩
    exact ⟨_, ⟨offset, atOffset, rfl⟩, _, ⟨size, atSize, rfl⟩, _, ⟨link, atLink, rfl⟩, _,
      ⟨entrySize, atEntrySize, rfl⟩, rfl⟩

theorem readStringTable_reads {base : ℤ} {strings : StringTable} :
    (readStringTable content format base).outcome = .ok strings ↔
      ∃ strOff,
        (readField content format base 0x18 0x10 format.addressWidth).outcome = .ok strOff ∧
      ∃ strSize,
        (readField content format base 0x20 0x14 format.addressWidth).outcome = .ok strSize ∧
      StringTable.mk strOff strSize = strings := by
  simp only [readStringTable, Access.outcome_bind_eq_ok, Access.outcome_pure, Except.ok.injEq]

theorem readStringTable_eq_ok {entry : ℕ} {strings : StringTable} (bound : entry + 64 < 2 ^ 64) :
    (readStringTable content format (wrapLong entry)).outcome = .ok strings ↔
      ∃ header, Elf.stringsHeader content.bytes format entry = some header ∧
        StringTable.of header.1 header.2 = strings := by
  simp only [readStringTable_reads, Elf.stringsHeader,
    readField_eq_ok bound (by omega : 0x18 < 64) (by omega : 0x10 < 64) addressWidth_pos,
    readField_eq_ok bound (by omega : 0x20 < 64) (by omega : 0x14 < 64) addressWidth_pos,
    Option.bind_eq_bind, Option.bind_eq_some_iff, Option.some.injEq]
  constructor
  · rintro ⟨_, ⟨offset, atOffset, rfl⟩, _, ⟨size, atSize, rfl⟩, rfl⟩
    exact ⟨⟨offset, size⟩, ⟨offset, atOffset, size, atSize, rfl⟩, rfl⟩
  · rintro ⟨_, ⟨offset, atOffset, size, atSize, rfl⟩, rfl⟩
    exact ⟨_, ⟨offset, atOffset, rfl⟩, _, ⟨size, atSize, rfl⟩, rfl⟩

theorem sectionType_lt {table : Elf.SectionTable} {index type : ℕ}
    (found : Elf.sectionType content.bytes format table index = some type) : type < 2 ^ 32 :=
  (Elf.field_lt found).trans_le (by decide)

/-- If a section header is in the image, those before it are. -/
theorem sectionType_isSome {table : Elf.SectionTable} {before index type : ℕ}
    (order : before < index)
    (found : Elf.sectionType content.bytes format table index = some type) :
    (Elf.sectionType content.bytes format table before).isSome = true := by
  have within := (Elf.field_eq_some_iff.mp found).1
  have earlier : table.entry before ≤ table.entry index :=
    Nat.add_le_add_left (Nat.mul_le_mul_right _ order.le) _
  rw [Elf.sectionType, Elf.field_isSome_iff]
  omega

theorem readType_eq_ok {table : Elf.SectionTable} {index : ℕ} {type : ℤ}
    (bound : table.entry index + 64 < 2 ^ 64) :
    (readAt content (wrapLong ((SectionHeaders.of table).base index + 4)) 4
        format.little).outcome = .ok type ↔
      ∃ value : ℕ, Elf.sectionType content.bytes format table index = some value ∧
        type = value := by
  have position : wrapLong ((SectionHeaders.of table).base index + 4) =
      wrapLong (table.entry index + 4 : ℕ) := by
    rw [base_of, wrapLong_add_left, Nat.cast_add, Nat.cast_ofNat]
  rw [position]
  exact readAt_narrow (by omega) le_rfl (by omega)

theorem findDynsym_cons {sections : SectionHeaders} {symbols : SymbolTable} {index : ℕ}
    {rest : List ℕ} :
    (findDynsym content format sections (index :: rest)).outcome = .ok symbols ↔
      ∃ shType, (readAt content (wrapLong (sections.base index + 4)) 4
          format.little).outcome = .ok shType ∧
        (if wrapInt shType = Elf.dynsymType then
          readSymbolTable content format (sections.base index)
        else findDynsym content format sections rest).outcome = .ok symbols := by
  simp only [findDynsym, Access.outcome_bind_eq_ok]

/-- The search finds the first `.dynsym`, if the sections before it are in the image. -/
theorem findDynsym_eq_ok {table : Elf.SectionTable} {symbols : SymbolTable} (indices : List ℕ)
    (bound : ∀ index ∈ indices, table.entry index + 64 < 2 ^ 64)
    (sorted : indices.Pairwise (· < ·)) (nonneg : 0 ≤ symbols.symOff) :
    (findDynsym content format (.of table) indices).outcome = .ok symbols ↔
      ∃ index header,
        (indices.find? fun index =>
          Elf.sectionType content.bytes format table index == some Elf.dynsymType) = some index ∧
        Elf.dynsymHeader content.bytes format (table.entry index) = some header ∧
        SymbolTable.of header = symbols := by
  induction indices with
  | nil =>
      refine iff_of_false ?_ (by simp)
      rintro ⟨⟩
      revert nonneg
      decide
  | cons index rest ih =>
      rcases List.pairwise_cons.mp sorted with ⟨first, later⟩
      have here := bound index List.mem_cons_self
      have next := ih (fun other member => bound other (List.mem_cons_of_mem _ member)) later
      simp only [findDynsym_cons, readType_eq_ok here]
      cases found : Elf.sectionType content.bytes format table index with
      | none =>
          refine iff_of_false (by simp) ?_
          rintro ⟨other, header, search, -⟩
          rw [List.find?_cons, found] at search
          have matched := List.find?_some search
          simp only [beq_iff_eq] at matched
          have readable :=
            sectionType_isSome (first other (List.mem_of_find?_eq_some search)) matched
          rw [found] at readable
          cases readable
      | some type =>
          simp only [Option.some.injEq, exists_eq_left', exists_eq_left]
          have small := sectionType_lt found
          have decided : wrapInt type = Elf.dynsymType ↔ type = Elf.dynsymType :=
            wrapInt_eq_natCast_iff small (by decide)
          by_cases same : type = Elf.dynsymType
          · rw [if_pos (decided.mpr same), base_of, readSymbolTable_eq_ok here,
              List.find?_cons_of_pos (by simp [found, same])]
            simp
          · rw [if_neg (mt decided.mp same), next,
              List.find?_cons_of_neg (by simp [found, same])]

theorem readFully_wrapLong {offset size : ℕ} {bytes : List UInt8} (positive : 0 < size)
    (bound : offset < 2 ^ 64) :
    (readFully content (wrapLong offset) size).outcome = .ok bytes ↔
      Elf.slice content.bytes offset size = some bytes := by
  rw [readFully_eq_ok positive, wrapLong_nonneg_iff bound]
  by_cases fits : offset < 2 ^ 63
  · rw [and_iff_right fits, wrapLong_natCast fits, Int.toNat_natCast]
  · refine iff_of_false (fun both => fits both.1) ?_
    intro found
    have within := (Elf.slice_eq_some_iff.mp found).1
    have short := content.length_lt
    omega

/-- The text of a symbol's name. -/
def symbolText (symbol : Elf.Symbol) : String := asciiText symbol.name

/-- The names of those symbols which start as wanted. -/
def wantedNames (start : List UInt8) (symbols : List Elf.Symbol) : Finset String :=
  ((symbols.filter fun symbol => start.isPrefixOf symbol.tail).map symbolText).toFinset

theorem startsWithAt_eq {buf : List UInt8} {position : ℕ} (within : position ≤ buf.length)
    (start : List UInt8) :
    startsWithAt buf position start = start.isPrefixOf (buf.drop position) := by
  rw [startsWithAt, Bool.and_eq_right_iff_imp, List.isPrefixOf_iff_prefix, decide_eq_true_iff]
  intro begins
  have shorter := begins.length_le
  rw [List.length_drop] at shorter
  omega

theorem wantedName_eq {headers : Elf.Headers} {index name : ℕ} {start : List UInt8}
    (found : headers.nameOffset content.bytes index = some name)
    (short : headers.strings.length < 2 ^ 63) :
    wantedName (.of headers.stringsOffset headers.strings.length) headers.strings start name =
      wantedNames start (headers.symbol content.bytes index).toList := by
  have bounds : ((name : ℤ) ≤ 0 ∨
      (StringTable.of headers.stringsOffset headers.strings.length).strSize ≤ name) ↔
        ¬(0 < name ∧ name < headers.strings.length) := by
    simp only [StringTable.of, wrapLong_natCast short]
    omega
  rw [Elf.Headers.symbol, found, Option.bind_eq_bind, Option.bind_some]
  by_cases named : 0 < name ∧ name < headers.strings.length
  · rw [wantedName, if_neg (mt bounds.mp (not_not.mpr named)), if_pos named, Int.toNat_natCast,
      startsWithAt_eq named.2.le]
    cases begins : start.isPrefixOf (headers.strings.drop name) with
    | true => simp [wantedNames, begins, symbolText, Elf.Symbol.name, nameAt]
    | false => simp [wantedNames, begins]
  · rw [wantedName, if_pos (bounds.mpr named), if_neg named]
    rfl

theorem collectNames_cons {symbols : SymbolTable} {strings : StringTable}
    {strtab start : List UInt8} {index : ℕ} {rest : List ℕ} {names : Finset String} :
    (collectNames content format symbols strings strtab start (index :: rest)).outcome =
        .ok names ↔
      ∃ nameOff,
        (readAt content (wrapLong (symbols.symOff + index * format.symbolSize)) 4
          format.little).outcome = .ok nameOff ∧
      ∃ others,
        (collectNames content format symbols strings strtab start rest).outcome = .ok others ∧
      wantedName strings strtab start nameOff ∪ others = names := by
  simp only [collectNames, Access.outcome_bind_eq_ok, Access.outcome_pure, Except.ok.injEq]

theorem wantedNames_append (start : List UInt8) (first second : List Elf.Symbol) :
    wantedNames start (first ++ second) = wantedNames start first ∪ wantedNames start second := by
  rw [wantedNames, List.filter_append, List.map_append, List.toFinset_append]
  rfl

theorem collectNames_eq_ok {headers : Elf.Headers} {start : List UInt8} {names : Finset String}
    (indices : List ℕ) (bound : ∀ index ∈ indices, headers.symbolOffset index < 2 ^ 64)
    (short : headers.strings.length < 2 ^ 63) :
    (collectNames content headers.format (.of headers.dynsym)
        (.of headers.stringsOffset headers.strings.length) headers.strings start
        indices).outcome = .ok names ↔
      (∀ index ∈ indices, (headers.nameOffset content.bytes index).isSome = true) ∧
        wantedNames start (indices.filterMap (headers.symbol content.bytes)) = names := by
  induction indices generalizing names with
  | nil => simp [collectNames, wantedNames]
  | cons index rest ih =>
      have next (others : Finset String) :=
        @ih others fun other member => bound other (List.mem_cons_of_mem _ member)
      have position : wrapLong ((SymbolTable.of headers.dynsym).symOff +
          index * headers.format.symbolSize) = wrapLong (headers.symbolOffset index) := by
        rw [SymbolTable.of, wrapLong_add_left, Elf.Headers.symbolOffset, Nat.cast_add, Nat.cast_mul]
      simp only [collectNames_cons, position, next,
        readAt_narrow (by omega : 0 < 4) le_rfl (bound index List.mem_cons_self)]
      cases found : headers.nameOffset content.bytes index with
      | none =>
          rw [Elf.Headers.nameOffset] at found
          refine iff_of_false (by simp [found]) ?_
          rintro ⟨readable, -⟩
          have here := readable index List.mem_cons_self
          rw [Elf.Headers.nameOffset, found] at here
          cases here
      | some name =>
          have split : (index :: rest).filterMap (headers.symbol content.bytes) =
              (headers.symbol content.bytes index).toList ++
                rest.filterMap (headers.symbol content.bytes) := by
            rw [List.filterMap_cons]
            cases headers.symbol content.bytes index <;> rfl
          rw [split, wantedNames_append, ← wantedName_eq found short, List.forall_mem_cons, found]
          rw [Elf.Headers.nameOffset] at found
          simp only [found, Option.some.injEq, Option.isSome_some, true_and]
          constructor
          · rintro ⟨_, ⟨_, rfl, rfl⟩, others, ⟨readable, rfl⟩, rfl⟩
            exact ⟨readable, rfl⟩
          · rintro ⟨readable, rfl⟩
            exact ⟨_, ⟨_, rfl, rfl⟩, _, ⟨readable, rfl⟩, rfl⟩

/-- A file which the checker can read: its checks of the headers pass. -/
structure Parses (content : FileContent) (headers : Elf.Headers) : Prop where
  long : 64 ≤ content.bytes.length
  found : Elf.headers content.bytes = some headers
  sectionsChecked : sectionsError content headers.format (.of headers.table) = none
  symbolsChecked :
    symbolsError content headers.format (.of headers.table) (.of headers.dynsym) = none
  stringsChecked : stringsError content headers.format (.of headers.dynsym)
    (.of headers.stringsOffset headers.strings.length) = none
  readable : ∀ index < headers.symbolCount, (headers.nameOffset content.bytes index).isSome = true

theorem check_eq_none {Failure : Type} {test : Prop} [Decidable test] {failure : Failure}
    {rest : Option Failure} :
    (if test then some failure else rest) = none ↔ ¬test ∧ rest = none := by
  split <;> simp_all

theorem wrapLong_pos {value : ℕ} (bound : value < 2 ^ 64) (positive : 0 < wrapLong value) :
    value < 2 ^ 63 :=
  (wrapLong_nonneg_iff bound).mp positive.le

/-- After the checks no section header is beyond the reach of a `Long`. -/
theorem entry_lt_of_checked {table : Elf.SectionTable}
    (found : Elf.sectionTable content.bytes format = some table)
    (checked : sectionsError content format (.of table) = none) {index : ℕ}
    (inside : index < table.count) : table.entry index + 64 < 2 ^ 64 := by
  rcases Elf.sectionTable_lt found with ⟨offset, entrySize, count⟩
  simp only [sectionsError, check_eq_none, not_or, not_le] at checked
  exact Elf.entry_lt (wrapLong_pos offset checked.1.1) entrySize count inside

/-- After the checks the values of the symbol table are those of its header. -/
theorem symbols_of_checked {table : Elf.SectionTable} {base : ℕ} {header : Elf.DynsymHeader}
    (found : Elf.dynsymHeader content.bytes format base = some header)
    (checked : symbolsError content format (.of table) (.of header) = none) :
    0 ≤ (SymbolTable.of header).symOff ∧ header.offset < 2 ^ 63 ∧
      (SymbolTable.of header).symSize = header.size ∧
        (SymbolTable.of header).strIdx = header.link ∧ header.link < table.count := by
  rcases Elf.dynsymHeader_lt found with ⟨offset, size, link⟩
  simp only [symbolsError, check_eq_none, not_or, not_le, not_lt, ne_eq, not_not] at checked
  rcases checked with ⟨nonneg, -, ⟨positive, -⟩, ⟨index, inside⟩, -⟩
  have narrow : wrapLong header.link = header.link := wrapLong_natCast (by omega)
  have same : (SymbolTable.of header).strIdx = header.link := by
    rw [SymbolTable.of, narrow]
    simp only [SymbolTable.of, narrow] at index
    exact wrapInt_pos link index
  rw [same] at inside
  exact ⟨nonneg, (wrapLong_nonneg_iff offset).mp nonneg,
    wrapLong_natCast (wrapLong_pos size positive), same, Int.ofNat_lt.mp inside⟩

theorem strings_of_checked {base : ℕ} {header : ℕ × ℕ} {symbols : SymbolTable}
    (found : Elf.stringsHeader content.bytes format base = some header)
    (checked : stringsError content format symbols (.of header.1 header.2) = none) :
    header.1 < 2 ^ 64 ∧ 0 < header.2 ∧ header.2 < 2 ^ 63 ∧
      (StringTable.of header.1 header.2).strSize = header.2 ∧
        symCount format symbols ≤ maxSymbols := by
  rcases Elf.stringsHeader_lt found with ⟨offset, size⟩
  simp only [stringsError, check_eq_none, not_or, not_le, not_lt] at checked
  rcases checked with ⟨⟨positive, -⟩, -, few, -⟩
  have fits := wrapLong_pos size positive
  have same : wrapLong header.2 = header.2 := wrapLong_natCast fits
  simp only [StringTable.of, same] at positive
  exact ⟨offset, Int.natCast_pos.mp positive, fits, same, few⟩

theorem symbolOffset_lt {headers : Elf.Headers} {index : ℕ} (low : headers.dynsym.offset < 2 ^ 63)
    (few : index < 2 ^ 32) : headers.symbolOffset index < 2 ^ 64 := by
  have size : headers.format.symbolSize < 32 := pick_lt (by decide) (by decide)
  have product : index * headers.format.symbolSize ≤ 2 ^ 32 * 32 :=
    Nat.mul_le_mul (by omega) (by omega)
  unfold Elf.Headers.symbolOffset
  omega

end Reading

section Whole

variable {content : FileContent}

/-- The steps of the checker on a file which is there. -/
theorem exportedSymbols_steps {wanted : String} {names : Finset String} :
    (exportedSymbols (some content) wanted).outcome = .ok names ↔
      64 ≤ content.bytes.length ∧
      ∃ format, (readFormat content).outcome = .ok format ∧
      ∃ sections, (readSectionHeaders content format).outcome = .ok sections ∧
        sectionsError content format sections = none ∧
      ∃ symbols,
        (findDynsym content format sections (List.range sections.shNum.toNat)).outcome =
          .ok symbols ∧
        symbolsError content format sections symbols = none ∧
      ∃ strings,
        (readStringTable content format (sections.base symbols.strIdx)).outcome = .ok strings ∧
        stringsError content format symbols strings = none ∧
      ∃ strtab, (readFully content strings.strOff strings.strSize.toNat).outcome = .ok strtab ∧
        (collectNames content format symbols strings strtab (asciiBytes wanted)
          (List.range (symCount format symbols).toNat)).outcome = .ok names := by
  simp only [exportedSymbols, Access.outcome_bind_eq_ok, Access.outcome_refuse_eq_ok,
    check_eq_none, not_lt, and_true, exists_const]

theorem headers_eq_some {headers : Elf.Headers} :
    Elf.headers content.bytes = some headers ↔
      Elf.formatOf content.bytes = some headers.format ∧
      Elf.sectionTable content.bytes headers.format = some headers.table ∧
      (∃ index, Elf.dynsymIndex content.bytes headers.format headers.table = some index ∧
        Elf.dynsymHeader content.bytes headers.format (headers.table.entry index) =
          some headers.dynsym) ∧
      ∃ size,
        Elf.stringsHeader content.bytes headers.format
          (headers.table.entry headers.dynsym.link) = some (headers.stringsOffset, size) ∧
        Elf.slice content.bytes headers.stringsOffset size = some headers.strings := by
  simp only [Elf.headers, Option.bind_eq_bind, Option.bind_eq_some_iff, Option.some.injEq]
  constructor
  · rintro ⟨format, isFormat, table, isTable, index, isIndex, dynsym, isDynsym,
      ⟨offset, size⟩, isStrings, strings, isSlice, rfl⟩
    exact ⟨isFormat, isTable, ⟨index, isIndex, isDynsym⟩, size, isStrings, isSlice⟩
  · rintro ⟨isFormat, isTable, ⟨index, isIndex, isDynsym⟩, size, isStrings, isSlice⟩
    exact ⟨_, isFormat, _, isTable, index, isIndex, _, isDynsym, (_, size), isStrings, _, isSlice,
      rfl⟩

theorem length_of_slice {bytes : List UInt8} {offset size : ℕ}
    (found : Elf.slice content.bytes offset size = some bytes) : bytes.length = size := by
  rcases Elf.slice_eq_some_iff.mp found with ⟨within, rfl⟩
  rw [List.length_take, List.length_drop]
  omega

/-- The last steps, on headers which pass the checks. -/
theorem collectNames_of_checked {headers : Elf.Headers} {wanted : String} {names : Finset String}
    (found : Elf.headers content.bytes = some headers)
    (symbolsChecked :
      symbolsError content headers.format (.of headers.table) (.of headers.dynsym) = none)
    (stringsChecked : stringsError content headers.format (.of headers.dynsym)
      (.of headers.stringsOffset headers.strings.length) = none) :
    (collectNames content headers.format (.of headers.dynsym)
        (.of headers.stringsOffset headers.strings.length) headers.strings (asciiBytes wanted)
        (List.range (symCount headers.format (.of headers.dynsym)).toNat)).outcome = .ok names ↔
      (∀ index < headers.symbolCount,
        (headers.nameOffset content.bytes index).isSome = true) ∧
      wantedNames (asciiBytes wanted) (Elf.symbols content.bytes) = names := by
  rcases headers_eq_some.mp found with ⟨-, -, ⟨index, -, isDynsym⟩, size, isStrings, isSlice⟩
  rcases symbols_of_checked isDynsym symbolsChecked with ⟨-, low, sameSize, -⟩
  have length := length_of_slice isSlice
  rw [← length] at isStrings
  rcases strings_of_checked isStrings stringsChecked with ⟨-, -, short, -, few⟩
  have count : (symCount headers.format (.of headers.dynsym)) = headers.symbolCount := by
    rw [symCount, sameSize, Elf.Headers.symbolCount, Int.natCast_div]
  rw [count] at few ⊢
  have few' : headers.symbolCount ≤ 200000 := Int.ofNat_le.mp few
  rw [Int.toNat_natCast, collectNames_eq_ok _ _ short, Elf.symbols, found]
  · simp only [List.mem_range]
  · intro index inside
    rw [List.mem_range] at inside
    exact symbolOffset_lt low (by omega)

/--
The checker succeeds exactly on the files whose headers pass its checks, and the
names are those of the dynamic symbols which start as wanted, imported or not.
-/
theorem exportedSymbols_eq_ok {wanted : String} {names : Finset String} :
    (exportedSymbols (some content) wanted).outcome = .ok names ↔
      ∃ headers, Parses content headers ∧
        wantedNames (asciiBytes wanted) (Elf.symbols content.bytes) = names := by
  rw [exportedSymbols_steps]
  constructor
  · rintro ⟨long, format, formatRead, sections, sectionsRead, sectionsChecked, symbols, search,
      symbolsChecked, strings, stringsRead, stringsChecked, strtab, strtabRead, collected⟩
    have isFormat := (readFormat_eq_ok long).mp formatRead
    rcases readSectionHeaders_eq_ok.mp sectionsRead with ⟨table, isTable, rfl⟩
    have reach (index : ℕ) (inside : index < table.count) :=
      entry_lt_of_checked isTable sectionsChecked inside
    have nonneg : 0 ≤ symbols.symOff := by
      have checks := symbolsChecked
      simp only [symbolsError, check_eq_none, not_lt] at checks
      exact checks.1
    have count : (SectionHeaders.of table).shNum.toNat = table.count := Int.toNat_natCast _
    rw [count, findDynsym_eq_ok _ (fun index inside => reach index (List.mem_range.mp inside))
      List.pairwise_lt_range nonneg] at search
    rcases search with ⟨index, header, isIndex, isHeader, rfl⟩
    rcases symbols_of_checked isHeader symbolsChecked with ⟨-, -, -, link, inside⟩
    rw [link, base_of, readStringTable_eq_ok (reach _ inside)] at stringsRead
    rcases stringsRead with ⟨⟨offset, size⟩, isStrings, rfl⟩
    rcases strings_of_checked isStrings stringsChecked with ⟨bound, positive, -, sameSize, -⟩
    rw [sameSize, Int.toNat_natCast, StringTable.of, readFully_wrapLong positive bound]
      at strtabRead
    have length : strtab.length = size := length_of_slice strtabRead
    subst size
    have found : Elf.headers content.bytes = some ⟨format, table, header, offset, strtab⟩ :=
      headers_eq_some.mpr
        ⟨isFormat, isTable, ⟨index, isIndex, isHeader⟩, _, isStrings, strtabRead⟩
    rcases (collectNames_of_checked found symbolsChecked stringsChecked).mp collected with
      ⟨readable, names⟩
    exact ⟨_, ⟨long, found, sectionsChecked, symbolsChecked, stringsChecked, readable⟩, names⟩
  · rintro ⟨headers, parses, names⟩
    rcases headers_eq_some.mp parses.found with
      ⟨isFormat, isTable, ⟨index, isIndex, isHeader⟩, size, isStrings, isSlice⟩
    have length := length_of_slice isSlice
    subst size
    have reach (index : ℕ) (inside : index < headers.table.count) :=
      entry_lt_of_checked isTable parses.sectionsChecked inside
    rcases symbols_of_checked isHeader parses.symbolsChecked with ⟨nonneg, -, -, link, inside⟩
    rcases strings_of_checked isStrings parses.stringsChecked with
      ⟨bound, positive, -, sameSize, -⟩
    refine ⟨parses.long, headers.format, (readFormat_eq_ok parses.long).mpr isFormat,
      .of headers.table, readSectionHeaders_eq_ok.mpr ⟨_, isTable, rfl⟩, parses.sectionsChecked,
      .of headers.dynsym, ?_, parses.symbolsChecked,
      .of headers.stringsOffset headers.strings.length, ?_, parses.stringsChecked,
      headers.strings, ?_,
      (collectNames_of_checked parses.found parses.symbolsChecked parses.stringsChecked).mpr
        ⟨parses.readable, names⟩⟩
    · have count : (SectionHeaders.of headers.table).shNum.toNat = headers.table.count :=
        Int.toNat_natCast _
      rw [count, findDynsym_eq_ok _ (fun index inside => reach index (List.mem_range.mp inside))
        List.pairwise_lt_range nonneg]
      exact ⟨index, headers.dynsym, isIndex, isHeader, rfl⟩
    · rw [link, base_of, readStringTable_eq_ok (reach _ inside)]
      exact ⟨_, isStrings, rfl⟩
    · rw [sameSize, Int.toNat_natCast, StringTable.of, readFully_wrapLong positive bound]
      exact isSlice

theorem within_readFully (position : ℤ) (count : ℕ) :
    (readFully content position count).Within content.bytes.length := by
  rw [readFully]
  split
  · exact Access.within_fail _
  · exact Access.within_read _ _ _ _

theorem within_readAt (position : ℤ) (width : ℕ) (little : Bool) :
    (readAt content position width little).Within content.bytes.length :=
  Access.within_bind (within_readFully position width) fun _ => Access.within_pure _

theorem within_readFormat : (readFormat content).Within content.bytes.length := by
  have within_classOf (byte : UInt8) : (classOf byte).Within content.bytes.length := by
    unfold classOf
    split
    · exact Access.within_pure _
    · exact Access.within_pure _
    · exact Access.within_fail _
  have within_dataOf (byte : UInt8) : (dataOf byte).Within content.bytes.length := by
    unfold dataOf
    split
    · exact Access.within_pure _
    · exact Access.within_pure _
    · exact Access.within_fail _
  refine Access.within_bind (within_readFully 0 16) fun ident => ?_
  refine Access.within_bind (Access.within_refuse _) fun _ => ?_
  refine Access.within_bind (within_classOf _) fun is64 => ?_
  exact Access.within_bind (within_dataOf _) fun little => Access.within_pure _

variable (format : Elf.Format)

theorem within_readSectionHeaders :
    (readSectionHeaders content format).Within content.bytes.length := by
  refine Access.within_bind (within_readAt _ _ _) fun shOff => ?_
  refine Access.within_bind (within_readAt _ _ _) fun shEntSize => ?_
  exact Access.within_bind (within_readAt _ _ _) fun shNum => Access.within_pure _

theorem within_readSymbolTable (base : ℤ) :
    (readSymbolTable content format base).Within content.bytes.length := by
  refine Access.within_bind (within_readAt _ _ _) fun symOff => ?_
  refine Access.within_bind (within_readAt _ _ _) fun symSize => ?_
  refine Access.within_bind (within_readAt _ _ _) fun strIdx => ?_
  exact Access.within_bind (within_readAt _ _ _) fun symEnt => Access.within_pure _

theorem within_readStringTable (base : ℤ) :
    (readStringTable content format base).Within content.bytes.length := by
  refine Access.within_bind (within_readAt _ _ _) fun strOff => ?_
  exact Access.within_bind (within_readAt _ _ _) fun strSize => Access.within_pure _

theorem within_findDynsym (sections : SectionHeaders) (indices : List ℕ) :
    (findDynsym content format sections indices).Within content.bytes.length := by
  induction indices with
  | nil => exact Access.within_pure _
  | cons index rest ih =>
      refine Access.within_bind (within_readAt _ _ _) fun shType => ?_
      split
      · exact within_readSymbolTable format _
      · exact ih

theorem within_collectNames (symbols : SymbolTable) (strings : StringTable)
    (strtab start : List UInt8) (indices : List ℕ) :
    (collectNames content format symbols strings strtab start indices).Within
      content.bytes.length := by
  induction indices with
  | nil => exact Access.within_pure _
  | cons index rest ih =>
      refine Access.within_bind (within_readAt _ _ _) fun nameOff => ?_
      exact Access.within_bind ih fun names => Access.within_pure _

/-- No byte from outside the file is read, whatever is in it. -/
theorem within_exportedSymbols (content : FileContent) (wanted : String) :
    (exportedSymbols (some content) wanted).Within content.bytes.length := by
  refine Access.within_bind (Access.within_refuse _) fun _ => ?_
  refine Access.within_bind within_readFormat fun format => ?_
  refine Access.within_bind (within_readSectionHeaders format) fun sections => ?_
  refine Access.within_bind (Access.within_refuse _) fun _ => ?_
  refine Access.within_bind (within_findDynsym format sections _) fun symbols => ?_
  refine Access.within_bind (Access.within_refuse _) fun _ => ?_
  refine Access.within_bind (within_readStringTable format _) fun strings => ?_
  refine Access.within_bind (Access.within_refuse _) fun _ => ?_
  refine Access.within_bind (within_readFully _ _) fun strtab => ?_
  exact within_collectNames format symbols strings strtab _ _

end Whole

end Mirage.Shell.ElfChecker
