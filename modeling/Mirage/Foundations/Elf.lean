import Mathlib.Data.List.Basic
import Mathlib.Tactic.Ring

/-!
# Dynamic symbols of ELF images

The part of the format which leads from the header of an image to the symbols of
its dynamic symbol table, for both widths and both byte orders.  Offsets and
sizes are natural numbers; what is not in the image does not exist.
-/

namespace Mirage.Foundations.Elf

/-- Some bytes of an image. -/
def slice (image : List UInt8) (offset size : ℕ) : Option (List UInt8) :=
  if offset + size ≤ image.length then some ((image.drop offset).take size) else none

theorem slice_eq_some_iff {image bytes : List UInt8} {offset size : ℕ} :
    slice image offset size = some bytes ↔
      offset + size ≤ image.length ∧ bytes = (image.drop offset).take size := by
  rw [slice, Option.ite_none_right_eq_some, Option.some.injEq]
  exact and_congr_right fun _ => eq_comm

structure Format where
  is64 : Bool
  little : Bool
  deriving DecidableEq, Repr

/-- The digits of a number, the most significant one first. -/
def digits (little : Bool) (bytes : List UInt8) : List UInt8 :=
  if little then bytes.reverse else bytes

def number (little : Bool) (bytes : List UInt8) : ℕ :=
  (digits little bytes).foldl (fun value byte => 256 * value + byte.toNat) 0

theorem foldl_number_lt (bytes : List UInt8) (start : ℕ) :
    bytes.foldl (fun value byte => 256 * value + byte.toNat) start <
      256 ^ bytes.length * (start + 1) := by
  induction bytes generalizing start with
  | nil => simp
  | cons byte bytes ih =>
      have next := ih (256 * start + byte.toNat)
      have small := byte.toNat_lt
      rw [List.foldl_cons, List.length_cons, Nat.pow_succ, Nat.mul_assoc]
      exact Nat.lt_of_lt_of_le next (Nat.mul_le_mul_left _ (by omega))

theorem number_lt (little : Bool) (bytes : List UInt8) :
    number little bytes < 256 ^ bytes.length := by
  have bound := foldl_number_lt (digits little bytes) 0
  have same : (digits little bytes).length = bytes.length := by cases little <;> simp [digits]
  rwa [same, Nat.zero_add, Nat.mul_one] at bound

/-- The number in a field of an image. -/
def field (image : List UInt8) (little : Bool) (offset width : ℕ) : Option ℕ :=
  (slice image offset width).map (number little)

theorem field_isSome_iff {image : List UInt8} {little : Bool} {offset width : ℕ} :
    (field image little offset width).isSome = true ↔ offset + width ≤ image.length := by
  rw [field, Option.isSome_map, slice]
  split <;> simp_all

theorem field_eq_some_iff {image : List UInt8} {little : Bool} {offset width value : ℕ} :
    field image little offset width = some value ↔
      offset + width ≤ image.length ∧
        number little ((image.drop offset).take width) = value := by
  simp only [field, Option.map_eq_some_iff, slice_eq_some_iff]
  constructor
  · rintro ⟨bytes, ⟨within, rfl⟩, rfl⟩
    exact ⟨within, rfl⟩
  · rintro ⟨within, rfl⟩
    exact ⟨_, ⟨within, rfl⟩, rfl⟩

theorem field_lt {image : List UInt8} {little : Bool} {offset width value : ℕ}
    (found : field image little offset width = some value) : value < 256 ^ width := by
  rcases field_eq_some_iff.mp found with ⟨within, rfl⟩
  refine Nat.lt_of_lt_of_le (number_lt _ _) (Nat.pow_le_pow_right (by omega) ?_)
  exact List.length_take_le _ _

def magic : List UInt8 := [0x7F, 0x45, 0x4C, 0x46]

def wideOf : UInt8 → Option Bool
  | 2 => some true
  | 1 => some false
  | _ => none

def littleOf : UInt8 → Option Bool
  | 1 => some true
  | 2 => some false
  | _ => none

def formatOf (image : List UInt8) : Option Format :=
  if image.take 4 = magic then do
    let is64 ← (image[4]? : Option UInt8).bind wideOf
    let little ← (image[5]? : Option UInt8).bind littleOf
    some { is64, little }
  else none

namespace Format

variable (format : Format)

/-- The value which a format has for its width. -/
def pick (wide narrow : ℕ) : ℕ := if format.is64 then wide else narrow

def addressWidth : ℕ := format.pick 8 4

def symbolSize : ℕ := format.pick 24 16

end Format

structure SectionTable where
  offset : ℕ
  entrySize : ℕ
  count : ℕ
  deriving DecidableEq, Repr

structure DynsymHeader where
  offset : ℕ
  size : ℕ
  link : ℕ
  entrySize : ℕ
  deriving DecidableEq, Repr

section Sections

variable (image : List UInt8) (format : Format)

def sectionTable : Option SectionTable := do
  let offset ← field image format.little (format.pick 0x28 0x20) format.addressWidth
  let entrySize ← field image format.little (format.pick 0x3A 0x2E) 2
  let count ← field image format.little (format.pick 0x3C 0x30) 2
  some { offset, entrySize, count }

def SectionTable.entry (table : SectionTable) (index : ℕ) : ℕ :=
  table.offset + index * table.entrySize

def sectionType (table : SectionTable) (index : ℕ) : Option ℕ :=
  field image format.little (table.entry index + 4) 4

def dynsymType : ℕ := 11

/-- The first section which is a dynamic symbol table. -/
def dynsymIndex (table : SectionTable) : Option ℕ :=
  (List.range table.count).find? fun index =>
    sectionType image format table index == some dynsymType

def dynsymHeader (base : ℕ) : Option DynsymHeader := do
  let offset ← field image format.little (base + format.pick 0x18 0x10) format.addressWidth
  let size ← field image format.little (base + format.pick 0x20 0x14) format.addressWidth
  let link ← field image format.little (base + format.pick 0x28 0x18) 4
  let entrySize ← field image format.little (base + format.pick 0x38 0x24) format.addressWidth
  some { offset, size, link, entrySize }

/-- Offset and size of a string table. -/
def stringsHeader (base : ℕ) : Option (ℕ × ℕ) := do
  let offset ← field image format.little (base + format.pick 0x18 0x10) format.addressWidth
  let size ← field image format.little (base + format.pick 0x20 0x14) format.addressWidth
  some (offset, size)

variable {image format}

theorem field_address_lt {little : Bool} {offset value : ℕ}
    (found : field image little offset format.addressWidth = some value) : value < 2 ^ 64 := by
  refine Nat.lt_of_lt_of_le (field_lt found) ?_
  unfold Format.addressWidth Format.pick
  split <;> decide

theorem sectionTable_lt {table : SectionTable} (found : sectionTable image format = some table) :
    table.offset < 2 ^ 64 ∧ table.entrySize < 2 ^ 16 ∧ table.count < 2 ^ 16 := by
  simp only [sectionTable, Option.bind_eq_bind, Option.bind_eq_some_iff, Option.some.injEq] at found
  rcases found with ⟨offset, atOffset, entrySize, atEntrySize, count, atCount, rfl⟩
  exact ⟨field_address_lt atOffset, field_lt atEntrySize, field_lt atCount⟩

theorem dynsymHeader_lt {base : ℕ} {header : DynsymHeader}
    (found : dynsymHeader image format base = some header) :
    header.offset < 2 ^ 64 ∧ header.size < 2 ^ 64 ∧ header.link < 2 ^ 32 := by
  simp only [dynsymHeader, Option.bind_eq_bind, Option.bind_eq_some_iff, Option.some.injEq] at found
  rcases found with ⟨offset, atOffset, size, atSize, link, atLink, entrySize, atEntrySize, rfl⟩
  exact ⟨field_address_lt atOffset, field_address_lt atSize, field_lt atLink⟩

theorem stringsHeader_lt {base : ℕ} {header : ℕ × ℕ}
    (found : stringsHeader image format base = some header) :
    header.1 < 2 ^ 64 ∧ header.2 < 2 ^ 64 := by
  simp only [stringsHeader, Option.bind_eq_bind, Option.bind_eq_some_iff, Option.some.injEq]
    at found
  rcases found with ⟨offset, atOffset, size, atSize, rfl⟩
  exact ⟨field_address_lt atOffset, field_address_lt atSize⟩

theorem entry_lt {table : SectionTable} {index : ℕ} (low : table.offset < 2 ^ 63)
    (small : table.entrySize < 2 ^ 16) (few : table.count < 2 ^ 16) (inside : index < table.count) :
    table.entry index + 64 < 2 ^ 64 := by
  have product : index * table.entrySize ≤ 2 ^ 16 * 2 ^ 16 :=
    Nat.mul_le_mul (by omega) (by omega)
  unfold SectionTable.entry
  omega

end Sections

/-- What leads to the dynamic symbols of an image. -/
structure Headers where
  format : Format
  table : SectionTable
  dynsym : DynsymHeader
  stringsOffset : ℕ
  strings : List UInt8
  deriving DecidableEq, Repr

def headers (image : List UInt8) : Option Headers := do
  let format ← formatOf image
  let table ← sectionTable image format
  let index ← dynsymIndex image format table
  let dynsym ← dynsymHeader image format (table.entry index)
  let (stringsOffset, stringsSize) ← stringsHeader image format (table.entry dynsym.link)
  let strings ← slice image stringsOffset stringsSize
  some { format, table, dynsym, stringsOffset, strings }

/-- `tail` is the string table from the name on; a symbol of section 0 is only imported. -/
structure Symbol where
  tail : List UInt8
  sectionIndex : Option ℕ
  deriving DecidableEq, Repr

/-- A name ends with a zero byte. -/
def Symbol.name (symbol : Symbol) : List UInt8 := symbol.tail.takeWhile (· ≠ 0)

def Symbol.defined (symbol : Symbol) : Bool := symbol.sectionIndex.any (· ≠ 0)

namespace Headers

variable (image : List UInt8) (headers : Headers)

def symbolCount : ℕ := headers.dynsym.size / headers.format.symbolSize

def symbolOffset (index : ℕ) : ℕ := headers.dynsym.offset + index * headers.format.symbolSize

/-- The name of a symbol, as an offset into the string table. -/
def nameOffset (index : ℕ) : Option ℕ :=
  field image headers.format.little (headers.symbolOffset index) 4

/-- A symbol which has a name. -/
def symbol (index : ℕ) : Option Symbol := do
  let name ← headers.nameOffset image index
  if 0 < name ∧ name < headers.strings.length then
    some
      { tail := headers.strings.drop name
        sectionIndex := field image headers.format.little
          (headers.symbolOffset index + headers.format.pick 6 14) 2 }
  else none

end Headers

/-- The dynamic symbols which have names. -/
def symbols (image : List UInt8) : List Symbol :=
  match headers image with
  | some headers => (List.range headers.symbolCount).filterMap (headers.symbol image)
  | none => []

end Mirage.Foundations.Elf
