import Mathlib.Data.Finset.Basic
import Mirage.Foundations.Access
import Mirage.Foundations.Elf
import Mirage.Shell.JvmText

/-!
# The ELF checker

`ElfChecker` reads the architecture of a native library from its header, and the
names of its dynamic symbols.  The library is any file; each number which is
read from it is a `Long`, and sums of them wrap around.
-/

namespace Mirage.Shell

open Mirage.Foundations

/-- The content of a file, whose length is a `Long`. -/
structure FileContent where
  bytes : List UInt8
  length_lt : bytes.length < 2 ^ 63
  deriving DecidableEq

inductive ElfError where
  | absent
  | tooSmall
  | absentOrTooSmall
  | badMagic
  | unknownClass (byte : UInt8)
  | unknownData (byte : UInt8)
  | noSectionTable
  | tooManySections (count : ℤ)
  | sectionTableOutside
  | noDynsym
  | badSymbolSize (size : ℤ)
  | dynsymOutside
  | noStringTable
  | stringsOutside
  | stringsTooLarge (size : ℤ)
  | tooManySymbols (count : ℤ)
  | negativeOffset (offset : ℤ)
  | endOfFile
  deriving DecidableEq, Repr

/-- The message of the exception; that of the end of the file has none. -/
def ElfError.message : ElfError → Option String
  | .absent => some "文件不存在"
  | .tooSmall => some "文件过小, 不是合法 ELF"
  | .absentOrTooSmall => some "文件不存在或大小异常"
  | .badMagic => some "不是合法的 ELF/SO 原生库文件 (Magic 不匹配)"
  | .unknownClass byte => some ("未知 ELF 位宽 (EI_CLASS=" ++ toString byte.toInt8.toInt ++ ")")
  | .unknownData byte => some ("未知 ELF 字节序 (EI_DATA=" ++ toString byte.toInt8.toInt ++ ")")
  | .noSectionTable => some "节头表缺失或不合法 (该 .so 可能被过度裁剪)"
  | .tooManySections count => some ("节头数量异常 (" ++ toString count ++ ")")
  | .sectionTableOutside => some "节头表越界, 文件可能被截断"
  | .noDynsym => some "该 .so 没有动态符号表 (.dynsym), 无法校验接口面"
  | .badSymbolSize size => some ("动态符号表项大小异常 (" ++ toString size ++ ")")
  | .dynsymOutside => some "动态符号表越界, 文件可能被截断"
  | .noStringTable => some "动态符号表未关联字符串表"
  | .stringsOutside => some "字符串表越界, 文件可能被截断"
  | .stringsTooLarge size => some ("字符串表过大 (" ++ toString size ++ " 字节)")
  | .tooManySymbols count => some ("符号数量异常 (" ++ toString count ++ ")")
  | .negativeOffset offset => some ("offset < 0: " ++ toString offset)
  | .endOfFile => none

/-- The name of the exception's class. -/
def ElfError.simpleName : ElfError → String
  | .negativeOffset _ => "IOException"
  | .endOfFile => "EOFException"
  | _ => "IllegalArgumentException"

namespace ElfChecker

def abiOf (eMachine : ℕ) : String :=
  match eMachine with
  | 183 => "arm64-v8a"
  | 40 => "armeabi-v7a"
  | 62 => "x86_64"
  | 3 => "x86"
  | other => "unknown (" ++ toString other ++ ")"

def checkAbi (file : Option FileContent) : Except ElfError String :=
  match file with
  | none => .error .absentOrTooSmall
  | some content =>
      if content.bytes.length < 52 then .error .absentOrTooSmall
      else if content.bytes.take 4 ≠ Elf.magic then .error .badMagic
      else
        let isLittleEndian := content.bytes.getD 5 0 == 1
        .ok (abiOf (Elf.number isLittleEndian ((content.bytes.drop 18).take 2)))

def maxSections : ℤ := 4096

def maxSymbols : ℤ := 200000

def maxStrtabBytes : ℤ := 8 * 1024 * 1024

abbrev Parse := Access ElfError

section Reading

variable (content : FileContent)

/-- `seek` and `readFully` -/
def readFully (position : ℤ) (count : ℕ) : Parse (List UInt8) :=
  if position < 0 then .fail (.negativeOffset position)
  else .read content.bytes position.toNat count .endOfFile

/-- An unsigned number in the given byte order, as far as it fits in a `Long`. -/
def readAt (position : ℤ) (width : ℕ) (little : Bool) : Parse ℤ := do
  let bytes ← readFully content position width
  pure ((Elf.digits little bytes).foldl (fun value byte => wrapLong (256 * value + byte.toNat)) 0)

def classOf : UInt8 → Parse Bool
  | 2 => pure true
  | 1 => pure false
  | byte => .fail (.unknownClass byte)

def dataOf : UInt8 → Parse Bool
  | 1 => pure true
  | 2 => pure false
  | byte => .fail (.unknownData byte)

def readFormat : Parse Elf.Format := do
  let ident ← readFully content 0 16
  .refuse (if ident.take 4 = Elf.magic then none else some .badMagic)
  let is64 ← classOf (ident.getD 4 0)
  let little ← dataOf (ident.getD 5 0)
  pure { is64, little }

structure SectionHeaders where
  shOff : ℤ
  shEntSize : ℤ
  shNum : ℤ
  deriving DecidableEq, Repr

/-- Where the header of a section starts. -/
def SectionHeaders.base (sections : SectionHeaders) (index : ℤ) : ℤ :=
  wrapLong (sections.shOff + index * sections.shEntSize)

variable (format : Elf.Format)

def readSectionHeaders : Parse SectionHeaders := do
  let shOff ← readAt content (format.pick 0x28 0x20) format.addressWidth format.little
  let shEntSize ← readAt content (format.pick 0x3A 0x2E) 2 format.little
  let shNum ← readAt content (format.pick 0x3C 0x30) 2 format.little
  pure { shOff, shEntSize := wrapInt shEntSize, shNum := wrapInt shNum }

/-- The checks of the section header table. -/
def sectionsError (sections : SectionHeaders) : Option ElfError :=
  if sections.shOff ≤ 0 ∨ sections.shNum ≤ 0 ∨ sections.shEntSize < format.pick 64 40 then
    some .noSectionTable
  else if maxSections < sections.shNum then some (.tooManySections sections.shNum)
  else if content.bytes.length <
      wrapLong (sections.shOff + sections.shNum * sections.shEntSize) then
    some .sectionTableOutside
  else none

structure SymbolTable where
  symOff : ℤ
  symSize : ℤ
  symEnt : ℤ
  strIdx : ℤ
  deriving DecidableEq, Repr

/-- The values before `.dynsym` is found. -/
def SymbolTable.absent : SymbolTable := ⟨-1, -1, -1, -1⟩

/-- A field of the section header at `base`, at the offset which the format has for it. -/
def readField (base : ℤ) (wide narrow width : ℕ) : Parse ℤ :=
  readAt content (wrapLong (base + format.pick wide narrow)) width format.little

def readSymbolTable (base : ℤ) : Parse SymbolTable := do
  let symOff ← readField content format base 0x18 0x10 format.addressWidth
  let symSize ← readField content format base 0x20 0x14 format.addressWidth
  let strIdx ← readField content format base 0x28 0x18 4
  let symEnt ← readField content format base 0x38 0x24 format.addressWidth
  pure { symOff, symSize, symEnt, strIdx := wrapInt strIdx }

/-- The first of the sections which is `.dynsym`. -/
def findDynsym (sections : SectionHeaders) : List ℕ → Parse SymbolTable
  | [] => pure .absent
  | index :: rest => do
      let base := sections.base index
      let shType ← readAt content (wrapLong (base + 4)) 4 format.little
      if wrapInt shType = Elf.dynsymType then readSymbolTable content format base
      else findDynsym sections rest

/-- The checks of the symbol table, before its string table is looked up. -/
def symbolsError (sections : SectionHeaders) (symbols : SymbolTable) : Option ElfError :=
  if symbols.symOff < 0 then some .noDynsym
  else if symbols.symEnt ≠ format.symbolSize then some (.badSymbolSize symbols.symEnt)
  else if symbols.symSize ≤ 0 ∨
      content.bytes.length < wrapLong (symbols.symOff + symbols.symSize) then some .dynsymOutside
  else if symbols.strIdx ≤ 0 ∨ sections.shNum ≤ symbols.strIdx then some .noStringTable
  else none

structure StringTable where
  strOff : ℤ
  strSize : ℤ
  deriving DecidableEq, Repr

def readStringTable (base : ℤ) : Parse StringTable := do
  let strOff ← readField content format base 0x18 0x10 format.addressWidth
  let strSize ← readField content format base 0x20 0x14 format.addressWidth
  pure { strOff, strSize }

def symCount (symbols : SymbolTable) : ℤ := symbols.symSize / format.symbolSize

/-- The checks of the string table and of the number of symbols. -/
def stringsError (symbols : SymbolTable) (strings : StringTable) : Option ElfError :=
  if strings.strSize ≤ 0 ∨
      content.bytes.length < wrapLong (strings.strOff + strings.strSize) then some .stringsOutside
  else if maxStrtabBytes < strings.strSize then some (.stringsTooLarge strings.strSize)
  else if maxSymbols < symCount format symbols then some (.tooManySymbols (symCount format symbols))
  else none

end Reading

/-- `toByteArray` in ASCII -/
def asciiBytes (text : String) : List UInt8 :=
  text.toList.map fun char => if char.toNat < 128 then UInt8.ofNat char.toNat else 0x3F

/-- Bytes as ASCII text: all others become the replacement character. -/
def asciiText (bytes : List UInt8) : String :=
  String.ofList (bytes.map fun byte =>
    if byte.toNat < 128 then Char.ofNat byte.toNat else Char.ofNat 0xFFFD)

def startsWithAt (buf : List UInt8) (position : ℕ) (start : List UInt8) : Bool :=
  decide (position + start.length ≤ buf.length) && start.isPrefixOf (buf.drop position)

/-- The name at an offset of the string table, up to the next zero byte. -/
def nameAt (strtab : List UInt8) (start : ℕ) : String :=
  asciiText ((strtab.drop start).takeWhile (· ≠ 0))

section Names

variable (content : FileContent) (format : Elf.Format) (symbols : SymbolTable)
  (strings : StringTable) (strtab start : List UInt8)

/-- The name of a symbol, if it has one which starts as wanted. -/
def wantedName (nameOff : ℤ) : Finset String :=
  if nameOff ≤ 0 ∨ strings.strSize ≤ nameOff then ∅
  else if startsWithAt strtab nameOff.toNat start then {nameAt strtab nameOff.toNat}
  else ∅

def collectNames : List ℕ → Parse (Finset String)
  | [] => pure ∅
  | index :: rest => do
      let position := wrapLong (symbols.symOff + index * format.symbolSize)
      let nameOff ← readAt content position 4 format.little
      let names ← collectNames rest
      pure (wantedName strings strtab start nameOff ∪ names)

end Names

/-- The names of the dynamic symbols of a file which start as wanted. -/
def exportedSymbols (file : Option FileContent) (wanted : String) : Parse (Finset String) :=
  match file with
  | none => .fail .absent
  | some content => do
      .refuse (if content.bytes.length < 64 then some .tooSmall else none)
      let format ← readFormat content
      let sections ← readSectionHeaders content format
      .refuse (sectionsError content format sections)
      let symbols ← findDynsym content format sections (List.range sections.shNum.toNat)
      .refuse (symbolsError content format sections symbols)
      let strings ← readStringTable content format (sections.base symbols.strIdx)
      .refuse (stringsError content format symbols strings)
      let strtab ← readFully content strings.strOff strings.strSize.toNat
      collectNames content format symbols strings strtab (asciiBytes wanted)
        (List.range (symCount format symbols).toNat)

end ElfChecker

end Mirage.Shell
