import Mathlib.Data.Finset.Card
import Mathlib.Data.List.Lex
import Mirage.Foundations.Encodings
import Mirage.Shell.ElfChecker
import Mirage.Shell.ElfChecker.Agreement

/-!
# The gate for custom cores

A custom core has to have a symbol for each native method of the app: a core
which lacks one would load, and then fail at the first call of the method.  What
reflection finds of the app is given by its class loader.
-/

namespace Mirage.Shell

open Mirage.Foundations

/-- What reflection tells of the native methods; an exception has the name of its class. -/
structure ClassLoader where
  declaredNativeMethodNames : Except String (List String)

namespace NativeSymbolPolicy

def jniPrefix : String := "Java_com_mirage_android_core_MirageNative_"

def requiredSymbols (methodNames : List String) : List String :=
  (methodNames.map (jniPrefix ++ ·)).eraseDups

/-- `compareTo` of two texts is not positive. -/
def notAfter (first second : String) : Bool :=
  decide (utf16 first.toList ≤ utf16 second.toList)

def missingSymbols (required : List String) (exported : Finset String) : List String :=
  (required.filter (· ∉ exported)).mergeSort notAfter

def removePrefix (text start : String) : String :=
  if start.toList.isPrefixOf text.toList then String.ofList (text.toList.drop start.length)
  else text

def rejectionMessage (missing : List String) (exportedCount requiredCount : ℕ) : String :=
  let names := missing.map (removePrefix · jniPrefix)
  let listed := ", ".intercalate (names.take 8)
  let more := if 8 < names.length then " 等 " ++ toString names.length ++ " 项" else ""
  "该内核的 JNI 接口面与当前 App 不匹配，缺少 " ++ toString names.length ++ " 个方法：" ++ listed ++
    more ++ "\n" ++ "(内核导出 " ++ toString exportedCount ++ " 个，本版 App 需要 " ++
    toString requiredCount ++ " 个)\n" ++ "请使用与当前 App 版本配套构建的内核。"

/-- The reason for which a core is rejected, if it is. -/
def verify (file : Option FileContent) (classLoader : Option ClassLoader) : Option String :=
  match classLoader with
  | none => some "无法获取 ClassLoader，无法校验内核接口面。"
  | some loader =>
      match loader.declaredNativeMethodNames with
      | .error exception =>
          some ("无法反射 MirageNative 的 native 方法 (" ++ exception ++ ")，拒绝使用未经校验的内核。")
      | .ok [] => some "未能读出本版 App 需要的 native 方法清单，拒绝使用未经校验的内核。"
      | .ok methods =>
          let required := requiredSymbols methods
          match (ElfChecker.exportedSymbols file jniPrefix).outcome with
          | .error failure =>
              some ("无法读取内核的符号表: " ++ failure.message.getD failure.simpleName)
          | .ok exported =>
              match missingSymbols required exported with
              | [] => none
              | missing => some (rejectionMessage missing exported.card required.length)

/-- The names which a class loader makes the gate require. -/
def requiredBy (classLoader : Option ClassLoader) : List String :=
  match classLoader with
  | some ⟨.ok methods⟩ => requiredSymbols methods
  | _ => []

theorem missingSymbols_eq_nil_iff {required : List String} {exported : Finset String} :
    missingSymbols required exported = [] ↔ ∀ name ∈ required, name ∈ exported := by
  rw [missingSymbols, ← List.length_eq_zero_iff, List.length_mergeSort, List.length_eq_zero_iff,
    List.filter_eq_nil_iff]
  simp

/-- The gate fails closed: it accepts only on the grounds of the names which it has read. -/
theorem verify_eq_none_iff {file : Option FileContent} {classLoader : Option ClassLoader} :
    verify file classLoader = none ↔
      requiredBy classLoader ≠ [] ∧
        ∃ exported, (ElfChecker.exportedSymbols file jniPrefix).outcome = .ok exported ∧
          ∀ name ∈ requiredBy classLoader, name ∈ exported := by
  rcases classLoader with _ | ⟨_ | _ | ⟨method, methods⟩⟩
  · simp [verify, requiredBy]
  · simp [verify, requiredBy]
  · simp [verify, requiredBy, requiredSymbols]
  · have some_required : requiredSymbols (method :: methods) ≠ [] := by
      intro none
      have member : jniPrefix ++ method ∈ requiredSymbols (method :: methods) := by
        simp [requiredSymbols]
      rw [none] at member
      cases member
    cases outcome : (ElfChecker.exportedSymbols file jniPrefix).outcome with
    | error failure => simp [verify, outcome]
    | ok exported =>
        simp only [verify, outcome, requiredBy, some_required, ne_eq, not_false_eq_true, true_and,
          Except.ok.injEq, exists_eq_left', ← missingSymbols_eq_nil_iff]
        split <;> simp_all

/-- A number in `width` bytes, the least significant one first. -/
def littleEndian (width value : ℕ) : List UInt8 :=
  (List.range width).map fun index => UInt8.ofNat (value / 256 ^ index)

/-- A 64-bit image with one symbol, of the given section. -/
def writeElf (name : String) (sectionIndex : ℕ) : List UInt8 :=
  let dynstr := 0 :: ElfChecker.asciiBytes name ++ [0]
  let symOff := 64
  let strOff := symOff + 48
  let shOff := strOff + dynstr.length
  let header := Elf.magic ++ [2, 1, 1] ++ List.replicate 9 0 ++ littleEndian 2 3 ++
    littleEndian 2 183 ++ littleEndian 4 1 ++ List.replicate 16 0 ++ littleEndian 8 shOff ++
    List.replicate 4 0 ++ littleEndian 2 64 ++ List.replicate 4 0 ++ littleEndian 2 64 ++
    littleEndian 2 3 ++ littleEndian 2 2
  let dynsym := List.replicate 24 0 ++ littleEndian 4 1 ++ [0x12, 0] ++
    littleEndian 2 sectionIndex ++ List.replicate 16 0
  let dynsymHeader := littleEndian 4 0 ++ littleEndian 4 11 ++ List.replicate 16 0 ++
    littleEndian 8 symOff ++ littleEndian 8 48 ++ littleEndian 4 2 ++ List.replicate 12 0 ++
    littleEndian 8 24
  let dynstrHeader := littleEndian 4 0 ++ littleEndian 4 3 ++ List.replicate 16 0 ++
    littleEndian 8 strOff ++ littleEndian 8 dynstr.length ++ List.replicate 24 0
  header ++ dynsym ++ dynstr ++ List.replicate 64 0 ++ dynsymHeader ++ dynstrHeader

/-!
## What the gate for custom cores guarantees

The checker does not look at the section of a symbol: a name which a file only
imports counts as one which it exports.  A file passes on the strength of such a
name exactly if no symbol which the file defines has it too.
-/

open ElfChecker

/-- A symbol of this name is defined in the dynamic symbol table of the file. -/
def Defines (content : FileContent) (name : String) : Prop :=
  ∃ symbol ∈ Elf.symbols content.bytes,
    symbol.defined = true ∧ symbol.name = utf8 name.toList

instance (content : FileContent) (name : String) : Decidable (Defines content name) := by
  unfold Defines
  infer_instance

structure Sound (file : Option FileContent) (classLoader : Option ClassLoader)
    (wanted : String) : Prop where
  accepts : verify file classLoader = none →
    ∀ name ∈ requiredBy classLoader, ∃ content ∈ file, Defines content name
  exports : ∀ names, (exportedSymbols file wanted).outcome = .ok names →
    ∀ name ∈ names, ∃ content ∈ file, Defines content name
  inside : ∀ position ∈ (exportedSymbols file wanted).reads,
    ∃ content ∈ file, position < content.bytes.length

/-- Some symbol of this name starts as wanted, be it imported or defined. -/
def Carries (content : FileContent) (wanted name : String) : Prop :=
  ∃ symbol ∈ Elf.symbols content.bytes,
    (asciiBytes wanted).isPrefixOf symbol.tail = true ∧ symbolText symbol = name

/-- A file which passes no further than the names of the symbols which it defines. -/
structure Honest (content : FileContent) (classLoader : Option ClassLoader)
    (wanted : String) : Prop where
  wanted : ∀ name, Carries content wanted name → Defines content name
  required : requiredBy classLoader ≠ [] →
    (∀ name ∈ requiredBy classLoader, Carries content jniPrefix name) →
      ∀ name ∈ requiredBy classLoader, Defines content name

theorem mem_wantedNames {content : FileContent} {wanted name : String} :
    name ∈ wantedNames (asciiBytes wanted) (Elf.symbols content.bytes) ↔
      Carries content wanted name := by
  simp [wantedNames, Carries, and_assoc]

/-- The names which the checker returns are those which the symbols carry. -/
theorem exportedSymbols_eq_ok_iff {file : Option FileContent} {wanted : String}
    {names : Finset String} :
    (exportedSymbols file wanted).outcome = .ok names ↔
      ∃ content ∈ file, (∃ headers, Parses content headers) ∧
        wantedNames (asciiBytes wanted) (Elf.symbols content.bytes) = names := by
  cases file with
  | none => simp [exportedSymbols]
  | some content => simp [exportedSymbols_eq_ok]

/--
The gate is sound for a file exactly if the file fails the checks of its headers,
or each name which counts is that of a symbol which it defines.
-/
theorem sound_iff (file : Option FileContent) (classLoader : Option ClassLoader)
    (wanted : String) :
    Sound file classLoader wanted ↔
      ∀ content ∈ file, (∃ headers, Parses content headers) →
        Honest content classLoader wanted := by
  constructor
  · rintro sound content rfl parses
    constructor
    · intro name carried
      rcases sound.exports _ (exportedSymbols_eq_ok_iff.mpr ⟨content, rfl, parses, rfl⟩) name
        (mem_wantedNames.mpr carried) with ⟨_, ⟨⟩, defined⟩
      exact defined
    · intro some_required carried name required
      have accepted : verify (some content) classLoader = none :=
        verify_eq_none_iff.mpr ⟨some_required, _,
          exportedSymbols_eq_ok_iff.mpr ⟨content, rfl, parses, rfl⟩,
          fun name required => mem_wantedNames.mpr (carried name required)⟩
      rcases sound.accepts accepted name required with ⟨_, ⟨⟩, defined⟩
      exact defined
  · intro honest
    constructor
    · intro accepted name required
      rcases verify_eq_none_iff.mp accepted with ⟨some_required, _, read, carried⟩
      rcases exportedSymbols_eq_ok_iff.mp read with ⟨content, there, parses, rfl⟩
      exact ⟨content, there, (honest content there parses).required some_required
        (fun name required => mem_wantedNames.mp (carried name required)) name required⟩
    · rintro _ read name member
      rcases exportedSymbols_eq_ok_iff.mp read with ⟨content, there, parses, rfl⟩
      exact ⟨content, there,
        (honest content there parses).wanted name (mem_wantedNames.mp member)⟩
    · intro position member
      cases file with
      | none => cases member
      | some content => exact ⟨content, rfl, within_exportedSymbols content wanted position member⟩

/-- A core which only imports the method `start`. -/
def importingCore : FileContent where
  bytes := writeElf (jniPrefix ++ "start") 0
  length_lt := by decide +kernel

/-- The core which only imports `start` is accepted by an app which requires `start`. -/
theorem not_sound_importingCore :
    ¬ Sound (some importingCore) (some ⟨.ok ["start"]⟩) jniPrefix := by
  intro sound
  have accepted : verify (some importingCore) (some ⟨.ok ["start"]⟩) = none := by decide +kernel
  rcases sound.accepts accepted (jniPrefix ++ "start") (by decide +kernel) with ⟨_, ⟨⟩, defined⟩
  revert defined
  decide +kernel

end NativeSymbolPolicy

end Mirage.Shell
