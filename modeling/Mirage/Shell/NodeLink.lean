import Mirage.NodeUri
import Mirage.Shell.JvmText

/-!
# Node URIs in the interface

`data.model.Node` and `NodeStore.Node` hold a URI and read its parts from it
each time; the getters and the coding of the two are the same text.  `uriOf`
puts a URI together, and here the two differ.

Strings are sequences of UTF-16 units.  Escapes are written and read unit by
unit.
-/

namespace Mirage.Shell

open Mirage.Foundations

def hexValue (unit : ℕ) : Option ℕ :=
  if '0'.toNat ≤ unit ∧ unit ≤ '9'.toNat then some (unit - '0'.toNat)
  else if 'A'.toNat ≤ unit ∧ unit ≤ 'F'.toNat then some (unit - 'A'.toNat + 10)
  else if 'a'.toNat ≤ unit ∧ unit ≤ 'f'.toNat then some (unit - 'a'.toNat + 10)
  else none

/--
The character database of the device, `java.lang.Character`, whose edition
depends on the version of the system.  Every edition agrees on these facts.
-/
structure CharacterData where
  isLetterOrDigit : ℕ → Bool
  digit : ℕ → Option ℕ
  letter_ascii : ∀ unit < 128, isLetterOrDigit unit = (Char.ofNat unit).isAlphanum
  letter_circumflex : isLetterOrDigit 'Â'.toNat = true
  letter_tilde : isLetterOrDigit 'Ã'.toNat = true
  letter_surrogate : ∀ unit, 0xD800 ≤ unit → unit < 0xE000 → isLetterOrDigit unit = false
  letter_space : ∀ unit, isRustWhitespace (Char.ofNat unit) = true → isLetterOrDigit unit = false
  digit_ascii : ∀ unit < 128, digit unit = hexValue unit

/-- The letters and digits among the first 256 units, which every edition has so -/
def isLatin1Letter (unit : ℕ) : Bool :=
  unit < 0x100 && ((Char.ofNat unit).isAlphanum || unit == 0xAA || unit == 0xB5 || unit == 0xBA ||
    (0xC0 ≤ unit && unit != 0xD7 && unit != 0xF7))

def CharacterData.latin1 : CharacterData where
  isLetterOrDigit := isLatin1Letter
  digit := hexValue
  letter_ascii := by decide +kernel
  letter_circumflex := by decide
  letter_tilde := by decide
  letter_surrogate := by
    intro unit low _
    have large : ¬unit < 0x100 := by omega
    simp [isLatin1Letter, large]
  letter_space := by
    have checked : ∀ unit < 0x100, isRustWhitespace (Char.ofNat unit) = true →
        isLatin1Letter unit = false := by decide +kernel
    intro unit space
    by_cases small : unit < 0x100
    · exact checked unit small space
    · simp [isLatin1Letter, small]
  digit_ascii _ _ := rfl

/-- The units of a string literal. -/
def units (text : String) : List ℕ := utf16 text.toList

def trimUnits (text : List ℕ) : List ℕ :=
  let space (unit : ℕ) : Bool := isJvmWhitespace (Char.ofNat unit)
  (text.dropWhile space).rdropWhile space

def ifEmpty (text default : List ℕ) : List ℕ := if text = [] then default else text

section Substrings

def substringAfter (word text missing : List ℕ) : List ℕ :=
  (splitWord word text).elim missing Prod.snd

def substringBefore (delimiter : Char) (text : List ℕ) : List ℕ :=
  (splitFirst delimiter.toNat text).elim text Prod.fst

def substringAfterLast (delimiter : Char) (text : List ℕ) : List ℕ :=
  (splitLast delimiter.toNat text).elim text Prod.snd

def substringBeforeLast (delimiter : Char) (text : List ℕ) : List ℕ :=
  (splitLast delimiter.toNat text).elim text Prod.fst

def removePrefix (start : Char) (text : List ℕ) : List ℕ :=
  if text.head? = some start.toNat then text.tail else text

def removeSuffix (ending : Char) (text : List ℕ) : List ℕ :=
  if text.getLast? = some ending.toNat then text.dropLast else text

end Substrings

/-- `toIntOrNull(16)` of two units, as the `Char` it is turned into -/
def hexChar (data : CharacterData) (first second : ℕ) : Option ℕ :=
  if first < '0'.toNat then
    if first = '-'.toNat then (data.digit second).map fun value => (0x10000 - value) % 0x10000
    else if first = '+'.toNat then data.digit second
    else none
  else
    match data.digit first, data.digit second with
    | some high, some low => some (high * 16 + low)
    | _, _ => none

/-- The last hexadecimal digit of a number, in upper case -/
def hexDigit (value : ℕ) : Char := (Nat.digitChar (value % 16)).toUpper

/-- `String.format("%02X", code)` of a unit -/
def formatHex (code : ℕ) : List Char :=
  if code < 0x100 then [hexDigit (code / 0x10), hexDigit code]
  else if code < 0x1000 then
    [hexDigit (code / 0x100), hexDigit (code / 0x10), hexDigit code]
  else
    [hexDigit (code / 0x1000), hexDigit (code / 0x100), hexDigit (code / 0x10), hexDigit code]

namespace Node

/-- The loop of `percentDecode` -/
def decodeUnits (data : CharacterData) : List ℕ → List ℕ
  | [] => []
  | unit :: rest =>
      if unit = '%'.toNat then
        match rest with
        | first :: second :: others =>
            (hexChar data first second).getD unit :: decodeUnits data others
        | [last] => [unit, last]
        | [] => [unit]
      else unit :: decodeUnits data rest

def percentDecode (data : CharacterData) (text : List ℕ) : List ℕ :=
  if '%'.toNat ∉ text then text else decodeUnits data text

/-- What is not escaped -/
def keeps (data : CharacterData) (unit : ℕ) : Bool :=
  data.isLetterOrDigit unit || (units "-_.~").contains unit

def percentEncode (data : CharacterData) (text : List ℕ) : List ℕ :=
  text.flatMap fun unit =>
    if keeps data unit then [unit] else utf16 ('%' :: formatHex unit)

section Getters

variable (data : CharacterData) (uri : List ℕ)

def hostPort : List ℕ :=
  substringBefore '?' (substringAfterLast '@' (substringAfter (units "mirage://") uri uri))

def server : List ℕ :=
  removeSuffix ']' (removePrefix '[' (substringBeforeLast ':' (hostPort uri)))

def port : List ℕ :=
  (substringAfterLast ':' (hostPort uri)).rdropWhile (· == '/'.toNat)

def password : List ℕ :=
  percentDecode data (substringBeforeLast '@' (substringAfter (units "mirage://") uri uri))

def sni : List ℕ :=
  let query := substringAfter (units "?") uri []
  match (query.splitOn '&'.toNat).find? fun pair => (units "sni=").isPrefixOf pair with
  | some pair => percentDecode data (substringAfter (units "=") pair pair)
  | none => []

end Getters

/-- A URI from its parts as they are written -/
def link (password server port sni : List ℕ) : List ℕ :=
  let host := if server.contains ':'.toNat then units "[" ++ server ++ units "]" else server
  units "mirage://" ++ password ++ units "@" ++ host ++ units ":" ++ port ++ units "?sni=" ++ sni

def uriOf (data : CharacterData) (server port password sni : List ℕ) : List ℕ :=
  let p := ifEmpty (trimUnits port) (units "443")
  let s := ifEmpty (trimUnits sni) (units "www.apple.com")
  link (percentEncode data password) server p (percentEncode data s)

end Node

/-- `uriOf` of `NodeStore`, which takes the SNI as it is -/
def NodeStore.uriOf (data : CharacterData) (server port password sni : List ℕ) : List ℕ :=
  let p := ifEmpty (trimUnits port) (units "443")
  Node.link (Node.percentEncode data password) server p (Node.percentEncode data sni)

/-- What the kernel makes of a URI of the interface -/
def kernelNode (uri : List ℕ) : Option NodeUri :=
  match fromUtf16 uri with
  | some text => (NodeUri.parse (String.ofList text)).toOption
  | none => none

end Mirage.Shell
