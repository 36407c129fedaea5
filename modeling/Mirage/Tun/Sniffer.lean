import Mirage.Foundations.Buffers
import Mirage.Foundations.Encodings
import Mirage.Foundations.Splitting
import Mirage.Foundations.Text

/-!
# The names in first packets

The first bytes of a TCP stream may name the host which it is for: as the server
name of a ClientHello, or as the `Host` of an HTTP request.  All places which are read
have been found to be inside before, so nothing here panics.
-/

namespace Mirage.Tun

open Mirage.Foundations

inductive SniffProtocol where
  | unknown
  | tls
  | http
  | quic
  deriving DecidableEq

structure SniffResult where
  protocol : SniffProtocol
  host : Option String
  deriving DecidableEq

/-- What is sniffed for a host -/
def sniffedName (host : String) : String :=
  toAsciiLowercase (trimEndMatches host '.')

/-! ## TLS -/

/-- The loop over the names of a server name extension -/
def sniffNames (extData : List UInt8) (cur : ℕ) : Option String :=
  if cur + 3 ≤ extData.length then
    let nameType := numberAt extData cur 1
    let nameLen := numberAt extData (cur + 1) 2
    let found :=
      if nameType = 0 ∧ cur + 3 + nameLen ≤ extData.length then
        fromUtf8 (bytesAt extData (cur + 3) nameLen)
      else none
    match found with
    | some host => some (sniffedName host)
    | none => sniffNames extData (cur + 3 + nameLen)
  else none
termination_by extData.length - cur

/-- The loop over the extensions -/
def sniffExtensions (data : List UInt8) (extEnd cur : ℕ) : Option String :=
  if cur + 4 ≤ extEnd then
    let extType := numberAt data cur 2
    let extLen := numberAt data (cur + 2) 2
    if cur + 4 + extLen > extEnd then none
    else
      let found :=
        if extType = 0 ∧ 2 ≤ extLen then sniffNames (bytesAt data (cur + 4) extLen) 2 else none
      match found with
      | some host => some host
      | none => sniffExtensions data extEnd (cur + 4 + extLen)
  else none
termination_by extEnd - cur

def parseClientHelloPayload (data : List UInt8) : Option String :=
  if data.length < 4 ∨ numberAt data 0 1 ≠ 1 then none
  else
    -- the header, the version and the random
    let cur := 4
    if cur + 2 > data.length then none
    else
      let cur := cur + 2
      if cur + 32 > data.length then none
      else
        let cur := cur + 32
        if cur ≥ data.length then none
        else
          let sessionIdLen := numberAt data cur 1
          let cur := cur + 1 + sessionIdLen
          if cur + 2 > data.length then none
          else
            let cipherSuitesLen := numberAt data cur 2
            let cur := cur + 2 + cipherSuitesLen
            if cur ≥ data.length then none
            else
              let compMethodsLen := numberAt data cur 1
              let cur := cur + 1 + compMethodsLen
              if cur + 2 > data.length then none
              else
                let extensionsLen := numberAt data cur 2
                let cur := cur + 2
                sniffExtensions data (min (cur + extensionsLen) data.length) cur

def parseTlsSni (buf : List UInt8) : Option String :=
  if buf.length < 5 ∨ numberAt buf 0 1 ≠ 0x16 then none
  else
    let recordLen := numberAt buf 3 2
    let data := if buf.length ≥ 5 + recordLen then bytesAt buf 5 recordLen else buf.drop 5
    parseClientHelloPayload data

/-! ## HTTP -/

/-- A carriage return belongs to the end of a line in front of a line feed. -/
def withoutReturn (line : List Char) : List Char :=
  if line.getLast? = some '\r' then line.dropLast else line

/-- `str::lines` -/
def lines (text : String) : List String :=
  let parts := text.toList.splitOn '\n'
  let ended := parts.dropLast.map withoutReturn
  let unended := (parts.getLast?.filter fun part => part ≠ []).toList
  (ended ++ unended).map String.ofList

/-- `trim_matches` of the two brackets -/
def trimBrackets (text : String) : String :=
  let isBracket := fun char : Char => char == '[' || char == ']'
  String.ofList ((text.toList.dropWhile isBracket).rdropWhile isBracket)

/-- The host in a header line, if it is the header of the host and there is one -/
def hostOfLine (trimmed : String) : Option String := do
  let (key, value) ← splitOnce trimmed ':'
  if toAsciiLowercase (trim key) ≠ "host" then none
  else
    let hostVal := trim value
    let hostVal :=
      match splitLast ':' hostVal.toList with
      | some (host, _) =>
          if hostVal.toList.head? ≠ some '[' ∨ hostVal.toList.getLast? = some ']' then
            String.ofList host
          else hostVal
      | none => hostVal
    let cleaned := trimEndMatches (trimBrackets hostVal) '.'
    if cleaned = "" then none else some (toAsciiLowercase cleaned)

def hostOfLines : List String → Option String
  | [] => none
  | line :: lines =>
      let trimmed := trim line
      if trimmed = "" then none
      else
        match hostOfLine trimmed with
        | some host => some host
        | none => hostOfLines lines

def httpMethods : List String :=
  ["GET", "POST", "HEAD", "PUT", "DELETE", "OPTIONS", "CONNECT", "PATCH"]

def parseHttpHost (buf : List UInt8) : Option String :=
  if httpMethods.any fun method => (utf8 method.toList ++ [0x20]).isPrefixOf buf then do
    let headerStr ← fromUtf8 (buf.take 1024)
    hostOfLines (lines headerStr)
  else none

/-! ## Either -/

def sniffTcp (payload : List UInt8) : SniffResult :=
  if payload = [] then ⟨.unknown, none⟩
  else
    match parseTlsSni payload with
    | some sni => ⟨.tls, some sni⟩
    | none =>
        match parseHttpHost payload with
        | some host => ⟨.http, some host⟩
        | none => ⟨.unknown, none⟩

end Mirage.Tun
