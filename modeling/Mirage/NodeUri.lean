import Mirage.Foundations.Encodings
import Mirage.Foundations.Splitting
import Mirage.Foundations.Text

/-!
# Node URIs in the kernel

`NodeUri::parse` takes a `mirage://` URI apart.  Percent escapes are decoded
byte by byte, and what they give has to be UTF-8.
-/

namespace Mirage

open Mirage.Foundations

structure NodeUri where
  password : String
  host : String
  port : ℕ
  sni : String
  poolSize : Option ℕ
  udpMux : Option Bool
  deriving DecidableEq, Repr

inductive NodeUriError where
  | notMirage
  | missingAt
  | ipv6Literal
  | missingPort
  | port (text : String)
  | zeroPort
  | incompleteEscape (rest : String)
  | escape (hex : String)
  | utf8
  | emptyPassword
  | emptyHost
  | missingSni
  deriving DecidableEq, Repr

/-- The message of an error, other than one of the standard library. -/
def NodeUriError.message : NodeUriError → Option String
  | .notMirage => some "不是 mirage:// 开头的节点 URI"
  | .missingAt => some "缺少 '@' 分隔符 (格式: mirage://密码@host:port?sni=...)"
  | .ipv6Literal => some "IPv6 字面量格式应为 [addr]:port"
  | .missingPort => some "缺少端口 (格式: host:port)"
  | .port text => some ("端口非法: `" ++ text ++ "` (应为数字)")
  | .zeroPort => some "端口不能为 0"
  | .incompleteEscape rest => some ("百分号转义不完整: ..." ++ rest)
  | .escape hex => some ("非法百分号转义: %" ++ hex)
  | .utf8 => none
  | .emptyPassword => some "密码为空"
  | .emptyHost => some "host 为空"
  | .missingSni => some "缺少 sni 参数 (伪装域名, 必须与服务端一致)"

namespace NodeUri

def percent : UInt8 := 0x25

/-- A hexadecimal digit in ASCII -/
def hexDigit (byte : UInt8) : Option UInt8 :=
  if 0x30 ≤ byte ∧ byte ≤ 0x39 then some (byte - 0x30)
  else if 0x41 ≤ byte ∧ byte ≤ 0x46 then some (byte - 0x37)
  else if 0x61 ≤ byte ∧ byte ≤ 0x66 then some (byte - 0x57)
  else none

/-- `u8::from_str_radix` of two bytes, which takes a plus sign -/
def fromHex (high low : UInt8) : Option UInt8 :=
  if high = 0x2B then hexDigit low
  else
    match hexDigit high, hexDigit low with
    | some first, some second => some (first * 16 + second)
    | _, _ => none

/-- The loop of `percent_decode` -/
def decodeBytes : List UInt8 → Except NodeUriError (List UInt8)
  | [] => .ok []
  | byte :: rest =>
      if byte = percent then
        match rest with
        | high :: low :: others =>
            match fromHex high low with
            | some value => (decodeBytes others).map (value :: ·)
            | none =>
                match fromUtf8 [high, low] with
                | some hex => .error (.escape hex)
                | none => .error .utf8
        | short =>
            let left := (byte :: short).map fun byte => Char.ofNat byte.toNat
            .error (.incompleteEscape (String.ofList left))
      else (decodeBytes rest).map (byte :: ·)

def percentDecode (text : List Char) : Except NodeUriError String :=
  match decodeBytes (utf8 text) with
  | .ok bytes =>
      match fromUtf8 bytes with
      | some decoded => .ok decoded
      | none => .error .utf8
  | .error error => .error error

/-- The host and the text of the port; the brackets of an IPv6 literal are taken off. -/
def splitHostPort (hostport : List Char) : Except NodeUriError (List Char × List Char) :=
  match hostport with
  | '[' :: rest =>
      match splitWord [']', ':'] rest with
      | some parts => .ok parts
      | none => .error .ipv6Literal
  | _ =>
      match splitLast ':' hostport with
      | some parts => .ok parts
      | none => .error .missingPort

def parsePort (text : List Char) : Except NodeUriError ℕ :=
  let digits := String.ofList (text.rdropWhile (· == '/'))
  match parseUnsigned u16Max digits with
  | .ok 0 => .error .zeroPort
  | .ok port => .ok port
  | .error _ => .error (.port digits)

/-- What the parameters of the query have set so far. -/
structure Query where
  sni : String
  poolSize : Option ℕ
  udpMux : Option Bool
  deriving DecidableEq, Repr

/-- The truth values of `udp_mux`; none of these words is the lower case of other letters. -/
def readSwitch (value : List Char) : Option Bool :=
  let lower := toAsciiLowercase (String.ofList value)
  if lower = "1" ∨ lower = "true" ∨ lower = "yes" then some true
  else if lower = "0" ∨ lower = "false" ∨ lower = "no" then some false
  else none

def readPair (query : Query) (pair : List Char) : Except NodeUriError Query :=
  match splitFirst '=' pair with
  | none => .ok query
  | some (key, value) =>
      let key := String.ofList key
      if key = "sni" then (percentDecode value).map fun sni => { query with sni }
      else if key = "pool_size" ∨ key = "pool" then
        match parseUnsigned u64Max (String.ofList value) with
        | .ok size => .ok (if 0 < size then { query with poolSize := some size } else query)
        | .error _ => .ok query
      else if key = "udp_mux" ∨ key = "mux" then
        match readSwitch value with
        | some switch => .ok { query with udpMux := some switch }
        | none => .ok query
      else .ok query

def readQuery (query : List Char) : Except NodeUriError Query :=
  ((query.splitOn '&').filter fun pair => !pair.isEmpty).foldlM readPair ⟨"", none, none⟩

/-- The checks at the end of `parse` -/
def complete (password host : String) (port : ℕ) (query : Query) : Except NodeUriError NodeUri :=
  if password = "" then .error .emptyPassword
  else if host = "" then .error .emptyHost
  else if query.sni = "" then .error .missingSni
  else .ok ⟨password, host, port, query.sni, query.poolSize, query.udpMux⟩

theorem complete_eq_ok {password host : String} {port : ℕ} {query : Query} {node : NodeUri} :
    complete password host port query = .ok node ↔
      (password ≠ "" ∧ host ≠ "" ∧ query.sni ≠ "") ∧
        node = ⟨password, host, port, query.sni, query.poolSize, query.udpMux⟩ := by
  unfold complete
  by_cases no_password : password = ""
  · simp [no_password]
  by_cases no_host : host = ""
  · simp [no_password, no_host]
  by_cases no_sni : query.sni = ""
  · simp [no_password, no_host, no_sni]
  · simp [no_password, no_host, no_sni, eq_comm]

def scheme : List Char := "mirage://".toList

def parse (uri : String) : Except NodeUriError NodeUri := do
  let uri := (trim uri).toList
  if !scheme.isPrefixOf uri then throw .notMirage
  match splitLast '@' (uri.drop scheme.length) with
  | none => throw .missingAt
  | some (encoded, hostportQuery) =>
      let (hostport, query) := (splitFirst '?' hostportQuery).getD (hostportQuery, [])
      let (host, portText) ← splitHostPort hostport
      let port ← parsePort portText
      let query ← readQuery query
      let password ← percentDecode encoded
      complete password (String.ofList host) port query

end NodeUri

end Mirage
