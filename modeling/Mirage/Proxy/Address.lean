import Mirage.Foundations.SocketText

/-!
# Targets of a tunnel

The target of a proxied connection is a domain, which the server resolves, or
an address.  Its `host:port` text, with a length in front, is the first data on
a tunnel.  What is written is read back as the same target; but not every text
with an address in it is read as an address.
-/

namespace Mirage.Proxy

open Mirage.Foundations

/-- `join_host_port`: an IPv6 literal is put in brackets. -/
def joinHostPort (host : String) (port : ℕ) : String :=
  if (parseIpv6 host).isSome then "[" ++ host ++ "]:" ++ toString port
  else host ++ ":" ++ toString port

inductive Address where
  | domain (host : String) (port : ℕ)
  | socket (ip : IpAddr) (port : ℕ)
  deriving DecidableEq, Repr

namespace Address

def hostPort : Address → String
  | .domain host port => joinHostPort host port
  | .socket ip port => socketText ip port

/-- What `connect_tunnel` sends first: the length as a `u16`, and the text. -/
def targetHeader (address : Address) : List UInt8 :=
  let bytes := address.hostPort.toUTF8.toList
  UInt8.ofNat (bytes.length / 256) :: UInt8.ofNat bytes.length :: bytes

example : (Address.socket (.v6 1) 443).hostPort = "[::1]:443" := by decide

end Address

/-- `Address` with all that its `SocketAddr` has -/
inductive Target where
  | domain (host : String) (port : UInt16)
  | socket (address : SocketAddr)
  deriving DecidableEq

namespace Target

def hostPort : Target → String
  | .domain host port => joinHostPort host port.toNat
  | .socket address => address.text

/-- The target without the flow information and the scope -/
def plain : Target → Address
  | .domain host port => .domain host port.toNat
  | .socket (.v4 ip port) => .socket (.v4 ip) port.toNat
  | .socket (.v6 ip port _ _) => .socket (.v6 ip) port.toNat

def hasScope : Target → Bool
  | .socket (.v6 _ _ _ scopeId) => scopeId != 0
  | _ => false

theorem hostPort_plain {target : Target} (unscoped : target.hasScope = false) :
    target.plain.hostPort = target.hostPort := by
  cases target with
  | domain host port => rfl
  | socket address =>
      cases address with
      | v4 ip port => rfl
      | v6 ip port flowinfo scopeId =>
          have zero : scopeId = 0 := by
            by_contra other
            rw [hasScope, bne_iff_ne.mpr other] at unscoped
            cases unscoped
          rw [hostPort, SocketAddr.text, if_pos zero, String.append_empty]
          rfl

/-- The host and the port of a text which is no socket address -/
def splitHostPort (s : String) : Except String (List Char × List Char) :=
  match s.toList with
  | '[' :: rest =>
      match splitWord "]:".toList rest with
      | some parts => .ok parts
      | none => .error ("非法 [v6]:port: " ++ s)
  | chars =>
      match splitLast ':' chars with
      | some parts => .ok parts
      | none => .error ("target 缺端口 (需 host:port): " ++ s)

/-- `Address::parse` -/
def parse (s : String) : Except String Target :=
  match parseSocketAddr s with
  | some address => .ok (.socket address)
  | none =>
      match splitHostPort s with
      | .error error => .error error
      | .ok (host, port) =>
          if host = [] then .error ("target host 为空: " ++ s)
          else
            match parseUnsigned u16Max (.ofList port) with
            | .ok port => .ok (.domain (.ofList host) (UInt16.ofNat port))
            | .error error => .error error.message

example : parse "example.com:443" = .ok (.domain "example.com" 443) := by decide +kernel

example : parse ":80" = .error "target host 为空: :80" := by decide +kernel

theorem splitHostPort_plain {s : String} {host port : List Char}
    (whole : s.toList = host ++ ':' :: port) (unbracketed : host.head? ≠ some '[')
    (nonempty : host ≠ []) (last : ':' ∉ port) :
    splitHostPort s = .ok (host, port) := by
  unfold splitHostPort
  split
  · rename_i rest bracket
    cases host with
    | nil => exact absurd rfl nonempty
    | cons first host =>
        rw [whole, List.cons_append] at bracket
        exact absurd (congrArg some (List.cons.inj bracket).1) unbracketed
  · rw [whole, splitLast_append last]

theorem splitHostPort_bracketed {s : String} {host port : List Char}
    (whole : s.toList = '[' :: (host ++ ']' :: ':' :: port)) (open_only : ']' ∉ host) :
    splitHostPort s = .ok (host, port) := by
  have word : "]:".toList = ']' :: [':'] := rfl
  unfold splitHostPort
  rw [whole, word]
  have split : splitWord (']' :: [':']) (host ++ ']' :: ([':'] ++ port)) = some (host, port) :=
    splitWord_append open_only
  rw [List.singleton_append] at split
  simp only [split]

theorem parse_of_split {s : String} {host port : List Char} {number : ℕ}
    (other : parseSocketAddr s = none) (parts : splitHostPort s = .ok (host, port))
    (nonempty : host ≠ []) (read : parseUnsigned u16Max (.ofList port) = .ok number) :
    parse s = .ok (.domain (.ofList host) (UInt16.ofNat number)) := by
  rw [parse, other, parts]
  dsimp only
  rw [if_neg nonempty, read]

/-- A domain which is read came with a port. -/
theorem split_of_parse {s host : String} {port : UInt16}
    (parsed : parse s = .ok (.domain host port)) :
    parseSocketAddr s = none ∧ ∃ text, splitHostPort s = .ok (host.toList, text) ∧
      host.toList ≠ [] ∧ (parseUnsigned u16Max (.ofList text)).isOk = true := by
  unfold parse at parsed
  split at parsed
  · cases parsed
  rename_i other
  split at parsed
  · cases parsed
  rename_i name text parts
  split at parsed
  · cases parsed
  rename_i nonempty
  split at parsed
  · rename_i number read
    have same : String.ofList name = host := (Target.domain.inj (Except.ok.inj parsed)).1
    rw [← same, String.toList_ofList]
    exact ⟨other, text, parts, nonempty, by rw [read]; rfl⟩
  · cases parsed

/-! ### Round trips -/

theorem parse_socket {address : SocketAddr} {s : String}
    (parsed : parseSocketAddr s = some address) : parse s = .ok (.socket address) := by
  rw [parse, parsed]

theorem parse_v4 (ip : Ipv4Addr) (port : UInt16) :
    parse (socket (.v4 ip port)).hostPort = .ok (.socket (.v4 ip port)) :=
  parse_socket (parseSocketAddr_v4 ip port)

theorem parse_v6 (ip : Ipv6Addr) (port : UInt16) (scopeId : UInt32) :
    parse (socket (.v6 ip port 0 scopeId)).hostPort = .ok (.socket (.v6 ip port 0 scopeId)) :=
  parse_socket (parseSocketAddr_v6 ip port 0 scopeId)

theorem notMem_toString {char : Char} (other : char.isDigit = false) (number : ℕ) :
    char ∉ (toString number).toList := by
  rw [toList_toString]
  intro there
  rw [Nat.isDigit_of_mem_toDigits (by decide) (by decide) there] at other
  cases other

theorem parse_domain {host : String} (port : UInt16) (nonempty : host ≠ "")
    (no_open : '[' ∉ host.toList) (other : ¬IsLiteral host) :
    parse (domain host port).hostPort = .ok (.domain host port) := by
  have text : (domain host port).hostPort = host ++ ":" ++ toString port.toNat :=
    if_neg fun literal => other (.inr literal)
  have last : ':' ∉ (toString port.toNat).toList := notMem_toString (by decide) _
  have given : host.toList ≠ [] := fun empty => nonempty (String.toList_inj.mp empty)
  have unbracketed : host.toList.head? ≠ some '[' := fun bracket =>
    no_open (List.mem_of_head? bracket)
  have no_socket : parseSocketAddr (host ++ ":" ++ toString port.toNat) = none :=
    parseSocketAddr_plain no_open given last fun literal => absurd (.inl literal) other
  have parts := splitHostPort_plain (toList_plain host (toString port.toNat)) unbracketed given last
  have read : parseUnsigned u16Max (.ofList (toString port.toNat).toList) = .ok port.toNat := by
    rw [String.ofList_toList]
    exact parseUnsigned_toString (Nat.le_of_lt_succ port.toNat_lt)
  rw [text, parse_of_split no_socket parts given read, String.ofList_toList, UInt16.ofNat_toNat]

/-! ### Literals which are read as domains -/

/-- A literal, or one in brackets -/
def LiteralHost (host : String) : Prop :=
  IsLiteral host ∨ ∃ inner, host = "[" ++ inner ++ "]" ∧ IsLiteral inner

/-- What is read from the text is no domain by the name of a literal. -/
def NoLiteralDomain (s : String) : Prop :=
  ∀ host port, parse s = .ok (.domain host port) → ¬LiteralHost host

/-- A literal with a port: as it is, in brackets or in two pairs of brackets -/
def LiteralWithPort (s : String) : Prop :=
  ∃ host port, IsLiteral host ∧ (parseUnsigned u16Max port).isOk = true ∧
    (s = host ++ ":" ++ port ∨ s = "[" ++ host ++ "]:" ++ port ∨
      s = "[[" ++ host ++ "]]:" ++ port)

/--
The texts of a literal with a port which are no socket address: brackets which are
missing, or too many, or a port with a sign
-/
inductive Misread : String → Prop where
  | bareIpv6 {host port : String} (literal : (parseIpv6 host).isSome = true)
      (valid : (parseUnsigned u16Max port).isOk = true) : Misread (host ++ ":" ++ port)
  | signedIpv4 {host port : String} (literal : (parseIpv4 host).isSome = true)
      (valid : (parseUnsigned u16Max port).isOk = true)
      (signed : port.toList.head? = some '+') : Misread (host ++ ":" ++ port)
  | bracketedIpv4 {host port : String} (literal : (parseIpv4 host).isSome = true)
      (valid : (parseUnsigned u16Max port).isOk = true) : Misread ("[" ++ host ++ "]:" ++ port)
  | signedIpv6 {host port : String} (literal : (parseIpv6 host).isSome = true)
      (valid : (parseUnsigned u16Max port).isOk = true)
      (signed : port.toList.head? = some '+') : Misread ("[" ++ host ++ "]:" ++ port)
  | doublyBracketed {host port : String} (literal : IsLiteral host)
      (valid : (parseUnsigned u16Max port).isOk = true) : Misread ("[[" ++ host ++ "]]:" ++ port)

theorem notMem_of_valid {port : String} (valid : (parseUnsigned u16Max port).isOk = true) :
    ':' ∉ port.toList := fun colon =>
  (isDigit_of_parseUnsigned valid ':' colon).elim (by decide) (by decide)

/-- These are the literals with a port which are not read as addresses. -/
theorem misread_iff (s : String) :
    Misread s ↔ parseSocketAddr s = none ∧ LiteralWithPort s := by
  constructor
  · intro misread
    cases misread with
    | @bareIpv6 host port literal valid =>
        have isLiteral : IsLiteral host := .inr literal
        refine ⟨parseSocketAddr_plain (isLiteral.notMem (by decide)) isLiteral.ne_nil
          (notMem_of_valid valid) fun v4 => ?_, host, port, isLiteral, valid, .inl rfl⟩
        rw [parseIpv6_of_ipv4 v4] at literal
        cases literal
    | @signedIpv4 host port literal valid signed =>
        have isLiteral : IsLiteral host := .inl literal
        exact ⟨parseSocketAddr_plain (isLiteral.notMem (by decide)) isLiteral.ne_nil
          (notMem_of_valid valid) fun _ => signed, host, port, isLiteral, valid, .inl rfl⟩
    | @bracketedIpv4 host port literal valid =>
        exact ⟨parseSocketAddr_bracketed_ipv4 literal, host, port, .inl literal, valid,
          .inr (.inl rfl)⟩
    | @signedIpv6 host port literal valid signed =>
        exact ⟨parseSocketAddr_bracketed_signed literal signed, host, port, .inr literal, valid,
          .inr (.inl rfl)⟩
    | @doublyBracketed host port literal valid =>
        exact ⟨parseSocketAddr_doubled, host, port, literal, valid, .inr (.inr rfl)⟩
  · rintro ⟨other, host, port, literal, valid, rfl | rfl | rfl⟩
    · rcases literal with v4 | v6
      · refine .signedIpv4 v4 valid ?_
        by_contra unsigned
        have read := parseSocketAddr_ipv4 v4 valid unsigned
        rw [other] at read
        cases read
      · exact .bareIpv6 v6 valid
    · rcases literal with v4 | v6
      · exact .bracketedIpv4 v4 valid
      · refine .signedIpv6 v6 valid ?_
        by_contra unsigned
        have read := parseSocketAddr_ipv6 v6 valid unsigned
        rw [other] at read
        cases read
    · exact .doublyBracketed literal valid

theorem splitHostPort_ok {s : String} {host port : List Char}
    (parts : splitHostPort s = .ok (host, port)) :
    s.toList = '[' :: (host ++ ("]:".toList ++ port)) ∨
      s.toList.head? ≠ some '[' ∧ s.toList = host ++ ':' :: port := by
  unfold splitHostPort at parts
  split at parts
  · rename_i rest bracket
    split at parts
    · rename_i found
      rw [Except.ok.inj parts] at found
      rw [bracket, splitWord_eq_some found]
      exact .inl rfl
    · cases parts
  · rename_i unbracketed
    split at parts
    · rename_i found
      rw [Except.ok.inj parts] at found
      refine .inr ⟨fun bracket => ?_, splitLast_eq_some found⟩
      obtain ⟨rest, whole⟩ := List.head?_eq_some_iff.mp bracket
      exact unbracketed rest whole
    · cases parts

theorem splitHostPort_doubled {s : String} {host port : List Char}
    (whole : s.toList = '[' :: '[' :: (host ++ ']' :: ']' :: ':' :: port))
    (unbracketed : ']' ∉ host) : splitHostPort s = .ok ('[' :: (host ++ [']']), port) := by
  have word : "]:".toList = ']' :: [':'] := rfl
  have found : splitWord (']' :: [':']) (']' :: ']' :: ':' :: port) = some ([']'], port) := rfl
  have absent : ']' ∉ '[' :: host := List.not_mem_cons_of_ne_of_not_mem (by decide) unbracketed
  have split : splitWord (']' :: [':']) ('[' :: (host ++ ']' :: ']' :: ':' :: port)) =
      some ('[' :: (host ++ [']']), port) := by
    rw [← List.cons_append, splitWord_skip absent, found]
    rfl
  unfold splitHostPort
  rw [whole, word]
  simp only [split]

/-- A literal with a port which is no socket address is read as a domain. -/
theorem exists_literal_domain {s : String} (other : parseSocketAddr s = none)
    (given : LiteralWithPort s) :
    ∃ host port, parse s = .ok (.domain host port) ∧ LiteralHost host := by
  obtain ⟨host, port, literal, ok, forms⟩ := given
  obtain ⟨number, read⟩ : ∃ number, parseUnsigned u16Max port = .ok number := by
    cases read : parseUnsigned u16Max port with
    | ok number => exact ⟨number, rfl⟩
    | error error =>
        rw [read] at ok
        cases ok
  rw [← String.ofList_toList (s := port)] at read
  have no_open : '[' ∉ host.toList := literal.notMem (by decide)
  have no_close : ']' ∉ host.toList := literal.notMem (by decide)
  rcases forms with rfl | rfl | rfl
  · have parts := splitHostPort_plain (toList_plain host port)
      (fun bracket => no_open (List.mem_of_head? bracket)) literal.ne_nil (notMem_of_valid ok)
    exact ⟨_, _, parse_of_split other parts literal.ne_nil read,
      .inl (by rwa [String.ofList_toList])⟩
  · have parts := splitHostPort_bracketed (toList_bracketed host port) no_close
    exact ⟨_, _, parse_of_split other parts literal.ne_nil read,
      .inl (by rwa [String.ofList_toList])⟩
  · have parts := splitHostPort_doubled (toList_doubled host port) no_close
    refine ⟨_, _, parse_of_split other parts (List.cons_ne_nil _ _) read,
      .inr ⟨host, ?_, literal⟩⟩
    apply String.toList_inj.mp
    rw [String.toList_ofList, String.toList_append, String.toList_append]
    rfl

theorem literalWithPort_of_parse {s host : String} {port : UInt16}
    (parsed : parse s = .ok (.domain host port)) (literal : LiteralHost host) :
    parseSocketAddr s = none ∧ LiteralWithPort s := by
  obtain ⟨other, text, parts, -, ok⟩ := split_of_parse parsed
  refine ⟨other, ?_⟩
  rcases splitHostPort_ok parts with bracketed | ⟨unbracketed, plain⟩
  · have whole : s = "[" ++ host ++ "]:" ++ .ofList text := by
      apply String.toList_inj.mp
      rw [bracketed]
      simp only [String.toList_append, List.append_assoc, String.toList_ofList]
      rfl
    rcases literal with literal | ⟨inner, rfl, literal⟩
    · exact ⟨host, _, literal, ok, .inr (.inl whole)⟩
    · refine ⟨inner, _, literal, ok, .inr (.inr ?_)⟩
      rw [whole]
      apply String.toList_inj.mp
      simp only [String.toList_append, List.append_assoc, String.toList_ofList]
      rfl
  · rcases literal with literal | ⟨inner, rfl, literal⟩
    · refine ⟨host, .ofList text, literal, ok, .inl ?_⟩
      apply String.toList_inj.mp
      rw [plain]
      simp only [String.toList_append, List.append_assoc, String.toList_ofList]
      rfl
    · rw [plain, String.toList_append, String.toList_append] at unbracketed
      exact absurd rfl unbracketed

theorem noLiteralDomain_iff (s : String) : NoLiteralDomain s ↔ ¬Misread s := by
  rw [misread_iff]
  constructor
  · rintro safe ⟨other, given⟩
    obtain ⟨host, port, parsed, literal⟩ := exists_literal_domain other given
    exact safe host port parsed literal
  · exact fun read host port parsed literal => read (literalWithPort_of_parse parsed literal)

/--
What is written for a target is read as that target, and exactly the misread texts
give a domain by the name of a literal.
-/
theorem parse_hostPort_iff (s : String) :
    (∀ ip port, parse (socket (.v4 ip port)).hostPort = .ok (.socket (.v4 ip port))) ∧
      (∀ ip port scopeId, parse (socket (.v6 ip port 0 scopeId)).hostPort =
        .ok (.socket (.v6 ip port 0 scopeId))) ∧
      (∀ host port, host ≠ "" → '[' ∉ host.toList → ']' ∉ host.toList → ¬IsLiteral host →
        parse (domain host port).hostPort = .ok (.domain host port)) ∧
      (NoLiteralDomain s ↔ ¬Misread s) :=
  ⟨parse_v4, parse_v6, fun _ port nonempty no_open _ other =>
    parse_domain port nonempty no_open other, noLiteralDomain_iff s⟩

/-- Brackets around an IPv4 address, none around an IPv6 one, and a sign before a port -/
theorem not_noLiteralDomain :
    parse "[1.2.3.4]:80" = .ok (.domain "1.2.3.4" 80) ∧
      parse "::1:80" = .ok (.domain "::1" 80) ∧
      parse "1.2.3.4:+80" = .ok (.domain "1.2.3.4" 80) ∧
      parse "[[::1]]:80" = .ok (.domain "[::1]" 80) ∧ ¬∀ s, NoLiteralDomain s := by
  have bracketed : parse "[1.2.3.4]:80" = .ok (.domain "1.2.3.4" 80) := by decide +kernel
  refine ⟨bracketed, by decide +kernel, by decide +kernel, by decide +kernel, fun safe => ?_⟩
  exact safe "[1.2.3.4]:80" "1.2.3.4" 80 bracketed (.inl (by decide +kernel))

end Target

end Mirage.Proxy
