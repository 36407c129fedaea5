import Mirage.Foundations.Text
import Mirage.Shell.NodeLink.Encoding

/-!
# Interface and kernel read the same node

A URI of `uriOf` comes apart at its delimiters in the getters of the interface
and in `NodeUri::parse` alike, for encoded texts hold none of them.  So both
read what was put in exactly if the password and the SNI can be coded.
-/

namespace Mirage.Shell

open Mirage.Foundations

/-- A name, an IPv4 or an IPv6 address, without brackets, and a port. -/
structure Endpoint where
  host : String
  port : ℕ
  host_nonempty : host ≠ ""
  host_plain : ∀ char ∈ ['@', '?', '[', ']'], char ∉ host.toList
  port_pos : 0 < port
  port_le : port ≤ 65535

namespace Endpoint

variable (endpoint : Endpoint)

/-- The host as it stands in a URI -/
def hostText : List Char :=
  if ':' ∈ endpoint.host.toList then '[' :: (endpoint.host.toList ++ [']'])
  else endpoint.host.toList

def portText : List Char := (toString endpoint.port).toList

def hostPort : List Char := endpoint.hostText ++ ':' :: endpoint.portText

/-- The URI with this endpoint, and with a password and an SNI as they are written -/
def link (password sni : List Char) : List Char :=
  NodeUri.scheme ++ (password ++ '@' :: (endpoint.hostPort ++ '?' :: ("sni=".toList ++ sni)))

variable {endpoint}

theorem isDigit_of_mem_portText {char : Char} (member : char ∈ endpoint.portText) :
    char.isDigit = true := by
  have digits : endpoint.portText = Nat.toDigits 10 endpoint.port := by
    simp [portText, Nat.repr]
  rw [digits] at member
  exact Nat.isDigit_of_mem_toDigits (by decide) (by decide) member

theorem notMem_portText {char : Char} (plain : char.isDigit = false) :
    char ∉ endpoint.portText := by
  intro member
  rw [isDigit_of_mem_portText member] at plain
  cases plain

theorem notMem_hostPort {char : Char} (plain : char ∈ ['@', '?']) :
    char ∉ endpoint.hostPort := by
  have host : char ∉ endpoint.host.toList :=
    endpoint.host_plain char (List.mem_append_left ['[', ']'] plain)
  have delimiters : ∀ char ∈ ['@', '?'],
      char ≠ '[' ∧ char ≠ ']' ∧ char ≠ ':' ∧ char.isDigit = false := by simp
  have others := delimiters char plain
  rw [hostPort, List.mem_append, List.mem_cons]
  rintro (in_host | colon | in_port)
  · rw [hostText] at in_host
    split at in_host
    · simp [others, host] at in_host
    · exact host in_host
  · exact others.2.2.1 colon
  · exact notMem_portText others.2.2.2 in_port

end Endpoint

namespace NodeUri

open Mirage.NodeUri

variable {data : CharacterData} {endpoint : Endpoint}

theorem splitHostPort_hostPort :
    splitHostPort endpoint.hostPort = .ok (endpoint.host.toList, endpoint.portText) := by
  rw [Endpoint.hostPort, Endpoint.hostText]
  split
  · have shape : '[' :: (endpoint.host.toList ++ [']']) ++ ':' :: endpoint.portText =
        '[' :: (endpoint.host.toList ++ ']' :: ([':'] ++ endpoint.portText)) := by simp
    have absent := endpoint.host_plain ']' (by decide)
    rw [shape, splitHostPort]
    simp only [splitWord_append absent]
  · have absent : ':' ∉ endpoint.portText := Endpoint.notMem_portText (by decide)
    have bare : '[' ∉ endpoint.host.toList := endpoint.host_plain '[' (by decide)
    have parts : splitLast ':' (endpoint.host.toList ++ ':' :: endpoint.portText) =
        some (endpoint.host.toList, endpoint.portText) := splitLast_append absent
    have no_bracket : ∀ rest, endpoint.host.toList ++ ':' :: endpoint.portText ≠ '[' :: rest := by
      intro rest starts
      cases host : endpoint.host.toList with
      | nil => exact endpoint.host_nonempty (String.toList_eq_nil_iff.mp host)
      | cons first others =>
          rw [host, List.cons_append, List.cons.injEq] at starts
          rw [host, starts.1] at bare
          exact bare List.mem_cons_self
    rw [splitHostPort, parts]
    exact no_bracket

theorem parsePort_portText : parsePort endpoint.portText = .ok endpoint.port := by
  have no_slash : endpoint.portText.rdropWhile (· == '/') = endpoint.portText := by
    rw [List.rdropWhile_eq_self_iff]
    intro nonempty slash
    have digit := Endpoint.isDigit_of_mem_portText (List.getLast_mem nonempty)
    rw [beq_iff_eq.mp slash] at digit
    cases digit
  have read : parseUnsigned u16Max (String.ofList endpoint.portText) = .ok endpoint.port := by
    rw [Endpoint.portText, String.ofList_toList]
    exact parseUnsigned_toString endpoint.port_le
  rw [parsePort]
  simp only [no_slash, read]
  split
  · rename_i zero
    exact absurd (Except.ok.inj zero) endpoint.port_pos.ne'
  · rename_i found
    exact congrArg Except.ok (Except.ok.inj found).symm
  · rename_i failed
    cases failed

theorem readQuery_sni (sni : List Char) :
    readQuery ("sni=".toList ++ Node.encoded data sni) =
      (percentDecode (Node.encoded data sni)).map fun sni => ⟨sni, none, none⟩ := by
  have no_pairs : '&' ∉ "sni=".toList ++ Node.encoded data sni := by
    rw [List.mem_append]
    rintro (here | there)
    · exact absurd here (by decide)
    · exact Node.notMem_encoded (by decide) (by decide) (by decide) sni there
  have shape : "sni=".toList ++ Node.encoded data sni =
      "sni".toList ++ '=' :: Node.encoded data sni := rfl
  have parts : splitFirst '=' ("sni=".toList ++ Node.encoded data sni) =
      some ("sni".toList, Node.encoded data sni) := by
    rw [shape]
    exact splitFirst_append (by decide)
  have one : (("sni=".toList ++ Node.encoded data sni).splitOn '&').filter
      (fun pair => !pair.isEmpty) = ["sni=".toList ++ Node.encoded data sni] := by
    rw [List.splitOn_eq_singleton no_pairs]
    rfl
  rw [readQuery, one, List.foldlM_cons]
  simp only [readPair, parts, List.foldlM_nil]
  cases percentDecode (Node.encoded data sni) <;> rfl

theorem trim_link (password sni : List Char) :
    (trim (String.ofList (endpoint.link password (Node.encoded data sni)))).toList =
      endpoint.link password (Node.encoded data sni) := by
  have first : (endpoint.link password (Node.encoded data sni)).dropWhile isRustWhitespace =
      endpoint.link password (Node.encoded data sni) := rfl
  have last : (endpoint.link password (Node.encoded data sni)).rdropWhile isRustWhitespace =
      endpoint.link password (Node.encoded data sni) := by
    rw [List.rdropWhile_eq_self_iff]
    intro nonempty space
    have shape : endpoint.link password (Node.encoded data sni) =
        (NodeUri.scheme ++ (password ++ '@' :: (endpoint.hostPort ++ '?' :: "sni".toList))) ++
          '=' :: Node.encoded data sni := by
      simp [Endpoint.link]
    simp only [shape, List.getLast_append_right (List.cons_ne_nil _ _)] at space
    have written : ∀ char ∈ '=' :: Node.encoded data sni, isRustWhitespace char = false := by
      rw [List.forall_mem_cons]
      exact ⟨by decide, fun char => Node.not_space_of_mem_encoded⟩
    rw [written _ (List.getLast_mem _)] at space
    cases space
  rw [trim, String.toList_ofList, String.toList_ofList, first, last]

theorem parse_link (password sni : List Char) :
    parse (String.ofList (endpoint.link (Node.encoded data password) (Node.encoded data sni))) =
      (do
        let sni ← percentDecode (Node.encoded data sni)
        let password ← percentDecode (Node.encoded data password)
        complete password endpoint.host endpoint.port ⟨sni, none, none⟩) := by
  have no_at : '@' ∉ endpoint.hostPort ++ '?' :: ("sni=".toList ++ Node.encoded data sni) := by
    rw [List.mem_append, List.mem_cons, List.mem_append]
    rintro (host | query | key | value)
    · exact Endpoint.notMem_hostPort (by decide) host
    · exact absurd query (by decide)
    · exact absurd key (by decide)
    · exact Node.notMem_encoded (by decide) (by decide) (by decide) sni value
  have no_query : '?' ∉ endpoint.hostPort := Endpoint.notMem_hostPort (by decide)
  have starts : scheme.isPrefixOf
      (endpoint.link (Node.encoded data password) (Node.encoded data sni)) = true :=
    List.isPrefixOf_iff_prefix.mpr (List.prefix_append _ _)
  have rest : (endpoint.link (Node.encoded data password) (Node.encoded data sni)).drop
      scheme.length = Node.encoded data password ++
        '@' :: (endpoint.hostPort ++ '?' :: ("sni=".toList ++ Node.encoded data sni)) :=
    List.drop_left
  rw [parse]
  simp only [trim_link, starts, rest, splitLast_append no_at, splitFirst_append no_query,
    Option.getD_some, splitHostPort_hostPort, readQuery_sni]
  rw [if_neg (by decide)]
  simp only [bind, Except.bind, parsePort_portText, String.ofList_toList]
  cases percentDecode (Node.encoded data sni) <;> rfl

end NodeUri

namespace Node

variable {data : CharacterData} {endpoint : Endpoint}

section Getters

variable (password sni : List ℕ)

/-- The host as it stands in a URI, in units. -/
theorem utf16_hostText : utf16 endpoint.hostText =
    if (units endpoint.host).contains ':'.toNat then
      units "[" ++ units endpoint.host ++ units "]"
    else units endpoint.host := by
  have colon : (units endpoint.host).contains ':'.toNat = true ↔ ':' ∈ endpoint.host.toList := by
    rw [List.contains_iff_mem]
    exact mem_utf16 (by decide)
  rw [Endpoint.hostText]
  by_cases literal : ':' ∈ endpoint.host.toList
  · rw [if_pos literal, if_pos (colon.mpr literal), ← List.singleton_append, ← List.append_assoc,
      utf16_append, utf16_append]
    rfl
  · rw [if_neg literal, if_neg fun here => literal (colon.mp here)]
    rfl

theorem utf16_hostPort : utf16 endpoint.hostPort =
    utf16 endpoint.hostText ++ ':'.toNat :: units (toString endpoint.port) :=
  utf16_append _ _

/-- The URI which `uriOf` writes for the endpoint -/
def linkOf (data : CharacterData) (endpoint : Endpoint) (password sni : List ℕ) : List ℕ :=
  link (percentEncode data password) (units endpoint.host) (units (toString endpoint.port))
    (percentEncode data sni)

theorem linkOf_eq : linkOf data endpoint password sni =
    units "mirage://" ++ (percentEncode data password ++ '@'.toNat ::
      (utf16 endpoint.hostPort ++ '?'.toNat :: (units "sni=" ++ percentEncode data sni))) := by
  rw [linkOf, link, utf16_hostPort, utf16_hostText]
  simp only [List.append_assoc, List.cons_append]
  rfl

theorem substringAfter_scheme :
    substringAfter (units "mirage://") (linkOf data endpoint password sni)
        (linkOf data endpoint password sni) =
      percentEncode data password ++ '@'.toNat ::
        (utf16 endpoint.hostPort ++ '?'.toNat :: (units "sni=" ++ percentEncode data sni)) := by
  rw [linkOf_eq, substringAfter, splitWord_start (by decide)]
  rfl

theorem notMem_hostPort_units {char : Char} (plain : char ∈ ['@', '?']) :
    char.toNat ∉ utf16 endpoint.hostPort := by
  have low : ∀ char ∈ ['@', '?'], char.toNat < 0xD800 := by simp
  rw [mem_utf16 (low char plain)]
  exact Endpoint.notMem_hostPort plain

theorem notMem_tail : '@'.toNat ∉
    utf16 endpoint.hostPort ++ '?'.toNat :: (units "sni=" ++ percentEncode data sni) := by
  rw [List.mem_append, List.mem_cons, List.mem_append]
  rintro (host | query | key | value)
  · exact notMem_hostPort_units (by decide) host
  · exact absurd query (by decide)
  · exact absurd key (by decide)
  · exact notMem_percentEncode (by decide) (by decide) (by decide) sni value

theorem password_linkOf :
    Node.password data (linkOf data endpoint password sni) =
      percentDecode data (percentEncode data password) := by
  rw [Node.password, substringAfter_scheme, substringBeforeLast, splitLast_append (notMem_tail sni)]
  rfl

theorem hostPort_linkOf :
    Node.hostPort (linkOf data endpoint password sni) = utf16 endpoint.hostPort := by
  rw [Node.hostPort, substringAfter_scheme, substringAfterLast, splitLast_append (notMem_tail sni),
    Option.elim_some, substringBefore, splitFirst_append (notMem_hostPort_units (by decide))]
  rfl

theorem notMem_port {char : Char} (low : char.toNat < 0xD800) (plain : char.isDigit = false) :
    char.toNat ∉ units (toString endpoint.port) := by
  rw [units, mem_utf16 low]
  exact Endpoint.notMem_portText plain

theorem port_linkOf :
    Node.port (linkOf data endpoint password sni) = units (toString endpoint.port) := by
  have no_colon : ':'.toNat ∉ units (toString endpoint.port) := notMem_port (by decide) (by decide)
  have no_slash : (units (toString endpoint.port)).rdropWhile (· == '/'.toNat) =
      units (toString endpoint.port) := by
    rw [List.rdropWhile_eq_self_iff]
    intro nonempty slash
    have member := List.getLast_mem nonempty
    rw [beq_iff_eq.mp slash] at member
    exact notMem_port (by decide) (by decide) member
  rw [Node.port, hostPort_linkOf, utf16_hostPort, substringAfterLast, splitLast_append no_colon]
  exact no_slash

theorem server_linkOf : Node.server (linkOf data endpoint password sni) = units endpoint.host := by
  have no_colon : ':'.toNat ∉ units (toString endpoint.port) := notMem_port (by decide) (by decide)
  have bare : ∀ char ∈ ['[', ']'], char.toNat ∉ units endpoint.host := by
    intro char bracket
    have low : ∀ char ∈ ['[', ']'], char.toNat < 0xD800 := by simp
    rw [units, mem_utf16 (low char bracket)]
    exact endpoint.host_plain char (List.mem_append_right ['@', '?'] bracket)
  rw [Node.server, hostPort_linkOf, utf16_hostPort, substringBeforeLast, splitLast_append no_colon,
    Option.elim_some, utf16_hostText]
  split
  · have opened : removePrefix '[' (units "[" ++ units endpoint.host ++ units "]") =
        units endpoint.host ++ units "]" := rfl
    rw [opened, removeSuffix, if_pos (by simp [units, utf16, unitsOf_narrow])]
    exact List.dropLast_concat
  · rw [removePrefix, if_neg fun start => bare '[' (by decide) (List.mem_of_head? start),
      removeSuffix, if_neg fun ending => bare ']' (by decide) (List.mem_of_getLast? ending)]

theorem sni_linkOf :
    Node.sni data (linkOf data endpoint password sni) =
      percentDecode data (percentEncode data sni) := by
  have no_query : '?'.toNat ∉ units "mirage://" ++ (percentEncode data password ++
      '@'.toNat :: utf16 endpoint.hostPort) := by
    rw [List.mem_append, List.mem_append, List.mem_cons]
    rintro (scheme | secret | delimiter | host)
    · exact absurd scheme (by decide)
    · exact notMem_percentEncode (by decide) (by decide) (by decide) password secret
    · exact absurd delimiter (by decide)
    · exact notMem_hostPort_units (by decide) host
  have no_pairs : '&'.toNat ∉ units "sni=" ++ percentEncode data sni := by
    rw [List.mem_append]
    rintro (key | value)
    · exact absurd key (by decide)
    · exact notMem_percentEncode (by decide) (by decide) (by decide) sni value
  have shape : linkOf data endpoint password sni = (units "mirage://" ++
      (percentEncode data password ++ '@'.toNat :: utf16 endpoint.hostPort)) ++
        '?'.toNat :: ([] ++ (units "sni=" ++ percentEncode data sni)) := by
    rw [linkOf_eq]
    simp
  have query : substringAfter (units "?") (linkOf data endpoint password sni) [] =
      units "sni=" ++ percentEncode data sni := by
    rw [shape, substringAfter]
    exact congrArg (Option.elim · [] Prod.snd) (splitWord_append no_query)
  have value : substringAfter (units "=") (units "sni=" ++ percentEncode data sni)
      (units "sni=" ++ percentEncode data sni) = percentEncode data sni := by
    have no_equals : '='.toNat ∉ units "sni" := by decide
    have parts :
        splitWord (units "=") (units "sni" ++ '='.toNat :: ([] ++ percentEncode data sni)) =
        some (units "sni", percentEncode data sni) := splitWord_append no_equals
    exact congrArg (Option.elim · _ Prod.snd) parts
  have found : [units "sni=" ++ percentEncode data sni].find?
      (fun pair => (units "sni=").isPrefixOf pair) =
        some (units "sni=" ++ percentEncode data sni) := by
    rw [List.find?_cons_of_pos (List.isPrefixOf_iff_prefix.mpr (List.prefix_append _ _))]
  rw [Node.sni]
  simp only [query, List.splitOn_eq_singleton no_pairs, found, value]

end Getters

theorem trimUnits_subset {text : List ℕ} {unit : ℕ} (member : unit ∈ trimUnits text) :
    unit ∈ text :=
  List.IsSuffix.subset (List.dropWhile_suffix _)
    (List.IsPrefix.subset (List.rdropWhile_prefix _ _) member)

theorem trimUnits_eq_self {text : List ℕ}
    (plain : ∀ unit ∈ text, isJvmWhitespace (Char.ofNat unit) = false) : trimUnits text = text := by
  have starts : text.dropWhile (fun unit => isJvmWhitespace (Char.ofNat unit)) = text := by
    cases text with
    | nil => rfl
    | cons unit text => exact List.dropWhile_cons_of_neg (by simp [plain unit List.mem_cons_self])
  rw [trimUnits]
  simp only [starts]
  rw [List.rdropWhile_eq_self_iff]
  intro nonempty
  simp [plain _ (List.getLast_mem nonempty)]

theorem eq_empty_of_units {text : String} (empty : units text = []) : text = "" := by
  have decoded := fromUtf16_utf16 text.toList
  rw [show utf16 text.toList = [] from empty] at decoded
  exact String.toList_eq_nil_iff.mp (Option.some.inj decoded).symm

/-- The text of a port has nothing to trim. -/
theorem trimUnits_port :
    ifEmpty (trimUnits (units (toString endpoint.port))) (units "443") =
      units (toString endpoint.port) := by
  have digits : ∀ unit ∈ units (toString endpoint.port),
      isJvmWhitespace (Char.ofNat unit) = false := by
    intro unit member
    rcases List.mem_flatMap.mp member with ⟨char, digit, here⟩
    have is_digit := Endpoint.isDigit_of_mem_portText digit
    have range : '0'.toNat ≤ char.toNat ∧ char.toNat ≤ '9'.toNat := by
      simpa [Char.isDigit, UInt32.le_iff_toNat_le] using is_digit
    have narrow : char.toNat < 0x10000 := lt_of_le_of_lt range.2 (by decide)
    rw [unitsOf_narrow narrow, List.mem_singleton] at here
    have plain : ∀ code ≤ '9'.toNat, '0'.toNat ≤ code →
        isJvmWhitespace (Char.ofNat code) = false := by decide
    rw [here]
    exact plain char.toNat range.2 range.1
  have nonempty : units (toString endpoint.port) ≠ [] := by
    intro empty
    have text := eq_empty_of_units empty
    simp [Nat.repr] at text
  rw [trimUnits_eq_self digits, ifEmpty, if_neg nonempty]

theorem uriOf_eq (password sni : List ℕ) :
    uriOf data (units endpoint.host) (units (toString endpoint.port)) password sni =
      linkOf data endpoint password (ifEmpty (trimUnits sni) (units "www.apple.com")) := by
  rw [uriOf]
  simp only [trimUnits_port]
  rfl

theorem store_uriOf_eq (password sni : List ℕ) :
    NodeStore.uriOf data (units endpoint.host) (units (toString endpoint.port)) password sni =
      linkOf data endpoint password sni := by
  rw [NodeStore.uriOf]
  simp only [trimUnits_port]
  rfl

/-- The getters of the interface and the parser of the kernel read what was put in. -/
structure Agrees (data : CharacterData) (endpoint : Endpoint) (password sni : String)
    (uri : List ℕ) : Prop where
  same_password : Node.password data uri = units password
  same_server : Node.server uri = units endpoint.host
  same_port : Node.port uri = units (toString endpoint.port)
  same_sni : Node.sni data uri = units sni
  kernel : ∃ node, kernelNode uri = some node ∧ node.password = password ∧
    node.host = endpoint.host ∧ node.port = endpoint.port ∧ node.sni = sni

/-- Both `uriOf` write a URI on which interface and kernel agree. -/
def UriOfAgrees (data : CharacterData) (endpoint : Endpoint) (password sni : String) : Prop :=
  ∀ write ∈ [Node.uriOf, NodeStore.uriOf], Agrees data endpoint password sni
    (write data (units endpoint.host) (units (toString endpoint.port)) (units password)
      (units sni))

/-- Texts as the editor passes them: not empty, and the SNI is trimmed. -/
structure Entered (password sni : String) : Prop where
  has_password : password ≠ ""
  has_sni : sni ≠ ""
  trimmed : trimUnits (units sni) = units sni

theorem percentEncode_units (text : String) :
    percentEncode data (units text) = utf16 (encoded data text.toList) :=
  percentEncode_utf16 text.toList

theorem kernelNode_linkOf (password sni : String) :
    kernelNode (linkOf data endpoint (units password) (units sni)) =
      (do
        let sni ← NodeUri.percentDecode (encoded data sni.toList)
        let password ← NodeUri.percentDecode (encoded data password.toList)
        NodeUri.complete password endpoint.host endpoint.port ⟨sni, none, none⟩).toOption := by
  have written : linkOf data endpoint (units password) (units sni) =
      utf16 (endpoint.link (encoded data password.toList) (encoded data sni.toList)) := by
    rw [linkOf_eq, Endpoint.link, utf16_append, utf16_append, percentEncode_units,
      percentEncode_units]
    rw [utf16_cons (by decide), utf16_append, utf16_cons (by decide), utf16_append]
    rfl
  rw [kernelNode, written, fromUtf16_utf16]
  exact congrArg Except.toOption (NodeUri.parse_link password.toList sni.toList)

theorem eq_ok_of_toOption {result : Except NodeUriError NodeUri} {node : NodeUri}
    (found : result.toOption = some node) : result = .ok node := by
  cases result with
  | error error => cases found
  | ok other => exact congrArg Except.ok (Option.some.inj found)

theorem agrees_linkOf_iff (password sni : String) :
    Agrees data endpoint password sni (linkOf data endpoint (units password) (units sni)) ↔
      password ≠ "" ∧ sni ≠ "" ∧ Encodable data password.toList ∧ Encodable data sni.toList := by
  constructor
  · rintro ⟨_, _, _, _, node, read, same_password, _, _, same_sni⟩
    rw [kernelNode_linkOf] at read
    cases decoded_sni : NodeUri.percentDecode (encoded data sni.toList) with
    | error error =>
        rw [decoded_sni] at read
        cases read
    | ok found_sni =>
        cases decoded_password : NodeUri.percentDecode (encoded data password.toList) with
        | error error =>
            rw [decoded_sni, decoded_password] at read
            cases read
        | ok found_password =>
            rw [decoded_sni, decoded_password] at read
            have completed := eq_ok_of_toOption read
            rcases NodeUri.complete_eq_ok.mp completed with ⟨⟨has_password, _, has_sni⟩, rfl⟩
            obtain rfl : found_password = password := same_password
            obtain rfl : found_sni = sni := same_sni
            exact ⟨has_password, has_sni, (percentDecode_encoded_iff _).mp decoded_password,
              (percentDecode_encoded_iff _).mp decoded_sni⟩
  · rintro ⟨has_password, has_sni, password_codable, sni_codable⟩
    refine ⟨?_, server_linkOf _ _, port_linkOf _ _, ?_, ?_⟩
    · rw [password_linkOf]
      exact percentDecode_percentEncode password_codable
    · rw [sni_linkOf]
      exact percentDecode_percentEncode sni_codable
    · rw [kernelNode_linkOf, (percentDecode_encoded_iff sni).mpr sni_codable,
        (percentDecode_encoded_iff password).mpr password_codable]
      have completed : NodeUri.complete password endpoint.host endpoint.port ⟨sni, none, none⟩ =
          .ok ⟨password, endpoint.host, endpoint.port, sni, none, none⟩ :=
        NodeUri.complete_eq_ok.mpr ⟨⟨has_password, endpoint.host_nonempty, has_sni⟩, rfl⟩
      exact ⟨_, congrArg Except.toOption completed, rfl, rfl, rfl, rfl⟩

/-- Interface and kernel agree exactly on passwords and SNIs whose escapes are all ASCII. -/
theorem uriOf_agrees_iff (data : CharacterData) (endpoint : Endpoint) (password sni : String) :
    UriOfAgrees data endpoint password sni ↔
      Entered password sni ∧ Encodable data password.toList ∧ Encodable data sni.toList := by
  rw [UriOfAgrees, List.forall_mem_cons, List.forall_mem_singleton, store_uriOf_eq, uriOf_eq,
    agrees_linkOf_iff]
  constructor
  · rintro ⟨trims, has_password, has_sni, password_codable, sni_codable⟩
    refine ⟨⟨has_password, has_sni, ?_⟩, password_codable, sni_codable⟩
    have codable : ∀ unit ∈ ifEmpty (trimUnits (units sni)) (units "www.apple.com"),
        Codable data unit := by
      rw [ifEmpty]
      split
      · have ascii : ∀ unit ∈ units "www.apple.com", unit < 128 := by decide
        exact fun unit member => Or.inl (ascii unit member)
      · exact fun unit member => sni_codable unit (trimUnits_subset member)
    have same := trims.same_sni
    rw [sni_linkOf, percentDecode_percentEncode codable, ifEmpty] at same
    split at same
    · rename_i blank
      rw [← same] at blank
      exact absurd blank (by decide)
    · exact same
  · rintro ⟨⟨has_password, has_sni, trimmed⟩, password_codable, sni_codable⟩
    have nonempty : units sni ≠ [] := fun empty => has_sni (eq_empty_of_units empty)
    rw [trimmed, ifEmpty, if_neg nonempty, agrees_linkOf_iff]
    exact ⟨⟨has_password, has_sni, password_codable, sni_codable⟩,
      has_password, has_sni, password_codable, sni_codable⟩

/-- A password with a pound sign, which is escaped as one byte of Latin-1. -/
theorem not_uriOf_agrees_pound :
    ¬UriOfAgrees CharacterData.latin1
      ⟨"example.com", 443, by decide, by simp, by decide, by decide⟩ "pa£s" "www.apple.com" := by
  intro agrees
  have stored := agrees NodeStore.uriOf (by simp)
  rw [store_uriOf_eq, agrees_linkOf_iff] at stored
  have pound := stored.2.2.1 '£'.toNat (by decide)
  revert pound
  unfold Codable
  decide

end Node

end Mirage.Shell
