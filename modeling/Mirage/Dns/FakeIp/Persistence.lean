import Mirage.Dns.FakeIp.Invariant
import Mirage.Foundations.Encodings
import Mirage.Foundations.Net
import Mirage.Foundations.Splitting
import Mirage.Foundations.Trimming

/-!
# The cache file of the fake-IP mapper

A mapper writes its pairs and its cursor to a file, and a new one starts with what
it reads there.  Each line is put into both maps as it comes: neither an address nor
a domain which comes twice is noticed, and the cursor is not kept away from the
network address and the gateway.

A domain is read back from its line if it does not end with a blank, for the line
is trimmed, and if it has no line feed.
-/

namespace Mirage.Dns

open Mirage.Foundations

/-- What a line of the cache file says -/
inductive CacheLine where
  | ignored
  /-- There is no number if it cannot be read. -/
  | nextIp (next : Option (BitVec 32))
  | pair (ip : Ipv4Addr) (domain : String)
  deriving DecidableEq

/-- The maps while the file is read, and the last cursor -/
structure Loading where
  domainToIp : FiniteMap String Ipv4Addr
  ipToDomain : FiniteMap Ipv4Addr String
  loadedNext : Option (BitVec 32)

namespace Loading

def put (loading : Loading) : CacheLine → Loading
  | .ignored => loading
  | .nextIp next => { loading with loadedNext := next }
  | .pair ip domain =>
      { loading with
        domainToIp := loading.domainToIp.insert domain ip
        ipToDomain := loading.ipToDomain.insert ip domain }

end Loading

namespace FakeIpMapper

section Load

variable (lower : String → String) (mapper : FakeIpMapper)

def readPair (line : String) : Option (Ipv4Addr × String) :=
  match splitOnce line ' ' with
  | none => none
  | some (ipText, domain) =>
      if domain = "" then none
      else
        match parseIpv4 ipText with
        | none => none
        | some ip =>
            if ip &&& mapper.mask ≠ mapper.network then none
            else
              let host := ip &&& ~~~mapper.mask
              if host < 2 ∨ host = ~~~mapper.mask then none else some (ip, lower domain)

def readLine (line : String) : CacheLine :=
  let line := trim line
  if line = "" ∨ line.toList.head? = some '#' then .ignored
  else if "next_ip=".toList <+: line.toList then
    let value := String.ofList (line.toList.drop "next_ip=".length)
    .nextIp ((parseUnsigned u32Max (trim value)).toOption.map (BitVec.ofNat 32))
  else
    match mapper.readPair lower line with
    | some (ip, domain) => .pair ip domain
    | none => .ignored

/-- `str::lines` takes a carriage return off as well, which trimming does in any case. -/
def cacheLines (content : String) : List CacheLine :=
  (splitChar content '\n').map (mapper.readLine lower)

def load (content : String) : FakeIpMapper :=
  let loading := (mapper.cacheLines lower content).foldl Loading.put
    ⟨mapper.domainToIp, mapper.ipToDomain, none⟩
  { mapper with
    domainToIp := loading.domainToIp
    ipToDomain := loading.ipToDomain
    nextIp :=
      match loading.loadedNext with
      | some next =>
          if next &&& mapper.mask = mapper.network ∧ next &&& ~~~mapper.mask ≠ ~~~mapper.mask then
            next
          else mapper.nextIp
      | none => mapper.nextIp }

/-- The rest of `with_persist`: the bytes of the file, if there is one, are text or are left. -/
def loadFile (file : Option (List UInt8)) : FakeIpMapper :=
  match file.bind fromUtf8 with
  | some content => mapper.load lower content
  | none => mapper

end Load

section Flush

/-- The pairs in some order -/
def pairs (mapper : FakeIpMapper) : List (String × Ipv4Addr) :=
  mapper.domainToIp.entries.map fun entry => (entry.1, entry.2)

def cacheText (next : BitVec 32) (snapshot : List (String × Ipv4Addr)) : String :=
  "# mirage-rs fake-ip persist v1\n" ++ "next_ip=" ++ toString next.toNat ++ "\n" ++
    String.join (snapshot.map fun (domain, ip) => ipv4Text ip ++ " " ++ domain ++ "\n")

def cacheFile (mapper : FakeIpMapper) (snapshot : List (String × Ipv4Addr)) : List UInt8 :=
  utf8 (cacheText mapper.nextIp snapshot).toList

/-- The new contents of the file, if it is written, and the mapper afterwards -/
def flush (mapper : FakeIpMapper) (snapshot : List (String × Ipv4Addr)) (succeeds : Bool) :
    Option (List UInt8) × FakeIpMapper :=
  if mapper.persistPath.isNone ∨ mapper.dirty = false then (none, mapper)
  else if succeeds then (some (mapper.cacheFile snapshot), { mapper with dirty := false })
  else (none, { mapper with dirty := true })

end Flush

end FakeIpMapper

inductive PersistEvent where
  | call (call : MapperCall)
  | flush (snapshot : List (String × Ipv4Addr)) (succeeds : Bool)

def FakeIpMapper.persistStep (lower : String → String) (mapper : FakeIpMapper) :
    PersistEvent → FakeIpMapper
  | .call call => mapper.step lower call
  | .flush snapshot succeeds => (mapper.flush snapshot succeeds).2

/-- The domain has no line feed and does not end with a blank. -/
def Persistable (domain : String) : Prop :=
  '\n' ∉ domain.toList ∧ ∃ last ∈ domain.toList.getLast?, isRustWhitespace last = false

theorem persistable_iff {domain : String} :
    Persistable domain ↔ '\n' ∉ domain.toList ∧
      (domain.toList.getLast?.any fun last => !isRustWhitespace last) = true := by
  simp [Persistable, Option.any_eq_true]

instance : DecidablePred Persistable :=
  fun _ => decidable_of_iff _ persistable_iff.symm

/-- What `str::to_lowercase` does to no text: change it again, or add blanks to it. -/
structure LowercaseLaws (lower : String → String) : Prop where
  idempotent : ∀ text, lower (lower text) = lower text
  persistable : ∀ {text}, Persistable text → Persistable (lower text)

/-- The pairs which the lines put into the maps -/
def entries (lines : List CacheLine) : List (Ipv4Addr × String) :=
  lines.filterMap fun line =>
    match line with
    | .pair ip domain => some (ip, domain)
    | _ => none

/-- What the last line about the cursor says, if there is one -/
def lastNext (lines : List CacheLine) : Option (Option (BitVec 32)) :=
  lines.reverse.findSome? fun line =>
    match line with
    | .nextIp next => some next
    | _ => none

theorem foldl_put (lines : List CacheLine) (loading : Loading) :
    lines.foldl Loading.put loading =
      ⟨FiniteMap.collect Prod.snd (fun pair => some pair.1) (entries lines) loading.domainToIp,
        FiniteMap.collect Prod.fst (fun pair => some pair.2) (entries lines) loading.ipToDomain,
        (lastNext lines).getD loading.loadedNext⟩ := by
  induction lines generalizing loading with
  | nil => rfl
  | cons line lines ih =>
      rw [List.foldl_cons, ih]
      cases line with
      | ignored =>
          simp only [Loading.put, entries, List.filterMap_cons, lastNext, List.reverse_cons,
            List.findSome?_append, List.findSome?_singleton, Option.or_none]
      | pair ip domain =>
          simp only [Loading.put, entries, List.filterMap_cons, FiniteMap.collect,
            List.foldl_cons, FiniteMap.insertSome, lastNext, List.reverse_cons,
            List.findSome?_append, List.findSome?_singleton, Option.or_none]
      | nextIp next =>
          simp only [Loading.put, entries, List.filterMap_cons, lastNext, List.reverse_cons,
            List.findSome?_append, List.findSome?_singleton]
          cases List.findSome? _ lines.reverse <;> rfl

namespace FakeIpMapper

variable {lower : String → String} {mapper fresh : FakeIpMapper} {line content : String}
  {ip : Ipv4Addr} {domain : String}

section Reading

/-- A pair which is read has an address of the pool, and the domain follows a blank of the line. -/
theorem inPool_of_readPair (configured : mapper.Configured)
    (read : mapper.readPair lower line = some (ip, domain)) :
    mapper.InPool ip ∧ ∃ front rest, line.toList = front ++ ' ' :: rest ∧ rest ≠ [] ∧
      domain = lower (String.ofList rest) := by
  rw [readPair] at read
  split at read
  · cases read
  · rename_i ipText written split
    split at read
    · cases read
    · rename_i nonempty
      split at read
      · cases read
      · rename_i found _
        split at read
        · cases read
        · rename_i in_network
          rw [not_not] at in_network
          dsimp only at read
          split at read
          · cases read
          · rename_i usable
            rw [not_or] at usable
            rcases Prod.mk.inj (Option.some.inj read) with ⟨rfl, rfl⟩
            refine ⟨⟨in_network, ?_, ?_⟩, ipText.toList, written.toList,
              splitOnce_eq_some split, ?_, by rw [String.ofList_toList]⟩
            · exact Nat.le_of_not_lt usable.1
            · have size_ge := configured.eight_le_size
              have small : (found &&& ~~~mapper.mask).toNat < 2 ^ mapper.hostBits := by
                rw [configured.mask_eq, and_not_maskOf_toNat]
                exact Nat.mod_lt _ (Nat.two_pow_pos _)
              have not_last : (found &&& ~~~mapper.mask).toNat ≠ 2 ^ mapper.hostBits - 1 := by
                intro last
                apply usable.2
                rw [← BitVec.toNat_inj, last, configured.mask_eq, not_maskOf_toNat, hostBits]
              omega
            · intro empty
              apply nonempty
              rw [← @String.ofList_toList written, empty]

theorem persistable_of_readPair (configured : mapper.Configured) (unbroken : '\n' ∉ line.toList)
    (laws : LowercaseLaws lower)
    (read : mapper.readPair lower (trim line) = some (ip, domain)) :
    mapper.InPool ip ∧ Persistable domain ∧ lower domain = domain := by
  rcases inPool_of_readPair configured read with ⟨inPool, front, rest, whole, nonempty, rfl⟩
  refine ⟨inPool, laws.persistable ?_, laws.idempotent _⟩
  rw [trim, String.toList_ofList] at whole
  have dropped := List.rdropWhile_prefix isRustWhitespace
    (line.toList.dropWhile isRustWhitespace)
  rw [whole] at dropped
  constructor
  · rw [String.toList_ofList]
    intro inside
    apply unbroken
    apply (List.dropWhile_sublist isRustWhitespace).subset
    exact dropped.subset (by simp [inside])
  · rw [String.toList_ofList]
    refine ⟨rest.getLast nonempty, List.getLast?_eq_getLast_of_ne_nil nonempty, ?_⟩
    have kept : (line.toList.dropWhile isRustWhitespace).rdropWhile isRustWhitespace ≠ [] := by
      rw [whole]
      simp
    have last := List.rdropWhile_last_not isRustWhitespace _ kept
    simp only [whole] at last
    rw [List.getLast_append_of_ne_nil _ (List.cons_ne_nil _ _), List.getLast_cons nonempty] at last
    simpa using last

theorem of_mem_entries (configured : mapper.Configured) (laws : LowercaseLaws lower)
    (there : (ip, domain) ∈ entries (mapper.cacheLines lower content)) :
    mapper.InPool ip ∧ Persistable domain ∧ lower domain = domain := by
  rcases List.mem_filterMap.mp there with ⟨read, among, pair⟩
  rcases List.mem_map.mp among with ⟨line, cut, rfl⟩
  rcases List.mem_map.mp cut with ⟨text, piece, rfl⟩
  have unbroken : '\n' ∉ (String.ofList text).toList := by
    rw [String.toList_ofList]
    exact notMem_of_mem_splitOn piece
  rw [readLine] at pair
  dsimp only at pair
  split at pair
  · rename_i found same
    rcases Option.some.inj pair with ⟨rfl, rfl⟩
    split at same
    · cases same
    · split at same
      · cases same
      · split at same
        · rename_i read
          rcases CacheLine.pair.inj same with ⟨rfl, rfl⟩
          exact persistable_of_readPair configured unbroken laws read
        · cases same
  · cases pair

end Reading

section Legal

/--
Of the lines about pairs, none goes against the others, and the last line about the
cursor does not put it on the network address or the gateway.
-/
structure Legal (lower : String → String) (mapper : FakeIpMapper) (content : String) : Prop where
  unambiguous : Unambiguous (entries (mapper.cacheLines lower content))
  cursor : ∀ next, lastNext (mapper.cacheLines lower content) = some (some next) →
    next ≠ mapper.network ∧ next ≠ mapper.network + 1

/-- A cursor which is taken over from the file -/
theorem accepted_iff (configured : mapper.Configured) (next : BitVec 32) :
    (next &&& mapper.mask = mapper.network ∧ next &&& ~~~mapper.mask ≠ ~~~mapper.mask) ↔
      mapper.network.toNat ≤ next.toNat ∧
        next.toNat + 1 < mapper.network.toNat + 2 ^ mapper.hostBits := by
  have size_ge := configured.eight_le_size
  have broadcast : next &&& ~~~mapper.mask = ~~~mapper.mask ↔
      next.toNat % 2 ^ mapper.hostBits = 2 ^ mapper.hostBits - 1 := by
    rw [← BitVec.toNat_inj, configured.mask_eq, and_not_maskOf_toNat, not_maskOf_toNat, hostBits]
  rw [Ne, broadcast, configured.mask_eq, and_maskOf_eq_iff]
  simp only [hostBits] at *
  constructor
  · rintro ⟨inside, other⟩
    have small := Nat.mod_lt next.toNat (Nat.two_pow_pos (32 - mapper.prefixLen))
    omega
  · rintro ⟨ge, lt⟩
    have host := configured.host_eq next (next.toNat - mapper.network.toNat) (by omega)
    rw [hostBits] at host
    have same := host (by omega)
    omega

/-- The network address and the gateway -/
theorem not_reserved_iff (configured : mapper.Configured) (next : BitVec 32) :
    (next ≠ mapper.network ∧ next ≠ mapper.network + 1) ↔
      next.toNat ≠ mapper.network.toNat ∧ next.toNat ≠ mapper.network.toNat + 1 := by
  have gateway : (mapper.network + 1).toNat = mapper.network.toNat + 1 := by
    have size_ge := configured.eight_le_size
    have block_le := configured.network_add_size_le
    apply BitVec.toNat_add_of_lt
    change mapper.network.toNat + 1 < 2 ^ 32
    omega
  rw [← gateway, BitVec.toNat_ne, BitVec.toNat_ne]

theorem inPool_nextIp_load (configured : mapper.Configured) (inPool : mapper.InPool mapper.nextIp)
    (content : String) :
    mapper.InPool (mapper.load lower content).nextIp ↔
      ∀ next, lastNext (mapper.cacheLines lower content) = some (some next) →
        next ≠ mapper.network ∧ next ≠ mapper.network + 1 := by
  have size_ge := configured.eight_le_size
  rw [load, foldl_put]
  dsimp only
  cases lastNext (mapper.cacheLines lower content) with
  | none => simpa using inPool
  | some last =>
      cases last with
      | none => simpa using inPool
      | some next =>
          simp only [Option.getD_some, Option.some.injEq, forall_eq']
          rw [not_reserved_iff configured]
          split
          · rename_i accepted
            rw [accepted_iff configured] at accepted
            rw [configured.inPool_iff]
            omega
          · rename_i refused
            rw [accepted_iff configured] at refused
            refine iff_of_true inPool ?_
            omega

/-- A mapper which has been constructed and has not read a file yet -/
structure Fresh (mapper : FakeIpMapper) : Prop where
  wellFormed : mapper.WellFormed
  domainToIp : mapper.domainToIp = ∅
  ipToDomain : mapper.ipToDomain = ∅

theorem fresh_of_construct {cidr : String} {persistPath : Option String}
    (accepted : construct cidr persistPath = .ok mapper) : mapper.Fresh := by
  have wellFormed := WellFormed.of_construct accepted
  rcases construct_ok accepted with ⟨ip, prefixLen, _, rfl⟩
  exact ⟨wellFormed, rfl, rfl⟩

namespace Fresh

theorem load_domainToIp (fresh : mapper.Fresh) (content : String) :
    (mapper.load lower content).domainToIp =
      FiniteMap.collect Prod.snd (fun pair => some pair.1)
        (entries (mapper.cacheLines lower content)) ∅ := by
  rw [load, foldl_put, fresh.domainToIp]

theorem load_ipToDomain (fresh : mapper.Fresh) (content : String) :
    (mapper.load lower content).ipToDomain =
      FiniteMap.collect Prod.fst (fun pair => some pair.2)
        (entries (mapper.cacheLines lower content)) ∅ := by
  rw [load, foldl_put, fresh.ipToDomain]

/-- What a loaded mapper has comes from a line of the file. -/
theorem of_load_lookup (fresh : mapper.Fresh) (laws : LowercaseLaws lower)
    (found : (mapper.load lower content).domainToIp.lookup domain = some ip) :
    mapper.InPool ip ∧ Persistable domain ∧ lower domain = domain := by
  rw [fresh.load_domainToIp, FiniteMap.lookup_collect_some, AList.lookup_empty,
    Option.or_none, Option.map_eq_some_iff] at found
  rcases found with ⟨pair, there, rfl⟩
  have same : pair.2 = domain := by simpa using List.find?_some there
  rw [← same]
  exact of_mem_entries fresh.wellFormed.toConfigured laws
    (List.mem_reverse.mp (List.mem_of_find?_eq_some there))

/-- Loading keeps the invariants exactly if the contents are legal. -/
theorem wellFormed_load_iff (fresh : mapper.Fresh) (laws : LowercaseLaws lower)
    (content : String) :
    (mapper.load lower content).WellFormed ↔ Legal lower mapper content := by
  have configured := fresh.wellFormed.toConfigured
  have same_maps : Mutual (mapper.load lower content).domainToIp
      (mapper.load lower content).ipToDomain ↔
        Unambiguous (entries (mapper.cacheLines lower content)) := by
    rw [fresh.load_domainToIp, fresh.load_ipToDomain, mutual_collect_iff]
  have cursor : mapper.InPool (mapper.load lower content).nextIp ↔ _ :=
    inPool_nextIp_load configured fresh.wellFormed.nextIp_inPool content
  constructor
  · intro wellFormed
    exact ⟨same_maps.mp wellFormed.mutual_maps, cursor.mp wellFormed.nextIp_inPool⟩
  · rintro ⟨unambiguous, next⟩
    refine ⟨⟨configured.prefixLen_le, configured.mask_eq, configured.network_masked⟩,
      same_maps.mpr unambiguous, ?_, cursor.mpr next⟩
    intro domain ip found
    exact (fresh.of_load_lookup laws found).1

end Fresh

end Legal

section RoundTrip

theorem host_usable (configured : mapper.Configured) (inPool : mapper.InPool ip) :
    ¬(ip &&& ~~~mapper.mask < 2 ∨ ip &&& ~~~mapper.mask = ~~~mapper.mask) := by
  have size_ge := configured.eight_le_size
  rintro (low | last)
  · exact Nat.not_lt_of_le inPool.2.1 low
  · have all_ones := congrArg BitVec.toNat last
    have host_le := inPool.2.2
    have ones : (~~~mapper.mask).toNat = 2 ^ mapper.hostBits - 1 := by
      rw [configured.mask_eq, not_maskOf_toNat, hostBits]
    omega

theorem notMem_ipv4Text {char : Char} (other : char ≠ '.') (not_digit : char.isDigit = false) :
    char ∉ (ipv4Text ip).toList := by
  intro inside
  rcases mem_ipv4Text inside with dot | digit
  · exact other dot
  · rw [not_digit] at digit
    cases digit

theorem ipv4Text_visible (ip : Ipv4Addr) : Visible (ipv4Text ip).toList := by
  intro char inside
  rcases mem_ipv4Text inside with rfl | digit
  · rfl
  · rw [Char.isDigit_iff_toNat] at digit
    simp only [isRustWhitespace]
    grind

theorem ipv4Text_ne_nil (ip : Ipv4Addr) : (ipv4Text ip).toList ≠ [] := by
  intro empty
  have parsed := parseIpv4_ipv4Text ip
  rw [parseIpv4, empty] at parsed
  cases parsed

/-- The line of a pair -/
def pairLine (pair : String × Ipv4Addr) : List Char :=
  (ipv4Text pair.2).toList ++ ' ' :: pair.1.toList

theorem trim_pairLine {pair : String × Ipv4Addr} (persistable : Persistable pair.1) :
    trim (String.ofList (pairLine pair)) = String.ofList (pairLine pair) := by
  rw [pairLine, trim_append (ipv4Text_visible _) (ipv4Text_ne_nil _)]
  congr 2
  rw [List.rdropWhile_eq_self_iff]
  intro nonempty
  rcases persistable.2 with ⟨last, ends, visible⟩
  have domain_ne : pair.1.toList ≠ [] := by
    intro empty
    rw [empty] at ends
    cases ends
  rw [List.getLast_cons domain_ne]
  rw [List.getLast?_eq_getLast_of_ne_nil domain_ne, Option.mem_some_iff] at ends
  rw [ends, visible]
  exact Bool.false_ne_true

theorem readPair_pairLine (configured : mapper.Configured) {pair : String × Ipv4Addr}
    (inPool : mapper.InPool pair.2) (nonempty : pair.1 ≠ "") :
    mapper.readPair lower (String.ofList (pairLine pair)) = some (pair.2, lower pair.1) := by
  have blank : ' ' ∉ (ipv4Text pair.2).toList := notMem_ipv4Text (by decide) rfl
  rw [readPair, pairLine, splitOnce_append blank]
  simp only [String.ofList_toList, parseIpv4_ipv4Text, if_neg nonempty, ne_eq, inPool.1,
    not_true_eq_false, if_false, if_neg (host_usable configured inPool)]

/-- A line which starts with another sign than that of a comment says something. -/
theorem not_ignored {first : Char} {rest : List Char} (starts : line.toList = first :: rest)
    (plain : first ≠ '#') : ¬(line = "" ∨ line.toList.head? = some '#') := by
  rw [starts, not_or]
  constructor
  · rintro rfl
    cases starts
  · intro comment
    exact plain (Option.some.inj comment)

theorem readLine_pairLine (configured : mapper.Configured) {pair : String × Ipv4Addr}
    (inPool : mapper.InPool pair.2) (persistable : Persistable pair.1) :
    mapper.readLine lower (String.ofList (pairLine pair)) = .pair pair.2 (lower pair.1) := by
  have nonempty : pair.1 ≠ "" := by
    intro empty
    rcases persistable.2 with ⟨last, ends, _⟩
    rw [empty] at ends
    cases ends
  rw [readLine, trim_pairLine persistable]
  dsimp only
  have read : mapper.readPair lower (String.ofList (pairLine pair)) =
      some (pair.2, lower pair.1) := readPair_pairLine configured inPool nonempty
  rcases List.exists_cons_of_ne_nil (ipv4Text_ne_nil pair.2) with ⟨first, rest, text⟩
  have starts : (String.ofList (pairLine pair)).toList =
      first :: (rest ++ ' ' :: pair.1.toList) := by
    rw [String.toList_ofList, pairLine, text, List.cons_append]
  have plain {sign : Char} (other : sign.isDigit = false) (not_dot : sign ≠ '.') :
      first ≠ sign := by
    rintro rfl
    apply notMem_ipv4Text not_dot other
    rw [text]
    exact List.mem_cons_self
  rw [if_neg (not_ignored starts (plain rfl (by decide))), if_neg, read]
  rw [starts]
  intro label
  exact plain rfl (by decide) (List.cons_prefix_cons.mp label).1.symm

def headerLine : String := "# mirage-rs fake-ip persist v1"

/-- The line of the cursor -/
def nextLine (next : BitVec 32) : String :=
  "next_ip=" ++ toString next.toNat

theorem visible_toString (number : ℕ) : Visible (toString number).toList := by
  rw [Nat.toString_eq_repr, Nat.toList_repr]
  intro char inside
  have digit := Nat.isDigit_of_mem_toDigits (by decide) (by decide) inside
  rw [Char.isDigit_iff_toNat] at digit
  simp only [isRustWhitespace]
  grind

theorem readLine_nextLine (next : BitVec 32) :
    mapper.readLine lower (nextLine next) = .nextIp (some next) := by
  have visible : Visible (toString next.toNat).toList := visible_toString next.toNat
  have label : Visible "next_ip=".toList := by decide
  have whole : Visible (nextLine next).toList := by
    rw [nextLine, String.toList_append]
    exact List.forall_mem_append.mpr ⟨label, visible⟩
  have starts : "next_ip=".toList <+: (nextLine next).toList := by
    rw [nextLine, String.toList_append]
    exact List.prefix_append _ _
  have first : (nextLine next).toList =
      'n' :: ("ext_ip=".toList ++ (toString next.toNat).toList) := by
    rw [nextLine, String.toList_append]
    rfl
  have value : (nextLine next).toList.drop "next_ip=".length = (toString next.toNat).toList := by
    rw [nextLine, String.toList_append]
    rfl
  have trimmed (text : String) (visible : Visible text.toList) : trim text = text := by
    have same := trim_of_visible visible
    rwa [String.ofList_toList] at same
  have small : next.toNat ≤ u32Max := by
    have bound := next.isLt
    rw [u32Max]
    omega
  rw [readLine, trimmed _ whole]
  dsimp only
  rw [value, String.ofList_toList, trimmed _ visible, parseUnsigned_toString small,
    if_neg (not_ignored first (by decide)), if_pos starts]
  simp [Except.toOption]

theorem cacheText_toList (next : BitVec 32) (snapshot : List (String × Ipv4Addr)) :
    (cacheText next snapshot).toList =
      (headerLine.toList :: (nextLine next).toList :: snapshot.map pairLine).flatMap
        (· ++ ['\n']) := by
  have feed : "\n".toList = ['\n'] := by decide +kernel
  have blank : " ".toList = [' '] := by decide +kernel
  have header : "# mirage-rs fake-ip persist v1\n" = headerLine ++ "\n" := by decide +kernel
  have joined : (String.join (snapshot.map fun (domain, ip) =>
      ipv4Text ip ++ " " ++ domain ++ "\n")).toList =
        (snapshot.map pairLine).flatMap (· ++ ['\n']) := by
    rw [String.toList_join, List.flatMap_map, List.flatMap_map]
    apply List.flatMap_congr
    rintro ⟨domain, ip⟩ _
    dsimp only [pairLine]
    rw [String.toList_append, String.toList_append, String.toList_append, blank, feed,
      List.append_assoc, List.append_assoc, List.append_assoc, List.singleton_append,
      List.cons_append]
  unfold cacheText
  rw [header, String.toList_append, joined, List.flatMap_cons, List.flatMap_cons, nextLine]
  simp only [String.toList_append, feed, List.append_assoc]

theorem readLine_headerLine : mapper.readLine lower headerLine = .ignored := by
  have comment : trim headerLine = "" ∨ (trim headerLine).toList.head? = some '#' := by
    decide +kernel
  rw [readLine, if_pos comment]

theorem readLine_empty : mapper.readLine lower (String.ofList []) = .ignored := by
  have empty : trim (String.ofList []) = "" ∨
      (trim (String.ofList [])).toList.head? = some '#' := by
    decide +kernel
  rw [readLine, if_pos empty]

/-- No line which is written has a line feed. -/
theorem feed_notMem_lines {snapshot : List (String × Ipv4Addr)}
    (persistable : ∀ pair ∈ snapshot, Persistable pair.1) (next : BitVec 32) :
    ∀ line ∈ headerLine.toList :: (nextLine next).toList :: snapshot.map pairLine,
      '\n' ∉ line := by
  rw [List.forall_mem_cons, List.forall_mem_cons]
  refine ⟨by decide +kernel, ?_, fun line there => ?_⟩
  · intro inside
    rw [nextLine, String.toList_append, List.mem_append] at inside
    rcases inside with label | digits
    · exact absurd label (by decide +kernel)
    · exact absurd (visible_toString next.toNat _ digits) (by decide)
  · rcases List.mem_map.mp there with ⟨pair, member, rfl⟩
    rw [pairLine, List.mem_append, List.mem_cons, not_or, not_or]
    exact ⟨notMem_ipv4Text (by decide) rfl, by decide, (persistable pair member).1⟩

theorem cacheLines_cacheText (configured : mapper.Configured) (next : BitVec 32)
    {snapshot : List (String × Ipv4Addr)}
    (readable : ∀ pair ∈ snapshot, mapper.InPool pair.2 ∧ Persistable pair.1) :
    mapper.cacheLines lower (cacheText next snapshot) =
      .ignored :: .nextIp (some next) ::
        (snapshot.map fun pair => .pair pair.2 (lower pair.1)) ++ [.ignored] := by
  have pairs : (snapshot.map pairLine).map (mapper.readLine lower ∘ String.ofList) =
      snapshot.map fun pair => .pair pair.2 (lower pair.1) := by
    rw [List.map_map]
    apply List.map_congr_left
    intro pair member
    rw [Function.comp_apply, Function.comp_apply]
    exact readLine_pairLine configured (readable pair member).1 (readable pair member).2
  have unbroken := feed_notMem_lines (fun pair member => (readable pair member).2) next
  have split := splitOn_flatMap_concat unbroken []
  rw [List.append_nil, ← cacheText_toList, List.splitOn_nil] at split
  rw [cacheLines, splitChar, split, List.map_map, List.map_append, List.map_cons, List.map_cons,
    List.map_singleton, pairs]
  simp only [Function.comp_apply, String.ofList_toList, readLine_headerLine, readLine_nextLine,
    readLine_empty]

/-- The pairs which can be read are read back. -/
theorem entries_cacheText (configured : mapper.Configured) (next : BitVec 32)
    {snapshot : List (String × Ipv4Addr)}
    (readable : ∀ pair ∈ snapshot, mapper.InPool pair.2 ∧ Persistable pair.1)
    (lowered : ∀ pair ∈ snapshot, lower pair.1 = pair.1) :
    entries (mapper.cacheLines lower (cacheText next snapshot)) =
      snapshot.map fun pair => (pair.2, pair.1) := by
  have read : snapshot.filterMap ((fun line : CacheLine =>
      match line with
      | .pair ip domain => some (ip, domain)
      | _ => none) ∘ fun pair => .pair pair.2 (lower pair.1)) =
        snapshot.map fun pair => (pair.2, pair.1) := by
    rw [← List.filterMap_eq_map]
    apply List.filterMap_congr
    intro pair member
    rw [Function.comp_apply, Function.comp_apply, lowered pair member]
  rw [cacheLines_cacheText configured next readable, entries, List.filterMap_append,
    List.filterMap_cons, List.filterMap_cons, List.filterMap_map, read]
  exact List.append_nil _

theorem mem_pairs : (domain, ip) ∈ mapper.pairs ↔ mapper.domainToIp.lookup domain = some ip := by
  rw [← Option.mem_def, AList.mem_lookup_iff, pairs, List.mem_map]
  constructor
  · rintro ⟨entry, member, same⟩
    rcases Prod.mk.inj same with ⟨rfl, rfl⟩
    exact member
  · intro member
    exact ⟨⟨domain, ip⟩, member, rfl⟩

theorem nodup_pairs_fst (mapper : FakeIpMapper) : (mapper.pairs.map Prod.fst).Nodup := by
  rw [pairs, List.map_map]
  exact mapper.domainToIp.nodupKeys

theorem nodup_pairs_snd (wellFormed : mapper.WellFormed) : (mapper.pairs.map Prod.snd).Nodup := by
  have distinct : mapper.pairs.Nodup := .of_map Prod.fst mapper.nodup_pairs_fst
  refine distinct.map_on fun first member second other same => ?_
  have first_bound := mem_pairs.mp member
  have second_bound := mem_pairs.mp other
  rw [← same] at second_bound
  exact Prod.ext (wellFormed.mutual_maps.key_unique first_bound second_bound) same

/-- Another mapper has the same pairs. -/
def Restores (restored mapper : FakeIpMapper) : Prop :=
  (∀ domain, restored.domainToIp.lookup domain = mapper.domainToIp.lookup domain) ∧
    ∀ ip, restored.lookupDomain ip = mapper.lookupDomain ip

theorem Fresh.restores (isFresh : fresh.Fresh) (wellFormed : mapper.WellFormed)
    (same : SameNetwork fresh mapper) {snapshot : List (String × Ipv4Addr)}
    (taken : snapshot.Perm mapper.pairs)
    (readable : ∀ domain ip, mapper.domainToIp.lookup domain = some ip →
      Persistable domain ∧ lower domain = domain) :
    Restores (fresh.load lower (cacheText mapper.nextIp snapshot)) mapper := by
  have configured := isFresh.wellFormed.toConfigured
  have bound (pair : String × Ipv4Addr) (member : pair ∈ snapshot) :
      mapper.domainToIp.lookup pair.1 = some pair.2 := mem_pairs.mp (taken.mem_iff.mp member)
  have inPool (pair : String × Ipv4Addr) (member : pair ∈ snapshot) : fresh.InPool pair.2 :=
    (same.inPool_iff _).mp (wellFormed.assigned_inPool _ _ (bound pair member))
  have lines := entries_cacheText configured mapper.nextIp
    (fun pair member => ⟨inPool pair member, (readable _ _ (bound pair member)).1⟩)
    (fun pair member => (readable _ _ (bound pair member)).2)
  constructor
  · intro domain
    apply Option.ext
    intro ip
    rw [isFresh.load_domainToIp, lines, FiniteMap.lookup_collect_eq_some]
    · rw [← mem_pairs, ← taken.mem_iff]
      simp
    · rw [List.map_map]
      exact (taken.map Prod.fst).nodup_iff.mpr mapper.nodup_pairs_fst
  · intro ip
    apply Option.ext
    intro domain
    rw [lookupDomain, lookupDomain, isFresh.load_ipToDomain, lines,
      FiniteMap.lookup_collect_eq_some]
    · rw [← wellFormed.mutual_maps, ← mem_pairs, ← taken.mem_iff]
      simp
    · rw [List.map_map]
      exact (taken.map Prod.snd).nodup_iff.mpr (nodup_pairs_snd wellFormed)

end RoundTrip

section Runs

/-- What every run keeps: the invariants, the network, and that the domains are in lower case -/
structure Kept (lower : String → String) (fresh mapper : FakeIpMapper) : Prop where
  wellFormed : mapper.WellFormed
  same : SameNetwork fresh mapper
  lowered : ∀ domain ip, mapper.domainToIp.lookup domain = some ip → lower domain = domain

/-- Writing the file changes the flag only. -/
theorem flush_eq (mapper : FakeIpMapper) (snapshot : List (String × Ipv4Addr)) (succeeds : Bool) :
    ∃ dirty, (mapper.flush snapshot succeeds).2 = { mapper with dirty } := by
  rw [flush]
  split
  · exact ⟨mapper.dirty, rfl⟩
  · split
    · exact ⟨false, rfl⟩
    · exact ⟨true, rfl⟩

theorem Kept.persistStep (kept : Kept lower fresh mapper) (laws : LowercaseLaws lower)
    (event : PersistEvent) : Kept lower fresh (mapper.persistStep lower event) := by
  rcases kept with ⟨wellFormed, same, lowered⟩
  cases event with
  | call call =>
      refine ⟨wellFormed.step call, same.step call, ?_⟩
      cases call with
      | lookupOrAssign domain =>
          intro other ip assigned
          rcases lookup_of_lookupOrAssign assigned with ⟨rfl, _⟩ | before
          · exact laws.idempotent domain
          · exact lowered other ip before
      | lookupDomain ip => exact lowered
      | clear =>
          intro domain ip assigned
          cases assigned
  | flush snapshot succeeds =>
      rcases flush_eq mapper snapshot succeeds with ⟨dirty, flushed⟩
      rw [FakeIpMapper.persistStep, flushed]
      rcases wellFormed with ⟨configured, mutual_maps, assigned_inPool, nextIp_inPool⟩
      refine ⟨⟨?_, mutual_maps, assigned_inPool, nextIp_inPool⟩, same, lowered⟩
      exact ⟨configured.prefixLen_le, configured.mask_eq, configured.network_masked⟩

theorem Fresh.lowered (isFresh : fresh.Fresh) (laws : LowercaseLaws lower)
    (file : Option (List UInt8)) :
    ∀ domain ip, (fresh.loadFile lower file).domainToIp.lookup domain = some ip →
      lower domain = domain := by
  intro domain ip found
  rw [loadFile] at found
  split at found
  · exact (isFresh.of_load_lookup laws found).2.2
  · rw [isFresh.domainToIp, AList.lookup_empty] at found
    cases found

theorem Fresh.wellFormed_loadFile_iff (isFresh : fresh.Fresh) (laws : LowercaseLaws lower)
    (file : Option (List UInt8)) :
    (fresh.loadFile lower file).WellFormed ↔
      ∀ content, file.bind fromUtf8 = some content → Legal lower fresh content := by
  rw [loadFile]
  cases file.bind fromUtf8 with
  | none => simpa using isFresh.wellFormed
  | some content => simpa using isFresh.wellFormed_load_iff laws content

theorem loadFile_utf8 (content : String) :
    mapper.loadFile lower (some (utf8 content.toList)) = mapper.load lower content := by
  rw [loadFile, Option.bind_some, fromUtf8_utf8]

theorem sameNetwork_loadFile (file : Option (List UInt8)) :
    SameNetwork fresh (fresh.loadFile lower file) := by
  rw [loadFile]
  split <;> exact ⟨rfl, rfl, rfl⟩

/--
A mapper that starts with a file has its invariants, and after any run its own file
gives its pairs back, exactly if the contents are legal and every domain can be
read back from its line.
-/
theorem persists_iff (laws : LowercaseLaws lower) {cidr path : String}
    (accepted : construct cidr (some path) = .ok fresh) (file : Option (List UInt8))
    (events : List PersistEvent) :
    let loaded := fresh.loadFile lower file
    let mapper := run (persistStep lower) loaded events
    (loaded.WellFormed ∧ ∀ snapshot, snapshot.Perm mapper.pairs →
        Restores (fresh.loadFile lower (some (mapper.cacheFile snapshot))) mapper) ↔
      (∀ content, file.bind fromUtf8 = some content → Legal lower fresh content) ∧
        ∀ domain ip, mapper.domainToIp.lookup domain = some ip → Persistable domain := by
  intro loaded mapper
  have isFresh := fresh_of_construct accepted
  have kept (wellFormed : loaded.WellFormed) : Kept lower fresh mapper :=
    run_invariant events (fun event kept => kept.persistStep laws event)
      ⟨wellFormed, sameNetwork_loadFile file, isFresh.lowered laws file⟩
  rw [isFresh.wellFormed_loadFile_iff laws file]
  apply and_congr_right
  intro legal
  have kept := kept ((isFresh.wellFormed_loadFile_iff laws file).mpr legal)
  constructor
  · intro restores domain ip assigned
    have restored := restores mapper.pairs (.refl _)
    rw [cacheFile, loadFile_utf8] at restored
    exact (isFresh.of_load_lookup laws ((restored.1 domain).trans assigned)).2.1
  · intro persistable snapshot taken
    rw [cacheFile, loadFile_utf8]
    exact isFresh.restores kept.wellFormed kept.same taken fun domain ip assigned =>
      ⟨persistable domain ip assigned, kept.lowered domain ip assigned⟩

/-- What holds of `str::to_lowercase` on texts of ASCII, where it is this function -/
theorem lowercaseLaws_ascii : LowercaseLaws toAsciiLowercase where
  idempotent := toAsciiLowercase_toAsciiLowercase
  persistable := by
    rintro text ⟨unbroken, last, ends, visible⟩
    rw [Persistable, toAsciiLowercase, String.toList_ofList]
    constructor
    · intro inside
      rcases List.mem_map.mp inside with ⟨char, there, lowered⟩
      have same : char = '\n' := by
        have value := toLower_val char
        rw [lowered] at value
        apply char_ext
        change 10 = _ at value
        change _ = 10
        split at value <;> omega
      exact unbroken (same ▸ there)
    · refine ⟨last.toLower, ?_, ?_⟩
      · rw [List.getLast?_map, ends]
        rfl
      · rw [isRustWhitespace_toLower, visible]

def persisted : FakeIpMapper := { smallest with persistPath := some "fakeip.cache" }

theorem construct_persisted : construct "10.0.0.0/29" (some "fakeip.cache") = .ok persisted := by
  rfl

theorem persists_iff_restarted :
    let mapper := run (persistStep toAsciiLowercase) persisted
      [.call (.lookupOrAssign "a.com"), .call (.lookupOrAssign "B.com")]
    Restores (persisted.loadFile toAsciiLowercase (some (mapper.cacheFile mapper.pairs)))
      mapper := by
  intro mapper
  have persists := persists_iff lowercaseLaws_ascii construct_persisted none
    [.call (.lookupOrAssign "a.com"), .call (.lookupOrAssign "B.com")]
  refine (persists.mpr ⟨fun content text => ?_, ?_⟩).2 mapper.pairs (.refl _)
  · cases text
  · have pairs : mapper.pairs = [("b.com", ipv4 10 0 0 3), ("a.com", ipv4 10 0 0 2)] := by
      decide +kernel
    intro domain ip assigned
    have there : (domain, ip) ∈ mapper.pairs := mem_pairs.mpr assigned
    rw [pairs, List.mem_pair] at there
    rcases there with same | same
    · rw [(Prod.mk.inj same).1]
      decide +kernel
    · rw [(Prod.mk.inj same).1]
      decide +kernel

/-- One address for two domains, and a cursor at the network address -/
def tampered : String := "next_ip=167772160\n10.0.0.2 a.com\n10.0.0.2 b.com\n"

theorem not_persists_tampered :
    let loaded := persisted.loadFile toAsciiLowercase (some (utf8 tampered.toList))
    ¬loaded.WellFormed ∧
      loaded.domainToIp.lookup "a.com" = some (ipv4 10 0 0 2) ∧
      loaded.domainToIp.lookup "b.com" = some (ipv4 10 0 0 2) ∧
      (loaded.lookupOrAssign toAsciiLowercase "c.com").1 = ipv4 10 0 0 0 := by
  rw [loadFile_utf8]
  intro loaded
  have first : loaded.domainToIp.lookup "a.com" = some (ipv4 10 0 0 2) := by decide +kernel
  have second : loaded.domainToIp.lookup "b.com" = some (ipv4 10 0 0 2) := by decide +kernel
  refine ⟨fun wellFormed => ?_, first, second, by decide +kernel⟩
  exact absurd (wellFormed.mutual_maps.key_unique first second) (by decide)

end Runs

end FakeIpMapper

end Mirage.Dns
