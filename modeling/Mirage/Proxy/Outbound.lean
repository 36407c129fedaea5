import Mirage.Foundations.Resolution

/-!
# Construction of the outbounds

A configuration declares outbounds by tag.  Servers without an underlying
outbound, direct and block are leaves.  Groups name their children, and a server
reached through another outbound names that one; these are built once everything
they name is there.  A node holds its children by value, so nothing that is
inserted later changes a group which has been built.
-/

namespace Mirage.Proxy

open Mirage.Foundations

/-- The fields of `OutboundConfig::Mirage` which the construction reads. -/
structure MirageConfig where
  server : String
  serverPort : ℕ
  password : String
  camouflageHost : String
  poolSize : ℕ
  brutalRateMbps : Option ℕ
  brutalBaseRttMs : Option ℕ
  pfs : Bool
  deriving DecidableEq, Repr

inductive OutboundConfig where
  | mirage (tag : String) (server : MirageConfig) (underlying : Option String)
  | direct (tag : String)
  | block (tag : String)
  | selector (tag : String) (outbounds : List String)
  | urltest (tag : String) (outbounds : List String) (tolerance : ℕ) (testType : String)
  | fallback (tag : String) (outbounds : List String)
  | loadBalance (tag : String) (outbounds : List String)
  deriving DecidableEq, Repr

structure PoolConfig (Node : Type) where
  serverHost : String
  serverPort : ℕ
  password : String
  camouflageHost : String
  poolSize : ℕ
  underlying : Option Node
  pfs : Bool

/-- Rates are in bytes for each second. -/
structure BrutalState where
  configuredRate : Option ℕ
  currentRate : ℕ
  baseRtt : Option ℕ

/-- A pool as `WarmPool::new` leaves it: the queue is empty. -/
structure WarmPool (Node : Type) where
  cfg : PoolConfig Node
  brutalState : BrutalState
  targetSize : ℕ
  maxSize : ℕ
  onDemandLimit : ℕ

inductive OutboundNode where
  | mirage (tag : String) (pool : WarmPool OutboundNode) (serverHost : String) (serverPort : ℕ)
  | direct (tag : String)
  | block (tag : String)
  | urltest (tag : String) (children : List OutboundNode) (toleranceMs : ℕ) (testType : String)
  | fallback (tag : String) (children : List OutboundNode)
  | selector (tag : String) (children : List OutboundNode)
  | loadBalance (tag : String) (children : List OutboundNode)

abbrev Outbounds := FiniteMap String OutboundNode

def WarmPool.new {Node : Type} (cfg : PoolConfig Node) (brutalState : BrutalState) :
    WarmPool Node where
  cfg
  brutalState
  targetSize := max cfg.poolSize 1
  maxSize := max cfg.poolSize 1
  onDemandLimit := min (max (max cfg.poolSize 1) 16) 32

def MirageConfig.poolConfig {Node : Type} (config : MirageConfig) (underlying : Option Node) :
    PoolConfig Node where
  serverHost := config.server
  serverPort := config.serverPort
  password := config.password
  camouflageHost := config.camouflageHost
  poolSize := config.poolSize
  underlying
  pfs := config.pfs

/-- The rate is a `u64`, so that the product may wrap. -/
def MirageConfig.brutalState (config : MirageConfig) : BrutalState :=
  let bytesPerSec := config.brutalRateMbps.map fun rate => rate * 125000 % 2 ^ 64
  { configuredRate := bytesPerSec
    currentRate := bytesPerSec.getD 8000000
    baseRtt := config.brutalBaseRttMs }

def buildMirage (tag : String) (config : MirageConfig) (underlying : Option OutboundNode) :
    OutboundNode :=
  .mirage tag (.new (config.poolConfig underlying) config.brutalState) config.server
    config.serverPort

namespace OutboundConfig

def tag : OutboundConfig → String
  | .mirage tag .. | .direct tag | .block tag | .selector tag _ | .urltest tag .. | .fallback tag _
  | .loadBalance tag _ => tag

/-- The outbounds which this one names: its children or its underlying outbound. -/
def references : OutboundConfig → List String
  | .mirage _ _ underlying => underlying.toList
  | .direct _ | .block _ => []
  | .selector _ outbounds | .urltest _ outbounds .. | .fallback _ outbounds
  | .loadBalance _ outbounds => outbounds

/-- Whether the first pass leaves this outbound to the second. -/
def deferred : OutboundConfig → Bool
  | .mirage _ _ underlying => underlying.isSome
  | .direct _ | .block _ => false
  | _ => true

/-- The node of an outbound, given the nodes it names in their order. -/
def node (config : OutboundConfig) (children : List OutboundNode) : OutboundNode :=
  match config with
  | .mirage tag server _ => buildMirage tag server children.head?
  | .direct tag => .direct tag
  | .block tag => .block tag
  | .selector tag _ => .selector tag children
  | .urltest tag _ tolerance testType => .urltest tag children tolerance testType
  | .fallback tag _ => .fallback tag children
  | .loadBalance tag _ => .loadBalance tag children

/-- The second pass builds an outbound once everything it names is there. -/
def recipe : Recipe OutboundConfig String OutboundNode where
  key := tag
  deps := references
  build := node

end OutboundConfig

structure Config where
  outbounds : List OutboundConfig

/-- The first pass: insert the leaves and keep the others for the second pass. -/
def leafNodes (outbounds : Outbounds) : List OutboundConfig → Outbounds × List OutboundConfig
  | [] => (outbounds, [])
  | config :: rest =>
      if config.deferred then
        ((leafNodes outbounds rest).1, config :: (leafNodes outbounds rest).2)
      else leafNodes (outbounds.insert config.tag (config.node [])) rest

def addIfMissing (outbounds : Outbounds) (tag : String) (node : OutboundNode) : Outbounds :=
  if tag ∈ outbounds then outbounds else outbounds.insert tag node

/-- Add the implicit `direct` and `block` if no leaf has their tag. -/
def addImplicit (outbounds : Outbounds) : Outbounds :=
  addIfMissing (addIfMissing outbounds "direct" (.direct "direct")) "block" (.block "block")

/-- `OutboundManager::new`; the error lists the outbounds which cannot be built. -/
def OutboundManager.new (cfg : Config) : Except (List OutboundConfig) Outbounds :=
  OutboundConfig.recipe.resolve (addImplicit (leafNodes ∅ cfg.outbounds).1)
    (leafNodes ∅ cfg.outbounds).2

/-- The tags which need no declaration. -/
def reserved : List String := ["direct", "block"]

/-- The node of a tag which needs no declaration. -/
def implicitNode (name : String) : Option OutboundNode :=
  if name = "direct" then some (.direct "direct")
  else if name = "block" then some (.block "block") else none

theorem implicitNode_isSome {name : String} : (implicitNode name).isSome ↔ name ∈ reserved := by
  rw [implicitNode, reserved]
  split
  · simp [*]
  · split
    · simp [*]
    · simp [*]

theorem lookup_addIfMissing (outbounds : Outbounds) (tag name : String) (node : OutboundNode) :
    (addIfMissing outbounds tag node).lookup name =
      (outbounds.lookup name).or (if name = tag then some node else none) := by
  by_cases same : name = tag
  · subst same
    rw [addIfMissing]
    split
    · rename_i member
      rcases Option.isSome_iff_exists.mp (AList.lookup_isSome.mpr member) with ⟨there, found⟩
      simp [found]
    · rename_i missing
      simp [AList.lookup_eq_none.mpr missing]
  · rw [addIfMissing]
    split
    · simp
    · simp [AList.lookup_insert_ne same]

theorem lookup_addImplicit (outbounds : Outbounds) (name : String) :
    (addImplicit outbounds).lookup name = (outbounds.lookup name).or (implicitNode name) := by
  rw [addImplicit, lookup_addIfMissing, lookup_addIfMissing, Option.or_assoc, implicitNode]
  congr 1
  split
  · rfl
  · rfl

namespace OutboundConfig

theorem references_of_not_deferred {config : OutboundConfig} (leaf : config.deferred = false) :
    config.references = [] := by
  cases config with
  | mirage tag server underlying =>
      cases underlying with
      | none => rfl
      | some name => simp [deferred] at leaf
  | direct tag => rfl
  | block tag => rfl
  | selector | urltest | fallback | loadBalance => simp [deferred] at leaf

/-- A node tells which children it was built from. -/
theorem node_injective {config : OutboundConfig} {first second : List OutboundNode}
    (firstLength : first.length = config.references.length)
    (secondLength : second.length = config.references.length)
    (same : config.node first = config.node second) : first = second := by
  cases config with
  | mirage tag server underlying =>
      have heads : first.head? = second.head? := by
        simpa [node, buildMirage, WarmPool.new, MirageConfig.poolConfig] using same
      cases underlying with
      | none =>
          rw [List.eq_nil_of_length_eq_zero firstLength, List.eq_nil_of_length_eq_zero secondLength]
      | some name =>
          rcases List.length_eq_one_iff.mp firstLength with ⟨child, rfl⟩
          rcases List.length_eq_one_iff.mp secondLength with ⟨other, rfl⟩
          simpa using heads
  | direct tag | block tag =>
      rw [List.eq_nil_of_length_eq_zero firstLength, List.eq_nil_of_length_eq_zero secondLength]
  | selector | urltest | fallback | loadBalance => simpa [node] using same

end OutboundConfig

end Mirage.Proxy
