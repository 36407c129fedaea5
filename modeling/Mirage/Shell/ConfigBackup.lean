import Mirage.Shell.NodeStore
import Mirage.Shell.RuleStore

/-!
# Backups of the configuration

`exportJson` writes the nodes, the rules and the settings into one JSON object,
and `importJson` reads such an object back, over what is stored or merged with
it.  An object is the values of the keys which are read or written, `none` where
a key is absent.
-/

namespace Mirage.Shell

open Mirage.Foundations Mirage.Routing

/-- What is stored, by the files of the preferences which a backup is about. -/
structure Preferences where
  nodes : NodeStore.NodePrefs
  rules : RulePrefs
  directDns : Option String
  remoteDns : Option String
  geositeUrl : Option String
  geoipUrl : Option String
  enableIpv6 : Option Bool
  blockQuic : Option Bool
  udpMux : Option Bool
  autoReconnect : Option Bool
  failoverMode : Option String
  deriving DecidableEq, Repr

structure BackupJson where
  nodes : Option (List NodeStore.NodeJson)
  selectedIndex : Option ℤ
  rules : Option (List RuleJson)
  defaultAction : Option String
  directDns : Option String
  remoteDns : Option String
  geositeUrl : Option String
  geoipUrl : Option String
  enableIpv6 : Option Bool
  blockQuic : Option Bool
  udpMux : Option Bool
  autoReconnect : Option Bool
  failoverMode : Option String
  testMethod : Option String
  poolSize : Option ℤ
  app : Option String
  version : Option ℤ
  deriving DecidableEq, Repr

namespace Preferences

/-- Nothing has been stored yet. -/
def fresh : Preferences where
  nodes := ⟨none, none, none, none⟩
  rules := ⟨none, none⟩
  directDns := none
  remoteDns := none
  geositeUrl := none
  geoipUrl := none
  enableIpv6 := none
  blockQuic := none
  udpMux := none
  autoReconnect := none
  failoverMode := none

def defaultDirectDns : String := "223.5.5.5"

def defaultRemoteDns : String := "1.1.1.1"

def getDirectDns (prefs : Preferences) : String :=
  prefs.directDns.getD defaultDirectDns

def getRemoteDns (prefs : Preferences) : String :=
  prefs.remoteDns.getD defaultRemoteDns

def setDns (prefs : Preferences) (direct remote : String) : Preferences :=
  let cleanDirect := jvmTrim direct
  let cleanRemote := jvmTrim remote
  { prefs with
    directDns := some (if cleanDirect = "" then defaultDirectDns else cleanDirect)
    remoteDns := some (if cleanRemote = "" then defaultRemoteDns else cleanRemote) }

def getGeositeUrl (prefs : Preferences) : String :=
  prefs.geositeUrl.getD
    "https://raw.githubusercontent.com/Loyalsoldier/v2ray-rules-dat/release/geosite.dat"

def getGeoipUrl (prefs : Preferences) : String :=
  prefs.geoipUrl.getD
    "https://raw.githubusercontent.com/Loyalsoldier/v2ray-rules-dat/release/geoip.dat"

/-- An address which does not begin with `https://` is refused. -/
def setGeositeUrl (prefs : Preferences) (url : String) : Preferences :=
  if startsWithIgnoreCase (jvmTrim url) "https://" then
    { prefs with geositeUrl := some (jvmTrim url) }
  else prefs

def setGeoipUrl (prefs : Preferences) (url : String) : Preferences :=
  if startsWithIgnoreCase (jvmTrim url) "https://" then
    { prefs with geoipUrl := some (jvmTrim url) }
  else prefs

def isIpv6Enabled (prefs : Preferences) : Bool :=
  prefs.enableIpv6.getD true

def isBlockQuic (prefs : Preferences) : Bool :=
  prefs.blockQuic.getD true

def isUdpMux (prefs : Preferences) : Bool :=
  prefs.udpMux.getD true

def isAutoReconnect (prefs : Preferences) : Bool :=
  prefs.autoReconnect.getD true

def getFailoverMode (prefs : Preferences) : String :=
  prefs.failoverMode.getD "best"

end Preferences

/--
The identifiers which are drawn while a backup is imported: for its rules, and
for the stored rules without one, each time these are read.
-/
structure Draws where
  imported : ℕ → Uuid
  existing : ℕ → Uuid
  reread : ℕ → ℕ → Uuid

/-- A loop over the entries of a backup: the list it compares with, the store and the count. -/
structure Importing (Entry Store : Type) where
  existing : List Entry
  store : Store
  count : ℕ

namespace ConfigBackup

section Import

variable (lowercase : String → String)

/-- Of a rule the older fields are written. -/
def exportRule (rule : Rule) : RuleJson where
  id := none
  name := none
  enabled := none
  logic := none
  action := some rule.action
  conditions := none
  type := some rule.type
  kind := some rule.kind
  pattern := some rule.pattern

def exportJson (draw : ℕ → Uuid) (prefs : Preferences) : BackupJson where
  nodes := some ((NodeStore.getNodes prefs.nodes).map NodeStore.Node.toJson)
  selectedIndex := some (NodeStore.getSelected prefs.nodes)
  rules := some ((RuleStore.getRules draw prefs.rules).map exportRule)
  defaultAction := some (RuleStore.getDefaultAction prefs.rules)
  directDns := some prefs.getDirectDns
  remoteDns := some prefs.getRemoteDns
  geositeUrl := some prefs.getGeositeUrl
  geoipUrl := some prefs.getGeoipUrl
  enableIpv6 := some prefs.isIpv6Enabled
  blockQuic := some prefs.isBlockQuic
  udpMux := some prefs.isUdpMux
  autoReconnect := some prefs.isAutoReconnect
  failoverMode := some prefs.getFailoverMode
  testMethod := some (NodeStore.getTestMethod prefs.nodes)
  poolSize := some (NodeStore.getPoolSize prefs.nodes)
  app := some "mirage-android"
  version := some 2

def isMirageUri (uri : String) : Bool :=
  "mirage://".toList.isPrefixOf uri.toList

def importNode (overwrite : Bool) (state : Importing NodeStore.Node NodeStore.NodePrefs)
    (o : NodeStore.NodeJson) : Importing NodeStore.Node NodeStore.NodePrefs :=
  let uri := o.uri.getD ""
  let node : NodeStore.Node := ⟨uri, o.name.getD (NodeStore.defaultName uri)⟩
  if isMirageUri uri then
    if !overwrite && state.existing.any fun known => known.uri == uri then state
    else ⟨state.existing ++ [node], NodeStore.addNode state.store node, state.count + 1⟩
  else state

def importNodes (overwrite : Bool) (prefs : NodeStore.NodePrefs)
    (entries : List NodeStore.NodeJson) : Importing NodeStore.Node NodeStore.NodePrefs :=
  let cleared := if overwrite then NodeStore.saveNodes prefs [] else prefs
  entries.foldl (importNode overwrite) ⟨NodeStore.getNodes cleared, cleared, 0⟩

/-- An index out of range leaves the selection as it is. -/
def importSelected (prefs : NodeStore.NodePrefs) (index : Option ℤ) : NodeStore.NodePrefs :=
  match index with
  | some idx =>
      if 0 ≤ idx ∧ idx < (NodeStore.getNodes prefs).length then NodeStore.setSelected prefs idx
      else prefs
  | none => prefs

/-- The rule which is made of an entry: it is enabled and has no conditions of its own. -/
def importedRule (uuid : Uuid) (o : RuleJson) : Rule where
  id := uuid.text
  name := ""
  enabled := true
  logic := "OR"
  conditions := []
  type := o.type.getD "domain"
  kind := o.kind.getD "suffix"
  pattern := o.pattern.getD ""
  action := o.action.getD "proxy"

def importRule (draws : Draws) (overwrite : Bool) (state : Importing Rule RulePrefs)
    (entry : RuleJson × ℕ) : Importing Rule RulePrefs :=
  let rule := importedRule (draws.imported entry.2) entry.1
  if isBlank rule.pattern then state
  else if !overwrite && state.existing.any fun known =>
      known.pattern == rule.pattern && known.kind == rule.kind then state
  else
    ⟨state.existing ++ [rule],
      RuleStore.addRule lowercase (draws.reread entry.2) state.store rule, state.count + 1⟩

def importRules (draws : Draws) (overwrite : Bool) (prefs : RulePrefs)
    (entries : List RuleJson) : Importing Rule RulePrefs :=
  let cleared := if overwrite then RuleStore.saveRules lowercase prefs [] else prefs
  entries.zipIdx.foldl (importRule lowercase draws overwrite)
    ⟨RuleStore.getRules draws.existing cleared, cleared, 0⟩

def importDefaultAction (prefs : RulePrefs) (action : Option String) : RulePrefs :=
  let action := action.getD ""
  if action = "" then prefs else RuleStore.setDefaultAction prefs action

def importDns (prefs : Preferences) (direct remote : Option String) : Preferences :=
  let directDns := direct.getD ""
  let remoteDns := remote.getD ""
  if isBlank directDns && isBlank remoteDns then prefs
  else
    prefs.setDns (if isBlank directDns then prefs.getDirectDns else directDns)
      (if isBlank remoteDns then prefs.getRemoteDns else remoteDns)

/-- One of the two addresses of the Geo data -/
def importGeoUrl (set : Preferences → String → Preferences) (prefs : Preferences)
    (url : Option String) : Preferences :=
  match url with
  | some u =>
      if !isBlank u && startsWithIgnoreCase u "https://" then set prefs u else prefs
  | none => prefs

/-- The settings which are stored as they are, where the backup has them -/
def importSettings (prefs : Preferences) (root : BackupJson) : Preferences :=
  { prefs with
    enableIpv6 := root.enableIpv6.or prefs.enableIpv6
    blockQuic := root.blockQuic.or prefs.blockQuic
    udpMux := root.udpMux.or prefs.udpMux
    autoReconnect := root.autoReconnect.or prefs.autoReconnect
    failoverMode := root.failoverMode.or prefs.failoverMode
    nodes :=
      { prefs.nodes with
        testMethod := root.testMethod.or prefs.nodes.testMethod
        poolSize := root.poolSize.or prefs.nodes.poolSize } }

/-- The stored configuration after an import, and the numbers of nodes and of rules it added -/
def importJson (draws : Draws) (overwrite : Bool) (prefs : Preferences) (root : BackupJson) :
    Preferences × ℕ × ℕ :=
  let nodes := importNodes overwrite prefs.nodes (root.nodes.getD [])
  let rules := importRules lowercase draws overwrite prefs.rules (root.rules.getD [])
  let lists : Preferences :=
    { prefs with
      nodes := importSelected nodes.store root.selectedIndex
      rules := importDefaultAction rules.store root.defaultAction }
  let network := importDns lists root.directDns root.remoteDns
  let geo := importGeoUrl .setGeoipUrl (importGeoUrl .setGeositeUrl network root.geositeUrl)
    root.geoipUrl
  (importSettings geo root, nodes.count, rules.count)

end Import

end ConfigBackup

end Mirage.Shell
