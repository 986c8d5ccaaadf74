import Caneo.ActionPreset
import Caneo.LogController
import Mathlib.Data.List.TakeWhile

/-!
# `Config` and `AppConfig`

The interfaces come from a YAML file or from the command line (`src/config/Config.cpp`,
`AppConfig.cpp`). In the file an interface is written in one of three ways: its name alone, its name
with the path of a DBC (the old format), or its name with a map of fields. On the command line it is
`name:dbc`.

`DocumentSays` is what a file means: its keys may come in any order, those that are missing stand for
their defaults, and others mean nothing. What is meant is what is read (`parseConfig_eq`), and so
it is with the command line (`interfaceOfArg_eq`).
-/

namespace Caneo

/-- `InterfaceConfig` with the field that only `setup_interfaces` reads. -/
structure ConfiguredInterface extends InterfaceConfig where
  baudrate : BitVec 32 := 0

structure Config where
  virtualCan : Bool := false
  logFilePath : Option String := none
  graphsFile : String := ""
  interfaces : List ConfiguredInterface := []

/-- What the loader takes from yaml-cpp, the file system and the process; the conversions are `none`
where `as` throws. -/
structure ConfigEnv where
  asBool : String → Option Bool
  asUint32 : String → Option (BitVec 32)
  currentPath : String
  home : Option String
  loadFile : String → Except String YAML.Node
  fileExists : String → Bool

namespace ConfigEnv

variable (env : ConfigEnv)

/-! ### The file -/

def expandPath (raw : String) : String :=
  if raw = "." then env.currentPath
  else if "~/".toList.isPrefixOf raw.toList then
    match env.home with
    | none => raw
    | some home =>
      let rest := String.ofList (raw.toList.drop 2)
      -- An absolute path on the right of `/` replaces the left one.
      if rest.toList.head? = some '/' then rest else joinPath home rest
  else raw

/-- One pair of the `interfaces` map. -/
def readInterface (kv : YAML.Node × YAML.Node) : Except String ConfiguredInterface := do
  let name ← kv.1.asString
  match kv.2 with
  | .scalar dbc => return { name := name, dbc := dbc, actionsFile := "" }
  | .map entries =>
    let node := YAML.Node.map entries
    let dbc ← node.getOr "dbc" YAML.Node.asString ""
    let baudrate ← node.getOr "baudrate" (YAML.Node.asScalar env.asUint32) 0
    let actionsFile ← node.getOr "actions" YAML.Node.asString ""
    return { name := name, dbc := dbc, actionsFile := actionsFile, baudrate := baudrate }
  | .null | .sequence _ => return { name := name, dbc := "", actionsFile := "" }

/-- The loop over the `interfaces`; the items of a sequence have no key. -/
def readInterfaces : YAML.Node → Except String (List ConfiguredInterface)
  | .map entries => entries.mapM env.readInterface
  | .sequence (_ :: _) => .error "yaml-cpp: invalid node"
  | .sequence [] | .scalar _ | .null => .ok []

def parseConfig (root : YAML.Node) : Except String Config := do
  let virtualCan ← root.getOr "virtual" (YAML.Node.asScalar env.asBool) false
  let logFilePath ← root.getOr "log_file_path"
    (fun path => do return some (env.expandPath (← path.asString))) none
  let graphsFile ← root.getOr "graphs_preset" YAML.Node.asString ""
  match ← root.get "interfaces" with
  | none => throw "Config: missing 'interfaces' key"
  | some interfaces =>
    return { virtualCan := virtualCan, logFilePath := logFilePath, graphsFile := graphsFile,
             interfaces := ← env.readInterfaces interfaces }

def loadConfig (path : String) : Except String Config := do env.parseConfig (← env.loadFile path)

def tryLoadDefaultConfig : Except String (Option Config) :=
  if env.fileExists "caneo.yaml" then some <$> env.loadConfig "caneo.yaml" else .ok none

end ConfigEnv

/-! ### The command line -/

/-- The flags, as gflags leaves them. -/
structure Flags where
  tui : Bool := false
  gui : Bool := false
  log : Bool := false
  debug : Bool := false
  grpcServer : Bool := false
  grpcClient : String := ""
  grpcPort : BitVec 32 := 50051
  config : String := ""
  model : String := ""
  playback : String := ""

structure AppConfig where
  tuiMode : Bool
  guiMode : Bool
  logMode : Bool
  debugMode : Bool
  grpcServer : Bool
  grpcClient : String
  grpcPort : BitVec 16
  modelPath : String
  playbackPath : String
  config : Config

/-- `name:dbc`, or `name`. -/
def interfaceOfArg (arg : String) : ConfiguredInterface where
  name := String.ofList (arg.toList.takeWhile (· ≠ ':'))
  dbc := String.ofList ((arg.toList.dropWhile (· ≠ ':')).drop 1)
  actionsFile := ""

/-- Where the configuration comes from. -/
def AppConfig.configOf (env : ConfigEnv) (flags : Flags) (ifaceArgs : List String) :
    Except String Config :=
  if flags.config ≠ "" then env.loadConfig flags.config
  else if ifaceArgs = [] then (fun found => found.getD {}) <$> env.tryLoadDefaultConfig
  else .ok { interfaces := ifaceArgs.map interfaceOfArg }

def AppConfig.parse (env : ConfigEnv) (flags : Flags) (ifaceArgs : List String) :
    Except String AppConfig := do
  let config ← AppConfig.configOf env flags ifaceArgs
  return { tuiMode := flags.tui, guiMode := flags.gui, logMode := flags.log,
           debugMode := flags.debug, grpcServer := flags.grpcServer,
           grpcClient := flags.grpcClient, grpcPort := flags.grpcPort.setWidth 16,
           modelPath := flags.model, playbackPath := flags.playback, config := config }

/-! ### What is meant by a file -/

/-- What a map has under a key. -/
def underKey (entries : List (YAML.Node × YAML.Node)) (key : String) : Option YAML.Node :=
  (entries.find? fun kv => kv.1.isKey key).map (·.2)

/-- A map says a value: as the text under its key, or as the default without the key. -/
inductive FieldSays {α : Type} (entries : List (YAML.Node × YAML.Node)) (key : String)
    (written : String → α → Prop) (default : α) : α → Prop where
  | present {text : String} {a : α} : underKey entries key = some (.scalar text) → written text a →
      FieldSays entries key written default a
  | absent : underKey entries key = none → FieldSays entries key written default default

/-- A pair of the `interfaces` map says an interface, in one of the three ways. -/
inductive InterfaceSays (env : ConfigEnv) : YAML.Node × YAML.Node → ConfiguredInterface → Prop where
  | bare (name : String) :
      InterfaceSays env (.scalar name, .null) { name := name, dbc := "", actionsFile := "" }
  | path (name dbc : String) :
      InterfaceSays env (.scalar name, .scalar dbc) { name := name, dbc := dbc, actionsFile := "" }
  | fields {name dbc actionsFile : String} {baudrate : BitVec 32}
      {entries : List (YAML.Node × YAML.Node)} :
      FieldSays entries "dbc" (· = ·) "" dbc →
      FieldSays entries "baudrate" (fun text n => env.asUint32 text = some n) 0 baudrate →
      FieldSays entries "actions" (· = ·) "" actionsFile →
      InterfaceSays env (.scalar name, .map entries)
        { name := name, dbc := dbc, actionsFile := actionsFile, baudrate := baudrate }

inductive InterfacesSay (env : ConfigEnv) : YAML.Node → List ConfiguredInterface → Prop where
  | null : InterfacesSay env .null []
  | map {pairs : List (YAML.Node × YAML.Node)} {ifaces : List ConfiguredInterface} :
      List.Forall₂ (InterfaceSays env) pairs ifaces → InterfacesSay env (.map pairs) ifaces

/-- A file says a configuration. -/
inductive DocumentSays (env : ConfigEnv) : YAML.Node → Config → Prop where
  | map {entries : List (YAML.Node × YAML.Node)} {interfaces : YAML.Node} {cfg : Config} :
      FieldSays entries "virtual" (fun text b => env.asBool text = some b) false cfg.virtualCan →
      FieldSays entries "log_file_path" (fun text path => path = some (env.expandPath text)) none
        cfg.logFilePath →
      FieldSays entries "graphs_preset" (· = ·) "" cfg.graphsFile →
      underKey entries "interfaces" = some interfaces → InterfacesSay env interfaces cfg.interfaces →
      DocumentSays env (.map entries) cfg

/-! ### Reading what is meant -/

section Read

variable {env : ConfigEnv} {entries : List (YAML.Node × YAML.Node)}

theorem getOr_field {α : Type} (convert : YAML.Node → Except String α) {key : String}
    {written : String → α → Prop} {default a : α} (h : FieldSays entries key written default a)
    (hconvert : ∀ text, written text a → convert (.scalar text) = .ok a) :
    (YAML.Node.map entries).getOr key convert default = .ok a := by
  have hget : (YAML.Node.map entries).get key = .ok (underKey entries key) := rfl
  rw [YAML.Node.getOr, hget, YAML.ok_bind]
  cases h with
  | present hlookup hwritten =>
    rw [hlookup]
    exact hconvert _ hwritten
  | absent hlookup =>
    rw [hlookup]
    rfl

theorem readInterface_eq {kv : YAML.Node × YAML.Node} {iface : ConfiguredInterface}
    (h : InterfaceSays env kv iface) : env.readInterface kv = .ok iface := by
  cases h with
  | bare name => rfl
  | path name dbc => rfl
  | fields hdbc hbaudrate hactions =>
    have hnumber := getOr_field (YAML.Node.asScalar env.asUint32) hbaudrate
      fun text hn => by simp [YAML.Node.asScalar, hn]
    have hpath := getOr_field YAML.Node.asString hdbc
      fun text htext => congrArg Except.ok htext
    have hfile := getOr_field YAML.Node.asString hactions
      fun text htext => congrArg Except.ok htext
    simp only [ConfigEnv.readInterface, hpath, hnumber, hfile, YAML.Node.asString, YAML.ok_bind]
    rfl

theorem readInterfaces_eq {node : YAML.Node} {ifaces : List ConfiguredInterface}
    (h : InterfacesSay env node ifaces) : env.readInterfaces node = .ok ifaces := by
  cases h with
  | null => rfl
  | map hpairs =>
    change List.mapM env.readInterface _ = _
    induction hpairs with
    | nil => rfl
    | cons hpair _ ih => simp [readInterface_eq hpair, ih]

/-- What a file means is read. -/
theorem parseConfig_eq {root : YAML.Node} {cfg : Config} (h : DocumentSays env root cfg) :
    env.parseConfig root = .ok cfg := by
  obtain ⟨hvirtual, hpath, hgraphs, hlookup, hinterfaces⟩ := h
  have hbool := getOr_field (YAML.Node.asScalar env.asBool) hvirtual
    fun text hb => by simp [YAML.Node.asScalar, hb]
  have hlogs := getOr_field
    (fun path => do return some (env.expandPath (← path.asString))) hpath
    fun text htext => congrArg Except.ok htext.symm
  have hfile := getOr_field YAML.Node.asString hgraphs
    fun text htext => congrArg Except.ok htext
  have hget : ∀ entries, (YAML.Node.map entries).get "interfaces" =
      .ok (underKey entries "interfaces") := fun _ => rfl
  simp only [ConfigEnv.parseConfig, hbool, hlogs, hfile, hget, hlookup, YAML.ok_bind,
    readInterfaces_eq hinterfaces]
  rfl

end Read

/-! ### The command line -/

/-- An argument says an interface, which has no more than a DBC. -/
inductive ArgSays : String → ConfiguredInterface → Prop where
  | name {name : String} : ':' ∉ name.toList →
      ArgSays name { name := name, dbc := "", actionsFile := "" }
  | withDbc {name : String} (dbc : String) : ':' ∉ name.toList →
      ArgSays (name ++ ":" ++ dbc) { name := name, dbc := dbc, actionsFile := "" }

/-- The colon ends the name. -/
theorem interfaceOfArg_eq {arg : String} {iface : ConfiguredInterface}
    (h : ArgSays arg iface) : interfaceOfArg arg = iface := by
  have hcolon : ∀ name : String, ':' ∉ name.toList → ∀ c ∈ name.toList, decide (c ≠ ':') = true := by
    intro name hname c hc
    simpa using fun heq : c = ':' => hname (heq ▸ hc)
  cases h with
  | name hname =>
    have hchars := hcolon _ hname
    rw [interfaceOfArg, List.takeWhile_eq_self_iff.mpr hchars, List.dropWhile_eq_nil_iff.mpr hchars]
    simp
  | withDbc dbc hname =>
    have hchars := hcolon _ hname
    rw [interfaceOfArg, String.toList_append, String.toList_append, List.append_assoc,
      List.takeWhile_append_of_pos hchars, List.dropWhile_append_of_pos hchars]
    simp

end Caneo
