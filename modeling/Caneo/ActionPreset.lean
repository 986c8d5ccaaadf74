import Caneo.ActionHandler
import Caneo.Assignments
import Caneo.Yaml

/-!
# `load_action_presets`

The actions of a preset file (`src/action/ActionPreset.cpp`): a YAML list whose entries name a
message and values for some of its signals. All entries of a file are encoded through one
`SendModel`, which is never reset.

What an entry *says* (`readEntry`) does not depend on the model's values, but the payload of the
action it creates does: a signal that an entry does not list has the value that an earlier entry
left (`loaded`). An action is that of its entry alone exactly if every such value encodes like 0
(`own_iff`).
-/

namespace Caneo

open BitField Containers

structure InterfaceConfig where
  name : String
  dbc : String
  actionsFile : String

/-- The arguments of the action that an entry creates; `payload` is the base payload of a sin. -/
inductive Preset.Kind where
  | periodic (periodMs : Int)
  | sin (isig : ISignal) (yLo yHi amplitude : ℚ) (periodMs : Int) (offset : ℚ) (intervalMs : Int)

structure Preset where
  msgId : BitVec 64
  msgName : String
  payload : Bytes
  kind : Preset.Kind

def SendModel.findMsgIdx (model : SendModel) (name : String) : Option Nat :=
  model.messages.findIdx? fun msg => msg.name = name

def SendMessage.findSigIdx (msg : SendMessage) (name : String) : Option Nat :=
  msg.signals.findIdx? fun sig => sig.name = name

/-! ### Loading one entry -/

section Load

variable (casts : BitCasts) (conv : YAML.Conversions)

/-- One pair of the `signals` map. -/
def applySignal (msgIdx : Nat) (msg : SendMessage) (model : SendModel)
    (kv : YAML.Node × YAML.Node) : Except String SendModel := do
  match msg.findSigIdx (← kv.1.asString) with
  | none => return model
  | some k => return model.setValue msgIdx k (← kv.2.asDouble conv)

def signalPairs : Option YAML.Node → List (YAML.Node × YAML.Node)
  | some (.map entries) => entries
  | _ => []

def applySignalsAndEncode (model : SendModel) (msgIdx : Nat) (msg : SendMessage)
    (signalsNode : Option YAML.Node) : Except String (SendModel × Bytes) := do
  let model ← (signalPairs signalsNode).foldlM (applySignal conv msgIdx msg) model
  return (model, (model.encode casts msgIdx).getD [])

def loadPeriodic (model : SendModel) (msgIdx : Nat) (msg : SendMessage) (entry : YAML.Node) :
    Except String (SendModel × Option Preset) := do
  let periodMs ← entry.getOr "period_ms" (YAML.Node.asInt conv) 100
  let (model, payload) ← applySignalsAndEncode casts conv model msgIdx msg (← entry.get "signals")
  return (model, some ⟨msg.id, msg.name, payload, .periodic periodMs⟩)

def loadSin (model : SendModel) (msgIdx : Nat) (msg : SendMessage) (entry : YAML.Node) :
    Except String (SendModel × Option Preset) := do
  let sigName ← entry.getOr "signal" YAML.Node.asString ""
  match (msg.findSigIdx sigName).bind fun sigIdx => msg.signals[sigIdx]? with
  | none => return (model, none)
  | some ssig =>
    let amplitude ← entry.getOr "amplitude" (YAML.Node.asDouble conv) 1
    let offset ← entry.getOr "offset" (YAML.Node.asDouble conv) 0
    let periodMs ← entry.getOr "sin_period_ms" (YAML.Node.asInt conv) 1000
    let intervalMs ← entry.getOr "interval_ms" (YAML.Node.asInt conv) 20
    let (model, base) ← applySignalsAndEncode casts conv model msgIdx msg (← entry.get "signals")
    return (model, some ⟨msg.id, msg.name, base,
      .sin ssig.sig ssig.minVal ssig.maxVal amplitude periodMs offset intervalMs⟩)

/-- One iteration of the loop over the entries. -/
def loadEntry (model : SendModel) (entry : YAML.Node) :
    Except String (SendModel × Option Preset) := do
  let type ← entry.getOr "type" YAML.Node.asString ""
  let msgName ← entry.getOr "msg" YAML.Node.asString ""
  match model.findMsgIdx msgName with
  | none => return (model, none)
  | some msgIdx =>
    match model.messages[msgIdx]? with
    | none => return (model, none)
    | some msg =>
      if type = "periodic" then loadPeriodic casts conv model msgIdx msg entry
      else if type = "sin" then loadSin casts conv model msgIdx msg entry
      else return (model, none)

/-! ### Loading a file -/

/-- The model, and the presets created so far. -/
structure PresetLoad where
  model : SendModel
  presets : List Preset := []

/-- The loop, up to the first exception. -/
def loadEntries (load : PresetLoad) : List YAML.Node → PresetLoad × Option String
  | [] => (load, none)
  | entry :: entries =>
    match loadEntry casts conv load.model entry with
    | .error e => (load, some e)
    | .ok (model, preset) => loadEntries ⟨model, load.presets ++ preset.toList⟩ entries

end Load

/-- The `encode_fn` of a sin preset. -/
def Preset.encodeFn (base : Bytes) (isig : ISignal) (yLo yHi : ℚ) (v : ℚ) : Bytes :=
  let v := if yLo < yHi then max yLo (min v yHi) else v
  isig.encode (isig.physToRaw v) base

def Preset.action {W : Type} (now : ℚ) (interface : String) (p : Preset) : Action W :=
  match p.kind with
  | .periodic periodMs => Action.newPeriodic interface p.msgId p.msgName p.payload periodMs
  | .sin isig yLo yHi amplitude periodMs offset intervalMs =>
    Action.newSin now interface p.msgId p.msgName intervalMs
      (fun v w => (Preset.encodeFn p.payload isig yLo yHi v, w)) amplitude periodMs offset

/-- `load_action_presets`: the closures it posts, and the exception that ends it. -/
def loadActionPresets {W : Type} (casts : BitCasts) (conv : YAML.Conversions) (srt : RangesSort)
    (dbcFiles : String → DbcFile) (yamlFiles : String → Except String YAML.Node) (now : ℚ)
    (cfg : InterfaceConfig) : List (Request W) × Option String :=
  if cfg.actionsFile.isEmpty || cfg.dbc.isEmpty then ([], none)
  else match yamlFiles cfg.actionsFile with
    | .error e => ([], some ("Failed to load actions file '" ++ cfg.actionsFile ++ "': " ++ e))
    | .ok (.sequence entries) =>
      match SendModel.load srt dbcFiles cfg.dbc with
      | .error e => ([], some e)
      | .ok model =>
        let (load, error) := loadEntries casts conv ⟨model, []⟩ entries
        (load.presets.map fun p => .addActionPaused (p.action now cfg.name), error)
    | .ok _ => ([], some "Actions file must be a YAML sequence (list of action entries)")

end Caneo
