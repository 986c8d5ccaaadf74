import Caneo.ActionPreset
import Caneo.DataFrameSet
import Caneo.DbcPppWrapper
import Caneo.LogController
import Caneo.LogSchemas
import Caneo.ModelEngine
import Caneo.RemoteReplica
import Caneo.Runs
import Caneo.SignalStore

/-!
# What becomes of a received frame

Each of `run_live`, `run_tui` and `run_gui` (`src/modes`) gives its sockets a callback of its own.
All three pass the frame on to the remote clients as it is, decode it, show it, feed it to the model
and log it; but they keep the rows and the log in different ways. The TUI has a map of the
interfaces it has seen and logs with `log_frame`, the live mode has a set for each socket and the
GUI a window for each interface, and both log with a `LogController`.

`Reception` says what a sequence of frames comes to, whoever receives it: the rows of an interface
are made of the decoded frames of this interface, and the log of the calls that they cause. Each
front end has that (`live_shows`, `tui_shows`, `gui_shows`).
-/

namespace Caneo

open BitField Containers Runs

variable {pb : Protobuf}

/-! ### The registries -/

structure DecoderRegistry where
  decoders : UnorderedMap String DbcPppWrapper := UnorderedMap.empty

namespace DecoderRegistry

/-- A DBC that cannot be read is an exception. -/
def addInterface (files : String → DbcFile) (registry : DecoderRegistry) (interface dbcPath : String) :
    Except String DecoderRegistry :=
  (DbcPppWrapper.load files dbcPath).map fun decoder =>
    ⟨registry.decoders.set interface decoder⟩

def decode (casts : BitCasts) (registry : DecoderRegistry) (frame : CanFrame) :
    Except String CanFrame :=
  match registry.decoders frame.header.interface with
  | none => .error ("No decoder registered for interface: " ++ frame.header.interface)
  | some decoder => .ok (decoder.decode casts frame)

end DecoderRegistry

structure ProtoLogRegistry (pb : Protobuf) where
  logs : UnorderedMap String (ProtoLog pb) := UnorderedMap.empty

namespace ProtoLogRegistry

/-- An interface whose log cannot be made has none; the error is printed. -/
def addInterface (files : String → DbcFile) (registry : ProtoLogRegistry pb)
    (interface dbcPath : String) : ProtoLogRegistry pb :=
  if dbcPath = "" then registry
  else match ProtoLog.load pb files interface dbcPath with
    | .error _ => registry
    | .ok log => ⟨registry.logs.set interface log⟩

def get (registry : ProtoLogRegistry pb) (interface : String) : Option (ProtoLog pb) :=
  registry.logs interface

def serialize (registry : ProtoLogRegistry pb) (frame : CanFrame) : Bytes :=
  (registry.logs frame.header.interface).elim [] fun log => log.serialize frame

end ProtoLogRegistry

/-! ### The model -/

/-- A loaded script: from its own variables and the signals that it can get, what `run()` leaves in
its variables and returns; nothing if it fails. -/
structure ModelScript (Lua : Type) where
  path : String
  run : Lua → (String → String → String → ℚ) → Lua × Option LuaObject

structure ModelEngine (Lua : Type) where
  script : ModelScript Lua
  store : SignalStore := {}
  lua : Lua

variable {Lua : Type}

/-- `on_frame`, up to its outputs. -/
def ModelEngine.run (engine : ModelEngine Lua) (frame : CanFrame) :
    ModelEngine Lua × Option LuaObject :=
  let store := engine.store.update frame
  let (lua, result) := engine.script.run engine.lua store.getSignal
  ({ engine with store := store, lua := lua }, result)

/-- Without a model there are no outputs. -/
def runModel (engine : Option (ModelEngine Lua)) (frame : CanFrame) :
    Option (ModelEngine Lua) × List (String × ℚ) :=
  match engine with
  | none => (none, [])
  | some engine =>
    let (engine, result) := engine.run frame
    (some engine, (result.elim [] ModelEngine.outputs).map fun (name, v) =>
      (ModelEngine.topic engine.script.path name, v))

/-! ### The three callbacks -/

/-- What the callbacks have in common; it does not change while frames arrive. -/
structure ReceiveEnv (pb : Protobuf) where
  casts : BitCasts
  decoders : DecoderRegistry
  protoRegistry : ProtoLogRegistry pb
  grpcServer : Bool

namespace ReceiveEnv

/-- `try { decoders.decode(*f); } catch (...) {}` -/
def decoded (env : ReceiveEnv pb) (frame : CanFrame) : CanFrame :=
  match env.decoders.decode env.casts frame with
  | .error _ => frame
  | .ok decoded => decoded

/-- The registries, filled from the interfaces that have a DBC. -/
def ofConfig (casts : BitCasts) (files : String → DbcFile) (grpcServer : Bool)
    (cfgs : List InterfaceConfig) : Except String (ReceiveEnv pb) := do
  let withDbc := cfgs.filter fun cfg => cfg.dbc ≠ ""
  let decoders ← withDbc.foldlM (fun registry cfg =>
    DecoderRegistry.addInterface files registry cfg.name cfg.dbc) {}
  let protoRegistry := withDbc.foldl (fun registry cfg =>
    ProtoLogRegistry.addInterface files registry cfg.name cfg.dbc) {}
  return { casts := casts, decoders := decoders, protoRegistry := protoRegistry,
           grpcServer := grpcServer }

/-- What the stream server is given. -/
def broadcast (env : ReceiveEnv pb) (broadcasts : List CanFrame) (frame : CanFrame) :
    List CanFrame :=
  if env.grpcServer then broadcasts ++ [frame] else broadcasts

end ReceiveEnv

/-- A frame that a socket calls back with, and the clock when each output of the model is logged. -/
structure Incoming where
  socket : Nat
  frame : CanFrame
  clock : String → Int

namespace LogController

def logScalars (pb : Protobuf) (clock : String → Int) (outputs : List (String × ℚ))
    (c : LogController) : LogController :=
  outputs.foldl (fun c output => c.logScalar pb output.1 output.2 (clock output.1)) c

end LogController

structure run_live (Lua : Type) where
  sets : List DataFrameSet
  engine : Option (ModelEngine Lua)
  logController : LogController := {}
  broadcasts : List CanFrame := []

def run_live.onFrame (env : ReceiveEnv pb) (s : run_live Lua) (incoming : Incoming) : run_live Lua :=
  let frame := env.decoded incoming.frame
  let (engine, outputs) := runModel s.engine frame
  let logController := s.logController.logScalars pb incoming.clock outputs
  { sets := s.sets.modify incoming.socket fun set => set.update frame
    engine := engine
    logController :=
      if logController.isLogging then logController.logCanFrame env.protoRegistry.get frame
      else logController
    broadcasts := env.broadcast s.broadcasts incoming.frame }

structure run_gui (Lua : Type) where
  traces : List DataFrameSet
  engine : Option (ModelEngine Lua)
  logController : LogController := {}
  broadcasts : List CanFrame := []

/-- `TraceWindow::update` -/
def TraceWindow.update (set : DataFrameSet) (frame : CanFrame) : DataFrameSet :=
  if frame.header.interface ≠ set.interface then set else set.update frame

/-- The callback of the local mode, which has a log of its own. -/
def run_gui.onFrame (env : ReceiveEnv pb) (s : run_gui Lua) (incoming : Incoming) : run_gui Lua :=
  let frame := env.decoded incoming.frame
  let (engine, outputs) := runModel s.engine frame
  { traces := s.traces.map fun set => TraceWindow.update set frame
    engine := engine
    logController := (s.logController.logScalars pb incoming.clock outputs).logCanFrame
      env.protoRegistry.get frame
    broadcasts := env.broadcast s.broadcasts incoming.frame }

/-- The state of the TUI's callback; `sets` is that of `TuiDataFrameSet`, with the rows. -/
structure run_tui (Lua : Type) where
  sets : UnorderedMap String DataFrameSet := UnorderedMap.empty
  engine : Option (ModelEngine Lua)
  logger : Option McapLogger := none
  lastFrameTs : UnorderedMap (String × BitVec 32) Int := UnorderedMap.empty
  broadcasts : List CanFrame := []

/-- `TuiDataFrameSet::update` -/
def TuiDataFrameSet.updateSets (sets : UnorderedMap String DataFrameSet) (frame : CanFrame) :
    UnorderedMap String DataFrameSet :=
  let iface := frame.header.interface
  sets.set iface (((sets iface).getD { interface := iface }).update frame)

/-- `log_frame` (`src/modes/log_frame.hpp`): the log, and the times of the last frames. -/
def logFrame (frame : CanFrame) (logger : Option McapLogger) (protoRegistry : ProtoLogRegistry pb)
    (lastTs : UnorderedMap (String × BitVec 32) Int) :
    Option McapLogger × UnorderedMap (String × BitVec 32) Int :=
  match logger with
  | none => (none, lastTs)
  | some logger =>
    let serialized := protoRegistry.serialize frame
    let protoLog := protoRegistry.get frame.header.interface
    let desc := protoLog.bind fun log => log.descriptor (frame.header.id.setWidth 64)
    let key := (frame.header.interface, frame.header.id)
    let ratioMs := (lastTs key).map fun last => ((frame.timestamp - last : Int) : ℚ) / 1000000
    (some (logger.log frame desc serialized ratioMs), lastTs.set key frame.timestamp)

def run_tui.onFrame (env : ReceiveEnv pb) (s : run_tui Lua) (incoming : Incoming) : run_tui Lua :=
  let frame := env.decoded incoming.frame
  let (engine, outputs) := runModel s.engine frame
  let logger := s.logger.map fun logger => outputs.foldl (fun logger output =>
    McapLogger.logScalar pb logger output.1 output.2 (incoming.clock output.1)) logger
  let (logger, lastFrameTs) := logFrame frame logger env.protoRegistry s.lastFrameTs
  { sets := TuiDataFrameSet.updateSets s.sets frame
    engine := engine
    logger := logger
    lastFrameTs := lastFrameTs
    broadcasts := env.broadcast s.broadcasts incoming.frame }

/-! ### What a sequence of frames comes to -/

/-- The decoded frames, the model after them, and the calls of the log that they cause. -/
structure Reception (pb : Protobuf) (Lua : Type) where
  frames : List CanFrame := []
  engine : Option (ModelEngine Lua)
  calls : List (LogCall pb) := []
  received : List CanFrame := []

namespace Reception

/-- The time of the last frame with an interface and an id. -/
def lastTs (s : Reception pb Lua) (key : String × BitVec 32) : Option Int :=
  (s.frames.reverse.find? fun frame => (frame.header.interface, frame.header.id) = key).map
    (·.timestamp)

def scalarCalls (clock : String → Int) (outputs : List (String × ℚ)) : List (LogCall pb) :=
  outputs.map fun output => .logScalar output.1 output.2 (clock output.1)

/-- The call for a frame: with the log of its interface, and the time since the last of its id. -/
def frameCall (env : ReceiveEnv pb) (s : Reception pb Lua) (frame : CanFrame) : LogCall pb :=
  .logFrame (env.protoRegistry.get frame.header.interface) frame
    ((s.lastTs (frame.header.interface, frame.header.id)).map fun last =>
      ((frame.timestamp - last : Int) : ℚ) / 1000000)

def onFrame (env : ReceiveEnv pb) (s : Reception pb Lua) (incoming : Incoming) : Reception pb Lua :=
  let frame := env.decoded incoming.frame
  let (engine, outputs) := runModel s.engine frame
  { frames := s.frames ++ [frame]
    engine := engine
    calls := s.calls ++ scalarCalls incoming.clock outputs ++ [s.frameCall env frame]
    received := s.received ++ [incoming.frame] }

/-- The rows of an interface. -/
def rows (s : Reception pb Lua) (iface : String) : DataFrameSet :=
  ({ interface := iface } : DataFrameSet).updates
    (s.frames.filter fun frame => frame.header.interface = iface)

def broadcasts (env : ReceiveEnv pb) (s : Reception pb Lua) : List CanFrame :=
  if env.grpcServer then s.received else []

end Reception

/-! ### One frame -/

/-- Decoding leaves what was received. -/
theorem decoded_eq (env : ReceiveEnv pb) (frame : CanFrame) :
    (env.decoded frame).header = frame.header ∧ (env.decoded frame).payload = frame.payload ∧
      (env.decoded frame).timestamp = frame.timestamp := by
  have hdecode : env.decoded frame =
      decodeWith env.casts (env.decoders.decoders frame.header.interface) frame := by
    unfold ReceiveEnv.decoded DecoderRegistry.decode decodeWith
    cases env.decoders.decoders frame.header.interface with
    | none => rfl
    | some decoder => rfl
  rw [hdecode]
  exact ⟨header_decodeWith .., payload_decodeWith .., timestamp_decodeWith ..⟩

namespace Reception

variable {env : ReceiveEnv pb} {s : Reception pb Lua} {incoming : Incoming}

theorem header_decoded (env : ReceiveEnv pb) (frame : CanFrame) :
    (env.decoded frame).header = frame.header := by
  unfold ReceiveEnv.decoded DecoderRegistry.decode
  cases env.decoders.decoders frame.header.interface with
  | none => rfl
  | some decoder => exact DbcPppWrapper.header_decode env.casts decoder frame

/-- A frame comes to the rows of its interface, and to no others. -/
theorem rows_onFrame (iface : String) :
    (s.onFrame env incoming).rows iface =
      if incoming.frame.header.interface = iface then
        (s.rows iface).update (env.decoded incoming.frame)
      else s.rows iface := by
  have hheader := header_decoded env incoming.frame
  change DataFrameSet.updates _ ((s.frames ++ [env.decoded incoming.frame]).filter _) = _
  rw [List.filter_append, DataFrameSet.updates, List.foldl_append]
  by_cases hiface : incoming.frame.header.interface = iface
  · rw [if_pos hiface, List.filter_cons_of_pos (by simpa [hheader] using hiface)]
    rfl
  · rw [if_neg hiface, List.filter_cons_of_neg (by simpa [hheader] using hiface)]
    rfl

theorem interface_rows (s : Reception pb Lua) (iface : String) : (s.rows iface).interface = iface := by
  unfold rows DataFrameSet.updates
  suffices h : ∀ (frames : List CanFrame) (set : DataFrameSet),
      (frames.foldl DataFrameSet.update set).interface = set.interface from h _ _
  intro frames
  induction frames with
  | nil => exact fun set => rfl
  | cons frame frames ih => exact fun set => ih (set.update frame)

/-- A frame's time is the last of its interface and id. -/
theorem lastTs_onFrame :
    (s.onFrame env incoming).lastTs =
      UnorderedMap.set s.lastTs
        ((env.decoded incoming.frame).header.interface, (env.decoded incoming.frame).header.id)
        (env.decoded incoming.frame).timestamp := by
  funext key
  rw [UnorderedMap.set_apply]
  change (((s.frames ++ [env.decoded incoming.frame]).reverse.find? _).map _) = _
  rw [List.reverse_append, List.reverse_singleton, List.singleton_append, List.find?_cons]
  by_cases hkey : ((env.decoded incoming.frame).header.interface,
      (env.decoded incoming.frame).header.id) = key
  · rw [if_pos hkey.symm]
    simp only [hkey, decide_true, Option.map_some]
  · rw [if_neg (Ne.symm hkey)]
    simp only [hkey, decide_false]
    rfl

theorem broadcasts_onFrame :
    (s.onFrame env incoming).broadcasts env =
      env.broadcast (s.broadcasts env) incoming.frame := by
  unfold broadcasts ReceiveEnv.broadcast
  cases env.grpcServer with
  | true => rfl
  | false => rfl

theorem ofCalls_append (calls calls' : List (LogCall pb)) :
    McapLogger.ofCalls (calls ++ calls') = calls'.foldl McapLogger.call (McapLogger.ofCalls calls) :=
  List.foldl_append

theorem foldl_scalarCalls (clock : String → Int) (outputs : List (String × ℚ)) (logger : McapLogger) :
    (scalarCalls clock outputs : List (LogCall pb)).foldl McapLogger.call logger =
      outputs.foldl (fun logger output =>
        McapLogger.logScalar pb logger output.1 output.2 (clock output.1)) logger :=
  List.foldl_map

/-- The log after the outputs of the model and the frame. -/
theorem ofCalls_onFrame :
    McapLogger.ofCalls (s.onFrame env incoming).calls =
      McapLogger.call
        ((runModel s.engine (env.decoded incoming.frame)).2.foldl (fun logger output =>
          McapLogger.logScalar pb logger output.1 output.2 (incoming.clock output.1))
          (McapLogger.ofCalls s.calls))
        (s.frameCall env (env.decoded incoming.frame)) := by
  change McapLogger.ofCalls (s.calls ++ scalarCalls _ _ ++ [_]) = _
  rw [ofCalls_append, ofCalls_append, foldl_scalarCalls]
  rfl

end Reception

/-! ### The log of a controller -/

namespace LogController

/-- The controller has this log and these times, and no log at all if it was not started. -/
structure Holds (logging : Bool) (logger : McapLogger)
    (lastTs : UnorderedMap (String × BitVec 32) Int) (c : LogController) : Prop where
  logger : c.logger = if logging then some logger else none
  lastTs : logging = true → c.lastTs = lastTs

theorem logScalars_eq (clock : String → Int) (outputs : List (String × ℚ)) (c : LogController) :
    c.logScalars pb clock outputs =
      { c with logger := c.logger.map fun logger => outputs.foldl (fun logger output =>
          McapLogger.logScalar pb logger output.1 output.2 (clock output.1)) logger } := by
  unfold logScalars
  induction outputs generalizing c with
  | nil =>
    cases c with
    | mk logger currentPath logStartTime lastTs => cases logger <;> rfl
  | cons output outputs ih =>
    rw [List.foldl_cons, ih, logScalar, Option.map_map]
    rfl

/-- The outputs of the model and then the frame come to the log. -/
theorem Holds.logFrame {logging : Bool} {env : ReceiveEnv pb} {s : Reception pb Lua}
    {c : LogController} (h : c.Holds logging (McapLogger.ofCalls s.calls) s.lastTs)
    (incoming : Incoming) :
    ((c.logScalars pb incoming.clock
        (runModel s.engine (env.decoded incoming.frame)).2).logCanFrame env.protoRegistry.get
          (env.decoded incoming.frame)).Holds logging
      (McapLogger.ofCalls (s.onFrame env incoming).calls) (s.onFrame env incoming).lastTs := by
  have hlogger := h.logger
  rw [logScalars_eq]
  cases logging with
  | false =>
    have hnone : c.logger = none := hlogger
    refine ⟨?_, fun hlogging => by cases hlogging⟩
    unfold logCanFrame
    rw [hnone]
    rfl
  | true =>
    have hsome : c.logger = some (McapLogger.ofCalls s.calls) := hlogger
    have hlast := h.lastTs rfl
    unfold logCanFrame
    rw [hsome]
    dsimp only [Option.map_some]
    refine ⟨?_, fun _ => ?_⟩
    · rw [Reception.ofCalls_onFrame, hlast]
      rfl
    · rw [Reception.lastTs_onFrame, hlast]

end LogController

/-! ### The front ends -/

section FrontEnds

variable {env : ReceiveEnv pb} {names : List String} {logging : Bool} {s : Reception pb Lua}

/-- The frames come from the socket of their interface. -/
def Incoming.From (names : List String) (incoming : Incoming) : Prop :=
  names[incoming.socket]? = some incoming.frame.header.interface

/-- Where names are distinct, the frames of a socket are those of its interface. -/
theorem filter_socket {names : List String} (hnodup : names.Nodup) {incomings : List Incoming}
    (hfrom : ∀ incoming ∈ incomings, incoming.From names) {i : Nat} (hi : i < names.length) :
    (incomings.filter fun incoming => incoming.socket = i) =
      incomings.filter fun incoming => incoming.frame.header.interface = names[i] := by
  apply List.filter_congr
  intro incoming hincoming
  obtain ⟨hlt, hget⟩ := List.getElem?_eq_some_iff.mp (hfrom incoming hincoming)
  rw [decide_eq_decide, ← hget]
  constructor
  · intro hsame
    subst hsame
    rfl
  · exact fun hsame => (List.Nodup.getElem_inj_iff hnodup).mp hsame

/-- The live mode has what the frames come to. -/
structure run_live.Shows (env : ReceiveEnv pb) (names : List String) (logging : Bool)
    (s : Reception pb Lua) (live : run_live Lua) : Prop where
  sets : live.sets = names.map s.rows
  engine : live.engine = s.engine
  log : live.logController.Holds logging (McapLogger.ofCalls s.calls) s.lastTs
  broadcasts : live.broadcasts = s.broadcasts env

/-- Where names are distinct, the rows of the socket are those of the interface. -/
theorem modify_rows (hnodup : names.Nodup) {incoming : Incoming} (hfrom : incoming.From names) :
    ((names.map s.rows).modify incoming.socket fun set =>
        set.update (env.decoded incoming.frame)) =
      names.map (s.onFrame env incoming).rows := by
  apply List.ext_getElem?
  intro j
  rw [List.getElem?_modify, List.getElem?_map, List.getElem?_map]
  cases hj : names[j]? with
  | none => rfl
  | some iface =>
    have hiff : incoming.socket = j ↔ incoming.frame.header.interface = iface := by
      constructor
      · rintro rfl
        rw [Incoming.From, hj] at hfrom
        exact (Option.some.inj hfrom).symm
      · rintro rfl
        obtain ⟨hi, hgeti⟩ := List.getElem?_eq_some_iff.mp hfrom
        obtain ⟨hj', hgetj⟩ := List.getElem?_eq_some_iff.mp hj
        exact (List.Nodup.getElem_inj_iff hnodup).mp (hgeti.trans hgetj.symm)
    rw [Option.map_some, Option.map_some, Option.map_eq_map, Option.map_some,
      Reception.rows_onFrame]
    by_cases hsocket : incoming.socket = j
    · rw [if_pos hsocket, if_pos (hiff.mp hsocket)]
    · rw [if_neg hsocket, if_neg fun h => hsocket (hiff.mpr h)]

/-- Asking first whether it logs makes no difference. -/
theorem run_live.logController_onFrame (live : run_live Lua) (incoming : Incoming) :
    (live.onFrame env incoming).logController =
      (live.logController.logScalars pb incoming.clock
        (runModel live.engine (env.decoded incoming.frame)).2).logCanFrame env.protoRegistry.get
          (env.decoded incoming.frame) := by
  have hguard : ∀ c : LogController,
      (if c.isLogging then c.logCanFrame env.protoRegistry.get (env.decoded incoming.frame) else c) =
        c.logCanFrame env.protoRegistry.get (env.decoded incoming.frame) := by
    intro c
    unfold LogController.logCanFrame LogController.isLogging
    cases c.logger with
    | none => rfl
    | some logger => rfl
  exact hguard _

theorem run_live.Shows.onFrame (hnodup : names.Nodup) {live : run_live Lua}
    (h : live.Shows env names logging s) {incoming : Incoming} (hfrom : incoming.From names) :
    (live.onFrame env incoming).Shows env names logging (s.onFrame env incoming) := by
  have hlog := @LogController.Holds.logFrame _ _ _ env _ _ h.log incoming
  refine ⟨?_, ?_, ?_, ?_⟩
  · change live.sets.modify _ _ = _
    rw [h.sets]
    exact modify_rows hnodup hfrom
  · change (runModel live.engine _).1 = _
    rw [h.engine]
    rfl
  · rw [← h.engine] at hlog
    rw [run_live.logController_onFrame]
    exact hlog
  · change env.broadcast live.broadcasts _ = _
    rw [h.broadcasts, Reception.broadcasts_onFrame]

/-- The GUI has it. -/
structure run_gui.Shows (env : ReceiveEnv pb) (names : List String) (logging : Bool)
    (s : Reception pb Lua) (gui : run_gui Lua) : Prop where
  traces : gui.traces = names.map s.rows
  engine : gui.engine = s.engine
  log : gui.logController.Holds logging (McapLogger.ofCalls s.calls) s.lastTs
  broadcasts : gui.broadcasts = s.broadcasts env

theorem run_gui.Shows.onFrame {gui : run_gui Lua} (h : gui.Shows env names logging s)
    (incoming : Incoming) :
    (gui.onFrame env incoming).Shows env names logging (s.onFrame env incoming) := by
  have hlog := @LogController.Holds.logFrame _ _ _ env _ _ h.log incoming
  refine ⟨?_, ?_, ?_, ?_⟩
  · change gui.traces.map _ = _
    rw [h.traces, List.map_map]
    apply List.map_congr_left
    intro iface _
    rw [Function.comp_apply, TraceWindow.update, Reception.interface_rows,
      Reception.header_decoded, Reception.rows_onFrame]
    by_cases hiface : incoming.frame.header.interface = iface
    · rw [if_neg (not_not_intro hiface), if_pos hiface]
    · rw [if_pos hiface, if_neg hiface]
  · change (runModel gui.engine _).1 = _
    rw [h.engine]
    rfl
  · rw [← h.engine] at hlog
    exact hlog
  · change env.broadcast gui.broadcasts _ = _
    rw [h.broadcasts, Reception.broadcasts_onFrame]

/-- And the TUI has it, with rows for the interfaces from which frames came. -/
structure run_tui.Shows (env : ReceiveEnv pb) (logging : Bool) (s : Reception pb Lua)
    (tui : run_tui Lua) : Prop where
  sets : ∀ iface, tui.sets iface =
    if s.frames.any fun frame => frame.header.interface = iface then some (s.rows iface) else none
  engine : tui.engine = s.engine
  logger : tui.logger = if logging then some (McapLogger.ofCalls s.calls) else none
  lastFrameTs : logging = true → tui.lastFrameTs = s.lastTs
  broadcasts : tui.broadcasts = s.broadcasts env

theorem run_tui.Shows.onFrame {tui : run_tui Lua} (h : tui.Shows env logging s)
    (incoming : Incoming) :
    (tui.onFrame env incoming).Shows env logging (s.onFrame env incoming) := by
  have hheader := Reception.header_decoded env incoming.frame
  have hlogger := h.logger
  refine ⟨?_, ?_, ?_, ?_, ?_⟩
  · intro iface
    have hrows : (tui.sets iface).getD { interface := iface } = s.rows iface := by
      rw [h.sets]
      split
      · rfl
      · next hnone =>
        -- An interface without frames has no rows yet.
        have hempty : s.frames.filter (fun frame => frame.header.interface = iface) = [] := by
          rw [List.filter_eq_nil_iff]
          intro frame hframe hsame
          exact hnone (List.any_eq_true.mpr ⟨frame, hframe, hsame⟩)
        rw [Reception.rows, hempty]
        rfl
    change TuiDataFrameSet.updateSets tui.sets (env.decoded incoming.frame) iface =
      if (s.frames ++ [env.decoded incoming.frame]).any _ = true then _ else _
    rw [TuiDataFrameSet.updateSets, UnorderedMap.set_apply, List.any_append, List.any_cons,
      List.any_nil, Bool.or_false, hheader]
    by_cases hiface : incoming.frame.header.interface = iface
    · rw [if_pos hiface.symm, decide_eq_true hiface, Bool.or_true, if_pos rfl, hiface, hrows,
        Reception.rows_onFrame, if_pos hiface]
    · rw [if_neg (Ne.symm hiface), decide_eq_false hiface, Bool.or_false, h.sets,
        Reception.rows_onFrame, if_neg hiface]
  · change (runModel tui.engine _).1 = _
    rw [h.engine]
    rfl
  · change (logFrame _ (tui.logger.map _) _ _).1 = _
    cases logging with
    | false =>
      have hnone : tui.logger = none := hlogger
      rw [hnone]
      rfl
    | true =>
      have hsome : tui.logger = some (McapLogger.ofCalls s.calls) := hlogger
      rw [hsome, Option.map_some, Reception.ofCalls_onFrame, h.engine, h.lastFrameTs rfl]
      rfl
  · intro hlogging
    subst hlogging
    change (logFrame _ (tui.logger.map _) _ _).2 = _
    have hsome : tui.logger = some (McapLogger.ofCalls s.calls) := hlogger
    rw [hsome, Option.map_some, Reception.lastTs_onFrame, h.lastFrameTs rfl]
    rfl
  · change env.broadcast tui.broadcasts _ = _
    rw [h.broadcasts, Reception.broadcasts_onFrame]

end FrontEnds

/-! ### Whole runs -/

def run_live.start (names : List String) (engine : Option (ModelEngine Lua))
    (logController : LogController) : run_live Lua where
  sets := names.map fun name => { interface := name }
  engine := engine
  logController := logController

def run_gui.start (names : List String) (engine : Option (ModelEngine Lua))
    (logController : LogController) : run_gui Lua where
  traces := names.map fun name => { interface := name }
  engine := engine
  logController := logController

def run_tui.start (engine : Option (ModelEngine Lua)) (logMode : Bool) : run_tui Lua where
  engine := engine
  logger := if logMode then some {} else none

/-- The controller after `if (app.log_mode) log_controller.start()`, which opens its file. -/
def LogController.ofMode (logEnv : LogEnv) (now steadyNow : Int) (logMode : Bool) : LogController :=
  if logMode then LogController.start logEnv now steadyNow .opened {} else {}

theorem LogController.holds_ofMode (logEnv : LogEnv) (now steadyNow : Int) (logMode : Bool) :
    (LogController.ofMode logEnv now steadyNow logMode).Holds logMode {} UnorderedMap.empty := by
  cases logMode with
  | false => exact ⟨rfl, fun h => by cases h⟩
  | true => exact ⟨rfl, fun _ => rfl⟩

/-- What the frames come to. -/
def Reception.ofFrames (env : ReceiveEnv pb) (engine : Option (ModelEngine Lua))
    (incomings : List Incoming) : Reception pb Lua :=
  run (Reception.onFrame env) { engine := engine } incomings

section Start

variable (env : ReceiveEnv pb) (logEnv : LogEnv) (now steadyNow : Int) (logMode : Bool)
  {names : List String} (engine : Option (ModelEngine Lua))

theorem live_shows (hnodup : names.Nodup) {incomings : List Incoming}
    (hfrom : ∀ incoming ∈ incomings, incoming.From names) :
    (run (run_live.onFrame env) (run_live.start names engine
        (LogController.ofMode logEnv now steadyNow logMode)) incomings).Shows env names logMode
      (Reception.ofFrames env engine incomings) := by
  induction incomings using List.reverseRecOn with
  | nil =>
    refine ⟨rfl, rfl, LogController.holds_ofMode logEnv now steadyNow logMode, ?_⟩
    cases hserver : env.grpcServer <;> simp [run_live.start, Reception.ofFrames,
      Reception.broadcasts, hserver]
  | append_singleton incomings incoming ih =>
    rw [Reception.ofFrames, run_append, run_append]
    apply run_live.Shows.onFrame hnodup
    · exact ih fun incoming' h => hfrom incoming' (List.mem_append_left _ h)
    · exact hfrom incoming (List.mem_append_right _ List.mem_cons_self)

theorem gui_shows (names : List String) (incomings : List Incoming) :
    (run (run_gui.onFrame env) (run_gui.start names engine
        (LogController.ofMode logEnv now steadyNow logMode)) incomings).Shows env names logMode
      (Reception.ofFrames env engine incomings) := by
  induction incomings using List.reverseRecOn with
  | nil =>
    refine ⟨rfl, rfl, LogController.holds_ofMode logEnv now steadyNow logMode, ?_⟩
    cases hserver : env.grpcServer <;> simp [run_gui.start, Reception.ofFrames,
      Reception.broadcasts, hserver]
  | append_singleton incomings incoming ih =>
    rw [Reception.ofFrames, run_append, run_append]
    exact run_gui.Shows.onFrame ih incoming

theorem tui_shows (incomings : List Incoming) :
    (run (run_tui.onFrame env) (run_tui.start engine logMode) incomings).Shows env logMode
      (Reception.ofFrames env engine incomings) := by
  induction incomings using List.reverseRecOn with
  | nil =>
    refine ⟨fun iface => rfl, rfl, rfl, fun _ => rfl, ?_⟩
    cases hserver : env.grpcServer <;> simp [run_tui.start, Reception.ofFrames,
      Reception.broadcasts, hserver]
  | append_singleton incomings incoming ih =>
    rw [Reception.ofFrames, run_append, run_append]
    exact run_tui.Shows.onFrame ih incoming

end Start

theorem received_ofFrames (env : ReceiveEnv pb) (engine : Option (ModelEngine Lua))
    (incomings : List Incoming) :
    (Reception.ofFrames env engine incomings).received = incomings.map (·.frame) := by
  induction incomings using List.reverseRecOn with
  | nil => rfl
  | append_singleton incomings incoming ih =>
    rw [Reception.ofFrames, run_append, List.map_append, ← ih]
    rfl

theorem frames_ofFrames (env : ReceiveEnv pb) (engine : Option (ModelEngine Lua))
    (incomings : List Incoming) :
    (Reception.ofFrames env engine incomings).frames =
      incomings.map fun incoming => env.decoded incoming.frame := by
  induction incomings using List.reverseRecOn with
  | nil => rfl
  | append_singleton incomings incoming ih =>
    rw [Reception.ofFrames, run_append, List.map_append, ← ih]
    rfl

/-- **The front ends agree.** Whatever frames arrive, in whatever order on whatever local sockets: the
live mode, the GUI and the TUI show the same rows for each interface, which are made of its decoded
frames; their models have the same variables, signals and outputs; their logs are the same; and the
remote clients get every frame as it was received. A GUI that is itself a remote client has no log of
its own (`local_lc`), and is not meant here. -/
theorem front_ends_agree (env : ReceiveEnv pb) (logEnv : LogEnv) (now steadyNow : Int)
    (logMode : Bool) (engine : Option (ModelEngine Lua)) {names : List String} (hnodup : names.Nodup)
    {incomings : List Incoming} (hfrom : ∀ incoming ∈ incomings, incoming.From names) :
    let controller := LogController.ofMode logEnv now steadyNow logMode
    let live := run (run_live.onFrame env) (run_live.start names engine controller) incomings
    let gui := run (run_gui.onFrame env) (run_gui.start names engine controller) incomings
    let tui := run (run_tui.onFrame env) (run_tui.start engine logMode) incomings
    let rows := (Reception.ofFrames env engine incomings).rows
    (live.sets = names.map rows ∧ gui.traces = names.map rows ∧
        ∀ iface, tui.sets iface =
          if iface ∈ incomings.map (·.frame.header.interface) then some (rows iface) else none) ∧
      (gui.engine = live.engine ∧ tui.engine = live.engine) ∧
      (gui.logController.logger = live.logController.logger ∧
        tui.logger = live.logController.logger) ∧
      ∀ broadcasts ∈ [live.broadcasts, gui.broadcasts, tui.broadcasts],
        broadcasts = if env.grpcServer then incomings.map (·.frame) else [] := by
  intro controller live gui tui rows
  have hlive := live_shows env logEnv now steadyNow logMode engine hnodup hfrom
  have hgui := gui_shows env logEnv now steadyNow logMode engine names incomings
  have htui := tui_shows env logMode engine incomings
  refine ⟨⟨hlive.sets, hgui.traces, ?_⟩, ⟨?_, ?_⟩, ⟨?_, ?_⟩, ?_⟩
  · intro iface
    have hseen : ((Reception.ofFrames env engine incomings).frames.any fun frame =>
        decide (frame.header.interface = iface)) = true ↔
        iface ∈ incomings.map (·.frame.header.interface) := by
      rw [frames_ofFrames, List.any_eq_true, List.mem_map]
      constructor
      · rintro ⟨frame, hframe, hsame⟩
        obtain ⟨incoming, hincoming, rfl⟩ := List.mem_map.mp hframe
        rw [Reception.header_decoded] at hsame
        exact ⟨incoming, hincoming, of_decide_eq_true hsame⟩
      · rintro ⟨incoming, hincoming, rfl⟩
        refine ⟨_, List.mem_map_of_mem hincoming, ?_⟩
        rw [Reception.header_decoded]
        exact decide_eq_true rfl
    have hsets := htui.sets iface
    by_cases hmem : iface ∈ incomings.map (·.frame.header.interface)
    · rw [if_pos hmem]
      rwa [if_pos (hseen.mpr hmem)] at hsets
    · rw [if_neg hmem]
      rwa [if_neg fun h => hmem (hseen.mp h)] at hsets
  · exact hgui.engine.trans hlive.engine.symm
  · exact htui.engine.trans hlive.engine.symm
  · exact hgui.log.logger.trans hlive.log.logger.symm
  · exact htui.logger.trans hlive.log.logger.symm
  · intro broadcasts hmem
    have hreceived : (Reception.ofFrames env engine incomings).broadcasts env =
        if env.grpcServer then incomings.map (·.frame) else [] := by
      rw [Reception.broadcasts, received_ofFrames]
    simp only [List.mem_cons, List.not_mem_nil, or_false] at hmem
    rcases hmem with rfl | rfl | rfl
    · exact hlive.broadcasts.trans hreceived
    · exact hgui.broadcasts.trans hreceived
    · exact htui.broadcasts.trans hreceived

/-- Frames from two sockets, one of them twice. -/
def crossing : List Incoming :=
  [⟨1, { header := { id := 0x10, interface := "vcan1", dlc := 0 }, payload := [] }, fun _ => 0⟩,
    ⟨0, { header := { id := 0x20, interface := "vcan0", dlc := 0 }, payload := [] }, fun _ => 0⟩,
    ⟨1, { header := { id := 0x10, interface := "vcan1", dlc := 0 }, payload := [],
          timestamp := 5000000 }, fun _ => 0⟩]

def crossingEnv : ReceiveEnv Protobuf.wire where
  casts := BitCasts.zero
  decoders := {}
  protoRegistry := {}
  grpcServer := true

/-- One DBC for two interfaces. -/
def statusCfgs : List InterfaceConfig := [⟨"vcan0", "status.dbc", ""⟩, ⟨"vcan1", "status.dbc", ""⟩]

def statusEnv : ReceiveEnv Protobuf.wire :=
  match ReceiveEnv.ofConfig BitCasts.zero (fun _ => .network (statusNetwork "speed")) true
    statusCfgs with
  | .ok env => env
  | .error _ => { casts := BitCasts.zero, decoders := {}, protoRegistry := {}, grpcServer := true }

/-- A script that adds up the speeds of one interface. -/
def summingEngine : ModelEngine ℚ where
  script := {
    path := "models/sum.lua"
    run := fun sum get =>
      let sum := sum + get "vcan1" "Status" "speed"
      (sum, some (.number sum)) }
  lua := 0

def statusIncoming (socket : Nat) (interface : String) (speed : BitVec 8) (timestamp : Int) :
    Incoming where
  socket := socket
  frame := { header := ⟨0x100, interface, 1⟩, payload := [speed], timestamp := timestamp }
  clock _ := 0

def statusFrames : List Incoming :=
  [statusIncoming 1 "vcan1" 3 0, statusIncoming 0 "vcan0" 5 7, statusIncoming 1 "vcan1" 4 5000000]

/-- They are decoded, shown, summed up, and logged in ten messages. -/
theorem front_ends_agree_crossing :
    let controller := LogController.ofMode ⟨none, "", fun _ => ⟨0, 0, 0, 0, 0, 0⟩⟩ 0 0 true
    let live := run (run_live.onFrame statusEnv)
      (run_live.start ["vcan0", "vcan1"] (some summingEngine) controller) statusFrames
    let gui := run (run_gui.onFrame statusEnv)
      (run_gui.start ["vcan0", "vcan1"] (some summingEngine) controller) statusFrames
    let tui := run (run_tui.onFrame statusEnv) (run_tui.start (some summingEngine) true) statusFrames
    gui.traces = live.sets ∧ gui.engine = live.engine ∧ tui.logger = live.logController.logger ∧
      tui.broadcasts = statusFrames.map (·.frame) ∧
      ((tui.sets "vcan1").bind fun set => (set.frames 0x100).map (·.decoded.map (·.value))) =
        some [4] ∧
      tui.engine.map (·.lua) = some 10 ∧ tui.logger.map (·.writer.messages.length) = some 10 := by
  intro controller live gui tui
  have hfrom : ∀ incoming ∈ statusFrames, incoming.From ["vcan0", "vcan1"] := by
    intro incoming hincoming
    simp only [statusFrames, List.mem_cons, List.not_mem_nil, or_false] at hincoming
    rcases hincoming with rfl | rfl | rfl <;> rfl
  obtain ⟨⟨hlive, hgui, -⟩, ⟨hengine, -⟩, ⟨-, hlogger⟩, hbroadcasts⟩ := front_ends_agree statusEnv
    ⟨none, "", fun _ => ⟨0, 0, 0, 0, 0, 0⟩⟩ 0 0 true (some summingEngine) (by decide) hfrom
  refine ⟨hgui.trans hlive.symm, hengine, hlogger, ?_, ?_, ?_, ?_⟩
  · apply hbroadcasts
    exact List.mem_cons_of_mem _ (List.mem_cons_of_mem _ List.mem_cons_self)
  · decide +kernel
  · decide +kernel
  · decide +kernel

end Caneo
