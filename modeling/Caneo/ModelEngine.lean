import Caneo.LogSchemas
import Caneo.TopicNames
import Mathlib.Data.Finset.Image

/-!
# `ModelEngine`, and the topics of its outputs

A model is a Lua script that runs for every frame (`src/model/ModelEngine.cpp`). What its `run`
returns is logged on `model/<script>/<name>`, where the names of a table are the script's own.

The reader tells a frame's channel by the end of its topic, so an output whose name is `data` or
`raw`, or ends in `/data` or `/raw`, is taken for a message of an interface called `model`. Without
such an output the channels of the two kinds are exactly those that `McapLogger::log` created for
frames (`framesOnly_iff`).
-/

namespace Caneo

open BitField Containers McapReader

/-! ### The engine -/

/-- A Lua value; a number as the double it is read as. -/
inductive LuaObject where
  | nil
  | boolean (b : Bool)
  | number (v : ℚ)
  | string (s : String)
  | table (entries : List (LuaObject × LuaObject))

namespace LuaObject

def toDouble : LuaObject → Option ℚ
  | .number v => some v
  | _ => none

/-- `key.is<std::string>()` -/
def asString : LuaObject → Option String
  | .string s => some s
  | _ => none

end LuaObject

/-- `std::filesystem::path::stem`: the file name without its last extension. -/
def stem (path : String) : String :=
  let filename := (path.toList.reverse.takeWhile (· ≠ '/')).reverse
  let ext := filename.reverse.takeWhile (· ≠ '.')
  if filename = ['.', '.'] ∨ filename.length ≤ ext.length + 1 then String.ofList filename
  else String.ofList (filename.take (filename.length - (ext.length + 1)))

namespace ModelEngine

/-- The named outputs of one run. -/
def outputs : LuaObject → List (String × ℚ)
  | .table entries => entries.filterMap fun (key, val) =>
    key.asString.bind fun name => val.toDouble.map fun v => (name, v)
  | ret => (ret.toDouble.map fun v => ("output", v)).toList

def topic (scriptPath name : String) : String := "model/" ++ stem scriptPath ++ "/" ++ name

/-- What a run logs; it has no result if it fails. Each output is logged at its own time. -/
def onFrame {pb : Protobuf} (scriptPath : String) (result : Option LuaObject) (clock : String → Int) :
    List (LogCall pb) :=
  (result.elim [] outputs).map fun (name, v) => .logScalar (topic scriptPath name) v (clock name)

end ModelEngine

/-! ### What a reader finds in a file -/

namespace McapReader

def scanInterfaces (file : mcap.File) : Finset String :=
  (file.channels.filterMap fun channel =>
    let info := classifyTopic channel.topic
    if info.kind = .Raw ∧ info.iface ≠ "" then some info.iface else none).toFinset

/-- The messages of an interface. -/
def scanMessages (file : mcap.File) (iface : String) : Finset String :=
  (file.channels.filterMap fun channel =>
    let info := classifyTopic channel.topic
    if info.kind = .Data ∧ info.iface ≠ "" ∧ info.msgName ≠ "" ∧ info.iface = iface then
      some info.msgName
    else none).toFinset

end McapReader

/-! ### The property -/

/-- What is logged: a frame, or the outputs of a model. -/
inductive Logged (pb : Protobuf) where
  | canFrame (log : Option (ProtoLog pb)) (frame : CanFrame) (updateRatioMs : Option ℚ)
  | model (scriptPath : String) (result : Option LuaObject) (clock : String → Int)

variable {pb : Protobuf}

namespace Logged

def calls : Logged pb → List (LogCall pb)
  | .canFrame log frame updateRatioMs => [.logFrame log frame updateRatioMs]
  | .model scriptPath result clock => ModelEngine.onFrame scriptPath result clock

def outputNames : Logged pb → List String
  | .canFrame .. => []
  | .model _ result _ => (result.elim [] ModelEngine.outputs).map Prod.fst

end Logged

namespace LogCall

def IsFrame : LogCall pb → Prop
  | .logFrame .. => True
  | .logScalar .. => False

/-- The topics of the frame's own two records. -/
def frameTopics : LogCall pb → List String
  | .logFrame log frame _ =>
    let base := McapLogger.baseTopic frame
      (log.bind fun log => log.descriptor (frame.header.id.setWidth 64))
    [base ++ "/data", base ++ "/raw"]
  | .logScalar .. => []

def scalarTopics : LogCall pb → List String
  | .logFrame log frame updateRatioMs =>
    let base := McapLogger.baseTopic frame
      (log.bind fun log => log.descriptor (frame.header.id.setWidth 64))
    updateRatioMs.elim [] fun _ => [base ++ "/update_ratio"]
  | .logScalar topic _ _ => [topic]

end LogCall

/-- The channel was created when a frame was logged. -/
def CreatedByFrame (calls : List (LogCall pb)) (channel : mcap.Channel) : Prop :=
  ∃ before c after, calls = before ++ c :: after ∧ c.IsFrame ∧
    channel ∉ (McapLogger.ofCalls before).writer.channels ∧
    channel ∈ ((McapLogger.ofCalls before).call c).writer.channels

/-- Frames are presented as frames, and nothing else is. -/
structure FramesOnly (calls : List (LogCall pb)) : Prop where
  created : ∀ channel ∈ (McapLogger.ofCalls calls).writer.channels,
    (classifyTopic channel.topic).kind ≠ .Other → CreatedByFrame calls channel
  scalars : ∀ c ∈ calls, ∀ topic ∈ c.scalarTopics, (classifyTopic topic).kind = .Other
  interfaces : ∀ i ∈ scanInterfaces (McapLogger.ofCalls calls).writer,
    ∃ c ∈ calls, ∃ topic ∈ c.frameTopics, (classifyTopic topic).iface = i
  messages : ∀ i, ∀ name ∈ scanMessages (McapLogger.ofCalls calls).writer i,
    ∃ c ∈ calls, ∃ topic ∈ c.frameTopics, classifyTopic topic = ⟨.Data, i, name⟩
  played : ∀ (hash : String → BitVec 64) (now : Int),
    ∀ msg ∈ (McapLogger.ofCalls calls).writer.messages,
    ∀ channel, (McapLogger.ofCalls calls).writer.channels[msg.channelId]? = some channel →
    (∃ c ∈ calls, channel.topic ∈ c.scalarTopics) →
    deliver pb hash (McapLogger.ofCalls calls).writer now msg = none

/-- The name is not `data` or `raw`, and does not end in one of them after a slash. -/
def SafeName (name : String) : Prop :=
  ¬ "/data".toList <:+ '/' :: name.toList ∧ ¬ "/raw".toList <:+ '/' :: name.toList

instance (name : String) : Decidable (SafeName name) :=
  inferInstanceAs (Decidable (¬ _ ∧ ¬ _))

/-! ### Where channels come from -/

theorem channels_getOrRegisterSchema (logger : McapLogger) (desc : Descriptor pb) :
    (logger.getOrRegisterSchema desc).1.writer.channels = logger.writer.channels := by
  unfold McapLogger.getOrRegisterSchema
  split
  · rfl
  · rfl

theorem mem_channels_write {logger : McapLogger} {topic : String} {desc : Descriptor pb}
    {data : Bytes} {ts : BitVec 64} {channel : mcap.Channel}
    (h : channel ∈ (logger.write topic desc data ts).writer.channels) :
    channel ∈ logger.writer.channels ∨ channel.topic = topic := by
  rw [← channels_getOrRegisterSchema logger desc]
  unfold McapLogger.write McapLogger.getOrRegisterChannel at h
  dsimp only at h
  split at h
  · exact Or.inl h
  · rcases List.mem_append.mp h with h | h
    · exact Or.inl h
    · rw [List.mem_singleton.mp h]
      exact Or.inr rfl

theorem mem_channels_logScalarAt {logger : McapLogger} {topic : String} {value : ℚ} {ts : BitVec 64}
    {channel : mcap.Channel}
    (h : channel ∈ (McapLogger.logScalarAt pb logger topic value ts).writer.channels) :
    channel ∈ logger.writer.channels ∨ channel.topic = topic := by
  unfold McapLogger.logScalarAt at h
  split at h
  · exact Or.inl h
  · exact mem_channels_write h

theorem mem_channels_writeRaw {logger : McapLogger} {topic : String} {frame : CanFrame}
    {ts : BitVec 64} {channel : mcap.Channel}
    (h : channel ∈ (McapLogger.writeRaw pb logger topic frame ts).writer.channels) :
    channel ∈ logger.writer.channels ∨ channel.topic = topic := by
  unfold McapLogger.writeRaw at h
  split at h
  · exact Or.inl h
  · exact mem_channels_write h

/-- A call creates channels for its own topics only. -/
theorem mem_channels_call {logger : McapLogger} {c : LogCall pb} {channel : mcap.Channel}
    (h : channel ∈ (logger.call c).writer.channels) :
    channel ∈ logger.writer.channels ∨ channel.topic ∈ c.frameTopics ++ c.scalarTopics := by
  cases c with
  | logScalar topic value now =>
    rcases mem_channels_logScalarAt h with h | h
    · exact Or.inl h
    · exact Or.inr (List.mem_singleton.mpr h)
  | logFrame log frame updateRatioMs =>
    simp only [McapLogger.call, McapLogger.log] at h
    split at h
    · exact Or.inl h
    · have hdata : ∀ (base : String) (desc : Descriptor pb) (data : Bytes),
          channel ∈ (McapLogger.writeRaw pb (logger.write (base ++ "/data") desc data
            (McapLogger.frameNs frame)) (base ++ "/raw") frame
            (McapLogger.frameNs frame)).writer.channels →
          channel ∈ logger.writer.channels ∨ channel.topic ∈ [base ++ "/data", base ++ "/raw"] := by
        intro base desc data h
        rcases mem_channels_writeRaw h with h | h
        · rcases mem_channels_write h with h | h
          · exact Or.inl h
          · exact Or.inr (by simp [h])
        · exact Or.inr (by simp [h])
      cases updateRatioMs with
      | none =>
        rcases hdata _ _ _ h with h | h
        · exact Or.inl h
        · exact Or.inr (List.mem_append_left _ h)
      | some ratio =>
        rcases mem_channels_logScalarAt h with h | h
        · rcases hdata _ _ _ h with h | h
          · exact Or.inl h
          · exact Or.inr (List.mem_append_left _ h)
        · exact Or.inr (List.mem_append_right _ (List.mem_singleton.mpr h))

/-- Every channel was created by one of the calls, on one of its topics. -/
theorem exists_creator {calls : List (LogCall pb)} {channel : mcap.Channel}
    (h : channel ∈ (McapLogger.ofCalls calls).writer.channels) :
    ∃ before c after, calls = before ++ c :: after ∧
      channel ∉ (McapLogger.ofCalls before).writer.channels ∧
      channel ∈ ((McapLogger.ofCalls before).call c).writer.channels ∧
      channel.topic ∈ c.frameTopics ++ c.scalarTopics := by
  induction calls using List.reverseRecOn with
  | nil => cases h
  | append_singleton calls c ih =>
    by_cases hold : channel ∈ (McapLogger.ofCalls calls).writer.channels
    · obtain ⟨before, c', after, rfl, hnot, hmem, htopic⟩ := ih hold
      exact ⟨before, c', after ++ [c], by simp, hnot, hmem, htopic⟩
    · rw [McapLogger.ofCalls, List.foldl_append] at h
      refine ⟨calls, c, [], rfl, hold, h, ?_⟩
      rcases mem_channels_call h with hmem | htopic
      · exact absurd hmem hold
      · exact htopic

/-! ### The names of the outputs -/

theorem toList_topic (scriptPath name : String) : (ModelEngine.topic scriptPath name).toList =
    ("model/" ++ stem scriptPath).toList ++ '/' :: name.toList := by
  simp [ModelEngine.topic, String.toList_append]

/-- Whatever is cut off an output's topic, the slash after `model` is left. -/
theorem exists_splitTopic_topic (scriptPath name : String) (kind : ChannelKind) {w : List Char}
    (hw : w <:+ '/' :: name.toList) :
    ∃ info, splitTopic kind w (ModelEngine.topic scriptPath name).toList = some info ∧
      info.kind = kind := by
  obtain ⟨p, hp⟩ := hw
  have hcut : (ModelEngine.topic scriptPath name).toList =
      ("model".toList ++ '/' :: ((stem scriptPath).toList ++ p)) ++ w := by
    rw [toList_topic, ← hp]
    simp [String.toList_append]
  rw [hcut, splitTopic_append]
  exact ⟨_, rfl, rfl⟩

/-- The topic of an output is read as a frame's for the sake of its name. -/
theorem kind_classifyTopic_topic (scriptPath name : String) :
    (classifyTopic (ModelEngine.topic scriptPath name)).kind = .Other ↔ SafeName name := by
  have hdata := slash_suffix_append_iff (w := "data".toList) (by decide)
    ("model/" ++ stem scriptPath).toList name.toList
  have hraw := slash_suffix_append_iff (w := "raw".toList) (by decide)
    ("model/" ++ stem scriptPath).toList name.toList
  rw [← toList_topic] at hdata hraw
  constructor
  · intro hother
    refine ⟨?_, ?_⟩
    · intro hsuffix
      obtain ⟨info, hinfo, hk⟩ := exists_splitTopic_topic scriptPath name .Data hsuffix
      rw [classifyTopic, hinfo, Option.some_or, Option.getD_some, hk] at hother
      cases hother
    · intro hsuffix
      obtain ⟨info, hinfo, hk⟩ := exists_splitTopic_topic scriptPath name .Raw hsuffix
      have hnot : splitTopic .Data "/data".toList (ModelEngine.topic scriptPath name).toList = none := by
        apply splitTopic_eq_none
        intro hs
        -- The name cannot end in both.
        have hboth := List.suffix_of_suffix_length_le hsuffix (hdata.mp hs) (by decide)
        exact absurd hboth (by decide)
      rw [classifyTopic, hnot, Option.none_or, hinfo, Option.getD_some, hk] at hother
      cases hother
  · rintro ⟨hnodata, hnoraw⟩
    rw [kind_classifyTopic_of_not_suffix]
    · exact fun hs => hnodata (hdata.mp hs)
    · exact fun hs => hnoraw (hraw.mp hs)

theorem mem_scalarTopics_onFrame {scriptPath : String} {result : Option LuaObject}
    {clock : String → Int} {c : LogCall pb} (hc : c ∈ ModelEngine.onFrame scriptPath result clock)
    {topic : String} (htopic : topic ∈ c.scalarTopics) :
    ∃ name ∈ (result.elim [] ModelEngine.outputs).map Prod.fst,
      topic = ModelEngine.topic scriptPath name := by
  obtain ⟨⟨name, v⟩, hname, rfl⟩ := List.mem_map.mp hc
  exact ⟨name, List.mem_map_of_mem hname, List.mem_singleton.mp htopic⟩

/-- All scalar topics are read as such exactly if the names of the outputs are safe. -/
theorem scalars_iff (logged : List (Logged pb)) :
    (∀ c ∈ logged.flatMap Logged.calls, ∀ topic ∈ c.scalarTopics,
      (classifyTopic topic).kind = .Other) ↔
      ∀ l ∈ logged, ∀ name ∈ l.outputNames, SafeName name := by
  constructor
  · intro h l hl name hname
    cases l with
    | canFrame log frame updateRatioMs => cases hname
    | model scriptPath result clock =>
      obtain ⟨⟨name', v⟩, hout, rfl⟩ := List.mem_map.mp hname
      have hcall : LogCall.logScalar (ModelEngine.topic scriptPath name') v (clock name') ∈
          logged.flatMap Logged.calls :=
        List.mem_flatMap.mpr ⟨_, hl, List.mem_map.mpr ⟨_, hout, rfl⟩⟩
      exact (kind_classifyTopic_topic scriptPath name').mp
        (h _ hcall _ (List.mem_singleton.mpr rfl))
  · intro h c hc topic htopic
    obtain ⟨l, hl, hcl⟩ := List.mem_flatMap.mp hc
    cases l with
    | canFrame log frame updateRatioMs =>
      rw [List.mem_singleton.mp hcl] at htopic
      cases updateRatioMs with
      | none => cases htopic
      | some ratio =>
        rw [List.mem_singleton.mp htopic, classifyTopic_updateRatio]
    | model scriptPath result clock =>
      obtain ⟨name, hname, rfl⟩ := mem_scalarTopics_onFrame hcl htopic
      exact (kind_classifyTopic_topic scriptPath name).mpr (h _ hl name hname)

/-! ### What follows for the file -/

/-- A channel of a frame's kind has a frame's topic and was created for it. -/
theorem creator_of_kind {calls : List (LogCall pb)}
    (hscalars : ∀ c ∈ calls, ∀ topic ∈ c.scalarTopics, (classifyTopic topic).kind = .Other)
    {channel : mcap.Channel} (h : channel ∈ (McapLogger.ofCalls calls).writer.channels)
    (hkind : (classifyTopic channel.topic).kind ≠ .Other) :
    CreatedByFrame calls channel ∧ ∃ c ∈ calls, channel.topic ∈ c.frameTopics := by
  obtain ⟨before, c, after, rfl, hnot, hmem, htopic⟩ := exists_creator h
  have hc : c ∈ before ++ c :: after := List.mem_append_right _ List.mem_cons_self
  rcases List.mem_append.mp htopic with htopic | htopic
  · refine ⟨⟨before, c, after, rfl, ?_, hnot, hmem⟩, c, hc, htopic⟩
    cases c with
    | logFrame log frame updateRatioMs => trivial
    | logScalar topic value now => cases htopic
  · exact absurd (hscalars c hc _ htopic) hkind

theorem framesOnly_of_scalars {calls : List (LogCall pb)}
    (hscalars : ∀ c ∈ calls, ∀ topic ∈ c.scalarTopics, (classifyTopic topic).kind = .Other) :
    FramesOnly calls where
  created channel h hkind := (creator_of_kind hscalars h hkind).1
  scalars := hscalars
  interfaces i hi := by
    obtain ⟨channel, hchannel, hinfo⟩ := List.mem_filterMap.mp (List.mem_toFinset.mp hi)
    obtain ⟨⟨hkind, -⟩, hiface⟩ := Option.ite_none_right_eq_some.mp hinfo
    obtain ⟨-, c, hc, htopic⟩ := creator_of_kind hscalars hchannel (by rw [hkind]; decide)
    exact ⟨c, hc, channel.topic, htopic, Option.some.inj hiface⟩
  messages i name hname := by
    obtain ⟨channel, hchannel, hinfo⟩ := List.mem_filterMap.mp (List.mem_toFinset.mp hname)
    obtain ⟨⟨hkind, -, -, hiface⟩, hmsg⟩ := Option.ite_none_right_eq_some.mp hinfo
    obtain ⟨-, c, hc, htopic⟩ := creator_of_kind hscalars hchannel (by rw [hkind]; decide)
    refine ⟨c, hc, channel.topic, htopic, ?_⟩
    rw [← hkind, ← hiface, ← Option.some.inj hmsg]
  played hash now msg hmsg channel hchannel := by
    rintro ⟨c, hc, htopic⟩
    rw [deliver, hchannel, Option.bind_some]
    dsimp only
    rw [hscalars c hc _ htopic]

/-- **When only frames are taken for frames.** For any frames and any runs of any models: the
channels of kind Data and Raw are those that were created for frames, and all scalars are of kind
Other, if and only if no output is named `data` or `raw` or ends in `/data` or `/raw`. -/
theorem framesOnly_iff (logged : List (Logged pb)) :
    FramesOnly (logged.flatMap Logged.calls) ↔
      ∀ l ∈ logged, ∀ name ∈ l.outputNames, SafeName name := by
  rw [← scalars_iff]
  constructor
  · intro h
    exact h.scalars
  · intro h
    exact framesOnly_of_scalars h

/-- A script that returns a value called `data`: the reader finds a message `brake` of an interface
`model`. -/
theorem not_framesOnly_data :
    let logged : List (Logged Protobuf.wire) :=
      [.model "models/brake.lua" (some (.table [(.string "data", .number 1)])) fun _ => 0]
    let file := (McapLogger.ofCalls (logged.flatMap Logged.calls)).writer
    file.channels.map (fun channel => classifyTopic channel.topic) = [⟨.Data, "model", "brake"⟩] ∧
      scanMessages file "model" = {"brake"} ∧ ¬ FramesOnly (logged.flatMap Logged.calls) := by
  intro logged file
  have htopics : file.channels.map (·.topic) = ["model/brake/data"] := by decide +kernel
  have hclass : classifyTopic "model/brake/data" = ⟨.Data, "model", "brake"⟩ := by decide +kernel
  refine ⟨?_, by decide +kernel, ?_⟩
  · have := congrArg (List.map classifyTopic) htopics
    simpa [hclass, List.map_map, Function.comp_def] using this
  · intro h
    have htopic : ModelEngine.topic "models/brake.lua" "data" = "model/brake/data" := by
      decide +kernel
    have hscalar := h.scalars (.logScalar (ModelEngine.topic "models/brake.lua" "data") 1 0)
      List.mem_cons_self _ List.mem_cons_self
    rw [htopic, hclass] at hscalar
    cases hscalar

end Caneo
