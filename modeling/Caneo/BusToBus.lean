import Caneo.CanReceive
import Caneo.ReplayedSends

/-!
# From one bus to another

A recording and its replay, from end to end: frames arrive at the sockets, the event loop hands them
to the callback of a front end, its log is a file, and `run_playback` sends what the file has. Other
readers of the bus then receive, on each interface, the frames that arrived there, in the order in
which the records of the file are read (`bus_to_bus`).

The records of a frame are found by topics and types that the logger makes up itself. A DBC with a
message called `RawFrame`, or an interface called `model`, could make others of the same name;
`PlainNames` says that there are none, and `keepsBuiltIn_of_plain` that this is enough.
-/

namespace Caneo

open BitField Containers EdgeTriggered McapReader Runs

variable {pb : Protobuf} {Lua : Type}

/-! ### The registries of a configuration -/

/-- The log of the interface was built from the DBC that the configuration names. -/
def FromConfig (files : String → DbcFile) (cfgs : List InterfaceConfig) (log : ProtoLog pb) : Prop :=
  ∃ cfg ∈ cfgs, ∃ network, files cfg.dbc = .network network ∧
    ProtoLog.ofNetwork pb cfg.name network = .ok log

theorem get_addInterface {files : String → DbcFile} {registry : ProtoLogRegistry pb}
    {cfg : InterfaceConfig} {iface : String} {log : ProtoLog pb}
    (h : (registry.addInterface files cfg.name cfg.dbc).get iface = some log) :
    registry.get iface = some log ∨ ∃ network, files cfg.dbc = .network network ∧
      ProtoLog.ofNetwork pb cfg.name network = .ok log := by
  unfold ProtoLogRegistry.addInterface at h
  split at h
  · exact Or.inl h
  · split at h
    · exact Or.inl h
    · next built hbuilt =>
      change UnorderedMap.set registry.logs cfg.name built iface = some log at h
      rw [UnorderedMap.set_apply] at h
      split at h
      · cases h
        right
        unfold ProtoLog.load at hbuilt
        split at hbuilt
        · cases hbuilt
        · cases hbuilt
        · next network hnetwork => exact ⟨network, hnetwork, hbuilt⟩
      · exact Or.inl h

theorem fromConfig_foldl {files : String → DbcFile} {cfgs : List InterfaceConfig}
    (rest : List InterfaceConfig) (hrest : ∀ cfg ∈ rest, cfg ∈ cfgs)
    {registry : ProtoLogRegistry pb}
    (hregistry : ∀ iface log, registry.get iface = some log → FromConfig files cfgs log) :
    ∀ iface log, (rest.foldl (fun registry cfg =>
        ProtoLogRegistry.addInterface files registry cfg.name cfg.dbc) registry).get iface =
      some log → FromConfig files cfgs log := by
  induction rest generalizing registry with
  | nil => exact hregistry
  | cons cfg rest ih =>
    apply ih fun cfg' hcfg' => hrest cfg' (List.mem_cons_of_mem _ hcfg')
    intro iface log hlog
    rcases get_addInterface hlog with hlog | ⟨network, hnetwork, hof⟩
    · exact hregistry iface log hlog
    · exact ⟨cfg, hrest cfg List.mem_cons_self, network, hnetwork, hof⟩

theorem fromConfig_ofConfig {casts : BitCasts} {files : String → DbcFile} {grpcServer : Bool}
    {cfgs : List InterfaceConfig} {env : ReceiveEnv pb}
    (henv : ReceiveEnv.ofConfig casts files grpcServer cfgs = .ok env) {iface : String}
    {log : ProtoLog pb} (hlog : env.protoRegistry.get iface = some log) :
    FromConfig files cfgs log := by
  obtain ⟨decoders, -, hpure⟩ := YAML.exists_of_bind_eq_ok henv
  cases hpure
  apply fromConfig_foldl _ (fun cfg hcfg => List.mem_of_mem_filter hcfg) ?_ iface log hlog
  intro iface log hnone
  cases hnone

/-! ### The names that the logger makes up -/

/-- The types that the logger brings along. -/
def builtInNames : List String := ["RawFrame", "ScalarValue"]

/-- No interface and no message has a name that the logger uses for something else. -/
def PlainNames (files : String → DbcFile) (cfgs : List InterfaceConfig) : Prop :=
  ∀ cfg ∈ cfgs, '/' ∉ cfg.name.toList ∧ cfg.name ≠ "model" ∧
    ∀ network, files cfg.dbc = .network network →
      ∀ msg ∈ ProtoLog.logged network, sanitize msg.name ∉ builtInNames

/-- The part of a topic before the first slash. -/
def firstPart (topic : String) : List Char := topic.toList.takeWhile (· ≠ '/')

theorem firstPart_append {iface : String} (hslash : '/' ∉ iface.toList) (rest : String) :
    firstPart (iface ++ "/" ++ rest) = iface.toList := by
  have hall : ∀ c ∈ iface.toList, decide (c ≠ '/') = true := by
    rintro c hc
    apply decide_eq_true
    rintro rfl
    exact hslash hc
  unfold firstPart
  rw [String.toList_append, String.toList_append, List.append_assoc,
    List.takeWhile_append_of_pos hall]
  exact List.append_nil _

/-- A record by how its topic begins and ends. -/
inductive PlainWrite (w : Write pb) : Prop where
  | data {iface : String} (hiface : iface ≠ "model") (hfirst : firstPart w.topic = iface.toList)
      (hlast : w.topic.toList.getLast? = some 'a') (hname : w.typeName ∉ builtInNames)
  | raw {iface : String} (hiface : iface ≠ "model") (hfirst : firstPart w.topic = iface.toList)
      (hlast : w.topic.toList.getLast? = some 'w') (htype : w.desc.type = rawFrameType)
  | ratio {iface : String} (hiface : iface ≠ "model") (hfirst : firstPart w.topic = iface.toList)
      (hlast : w.topic.toList.getLast? = some 'o') (htype : w.desc.type = scalarValueType)
  | model (hfirst : firstPart w.topic = "model".toList) (htype : w.desc.type = scalarValueType)

theorem typeName_eq (w : Write pb) : w.typeName = w.desc.type.name := rfl

/-- Where all records are so, the types of the logger are not mixed up. -/
theorem keepsBuiltIn_of_plain {ws : List (Write pb)} (h : ∀ w ∈ ws, PlainWrite w) :
    KeepsBuiltIn ws := by
  intro w₁ hw₁ hbuiltIn w₂ hw₂ hshare
  have hmodel : ∀ {iface : String}, iface ≠ "model" → iface.toList ≠ "model".toList :=
    fun hiface hsame => hiface (String.toList_inj.mp hsame)
  rcases hshare with htopic | hname
  · -- One topic begins and ends in one way.
    have hfirst : firstPart w₁.topic = firstPart w₂.topic := by rw [htopic]
    have hlast : w₁.topic.toList.getLast? = w₂.topic.toList.getLast? := by rw [htopic]
    rcases h w₁ hw₁ with ⟨hi₁, hf₁, hl₁, hn₁⟩ | ⟨hi₁, hf₁, hl₁, ht₁⟩ | ⟨hi₁, hf₁, hl₁, ht₁⟩ |
      ⟨hf₁, ht₁⟩
    · exfalso
      rw [typeName_eq] at hn₁
      rcases hbuiltIn with ht | ht
      · exact hn₁ (by rw [ht]; decide)
      · exact hn₁ (by rw [ht]; decide)
    · rcases h w₂ hw₂ with ⟨hi₂, hf₂, hl₂, -⟩ | ⟨-, -, -, ht₂⟩ | ⟨-, -, hl₂, -⟩ | ⟨hf₂, -⟩
      · rw [hl₁, hl₂] at hlast
        cases hlast
      · rw [ht₁, ht₂]
      · rw [hl₁, hl₂] at hlast
        cases hlast
      · exact absurd (hf₁.symm.trans (hfirst.trans hf₂)) (hmodel hi₁)
    · rcases h w₂ hw₂ with ⟨-, -, hl₂, -⟩ | ⟨-, -, hl₂, -⟩ | ⟨-, -, -, ht₂⟩ | ⟨-, ht₂⟩
      · rw [hl₁, hl₂] at hlast
        cases hlast
      · rw [hl₁, hl₂] at hlast
        cases hlast
      · rw [ht₁, ht₂]
      · rw [ht₁, ht₂]
    · rcases h w₂ hw₂ with ⟨hi₂, hf₂, -, -⟩ | ⟨hi₂, hf₂, -, -⟩ | ⟨-, -, -, ht₂⟩ | ⟨-, ht₂⟩
      · exact absurd (hf₂.symm.trans (hfirst.symm.trans hf₁)) (hmodel hi₂)
      · exact absurd (hf₂.symm.trans (hfirst.symm.trans hf₁)) (hmodel hi₂)
      · rw [ht₁, ht₂]
      · rw [ht₁, ht₂]
  · -- A type of this name is the logger's own.
    have hnames : w₂.typeName ∈ builtInNames := by
      rw [← hname, typeName_eq]
      rcases hbuiltIn with ht | ht
      · rw [ht]
        decide
      · rw [ht]
        decide
    have htype₂ : w₂.desc.type = rawFrameType ∨ w₂.desc.type = scalarValueType := by
      rcases h w₂ hw₂ with ⟨-, -, -, hn₂⟩ | ⟨-, -, -, ht₂⟩ | ⟨-, -, -, ht₂⟩ | ⟨-, ht₂⟩
      · exact absurd hnames hn₂
      · exact Or.inl ht₂
      · exact Or.inr ht₂
      · exact Or.inr ht₂
    rw [typeName_eq, typeName_eq] at hname
    rcases hbuiltIn with ht | ht <;> rcases htype₂ with ht₂ | ht₂ <;> rw [ht, ht₂] at hname ⊢
    · exact absurd hname (by decide)
    · exact absurd hname (by decide)

section Plain

variable {files : String → DbcFile} {cfgs : List InterfaceConfig}

/-- The type of a `/data` record comes from a DBC, or is that of the fallback. -/
theorem name_dataMessage (hplain : PlainNames files cfgs) {log : Option (ProtoLog pb)}
    (hlog : ∀ l, log = some l → FromConfig files cfgs l) {frame : CanFrame} {m : DynamicMessage pb}
    (hm : LogCall.dataMessage log frame = some m) : m.descriptor.type.name ∉ builtInNames := by
  rcases Option.or_eq_some_iff.mp hm with hbuilt | ⟨-, hfallback⟩
  · obtain ⟨l, rfl, hbuild⟩ := Option.bind_eq_some_iff.mp hbuilt
    obtain ⟨cfg, hcfg, network, hnetwork, hof⟩ := hlog l rfl
    have hdesc := ProtoLog.descriptor_buildMessage hof frame
    have htype := ProtoLog.descriptors_ofNetwork hof (frame.header.id.setWidth 64)
    rw [← hdesc, hbuild, Option.map_some, Option.map_some] at htype
    obtain ⟨msg, hfind, hmsg⟩ := Option.map_eq_some_iff.mp htype.symm
    have hmem : msg ∈ ProtoLog.logged network :=
      List.mem_reverse.mp (List.mem_of_find?_eq_some hfind)
    rw [← hmsg]
    exact (hplain cfg hcfg).2.2 network hnetwork msg hmem
  · obtain ⟨d, hd, rfl⟩ := Option.map_eq_some_iff.mp hfallback
    have htype := @type_of_builtIn pb rawCanFrameFile _ rfl d hd
    rw [descriptor_fallbackMessage, htype]
    decide

theorem plain_scalarWrites {topic : String} {value : ℚ} {ts : BitVec 64} {w : Write pb}
    (hw : w ∈ LogCall.scalarWrites topic value ts) :
    w.topic = topic ∧ w.desc.type = scalarValueType := by
  obtain ⟨d, hd, rfl⟩ := Option.map_eq_some_iff.mp (Option.mem_toList.mp hw)
  refine ⟨rfl, ?_⟩
  rw [Write.desc, descriptor_scalarMessage]
  exact type_of_builtIn rfl hd

theorem getLast?_suffix (topic suffix : String) (hsuffix : suffix.toList ≠ []) :
    (topic ++ suffix).toList.getLast? = suffix.toList.getLast? := by
  rw [String.toList_append, List.getLast?_append]
  cases hlast : suffix.toList.getLast? with
  | none => exact absurd (List.getLast?_eq_none_iff.mp hlast) hsuffix
  | some c => rfl

theorem plain_logFrame (hplain : PlainNames files cfgs) {log : Option (ProtoLog pb)}
    (hlog : ∀ l, log = some l → FromConfig files cfgs l) {frame : CanFrame}
    (hiface : frame.header.interface ∈ cfgs.map (·.name)) (updateRatioMs : Option ℚ) :
    ∀ w ∈ (LogCall.logFrame log frame updateRatioMs).writes, PlainWrite w := by
  obtain ⟨cfg, hcfg, hname⟩ := List.mem_map.mp hiface
  obtain ⟨hslash, hmodel, -⟩ := hplain cfg hcfg
  rw [hname] at hslash hmodel
  obtain ⟨name, htopic⟩ : ∃ name, McapLogger.baseTopic frame
      (log.bind fun log => log.descriptor (frame.header.id.setWidth 64)) =
        frame.header.interface ++ "/" ++ name := ⟨_, rfl⟩
  have hfirst : ∀ suffix : String, firstPart (frame.header.interface ++ "/" ++ name ++ suffix) =
      frame.header.interface.toList := by
    intro suffix
    rw [String.append_assoc]
    exact firstPart_append hslash _
  intro w hw
  unfold LogCall.writes at hw
  dsimp only at hw
  rw [htopic] at hw
  split at hw
  · cases hw
  · next m hm =>
    rcases List.mem_cons.mp hw with rfl | hw
    · exact .data hmodel (hfirst _) (getLast?_suffix _ _ (by decide))
        (name_dataMessage hplain hlog hm)
    · rcases List.mem_append.mp hw with hw | hw
      · obtain ⟨d, hd, rfl⟩ := Option.map_eq_some_iff.mp (Option.mem_toList.mp hw)
        refine .raw hmodel (hfirst _) (getLast?_suffix _ _ (by decide)) ?_
        rw [Write.desc, descriptor_rawMessage]
        exact type_of_builtIn rfl hd
      · cases updateRatioMs with
        | none => cases hw
        | some ratio =>
          obtain ⟨hwTopic, htype⟩ := plain_scalarWrites hw
          refine .ratio hmodel ?_ ?_ htype
          · rw [hwTopic]
            exact hfirst _
          · rw [hwTopic]
            exact getLast?_suffix _ _ (by decide)

theorem plain_logScalar (scriptPath name : String) (value : ℚ) (now : Int) :
    ∀ w ∈ (LogCall.logScalar (ModelEngine.topic scriptPath name) value now :
      LogCall pb).writes, PlainWrite w := by
  intro w hw
  obtain ⟨hwTopic, htype⟩ := plain_scalarWrites hw
  refine .model ?_ htype
  have hsplit : ModelEngine.topic scriptPath name =
      "model" ++ "/" ++ (stem scriptPath ++ "/" ++ name) := by
    rw [ModelEngine.topic, ← String.append_assoc, ← String.append_assoc]
    rfl
  rw [hwTopic, hsplit]
  exact firstPart_append (by decide) _

end Plain

/-! ### What a front end logs -/

namespace Reception

variable (env : ReceiveEnv pb) (engine : Option (ModelEngine Lua)) (incomings : List Incoming)

/-- The topics of the model's outputs are its own. -/
theorem mem_outputs {engine : Option (ModelEngine Lua)} {frame : CanFrame} {output : String × ℚ}
    (h : output ∈ (runModel engine frame).2) :
    ∃ scriptPath name, output.1 = ModelEngine.topic scriptPath name := by
  cases engine with
  | none => cases h
  | some engine =>
    obtain ⟨named, -, rfl⟩ := List.mem_map.mp h
    exact ⟨_, _, rfl⟩

/-- The calls of the log are outputs of the model, and frames with the log of their interface. -/
theorem mem_calls {c : LogCall pb} (h : c ∈ (ofFrames env engine incomings).calls) :
    (∃ scriptPath name value now,
        c = .logScalar (ModelEngine.topic scriptPath name) value now) ∨
      ∃ incoming ∈ incomings, ∃ ratio,
        c = .logFrame (env.protoRegistry.get incoming.frame.header.interface)
          (env.decoded incoming.frame) ratio := by
  induction incomings using List.reverseRecOn with
  | nil => cases h
  | append_singleton incomings incoming ih =>
    rw [ofFrames, run_append] at h
    change c ∈ (ofFrames env engine incomings).calls ++ scalarCalls _ _ ++ [_] at h
    rw [List.mem_append, List.mem_append, List.mem_singleton] at h
    rcases h with (h | h) | h
    · rcases ih h with hscalar | ⟨incoming', hincoming', hframe⟩
      · exact Or.inl hscalar
      · exact Or.inr ⟨incoming', List.mem_append_left _ hincoming', hframe⟩
    · left
      obtain ⟨output, houtput, rfl⟩ := List.mem_map.mp h
      obtain ⟨scriptPath, name, htopic⟩ := mem_outputs houtput
      exact ⟨scriptPath, name, output.2, incoming.clock output.1, by rw [htopic]⟩
    · right
      refine ⟨incoming, List.mem_append_right _ List.mem_cons_self, ?_⟩
      rw [h, frameCall, header_decoded]
      exact ⟨_, rfl⟩

/-- The frames of the calls are the decoded frames. -/
theorem filterMap_frame_calls :
    (ofFrames env engine incomings).calls.filterMap LogCall.frame =
      incomings.map fun incoming => env.decoded incoming.frame := by
  induction incomings using List.reverseRecOn with
  | nil => rfl
  | append_singleton incomings incoming ih =>
    have hscalars : ∀ (clock : String → Int) (outputs : List (String × ℚ)),
        (scalarCalls clock outputs : List (LogCall pb)).filterMap LogCall.frame = [] := by
      intro clock outputs
      rw [scalarCalls, List.filterMap_map, List.filterMap_eq_nil_iff]
      exact fun output _ => rfl
    rw [ofFrames, run_append]
    change ((ofFrames env engine incomings).calls ++ scalarCalls _ _ ++ [_]).filterMap _ = _
    rw [List.filterMap_append, List.filterMap_append, ih, hscalars, List.append_nil,
      List.map_append]
    rfl

end Reception

/-- What was logged is what was received, decoded. -/
theorem recordedFrames_ofFrames (env : ReceiveEnv pb) (engine : Option (ModelEngine Lua))
    (incomings : List Incoming) :
    recordedFrames (Reception.ofFrames env engine incomings).calls =
      (incomings.map (·.frame)).map env.decoded := by
  rw [recordedFrames, Reception.filterMap_frame_calls, List.map_map]
  rfl

theorem frameNs_decoded (env : ReceiveEnv pb) (frame : CanFrame) :
    McapLogger.frameNs (env.decoded frame) = McapLogger.frameNs frame := by
  rw [McapLogger.frameNs, McapLogger.frameNs, (decoded_eq env frame).2.2]

/-! ### What the sockets hand on -/

namespace CanSockets

/-- A frame comes from the socket of its interface, and it was read there. -/
theorem from_incomings {names : List String} {ls : List Label}
    (hsockets : ∀ l ∈ ls, ∀ socket datagram, l = .arrive socket datagram → socket < names.length) :
    ∀ incoming ∈ (run (step names) init ls).incomings,
      incoming.From names ∧ incoming.frame.Received := by
  intro incoming hincoming
  rw [(refines_run names ls).incomings] at hincoming
  obtain ⟨⟨socket, datagram, now, clock⟩, htaken, hof⟩ := List.mem_filterMap.mp hincoming
  obtain ⟨frame, hread, rfl⟩ := Option.map_eq_some_iff.mp hof
  have hsocket : socket < names.length := by
    obtain ⟨l, hl, harrive⟩ := List.mem_map.mp (arrive_of_taken htaken)
    cases l with
    | arrive socket' datagram' =>
      cases harrive
      exact hsockets _ hl socket datagram rfl
    | wake socket' => cases harrive
    | readFrame now' clock' => cases harrive
    | fail => cases harrive
  have hiface : frame.header.interface = names.getD socket "" := by
    dsimp only at hread
    unfold SocketCAN.readFrame at hread
    split at hread
    · cases hread
    · split at hread
      · cases hread
      · cases hread
        rfl
  constructor
  · change names[socket]? = some frame.header.interface
    rw [hiface, List.getD_eq_getElem?_getD, List.getElem?_eq_getElem hsocket, Option.getD_some]
  · refine ⟨now, datagram.msg, frame, ?_, rfl, rfl⟩
    rw [hiface]
    exact hread

end CanSockets

/-! ### From end to end -/

section EndToEnd

variable {casts : BitCasts} {files : String → DbcFile} {grpcServer : Bool}
  {cfgs : List InterfaceConfig} {env : ReceiveEnv pb}

/-- The calls that the frames of configured interfaces cause are plain. -/
theorem plain_calls (henv : ReceiveEnv.ofConfig casts files grpcServer cfgs = .ok env)
    (hplain : PlainNames files cfgs) (engine : Option (ModelEngine Lua)) {incomings : List Incoming}
    (hfrom : ∀ incoming ∈ incomings, incoming.frame.header.interface ∈ cfgs.map (·.name)) :
    ∀ c ∈ (Reception.ofFrames env engine incomings).calls,
      (c.FromDbc ∧ ∀ w ∈ c.writes, PlainWrite w) ∧
        ∀ frame, c.frame = some frame → '/' ∉ frame.header.interface.toList := by
  intro c hc
  rcases Reception.mem_calls env engine incomings hc with
    ⟨scriptPath, name, value, now, rfl⟩ | ⟨incoming, hincoming, ratio, rfl⟩
  · exact ⟨⟨trivial, plain_logScalar scriptPath name value now⟩, fun frame hframe => by cases hframe⟩
  · have hlog : ∀ log, env.protoRegistry.get incoming.frame.header.interface = some log →
        FromConfig files cfgs log := fun log hget => fromConfig_ofConfig henv hget
    have hiface := hfrom incoming hincoming
    rw [← Reception.header_decoded env] at hiface
    refine ⟨⟨?_, plain_logFrame hplain hlog hiface ratio⟩, ?_⟩
    · intro log hget
      obtain ⟨cfg, -, network, -, hof⟩ := hlog log hget
      exact ⟨cfg.name, network, hof⟩
    · intro frame hframe
      cases hframe
      obtain ⟨cfg, hcfg, hname⟩ := List.mem_map.mp hiface
      rw [← hname]
      exact (hplain cfg hcfg).1

theorem keepsBuiltIn_of_calls {calls : List (LogCall pb)}
    (h : ∀ c ∈ calls, ∀ w ∈ c.writes, PlainWrite w) : KeepsBuiltIn (calls.flatMap LogCall.writes) := by
  apply keepsBuiltIn_of_plain
  intro w hw
  obtain ⟨c, hc, hw⟩ := List.mem_flatMap.mp hw
  exact h c hc w hw

/-- What a replay puts on the bus is received with its header and its payload. -/
theorem map_contentOf_receive (env : ReceiveEnv pb) {frames : List CanFrame}
    (hframes : ∀ frame ∈ frames, frame.Received) {sockets : List String}
    (hsockets : ∀ frame ∈ frames, frame.header.interface ∈ sockets)
    (now : Int) :
    (receive now (((frames.map env.decoded).map CanFrame.raw).filterMap
      (run_playback.onSend sockets))).map contentOf = frames.map contentOf := by
  have hreceived : ∀ frame ∈ frames.map env.decoded, frame.Received := by
    intro frame hframe
    obtain ⟨frame', hframe', rfl⟩ := List.mem_map.mp hframe
    obtain ⟨hheader, hpayload, -⟩ := decoded_eq env frame'
    rw [CanFrame.Received, hheader, hpayload]
    exact hframes frame' hframe'
  have hall : (frames.map env.decoded).filter (fun frame => frame.header.interface ∈ sockets) =
      frames.map env.decoded := by
    rw [List.filter_eq_self]
    intro frame hframe
    obtain ⟨frame', hframe', rfl⟩ := List.mem_map.mp hframe
    rw [(decoded_eq env frame').1]
    exact decide_eq_true (hsockets frame' hframe')
  rw [receive_onSend sockets now hreceived, hall, List.map_map, List.map_map]
  apply List.map_congr_left
  intro frame _
  obtain ⟨hheader, hpayload, -⟩ := decoded_eq env frame
  change ((env.decoded frame).header, (env.decoded frame).payload) = _
  rw [hheader, hpayload]
  rfl

/-- **From one bus to another.** Whatever arrives at the sockets, however its reading and handling
interleave, and whatever the model computes from it: the three front ends leave the same log. A
replay of it without a controller, with sockets for all interfaces, puts back on the bus what the
callbacks were called with, in the order in which the records are read: at any moment the first of
it, and all of it in the end, which it can reach unless a write fails. Of each socket where nothing
waits, that is all that arrived. -/
theorem bus_to_bus (haccepts : AcceptsBuiltIn pb)
    (henv : ReceiveEnv.ofConfig casts files grpcServer cfgs = .ok env)
    (hnodup : (cfgs.map (·.name)).Nodup) (hplain : PlainNames files cfgs)
    (engine : Option (ModelEngine Lua)) (logEnv : LogEnv) (now steadyNow : Int)
    {ls : List CanSockets.Label}
    (hsockets : ∀ l ∈ ls, ∀ socket datagram, l = .arrive socket datagram → socket < cfgs.length) :
    let names := cfgs.map (·.name)
    let s := run (CanSockets.step names) CanSockets.init ls
    let controller := LogController.ofMode logEnv now steadyNow true
    let logger := McapLogger.ofCalls (Reception.ofFrames env engine s.incomings).calls
    (∀ found ∈ [
        (run (run_live.onFrame env) (run_live.start names engine controller)
          s.incomings).logController.logger,
        (run (run_gui.onFrame env) (run_gui.start names engine controller)
          s.incomings).logController.logger,
        (run (run_tui.onFrame env) (run_tui.start engine true) s.incomings).logger],
        found = some logger) ∧
      ∀ (r : Replay pb) (views : List mcap.Message), r.file = logger.writer → r.onSend = true →
        views.Perm r.file.messages →
        ∃ frames, InReadOrder r.file views (s.incomings.map (·.frame)) frames ∧
          ∀ (ctrl : PlaybackController) (playLs : List PlayThread.Label) (receiveNow : Int),
            let t := run (PlayThread.step (Player.stepAlone r) names) (PlayThread.start views ctrl)
              playLs
            let again := (receive receiveNow (t.written names)).map contentOf
            again <+: frames.map contentOf ∧
              (t.thrown = false → ∃ playLs', PlayThread.Label.throws ∉ playLs' ∧
                (run (PlayThread.step (Player.stepAlone r) names) t playLs').player.stage =
                  .finished) ∧
              (t.player.stage = .finished → again = frames.map contentOf ∧
                ∀ socket (hsocket : socket < names.length), s.waitingAt names socket = [] →
                  let back := again.filter fun content => content.1.interface = names[socket]
                  back.Perm (CanSockets.arrivedAt names socket ls) ∧
                    (views = r.file.messages → back = CanSockets.arrivedAt names socket ls)) := by
  intro names s controller logger
  have hfrom : ∀ incoming ∈ s.incomings, incoming.From names ∧ incoming.frame.Received := by
    apply CanSockets.from_incomings
    intro l hl socket datagram harrive
    rw [List.length_map]
    exact hsockets l hl socket datagram harrive
  have hmem : ∀ incoming ∈ s.incomings, incoming.frame.header.interface ∈ names :=
    fun incoming hincoming => List.mem_of_getElem? (hfrom incoming hincoming).1
  constructor
  · have hlive := live_shows env logEnv now steadyNow true engine hnodup fun incoming hincoming =>
      (hfrom incoming hincoming).1
    have hgui := gui_shows env logEnv now steadyNow true engine names s.incomings
    have htui := tui_shows env true engine s.incomings
    intro found hfound
    simp only [List.mem_cons, List.not_mem_nil, or_false] at hfound
    rcases hfound with rfl | rfl | rfl
    · exact hlive.log.logger
    · exact hgui.log.logger
    · exact htui.logger
  intro r views hfile hon hviews
  have hcalls := plain_calls henv hplain engine hmem
  obtain ⟨recorded, hrecorded, hruns⟩ := exists_replays haccepts (fun c hc => (hcalls c hc).1.1)
    (keepsBuiltIn_of_calls fun c hc => (hcalls c hc).1.2) (fun c hc => (hcalls c hc).2)
    hfile hon hviews
  rw [recordedFrames_ofFrames] at hrecorded
  obtain ⟨frames, horder, rfl⟩ := hrecorded.exists_of_map (frameNs_decoded env)
  refine ⟨frames, horder, ?_⟩
  intro ctrl playLs receiveNow t again
  have hreplays := hruns names ctrl playLs
  have hof : ∀ frame ∈ frames, ∃ incoming ∈ s.incomings, incoming.frame = frame :=
    fun frame hframe => List.mem_map.mp (horder.perm.mem_iff.mp hframe)
  have hall := map_contentOf_receive env
    (fun frame hframe => by
      obtain ⟨incoming, hincoming, rfl⟩ := hof frame hframe
      exact (hfrom incoming hincoming).2)
    (fun frame hframe => by
      obtain ⟨incoming, hincoming, rfl⟩ := hof frame hframe
      exact hmem incoming hincoming) receiveNow
  refine ⟨?_, hreplays.canFinish, ?_⟩
  · rw [← hall]
    exact (hreplays.prefixWritten.filterMap _).map contentOf
  · intro hfinished
    have hagain : again = frames.map contentOf := by
      rw [← hall, ← hreplays.finished hfinished]
    refine ⟨hagain, ?_⟩
    intro socket hsocket hwaiting back
    have harrived := CanSockets.handedTo_append_waitingAt names ls socket
    rw [hwaiting, List.append_nil] at harrived
    have hback : (((s.incomings.map (·.frame)).map contentOf).filter fun content =>
        content.1.interface = names[socket]) = CanSockets.arrivedAt names socket ls := by
      rw [← harrived, CanSockets.handedTo, List.map_map, List.filter_map, filter_socket hnodup
        (fun incoming hincoming => (hfrom incoming hincoming).1) hsocket]
      rfl
    constructor
    · rw [← hback]
      change (again.filter _).Perm _
      rw [hagain]
      exact (horder.perm.map contentOf).filter _
    · intro hsame
      rw [← hback, ← horder.inFileOrder hsame, ← hagain]

end EndToEnd

/-- Two sockets; the frame that came first is read last. -/
def crossedReads : List CanSockets.Label :=
  [.arrive 0 (stampedDatagram 0x10 1 5), .arrive 1 (stampedDatagram 0x20 2 7), .wake 1,
    .readFrame 0 (fun _ => 0), .readFrame 0 (fun _ => 0), .wake 0, .readFrame 0 (fun _ => 0),
    .arrive 0 (stampedDatagram 0x11 3 9), .readFrame 0 (fun _ => 0), .readFrame 0 (fun _ => 0)]

def twoCfgs : List InterfaceConfig := [⟨"vcan0", "", ""⟩, ⟨"vcan1", "", ""⟩]

def twoFiles : String → DbcFile := fun _ => .missing

def twoEnv : ReceiveEnv Protobuf.wire where
  casts := BitCasts.zero
  decoders := {}
  protoRegistry := {}
  grpcServer := false

def crossedReplay : Replay Protobuf.wire where
  hash _ := 0
  file :=
    let s := run (CanSockets.step (twoCfgs.map (·.name))) CanSockets.init crossedReads
    (McapLogger.ofCalls
      (Reception.ofFrames twoEnv (none : Option (ModelEngine Unit)) s.incomings).calls).writer
  onFrame := false

def crossedThread : PlayThread :=
  run (PlayThread.step (Player.stepAlone crossedReplay) (twoCfgs.map (·.name)))
    (PlayThread.start crossedReplay.file.messages (PlaybackController.new []))
    (playing (plays 0 10 ++ plays 100 30))

theorem twoCfgs_plainNames : PlainNames twoFiles twoCfgs := by
  intro cfg hcfg
  simp only [twoCfgs, List.mem_cons, List.not_mem_nil, or_false] at hcfg
  refine ⟨?_, ?_, fun network hnetwork => by cases hnetwork⟩ <;>
    rcases hcfg with rfl | rfl <;> decide

theorem bus_to_bus_crossed :
    (receive 0 (crossedThread.written (twoCfgs.map (·.name)))).map contentOf =
      [(⟨0x20, "vcan1", 1⟩, [2]), (⟨0x10, "vcan0", 1⟩, [1]), (⟨0x11, "vcan0", 1⟩, [3])] := by
  have hsockets : ∀ l ∈ crossedReads, ∀ socket datagram, l = .arrive socket datagram →
      socket < twoCfgs.length := by
    intro l hl socket datagram harrive
    subst harrive
    simp only [crossedReads, List.mem_cons, List.not_mem_nil, or_false, reduceCtorEq, false_or,
      CanSockets.Label.arrive.injEq] at hl
    rcases hl with ⟨rfl, -⟩ | ⟨rfl, -⟩ | ⟨rfl, -⟩ <;> decide
  have haccepts : AcceptsBuiltIn Protobuf.wire := by decide
  have henv : ReceiveEnv.ofConfig BitCasts.zero twoFiles false twoCfgs = .ok twoEnv := rfl
  obtain ⟨-, hreplay⟩ := bus_to_bus haccepts henv (by decide) twoCfgs_plainNames
    (none : Option (ModelEngine Unit)) ⟨none, "", fun _ => ⟨0, 0, 0, 0, 0, 0⟩⟩ 0 0 hsockets
  obtain ⟨frames, horder, hagain⟩ := hreplay crossedReplay crossedReplay.file.messages rfl rfl
    (List.Perm.refl _)
  have hfinished : crossedThread.player.stage = .finished := PlayStage.eq_finished (by decide +kernel)
  obtain ⟨-, -, hback⟩ := hagain (PlaybackController.new []) (playing (plays 0 10 ++ plays 100 30)) 0
  rw [crossedThread] at hfinished ⊢
  refine (hback hfinished).1.trans ?_
  rw [horder.inFileOrder rfl]
  decide +kernel

end Caneo
