import Caneo.Interning
import Caneo.McapReader

/-!
# Which schema a record is read by

The logger has two caches that are filled in call order: a schema for each message type name, and a
channel for each topic. A record is therefore read by the type that was first logged under the name
of the type that was first logged on its topic (`descriptorOf_records`).

That is the type it was written with, for every record of a log, exactly when the records agree:
no two of them have one topic or one type name, but different types (`readBack_iff`). Two interfaces
whose DBCs use one message name for different signals do not agree.
-/

namespace Caneo

open BitField Containers

/-! ### Calls and what they write -/

/-- A call of the logger: for a frame, with the descriptor and the bytes that the interface's
`ProtoLog` (if it has one) gives for it, or for a scalar. -/
inductive LogCall (pb : Protobuf) where
  | logFrame (log : Option (ProtoLog pb)) (frame : CanFrame) (updateRatioMs : Option ℚ)
  | logScalar (topic : String) (value : ℚ) (now : Int)

/-- One record: its topic, and the message that is serialized into it. -/
structure Write (pb : Protobuf) where
  topic : String
  message : DynamicMessage pb
  ts : BitVec 64

variable {pb : Protobuf}

def Write.desc (w : Write pb) : Descriptor pb := w.message.descriptor

def Write.typeName (w : Write pb) : String := w.desc.fullName

def McapLogger.call (logger : McapLogger) : LogCall pb → McapLogger
  | .logFrame log frame updateRatioMs =>
    logger.log frame (log.bind fun log => log.descriptor (frame.header.id.setWidth 64))
      (log.elim [] fun log => log.serialize frame) updateRatioMs
  | .logScalar topic value now => McapLogger.logScalar pb logger topic value now

/-- The log that a sequence of calls leaves. -/
def McapLogger.ofCalls (calls : List (LogCall pb)) : McapLogger := calls.foldl McapLogger.call {}

namespace LogCall

/-- The call's `ProtoLog` was built from a DBC. -/
def FromDbc : LogCall pb → Prop
  | .logFrame log _ _ => ∀ l, log = some l →
      ∃ interface network, ProtoLog.ofNetwork pb interface network = .ok l
  | .logScalar _ _ _ => True

def scalarWrites (topic : String) (value : ℚ) (ts : BitVec 64) : List (Write pb) :=
  ((McapLogger.getScalarDescriptor pb).map fun desc =>
    ⟨topic, McapLogger.scalarMessage desc value, ts⟩).toList

def rawWrites (topic : String) (frame : CanFrame) (ts : BitVec 64) : List (Write pb) :=
  ((McapLogger.getRawDescriptor pb).map fun desc =>
    ⟨topic, McapLogger.rawMessage desc frame, ts⟩).toList

def dataMessage (log : Option (ProtoLog pb)) (frame : CanFrame) : Option (DynamicMessage pb) :=
  (log.bind fun log => log.buildMessage frame).or
    ((McapLogger.getFallbackDescriptor pb).map fun desc => McapLogger.fallbackMessage desc frame)

/-- The records that a call writes. -/
def writes : LogCall pb → List (Write pb)
  | .logFrame log frame updateRatioMs =>
    let topic := McapLogger.baseTopic frame
      (log.bind fun log => log.descriptor (frame.header.id.setWidth 64))
    let ts := McapLogger.frameNs frame
    match dataMessage log frame with
    | none => []
    | some m =>
      ⟨topic ++ "/data", m, ts⟩ :: (rawWrites (topic ++ "/raw") frame ts ++
        updateRatioMs.elim [] fun ratio => scalarWrites (topic ++ "/update_ratio") ratio ts)
  | .logScalar topic value now => scalarWrites topic value (BitVec.ofInt 64 now)

end LogCall

/-! ### The property, and when it holds -/

/-- The record's schema is the type it was written with, and its fields are read back. -/
structure ReadBack (file : mcap.File) (msg : mcap.Message) (w : Write pb) : Prop where
  schema : (McapReader.descriptorOf pb file msg).map (·.type) = some w.desc.type
  fields : (McapReader.parse pb file msg).map (·.fields) = some w.message.fields

/-- Records that share a topic or a type name have the same type. -/
def Agree (ws : List (Write pb)) : Prop :=
  ∀ w₁ ∈ ws, ∀ w₂ ∈ ws, w₁.topic = w₂.topic ∨ w₁.typeName = w₂.typeName →
    w₁.desc.type = w₂.desc.type

instance (ws : List (Write pb)) : Decidable (Agree ws) :=
  inferInstanceAs (Decidable (∀ w₁ ∈ ws, ∀ w₂ ∈ ws, _))

/-- A `/data` record that is read back delivers every double that was written, under its name. -/
theorem ReadBack.mem_decoded {file : mcap.File} {msg : mcap.Message} {w : Write pb}
    (h : ReadBack file msg w) {channel : mcap.Channel}
    (hchannel : file.channels[msg.channelId]? = some channel)
    (hkind : (McapReader.classifyTopic channel.topic).kind = .Data) (hash : String → BitVec 64)
    (now : Int) {name : String} {v : ℚ} (hv : w.message.fields name = some (.double v)) :
    ∃ frame, McapReader.deliver pb hash file now msg = some (.onFrame frame) ∧
      ({ name := name, value := v, unit := "" } : DecodedSignal) ∈ frame.decoded := by
  obtain ⟨m, hparse, hfields⟩ := Option.map_eq_some_iff.mp h.fields
  refine ⟨McapReader.rebuiltFrame hash (McapReader.classifyTopic channel.topic) m now, ?_, ?_⟩
  · simp [McapReader.deliver, hchannel, hkind, hparse]
  · rw [← hfields] at hv
    exact McapReader.mem_decodedSignals hv

/-! ### The calls as a sequence of records -/

def McapLogger.put (logger : McapLogger) (w : Write pb) : McapLogger :=
  logger.write w.topic w.desc w.message.serializeToString w.ts

theorem descriptor_addBytes (payload : Bytes) (m : DynamicMessage pb) (f : FieldDescriptorProto) :
    (McapLogger.addBytes payload m f).descriptor = m.descriptor := by
  unfold McapLogger.addBytes
  induction payload generalizing m with
  | nil => rfl
  | cons byte payload ih =>
    rw [List.foldl_cons, ih]
    exact DynamicMessage.descriptor_set _ _ _

@[simp] theorem descriptor_fallbackMessage (desc : Descriptor pb) (frame : CanFrame) :
    (McapLogger.fallbackMessage desc frame).descriptor = desc :=
  DynamicMessage.descriptor_withField _ _ _ fun f => descriptor_addBytes _ _ f

@[simp] theorem descriptor_scalarMessage (desc : Descriptor pb) (value : ℚ) :
    (McapLogger.scalarMessage desc value).descriptor = desc :=
  DynamicMessage.descriptor_withField _ _ _ fun _ => DynamicMessage.descriptor_set _ _ _

@[simp] theorem descriptor_rawMessage (desc : Descriptor pb) (frame : CanFrame) :
    (McapLogger.rawMessage desc frame).descriptor = desc := by
  refine (DynamicMessage.descriptor_withField _ _ _ fun f => descriptor_addBytes _ _ f).trans ?_
  exact DynamicMessage.descriptor_withField _ _ _ fun _ => DynamicMessage.descriptor_set _ _ _

theorem logScalarAt_eq (logger : McapLogger) (topic : String) (value : ℚ) (ts : BitVec 64) :
    McapLogger.logScalarAt pb logger topic value ts =
      (LogCall.scalarWrites topic value ts : List (Write pb)).foldl McapLogger.put logger := by
  unfold McapLogger.logScalarAt LogCall.scalarWrites
  cases McapLogger.getScalarDescriptor pb with
  | none => rfl
  | some desc => simp [McapLogger.put, Write.desc]

theorem writeRaw_eq (logger : McapLogger) (topic : String) (frame : CanFrame) (ts : BitVec 64) :
    McapLogger.writeRaw pb logger topic frame ts =
      (LogCall.rawWrites topic frame ts : List (Write pb)).foldl McapLogger.put logger := by
  unfold McapLogger.writeRaw LogCall.rawWrites
  cases McapLogger.getRawDescriptor pb with
  | none => rfl
  | some desc => simp [McapLogger.put, Write.desc]

/-- The data record in terms of its message. -/
theorem dataRecord_eq {log : Option (ProtoLog pb)} (hlog : ∀ l, log = some l →
      ∃ interface network, ProtoLog.ofNetwork pb interface network = .ok l) (frame : CanFrame) :
    McapLogger.dataRecord frame
        (log.bind fun log => log.descriptor (frame.header.id.setWidth 64))
        (log.elim [] fun log => log.serialize frame) =
      (LogCall.dataMessage log frame).map fun m => (m.descriptor, m.serializeToString) := by
  have hfallback : (McapLogger.getFallbackDescriptor pb).map (fun desc =>
        (desc, (McapLogger.fallbackMessage desc frame).serializeToString)) =
      ((McapLogger.getFallbackDescriptor pb).map fun desc =>
        McapLogger.fallbackMessage desc frame).map fun m => (m.descriptor, m.serializeToString) := by
    simp [Function.comp_def]
  unfold LogCall.dataMessage McapLogger.dataRecord
  cases log with
  | none => exact hfallback
  | some l =>
    obtain ⟨interface, network, hof⟩ := hlog l rfl
    have hdesc := ProtoLog.descriptor_buildMessage hof frame
    rw [Option.bind_some, Option.bind_some, ← hdesc, Option.elim_some, ProtoLog.serialize]
    cases l.buildMessage frame with
    | none => exact hfallback
    | some m => rfl

theorem call_eq (logger : McapLogger) {c : LogCall pb} (hc : c.FromDbc) :
    logger.call c = c.writes.foldl McapLogger.put logger := by
  cases c with
  | logScalar topic value now => exact logScalarAt_eq _ _ _ _
  | logFrame log frame updateRatioMs =>
    have hdata := dataRecord_eq hc frame
    unfold McapLogger.call McapLogger.log LogCall.writes
    simp only [hdata]
    cases LogCall.dataMessage log frame with
    | none => rfl
    | some m =>
      simp only [Option.map_some, List.foldl_cons, List.foldl_append, writeRaw_eq]
      cases updateRatioMs with
      | none => rfl
      | some ratio => exact logScalarAt_eq _ _ _ _

theorem ofCalls_eq {calls : List (LogCall pb)} (hcalls : ∀ c ∈ calls, c.FromDbc) :
    McapLogger.ofCalls calls = (calls.flatMap LogCall.writes).foldl McapLogger.put {} := by
  suffices hgen : ∀ logger : McapLogger, calls.foldl McapLogger.call logger =
      (calls.flatMap LogCall.writes).foldl McapLogger.put logger from hgen _
  induction calls with
  | nil => intro logger; rfl
  | cons c calls ih =>
    intro logger
    rw [List.foldl_cons, call_eq logger (hcalls c List.mem_cons_self),
      ih fun c' hc' => hcalls c' (List.mem_cons_of_mem _ hc'), List.flatMap_cons,
      List.foldl_append]

/-! ### The two caches -/

namespace McapLogger

def schemaTable (logger : McapLogger) : InternTable String mcap.Schema :=
  ⟨logger.schemas, logger.writer.schemas⟩

def channelTable (logger : McapLogger) : InternTable String mcap.Channel :=
  ⟨logger.channels, logger.writer.channels⟩

theorem lookup_channelTable {logger : McapLogger} {topic : String} {id : Nat}
    (hid : logger.channels topic = some id) :
    logger.channelTable.lookup topic = logger.writer.channels[id]? := by
  rw [InternTable.lookup, show logger.channelTable.ids topic = some id from hid]
  rfl

theorem getOrRegisterSchema_eq (logger : McapLogger) (descriptor : Descriptor pb) :
    let t := logger.schemaTable.intern descriptor.fullName (mcap.Schema.ofDescriptor descriptor)
    logger.getOrRegisterSchema descriptor =
      ({ logger with
          writer := { logger.writer with schemas := t.1.entries }, schemas := t.1.ids }, t.2) := by
  unfold getOrRegisterSchema InternTable.intern schemaTable
  cases h : logger.schemas descriptor.fullName with
  | none => simp only [h]
  | some id => simp only [h]

theorem getOrRegisterChannel_eq (logger : McapLogger) (topic : String) (schemaId : Nat) :
    let t := logger.channelTable.intern topic ⟨topic, "protobuf", schemaId⟩
    logger.getOrRegisterChannel topic schemaId =
      ({ logger with
          writer := { logger.writer with channels := t.1.entries }, channels := t.1.ids }, t.2) := by
  unfold getOrRegisterChannel InternTable.intern channelTable
  cases h : logger.channels topic with
  | none => simp only [h]
  | some id => simp only [h]

/-- The three effects of writing a record. -/
theorem put_eq (logger : McapLogger) (w : Write pb) :
    ∃ schemaId channelId,
      logger.schemaTable.intern w.typeName (mcap.Schema.ofDescriptor w.desc) =
        ((logger.put w).schemaTable, schemaId) ∧
      logger.channelTable.intern w.topic ⟨w.topic, "protobuf", schemaId⟩ =
        ((logger.put w).channelTable, channelId) ∧
      (logger.put w).writer.messages = logger.writer.messages ++
        [⟨channelId, 0, w.ts, w.ts, w.message.serializeToString⟩] := by
  unfold put write
  simp only [getOrRegisterSchema_eq, getOrRegisterChannel_eq]
  exact ⟨_, _, rfl, rfl, rfl⟩

/-- What the log knows after the records `ws`. -/
structure Recorded (ws : List (Write pb)) (logger : McapLogger) : Prop where
  schemasNumbered : logger.schemaTable.Numbered
  schema : ∀ name, logger.schemaTable.lookup name =
    (ws.find? fun w => w.typeName = name).map fun w => mcap.Schema.ofDescriptor w.desc
  channelsNumbered : logger.channelTable.Numbered
  channel : ∀ topic, logger.channelTable.lookup topic =
    (ws.find? fun w => w.topic = topic).bind fun w =>
      (logger.schemas w.typeName).map fun id => ⟨topic, "protobuf", id⟩
  messages : List.Forall₂ (fun msg w => logger.channels w.topic = some msg.channelId ∧
    msg.data = w.message.serializeToString) logger.writer.messages ws

theorem Recorded.init : Recorded ([] : List (Write pb)) {} where
  schemasNumbered k id h := by cases h
  schema name := rfl
  channelsNumbered k id h := by cases h
  channel topic := rfl
  messages := List.Forall₂.nil

/-- A logged type name has a number. -/
theorem Recorded.exists_schemaId {ws : List (Write pb)} {logger : McapLogger}
    (h : Recorded ws logger) {w : Write pb} (hw : w ∈ ws) :
    ∃ id w₁, logger.schemas w.typeName = some id ∧
      (ws.find? fun w' => w'.typeName = w.typeName) = some w₁ ∧
      logger.writer.schemas[id]? = some (mcap.Schema.ofDescriptor w₁.desc) := by
  have hschema := h.schema w.typeName
  obtain ⟨w₁, -, hfind, -⟩ := exists_find?_key Write.typeName hw
  rw [hfind, Option.map_some, InternTable.lookup] at hschema
  obtain ⟨id, hid, hentry⟩ := Option.bind_eq_some_iff.mp hschema
  exact ⟨id, w₁, hid, hfind, hentry⟩

theorem Recorded.put {ws : List (Write pb)} {logger : McapLogger} (h : Recorded ws logger)
    (w : Write pb) : Recorded (ws ++ [w]) (logger.put w) := by
  obtain ⟨schemaId, channelId, hschemas, hchannels, hmessages⟩ := logger.put_eq w
  have hschemas₁ : _ = (logger.put w).schemaTable := congrArg Prod.fst hschemas
  have hchannels₁ : _ = (logger.put w).channelTable := congrArg Prod.fst hchannels
  have hkept : ∀ name id, logger.schemas name = some id → (logger.put w).schemas name = some id := by
    intro name id hid
    have := InternTable.ids_intern_of_some (t := logger.schemaTable) hid w.typeName
      (mcap.Schema.ofDescriptor w.desc)
    rwa [hschemas] at this
  have hschemaId : (logger.put w).schemas w.typeName = some schemaId := by
    have := logger.schemaTable.ids_intern_self w.typeName (mcap.Schema.ofDescriptor w.desc)
    rwa [hschemas] at this
  have hchannelId : (logger.put w).channels w.topic = some channelId := by
    have := logger.channelTable.ids_intern_self w.topic ⟨w.topic, "protobuf", schemaId⟩
    rwa [hchannels] at this
  constructor
  · rw [← hschemas₁]
    exact h.schemasNumbered.intern _ _
  · intro name
    rw [← hschemas₁, h.schemasNumbered.lookup_intern, h.schema, List.find?_append]
    cases ws.find? fun w' => w'.typeName = name with
    | some w₁ => simp
    | none =>
      by_cases hname : w.typeName = name
      · simp [hname]
      · have hname' : name ≠ w.typeName := fun e => hname e.symm
        simp [hname, hname']
  · rw [← hchannels₁]
    exact h.channelsNumbered.intern _ _
  · intro topic
    rw [← hchannels₁, h.channelsNumbered.lookup_intern, h.channel, List.find?_append]
    cases hfind : ws.find? fun w' => w'.topic = topic with
    | some w₀ =>
      obtain ⟨id, -, hid, -, -⟩ := h.exists_schemaId (List.mem_of_find?_eq_some hfind)
      simp [hid, hkept _ _ hid]
    | none =>
      by_cases htopic : w.topic = topic
      · subst htopic
        simp [hschemaId]
      · have htopic' : topic ≠ w.topic := fun e => htopic e.symm
        simp [htopic, htopic']
  · rw [hmessages]
    refine List.rel_append (R := _) ?_ (List.Forall₂.cons ⟨hchannelId, rfl⟩ List.Forall₂.nil)
    refine h.messages.imp ?_
    rintro msg w' ⟨hid, hdata⟩
    refine ⟨?_, hdata⟩
    have := InternTable.ids_intern_of_some (t := logger.channelTable) hid w.topic
      ⟨w.topic, "protobuf", schemaId⟩
    rwa [hchannels] at this

theorem recorded_foldl (ws : List (Write pb)) : Recorded ws (ws.foldl McapLogger.put {}) := by
  suffices hgen : ∀ (done : List (Write pb)) (logger : McapLogger), Recorded done logger →
      Recorded (done ++ ws) (ws.foldl McapLogger.put logger) from hgen [] {} Recorded.init
  induction ws with
  | nil =>
    intro done logger h
    rwa [List.append_nil]
  | cons w ws ih =>
    intro done logger h
    have := ih (done ++ [w]) (logger.put w) (h.put w)
    rwa [List.append_assoc] at this

end McapLogger

/-! ### What a record is read by -/

/-- The type first logged under the name of the type first logged on the record's topic. -/
def registeredFor (ws : List (Write pb)) (w : Write pb) : Option (Descriptor pb) :=
  (ws.find? fun w₀ => w₀.topic = w.topic).bind fun w₀ =>
    (ws.find? fun w₁ => w₁.typeName = w₀.typeName).map Write.desc

theorem descriptorOf_records {ws : List (Write pb)} {logger : McapLogger}
    (h : McapLogger.Recorded ws logger) {msg : mcap.Message} {w : Write pb}
    (hmsg : logger.channels w.topic = some msg.channelId) :
    McapReader.descriptorOf pb logger.writer msg = registeredFor ws w := by
  have hchannel := h.channel w.topic
  have hlt := h.channelsNumbered w.topic msg.channelId hmsg
  rw [McapReader.descriptorOf, ← McapLogger.lookup_channelTable hmsg, hchannel, registeredFor]
  cases hfind : ws.find? fun w₀ => w₀.topic = w.topic with
  | none => rfl
  | some w₀ =>
    obtain ⟨id, w₁, hid, hfirst, hentry⟩ := h.exists_schemaId (List.mem_of_find?_eq_some hfind)
    simp [hid, hfirst, hentry, McapReader.schemaState_ofDescriptor]

theorem readBack_iff_registered {ws : List (Write pb)} {logger : McapLogger}
    (h : McapLogger.Recorded ws logger) {msg : mcap.Message} {w : Write pb}
    (hmsg : logger.channels w.topic = some msg.channelId)
    (hdata : msg.data = w.message.serializeToString) :
    ReadBack logger.writer msg w ↔ (registeredFor ws w).map (·.type) = some w.desc.type := by
  have hdesc := descriptorOf_records h hmsg
  constructor
  · intro hread
    rw [← hdesc]
    exact hread.schema
  · intro htype
    refine ⟨hdesc ▸ htype, ?_⟩
    obtain ⟨d, hd, hdt⟩ := Option.map_eq_some_iff.mp htype
    rw [McapReader.parse, hdesc, hd, Option.bind_some, hdata]
    exact w.message.parseFrom_serializeToString hdt

/-- Every record is read by its own type exactly if the records agree. -/
theorem registered_iff_agree (ws : List (Write pb)) :
    (∀ w ∈ ws, (registeredFor ws w).map (·.type) = some w.desc.type) ↔ Agree ws := by
  constructor
  · intro hall
    -- A record is read by the first type of its own name, which is that of its topic.
    have hown : ∀ w ∈ ws, ∃ w₀ w₁, (ws.find? fun w' => w'.topic = w.topic) = some w₀ ∧
        w₀.typeName = w.typeName ∧ (ws.find? fun w' => w'.typeName = w.typeName) = some w₁ ∧
        w₁.desc.type = w.desc.type := by
      intro w hw
      obtain ⟨w₀, hw₀, hfind₀, -⟩ := exists_find?_key Write.topic hw
      obtain ⟨w₁, -, hfind₁, hname₁⟩ := exists_find?_key Write.typeName hw₀
      have hread := hall w hw
      rw [registeredFor, hfind₀, Option.bind_some, hfind₁] at hread
      have htype : w₁.desc.type = w.desc.type := by simpa using hread
      have hsame : w₀.typeName = w.typeName := by
        rw [← hname₁]
        exact congrArg DescriptorProto.name htype
      exact ⟨w₀, w₁, hfind₀, hsame, hsame ▸ hfind₁, htype⟩
    intro w hw w' hw' hshare
    obtain ⟨w₀, w₁, hfind₀, hname₀, hfind₁, htype₁⟩ := hown w hw
    obtain ⟨w₀', w₁', hfind₀', hname₀', hfind₁', htype₁'⟩ := hown w' hw'
    have hnames : w.typeName = w'.typeName := by
      rcases hshare with htopics | hnames
      · rw [htopics, hfind₀'] at hfind₀
        cases hfind₀
        rw [← hname₀, hname₀']
      · exact hnames
    rw [hnames, hfind₁'] at hfind₁
    cases hfind₁
    rw [← htype₁, htype₁']
  · intro hagree w hw
    obtain ⟨w₀, hw₀, hfind₀, htopic₀⟩ := exists_find?_key Write.topic hw
    obtain ⟨w₁, hw₁, hfind₁, hname₁⟩ := exists_find?_key Write.typeName hw₀
    rw [registeredFor, hfind₀, Option.bind_some, hfind₁, Option.map_some, Option.map_some,
      hagree w₁ hw₁ w₀ hw₀ (Or.inr hname₁), hagree w₀ hw₀ w hw (Or.inl htopic₀)]

theorem forall₂_iff_of_related {α β : Type} {R S : α → β → Prop} {P : β → Prop} {l₁ : List α}
    {l₂ : List β} (hR : List.Forall₂ R l₁ l₂) (h : ∀ a b, R a b → (S a b ↔ P b)) :
    List.Forall₂ S l₁ l₂ ↔ ∀ b ∈ l₂, P b := by
  induction hR with
  | nil => simp
  | cons hab _ ih => simp [List.forall₂_cons, ih, h _ _ hab]

/-- Every record of a log is read back exactly if the records agree. -/
theorem readBack_iff_agree {ws : List (Write pb)} {logger : McapLogger}
    (h : McapLogger.Recorded ws logger) :
    List.Forall₂ (ReadBack logger.writer) logger.writer.messages ws ↔ Agree ws := by
  rw [← registered_iff_agree]
  exact forall₂_iff_of_related h.messages fun _ _ hmsg =>
    readBack_iff_registered h hmsg.1 hmsg.2

/-- For every sequence of calls: all records are read back by the type and with the fields they were
written with if and only if no two of them share a topic or a type name, but not the type. -/
theorem readBack_iff (pb : Protobuf) (calls : List (LogCall pb)) (hcalls : ∀ c ∈ calls, c.FromDbc) :
    List.Forall₂ (ReadBack (McapLogger.ofCalls calls).writer)
        (McapLogger.ofCalls calls).writer.messages (calls.flatMap LogCall.writes) ↔
      Agree (calls.flatMap LogCall.writes) := by
  rw [ofCalls_eq hcalls]
  exact readBack_iff_agree (McapLogger.recorded_foldl _)

/-! ### One name in two DBCs -/

/-- A one-byte message `Status` with one signal of this name. -/
def statusMessage (signal : String) : IMessage where
  id := 0x100
  name := "Status"
  messageSize := 1
  signals := [ISignal.ofLine
    { name := signal, startBit := 0, bitSize := 8, valueType := .Unsigned, minimum := 0,
      maximum := 255 }]

def statusNetwork (signal : String) : INetwork := ⟨[statusMessage signal]⟩

/-- A frame of it, as it is logged by the interface it was received on. -/
def statusCall (interface signal : String) (value : ℚ) : LogCall Protobuf.wire :=
  .logFrame (ProtoLog.ofNetwork Protobuf.wire interface (statusNetwork signal)).toOption
    { header := ⟨0x100, interface, 1⟩, payload := [0], decoded := [⟨signal, value, "", 0, 255⟩] }
    none

theorem statusCall_fromDbc (interface signal : String) (value : ℚ) :
    (statusCall interface signal value).FromDbc := by
  intro l hl
  refine ⟨interface, statusNetwork signal, ?_⟩
  cases hof : ProtoLog.ofNetwork Protobuf.wire interface (statusNetwork signal) with
  | error e =>
    rw [hof] at hl
    cases hl
  | ok l' =>
    rw [hof] at hl
    cases hl
    rfl

/-- Two interfaces with the same DBC: everything is read back. -/
theorem readBack_same_dbc :
    let calls := [statusCall "can0" "Speed" 20, statusCall "can1" "Speed" 30,
      .logScalar "model/script/output" 7 0]
    List.Forall₂ (ReadBack (McapLogger.ofCalls calls).writer)
      (McapLogger.ofCalls calls).writer.messages (calls.flatMap LogCall.writes) := by
  intro calls
  refine (readBack_iff Protobuf.wire calls ?_).mpr (by decide +kernel)
  intro c hc
  simp only [calls, List.mem_cons, List.not_mem_nil, or_false] at hc
  rcases hc with rfl | rfl | rfl
  · exact statusCall_fromDbc _ _ _
  · exact statusCall_fromDbc _ _ _
  · trivial

/-- Two interfaces whose `Status` differ: the temperature on the second is read as a speed. -/
theorem not_readBack_two_dbcs :
    let calls := [statusCall "can0" "Speed" 20, statusCall "can1" "Temp" 30]
    let file := (McapLogger.ofCalls calls).writer
    ¬ List.Forall₂ (ReadBack file) file.messages (calls.flatMap LogCall.writes) ∧
      (((calls.flatMap LogCall.writes)[2]?).map fun w => (w.topic, w.message.fields "Temp")) =
        some ("can1/Status/data", some (.double 30)) ∧
      ((file.messages[2]?).bind (McapReader.parse Protobuf.wire file)).bind (·.fields "Speed") =
        some (.double 30) := by
  intro calls file
  refine ⟨?_, by decide +kernel, by decide +kernel⟩
  have hcalls : ∀ c ∈ calls, c.FromDbc := by
    intro c hc
    simp only [calls, List.mem_cons, List.not_mem_nil, or_false] at hc
    rcases hc with rfl | rfl <;> exact statusCall_fromDbc _ _ _
  change ¬ List.Forall₂ (ReadBack (McapLogger.ofCalls calls).writer)
    (McapLogger.ofCalls calls).writer.messages _
  rw [ofCalls_eq hcalls, readBack_iff_agree (McapLogger.recorded_foldl _)]
  decide +kernel

end Caneo
