import Caneo.PlaybackTiming
import Caneo.ReplayedContent
import Caneo.SocketCAN

/-!
# From the bus into a log, and back

A frame that is logged leaves its id and its payload in a `/raw` record, and a replay sends them
again on the interface that the topic names (`src/logger/McapReader.cpp`).

`play` takes the records from the library's `readMessages`. Of it nothing is assumed but that it gives
every record of the file once; what a replay sends then are the frames of the log, in the order in
which their records are read (`exists_inReadOrder`).
-/

namespace Caneo

open BitField Containers McapReader Runs

variable {pb : Protobuf}

/-! ### What a replay should send -/

/-- The interface, the id and the payload that `on_send` is called with. -/
abbrev RawSend := String × BitVec 32 × Bytes

def CanFrame.raw (frame : CanFrame) : RawSend :=
  (frame.header.interface, frame.header.id, frame.payload)

namespace LogCall

def frame : LogCall pb → Option CanFrame
  | .logFrame _ frame _ => some frame
  | .logScalar .. => none

end LogCall

/-- The frames that were logged, in this order. -/
def recordedFrames (calls : List (LogCall pb)) : List CanFrame := calls.filterMap LogCall.frame

/-- The frames `frames` are the recorded ones in the order in which the records are read: the order of
the log if that is the order of the file, and by their times if it is that of the log times. -/
structure InReadOrder (file : mcap.File) (views : List mcap.Message)
    (recorded frames : List CanFrame) : Prop where
  perm : frames.Perm recorded
  inFileOrder : views = file.messages → frames = recorded
  byTime : views.Pairwise (fun v w => v.logTime ≤ w.logTime) →
    frames.Pairwise fun f g => McapLogger.frameNs f ≤ McapLogger.frameNs g

/-- What is a permutation of images is the image of a permutation. -/
theorem exists_perm_of_perm_map {α β : Type} {f : α → β} {l : List α} {bs : List β}
    (h : bs.Perm (l.map f)) : ∃ as : List α, as.Perm l ∧ as.map f = bs := by
  have hmap : List.Forall₂ (fun b a => b = f a) (l.map f) l :=
    List.forall₂_map_left_iff.mpr (List.forall₂_same.mpr fun _ _ => rfl)
  obtain ⟨as, hall, hperm⟩ := List.perm_comp_forall₂ h hmap
  refine ⟨as, hperm, ?_⟩
  rw [← List.forall₂_eq_eq_eq, List.forall₂_map_left_iff]
  exact List.Forall₂.flip (hall.imp fun _ _ heq => heq.symm)

/-- Frames that carry more, but at the same times, are read in the same order. -/
theorem InReadOrder.exists_of_map {file : mcap.File} {views : List mcap.Message}
    {f : CanFrame → CanFrame} (htime : ∀ frame, McapLogger.frameNs (f frame) = McapLogger.frameNs frame)
    {recorded frames : List CanFrame} (h : InReadOrder file views (recorded.map f) frames) :
    ∃ frames₀, InReadOrder file views recorded frames₀ ∧ frames = frames₀.map f := by
  by_cases hviews : views = file.messages
  · refine ⟨recorded, ⟨.refl _, fun _ => rfl, ?_⟩, h.inFileOrder hviews⟩
    intro hsorted
    have hframes := h.byTime hsorted
    rw [h.inFileOrder hviews, List.pairwise_map] at hframes
    exact hframes.imp fun hle => by rwa [htime, htime] at hle
  · obtain ⟨frames₀, hperm, rfl⟩ := exists_perm_of_perm_map h.perm
    refine ⟨frames₀, ⟨hperm, fun hsame => absurd hsame hviews, ?_⟩, rfl⟩
    intro hsorted
    have hframes := h.byTime hsorted
    rw [List.pairwise_map] at hframes
    exact hframes.imp fun hle => by rwa [htime, htime] at hle

/-! ### What a replay sends -/

def McapReader.Delivery.sent : Delivery → Option RawSend
  | .onFrame _ => none
  | .onSend iface canId payload => some (iface, canId, payload)

/-- What `on_send` was called with. -/
def Player.sends (p : Player) : List RawSend := p.calls.filterMap fun call => call.2.sent

/-- What the record is sent as, when the loop passes it on. -/
def Replay.sendOf (r : Replay pb) (view : mcap.Message) : Option RawSend :=
  (r.handed 0 view).bind Delivery.sent

/-! ### The message of a raw record -/

def rawFrameType : DescriptorProto where
  name := "RawFrame"
  field := [
    { name := "can_id", number := 1, type := .TYPE_UINT32, label := .LABEL_OPTIONAL },
    { name := "payload", number := 2, type := .TYPE_UINT32, label := .LABEL_REPEATED }]

def scalarValueType : DescriptorProto where
  name := "ScalarValue"
  field := [{ name := "value", number := 1, type := .TYPE_DOUBLE, label := .LABEL_OPTIONAL }]

def canIdField : FieldDescriptorProto where
  name := "can_id"
  number := 1
  type := .TYPE_UINT32
  label := .LABEL_OPTIONAL

def payloadField : FieldDescriptorProto where
  name := "payload"
  number := 2
  type := .TYPE_UINT32
  label := .LABEL_REPEATED

/-- A built-in file has one type, which is found by its name. -/
theorem exists_builtIn {file : FileDescriptorProto} {type : DescriptorProto}
    (htype : file.messageType = [type]) (haccepts : pb.accepts file = true) :
    ∃ d : Descriptor pb, pb.builtIn file type.name = some d ∧ d.type = type := by
  have hmem : type ∈ file.messageType := by
    rw [htype]
    exact List.mem_cons_self
  refine ⟨⟨⟨file, haccepts⟩, type, hmem⟩, ?_, rfl⟩
  have hbuilt : pb.buildFile file = some ⟨file, haccepts⟩ :=
    Protobuf.buildFile_accepted ⟨file, haccepts⟩
  rw [Protobuf.builtIn, hbuilt, Option.bind_some]
  exact FileDescriptor.exists_of_mem (⟨file, haccepts⟩ : FileDescriptor pb) hmem

theorem type_of_builtIn {file : FileDescriptorProto} {type : DescriptorProto}
    (htype : file.messageType = [type]) {d : Descriptor pb}
    (hd : pb.builtIn file type.name = some d) : d.type = type := by
  obtain ⟨built, hbuilt, hfind⟩ := Option.bind_eq_some_iff.mp hd
  have haccepts : pb.accepts file = true := by
    by_contra hrejected
    rw [Protobuf.buildFile, dif_neg hrejected] at hbuilt
    cases hbuilt
  obtain ⟨d', hd', htype'⟩ := exists_builtIn htype haccepts
  rw [hd'] at hd
  cases hd
  exact htype'

namespace DynamicMessage

variable {m : DynamicMessage pb} {f : FieldDescriptorProto}

theorem fields_set (hmem : f ∈ m.descriptor.type.field) {v : FieldValue} (hv : f.Admits v) :
    (m.set f v).fields = m.fields.set f.name v := by
  rw [set, dif_pos ⟨hmem, hv⟩]

/-- Adding one value after the other adds them all, and changes no other field. -/
theorem fields_addBytes (hmem : f ∈ m.descriptor.type.field) (htype : f.type = .TYPE_UINT32)
    (hlabel : f.label = .LABEL_REPEATED) (payload : Bytes) :
    (McapLogger.addBytes payload m f).getRepeatedUInt32 f =
        m.getRepeatedUInt32 f ++ payload.map (·.setWidth 32) ∧
      ∀ name, name ≠ f.name → (McapLogger.addBytes payload m f).fields name = m.fields name := by
  induction payload generalizing m with
  | nil =>
    refine ⟨?_, fun name _ => rfl⟩
    rw [List.map_nil, List.append_nil]
    rfl
  | cons byte payload ih =>
    have hadmits : f.Admits (.uint32s (m.getRepeatedUInt32 f ++ [byte.setWidth 32])) :=
      ⟨htype, hlabel, List.append_ne_nil_of_right_ne_nil _ (List.cons_ne_nil _ _)⟩
    have hfields := fields_set hmem hadmits
    have hadded : (m.addUInt32 f (byte.setWidth 32)).getRepeatedUInt32 f =
        m.getRepeatedUInt32 f ++ [byte.setWidth 32] := by
      rw [getRepeatedUInt32, addUInt32, hfields, UnorderedMap.set_self]
    obtain ⟨hvalues, hothers⟩ := ih (m := m.addUInt32 f (byte.setWidth 32))
      (by rwa [addUInt32, descriptor_set])
    constructor
    · change (McapLogger.addBytes payload (m.addUInt32 f (byte.setWidth 32)) f).getRepeatedUInt32 f
        = _
      rw [hvalues, hadded, List.append_assoc]
      rfl
    · intro name hname
      refine (hothers name hname).trans ?_
      rw [addUInt32, hfields, UnorderedMap.set_ne _ _ hname]

end DynamicMessage

theorem findFieldByName_rawFrame {d : Descriptor pb} (hd : d.type = rawFrameType) :
    d.findFieldByName "can_id" = some canIdField ∧
      d.findFieldByName "payload" = some payloadField := by
  rw [Descriptor.findFieldByName, Descriptor.findFieldByName, hd]
  exact ⟨rfl, rfl⟩

/-- The raw record of a frame has its id and its payload. -/
theorem fields_rawMessage {d : Descriptor pb} (hd : d.type = rawFrameType) (frame : CanFrame) :
    (McapLogger.rawMessage d frame).getUInt32 canIdField = frame.header.id ∧
      (McapLogger.rawMessage d frame).getRepeatedUInt32 payloadField =
        frame.payload.map (·.setWidth 32) := by
  obtain ⟨hid, hpayload⟩ := findFieldByName_rawFrame hd
  have hmemId : canIdField ∈ d.type.field := by
    rw [hd]
    exact List.mem_cons_self
  have hmemPayload : payloadField ∈ d.type.field := by
    rw [hd]
    exact List.mem_cons_of_mem _ List.mem_cons_self
  have hset := DynamicMessage.fields_set (m := DynamicMessage.new d) hmemId
    (v := .uint32 frame.header.id) ⟨rfl, rfl⟩
  have hnew : (DynamicMessage.new d).descriptor = d := rfl
  have hmessage : McapLogger.rawMessage d frame =
      McapLogger.addBytes frame.payload
        ((DynamicMessage.new d).setUInt32 canIdField frame.header.id) payloadField := by
    unfold McapLogger.rawMessage DynamicMessage.withField
    rw [hnew, hid]
    dsimp only
    rw [DynamicMessage.setUInt32, DynamicMessage.descriptor_set, hnew, hpayload]
  obtain ⟨hvalues, hothers⟩ := DynamicMessage.fields_addBytes
    (m := (DynamicMessage.new d).setUInt32 canIdField frame.header.id) (f := payloadField)
    (by rwa [DynamicMessage.setUInt32, DynamicMessage.descriptor_set, hnew]) rfl rfl frame.payload
  constructor
  · rw [hmessage, DynamicMessage.getUInt32, hothers _ (by decide), DynamicMessage.setUInt32, hset,
      UnorderedMap.set_self]
  · rw [hmessage, hvalues, DynamicMessage.getRepeatedUInt32, DynamicMessage.setUInt32, hset,
      UnorderedMap.set_ne _ _ (by decide)]
    rfl

theorem setWidth_setWidth_byte (payload : Bytes) :
    (payload.map fun byte => byte.setWidth 32).map (fun value => value.setWidth 8) = payload := by
  rw [List.map_map]
  conv_rhs => rw [← List.map_id payload]
  apply List.map_congr_left
  intro byte _
  apply BitVec.eq_of_toNat_eq
  simp only [Function.comp_apply, BitVec.toNat_setWidth, id_eq]
  omega

/-- A message of this type is read as what it was made of. -/
theorem rawSend_of_fields {d : Descriptor pb} (hd : d.type = rawFrameType) {frame : CanFrame}
    {m : DynamicMessage pb} (hm : m.descriptor.type = rawFrameType)
    (hfields : m.fields = (McapLogger.rawMessage d frame).fields) (info : ChannelInfo) :
    rawSend info m = some (.onSend info.iface frame.header.id frame.payload) := by
  obtain ⟨hid, hpayload⟩ := findFieldByName_rawFrame hm
  obtain ⟨hcanId, hbytes⟩ := fields_rawMessage hd frame
  unfold rawSend
  rw [hid, hpayload]
  have hreadId : m.getUInt32 canIdField = frame.header.id := by
    rw [← hcanId, DynamicMessage.getUInt32, DynamicMessage.getUInt32, hfields]
  have hreadBytes : m.getRepeatedUInt32 payloadField = frame.payload.map (·.setWidth 32) := by
    rw [← hbytes, DynamicMessage.getRepeatedUInt32, DynamicMessage.getRepeatedUInt32, hfields]
  dsimp only
  rw [hreadId, hreadBytes, setWidth_setWidth_byte]

/-- A scalar is not sent. -/
theorem rawSend_of_scalar {m : DynamicMessage pb} (hm : m.descriptor.type = scalarValueType)
    (info : ChannelInfo) : rawSend info m = none := by
  have hid : m.descriptor.findFieldByName "can_id" = none := by
    rw [Descriptor.findFieldByName, hm]
    rfl
  unfold rawSend
  rw [hid]

/-! ### What a record is sent as -/

/-- The types that the logger brings along are not mixed up: no record that shares a topic or a type
name with one of theirs is of another type. -/
def KeepsBuiltIn (ws : List (Write pb)) : Prop :=
  ∀ w₁ ∈ ws, w₁.desc.type = rawFrameType ∨ w₁.desc.type = scalarValueType →
    ∀ w₂ ∈ ws, w₁.topic = w₂.topic ∨ w₁.typeName = w₂.typeName → w₂.desc.type = w₁.desc.type

instance (ws : List (Write pb)) : Decidable (KeepsBuiltIn ws) :=
  inferInstanceAs (Decidable (∀ w₁ ∈ ws, _ → ∀ w₂ ∈ ws, _))

/-- It is weaker than that all records agree. -/
theorem KeepsBuiltIn.of_agree {ws : List (Write pb)} (h : Agree ws) : KeepsBuiltIn ws :=
  fun w₁ hw₁ _ w₂ hw₂ hshare => (h w₁ hw₁ w₂ hw₂ hshare).symm

/-- A built-in record is read by its own type. -/
theorem KeepsBuiltIn.registered {ws : List (Write pb)} (h : KeepsBuiltIn ws) {w : Write pb}
    (hw : w ∈ ws) (htype : w.desc.type = rawFrameType ∨ w.desc.type = scalarValueType) :
    (registeredFor ws w).map (·.type) = some w.desc.type := by
  obtain ⟨w₀, hw₀, hfind₀, htopic₀⟩ := exists_find?_key Write.topic hw
  obtain ⟨w₁, hw₁, hfind₁, hname₁⟩ := exists_find?_key Write.typeName hw₀
  have htype₀ : w₀.desc.type = w.desc.type := h w hw htype w₀ hw₀ (Or.inl htopic₀.symm)
  have htype₁ : w₁.desc.type = w₀.desc.type :=
    h w₀ hw₀ (by rwa [htype₀]) w₁ hw₁ (Or.inr hname₁.symm)
  rw [registeredFor, hfind₀, Option.bind_some, hfind₁, Option.map_some, Option.map_some, htype₁,
    htype₀]

/-- A record of the file and what was written. -/
structure RecordOf (file : mcap.File) (ws : List (Write pb)) (view : mcap.Message) (w : Write pb) :
    Prop where
  topic : (file.channels[view.channelId]?).map (·.topic) = some w.topic
  descriptor : descriptorOf pb file view = registeredFor ws w
  data : view.data = w.message.serializeToString
  logTime : view.logTime = w.ts

theorem logTime_foldl_put (ws : List (Write pb)) (logger : McapLogger) :
    (ws.foldl McapLogger.put logger).writer.messages.map (·.logTime) =
      logger.writer.messages.map (·.logTime) ++ ws.map (·.ts) := by
  induction ws generalizing logger with
  | nil => rw [List.map_nil, List.append_nil]; rfl
  | cons w ws ih =>
    obtain ⟨_, _, -, -, hmessages⟩ := logger.put_eq w
    rw [List.foldl_cons, ih, hmessages, List.map_append, List.append_assoc]
    rfl

/-- The records of a log are those that were written, in their order. -/
theorem recordOf_foldl (ws : List (Write pb)) :
    let file := (ws.foldl McapLogger.put {}).writer
    List.Forall₂ (RecordOf file ws) file.messages ws := by
  intro file
  have hrecorded := McapLogger.recorded_foldl ws
  have htimes : List.Forall₂ (fun (view : mcap.Message) (w : Write pb) => view.logTime = w.ts)
      file.messages ws := by
    have hsame := logTime_foldl_put ws ({} : McapLogger)
    rw [List.map_nil, List.nil_append] at hsame
    rw [← List.forall₂_eq_eq_eq, List.forall₂_map_left_iff, List.forall₂_map_right_iff] at hsame
    exact hsame
  have hall : List.Forall₂ (fun (_ : mcap.Message) (w : Write pb) => w ∈ ws) file.messages ws := by
    rw [List.forall₂_iff_get]
    exact ⟨hrecorded.messages.length_eq, fun i _ hi => List.get_mem _ _⟩
  refine List.Forall₂.mp (Q := fun view w => view.logTime = w.ts ∧ w ∈ ws) ?_
    (List.Forall₂.mp (fun _ _ ht hw => ⟨ht, hw⟩) htimes hall) hrecorded.messages
  rintro view w ⟨htime, hw⟩ ⟨hid, hdata⟩
  exact ⟨topic_records hrecorded hw hid, descriptorOf_records hrecorded hid, hdata, htime⟩

section Records

variable {file : mcap.File} {ws : List (Write pb)} {view : mcap.Message} {w : Write pb}
  {r : Replay pb}

/-- What is sent depends on the topic and the message. -/
theorem sendOf_eq (hrecord : RecordOf r.file ws view w) (hon : r.onSend = true) :
    r.sendOf view =
      if (classifyTopic w.topic).kind = .Raw then
        ((parse pb r.file view).bind (rawSend (classifyTopic w.topic))).bind Delivery.sent
      else none := by
  obtain ⟨channel, hchannel, htopic⟩ := Option.map_eq_some_iff.mp hrecord.topic
  unfold Replay.sendOf Replay.handed deliver
  rw [hchannel, Option.bind_some, htopic]
  dsimp only
  cases hkind : (classifyTopic w.topic).kind with
  | Other => rfl
  | Data =>
    dsimp only
    cases parse pb r.file view with
    | none => rfl
    | some m => cases hframe : r.onFrame <;> simp [Option.filter, Replay.takes, hframe, Delivery.sent]
  | Raw =>
    dsimp only
    cases parse pb r.file view with
    | none => rfl
    | some m =>
      rw [if_pos rfl, Option.bind_some]
      unfold rawSend
      split
      · simp [Option.filter, Replay.takes, hon]
      · rfl

/-- A record that is read by its own type is read with its own fields. -/
theorem exists_parse (hrecord : RecordOf file ws view w)
    (hown : (registeredFor ws w).map (·.type) = some w.desc.type) :
    ∃ m, parse pb file view = some m ∧ m.descriptor.type = w.desc.type ∧
      m.fields = w.message.fields := by
  obtain ⟨d, hd, hdt⟩ := Option.map_eq_some_iff.mp hown
  have hparse : parse pb file view = DynamicMessage.parseFrom d w.message.serializeToString := by
    rw [parse, hrecord.descriptor, hd, Option.bind_some, hrecord.data]
  obtain ⟨m, hm, hfields⟩ := Option.map_eq_some_iff.mp (w.message.parseFrom_serializeToString hdt)
  refine ⟨m, hparse.trans hm, ?_, hfields⟩
  unfold DynamicMessage.parseFrom at hm
  split at hm
  · cases hm
  · cases hm
    exact hdt

/-- A frame's `/data` record is not sent. -/
theorem sendOf_data (hrecord : RecordOf r.file ws view w) (hon : r.onSend = true) {iface name : String}
    (htopic : w.topic = iface ++ "/" ++ name ++ "/data") : r.sendOf view = none := by
  have hkind : (classifyTopic w.topic).kind = .Data := by
    rw [htopic]
    exact (classifyTopic_data iface name).1
  rw [sendOf_eq hrecord hon, hkind]
  exact if_neg (by decide)

/-- Nor is a scalar, whatever its topic. -/
theorem sendOf_scalar (hrecord : RecordOf r.file ws view w) (hon : r.onSend = true)
    (hown : (registeredFor ws w).map (·.type) = some w.desc.type)
    (htype : w.desc.type = scalarValueType) : r.sendOf view = none := by
  obtain ⟨m, hparse, hm, -⟩ := exists_parse hrecord hown
  rw [sendOf_eq hrecord hon, hparse, Option.bind_some, rawSend_of_scalar (hm.trans htype)]
  split <;> rfl

/-- A frame's `/raw` record is sent as the frame. -/
theorem sendOf_raw (hrecord : RecordOf r.file ws view w) (hon : r.onSend = true)
    (hown : (registeredFor ws w).map (·.type) = some w.desc.type) {d : Descriptor pb}
    (hd : d.type = rawFrameType) {frame : CanFrame} (hw : w.message = McapLogger.rawMessage d frame)
    {name : String} (htopic : w.topic = frame.header.interface ++ "/" ++ name ++ "/raw")
    (hslash : '/' ∉ frame.header.interface.toList) : r.sendOf view = some frame.raw := by
  have hdesc : w.desc = d := by
    rw [Write.desc, hw, descriptor_rawMessage]
  obtain ⟨m, hparse, hm, hfields⟩ := exists_parse hrecord hown
  rw [sendOf_eq hrecord hon, htopic, classifyTopic_raw_of_not_mem hslash, if_pos rfl, hparse,
    Option.bind_some, rawSend_of_fields hd (hm.trans (hdesc ▸ hd)) (by rw [hfields, hw])]
  rfl

end Records

/-! ### What a log is sent as -/

theorem filterMap_of_forall₂_flatMap {α β γ δ : Type} {R : α → β → Prop} {writes : γ → List β}
    {f : α → Option δ} {g : γ → Option δ} {cs : List γ}
    (hone : ∀ c ∈ cs, ∀ as, List.Forall₂ R as (writes c) → as.filterMap f = (g c).toList)
    {as : List α} (h : List.Forall₂ R as (cs.flatMap writes)) : as.filterMap f = cs.filterMap g := by
  induction cs generalizing as with
  | nil =>
    rw [List.flatMap_nil, List.forall₂_nil_right_iff] at h
    rw [h]
    rfl
  | cons c cs ih =>
    rw [List.flatMap_cons] at h
    have hfirst := hone c List.mem_cons_self _ (List.forall₂_take_append _ _ _ h)
    have hrest := ih (fun c' hc' => hone c' (List.mem_cons_of_mem _ hc'))
      (List.forall₂_drop_append _ _ _ h)
    rw [← List.take_append_drop (writes c).length as, List.filterMap_append, hfirst, hrest,
      List.filterMap_cons]
    cases g c <;> rfl

/-- The library accepts the file of the raw frames, and that of the fallback. -/
def AcceptsBuiltIn (pb : Protobuf) : Prop :=
  pb.accepts rawFrameFile = true ∧ pb.accepts rawCanFrameFile = true

instance (pb : Protobuf) : Decidable (AcceptsBuiltIn pb) := inferInstanceAs (Decidable (_ ∧ _))

/-- The record is sent as what it carries, with its time. -/
def Replay.timedSendOf (r : Replay pb) (view : mcap.Message) : Option (BitVec 64 × RawSend) :=
  (r.sendOf view).map fun sent => (view.logTime, sent)

def CanFrame.timedRaw (frame : CanFrame) : BitVec 64 × RawSend :=
  (McapLogger.frameNs frame, frame.raw)

section Log

variable {calls : List (LogCall pb)} {ws : List (Write pb)} {r : Replay pb}

/-- The records of a frame: its data, its raw bytes, and its update rate. -/
theorem writes_logFrame (haccepts : AcceptsBuiltIn pb) (log : Option (ProtoLog pb))
    (frame : CanFrame) (updateRatioMs : Option ℚ) :
    ∃ m, ∃ raw : Descriptor pb, ∃ name, raw.type = rawFrameType ∧
      (LogCall.logFrame log frame updateRatioMs).writes =
        ⟨frame.header.interface ++ "/" ++ name ++ "/data", m, McapLogger.frameNs frame⟩ ::
        ⟨frame.header.interface ++ "/" ++ name ++ "/raw", McapLogger.rawMessage raw frame,
          McapLogger.frameNs frame⟩ ::
        updateRatioMs.elim [] fun ratio => LogCall.scalarWrites
          (frame.header.interface ++ "/" ++ name ++ "/update_ratio") ratio
          (McapLogger.frameNs frame) := by
  obtain ⟨raw, hrawDescriptor, hrawType⟩ : ∃ raw : Descriptor pb,
      McapLogger.getRawDescriptor pb = some raw ∧ raw.type = rawFrameType :=
    @exists_builtIn pb rawFrameFile rawFrameType rfl haccepts.1
  obtain ⟨fallback, hfallbackDescriptor⟩ : ∃ fallback : Descriptor pb,
      McapLogger.getFallbackDescriptor pb = some fallback :=
    (@exists_builtIn pb rawCanFrameFile _ rfl haccepts.2).imp fun _ h => h.1
  obtain ⟨m, hm⟩ : ∃ m, LogCall.dataMessage log frame = some m := by
    rw [LogCall.dataMessage, hfallbackDescriptor]
    cases log.bind fun log => log.buildMessage frame with
    | none => exact ⟨_, rfl⟩
    | some m => exact ⟨m, rfl⟩
  obtain ⟨name, hname⟩ : ∃ name, McapLogger.baseTopic frame
      (log.bind fun log => log.descriptor (frame.header.id.setWidth 64)) =
        frame.header.interface ++ "/" ++ name := ⟨_, rfl⟩
  refine ⟨m, raw, name, hrawType, ?_⟩
  unfold LogCall.writes
  dsimp only
  rw [hm, hname, LogCall.rawWrites, hrawDescriptor, Option.map_some, Option.toList_some]
  rfl

/-- Scalars are not sent. -/
theorem timedSendOf_scalars (hon : r.onSend = true) (hkeeps : KeepsBuiltIn ws) {topic : String}
    {value : ℚ} {ts : BitVec 64} (hmem : ∀ w ∈ LogCall.scalarWrites topic value ts, w ∈ ws)
    {views : List mcap.Message}
    (hviews : List.Forall₂ (RecordOf r.file ws) views (LogCall.scalarWrites topic value ts)) :
    views.filterMap r.timedSendOf = [] := by
  cases hdesc : McapLogger.getScalarDescriptor pb with
  | none =>
    rw [LogCall.scalarWrites, hdesc, Option.map_none, Option.toList_none,
      List.forall₂_nil_right_iff] at hviews
    rw [hviews]
    rfl
  | some d =>
    have hd : d.type = scalarValueType := type_of_builtIn rfl hdesc
    rw [LogCall.scalarWrites, hdesc, Option.map_some, Option.toList_some] at hviews hmem
    obtain ⟨view, rest, hrecord, hrest, rfl⟩ := List.forall₂_cons_right_iff.mp hviews
    rw [List.forall₂_nil_right_iff] at hrest
    have htype : (⟨topic, McapLogger.scalarMessage d value, ts⟩ : Write pb).desc.type =
        scalarValueType := by
      rwa [Write.desc, descriptor_scalarMessage]
    have hown := hkeeps.registered (hmem _ List.mem_cons_self) (Or.inr htype)
    rw [hrest, List.filterMap_cons_none, List.filterMap_nil]
    rw [Replay.timedSendOf, sendOf_scalar hrecord hon hown htype, Option.map_none]

/-- Of one call's records, the raw one is sent. -/
theorem timedSendOf_call (haccepts : AcceptsBuiltIn pb) (hon : r.onSend = true)
    (hkeeps : KeepsBuiltIn ws) {c : LogCall pb} (hmem : ∀ w ∈ c.writes, w ∈ ws)
    (hslash : ∀ frame, c.frame = some frame → '/' ∉ frame.header.interface.toList)
    {views : List mcap.Message} (hviews : List.Forall₂ (RecordOf r.file ws) views c.writes) :
    views.filterMap r.timedSendOf = (c.frame.map CanFrame.timedRaw).toList := by
  cases c with
  | logScalar topic value now => exact timedSendOf_scalars hon hkeeps hmem hviews
  | logFrame log frame updateRatioMs =>
    obtain ⟨m, raw, name, hraw, hwrites⟩ := writes_logFrame haccepts log frame updateRatioMs
    rw [hwrites] at hviews hmem
    obtain ⟨data, rest, hdata, hrest, rfl⟩ := List.forall₂_cons_right_iff.mp hviews
    obtain ⟨view, ratios, hrecord, hratios, rfl⟩ := List.forall₂_cons_right_iff.mp hrest
    have hquiet : r.sendOf data = none := sendOf_data hdata hon rfl
    have hown := hkeeps.registered (hmem _ (List.mem_cons_of_mem _ List.mem_cons_self))
      (Or.inl (by rwa [Write.desc, descriptor_rawMessage]))
    have hsent : r.sendOf view = some frame.raw :=
      sendOf_raw hrecord hon hown hraw rfl rfl (hslash frame rfl)
    have hratio : ratios.filterMap r.timedSendOf = [] := by
      cases updateRatioMs with
      | none =>
        rw [Option.elim_none, List.forall₂_nil_right_iff] at hratios
        rw [hratios]
        rfl
      | some ratio =>
        apply timedSendOf_scalars hon hkeeps ?_ hratios
        intro w hw
        exact hmem w (List.mem_cons_of_mem _ (List.mem_cons_of_mem _ hw))
    rw [List.filterMap_cons_none, List.filterMap_cons_some (b := (view.logTime, frame.raw)),
      hratio, hrecord.logTime]
    · rfl
    · rw [Replay.timedSendOf, hsent, Option.map_some]
    · rw [Replay.timedSendOf, hquiet, Option.map_none]

/-- **What the records of a log are sent as**, if every record is read once. -/
theorem exists_inReadOrder (haccepts : AcceptsBuiltIn pb)
    (hcalls : ∀ c ∈ calls, c.FromDbc) (hkeeps : KeepsBuiltIn (calls.flatMap LogCall.writes))
    (hslash : ∀ c ∈ calls, ∀ frame, c.frame = some frame → '/' ∉ frame.header.interface.toList)
    (hfile : r.file = (McapLogger.ofCalls calls).writer) (hon : r.onSend = true)
    {views : List mcap.Message} (hviews : views.Perm r.file.messages) :
    ∃ frames, InReadOrder r.file views (recordedFrames calls) frames ∧
      views.filterMap r.sendOf = frames.map CanFrame.raw := by
  have hrecords : List.Forall₂ (RecordOf r.file (calls.flatMap LogCall.writes)) r.file.messages
      (calls.flatMap LogCall.writes) := by
    rw [hfile, ofCalls_eq hcalls]
    exact recordOf_foldl _
  have hfiled : r.file.messages.filterMap r.timedSendOf =
      (recordedFrames calls).map CanFrame.timedRaw := by
    rw [recordedFrames, List.map_filterMap]
    exact filterMap_of_forall₂_flatMap (fun c hc views hviews =>
      timedSendOf_call haccepts hon hkeeps (fun w hw => List.mem_flatMap.mpr ⟨c, hc, hw⟩)
        (hslash c hc) hviews) hrecords
  obtain ⟨frames, hperm, hsame, htimed⟩ : ∃ frames, frames.Perm (recordedFrames calls) ∧
      (views = r.file.messages → frames = recordedFrames calls) ∧
      frames.map CanFrame.timedRaw = views.filterMap r.timedSendOf := by
    by_cases hsame : views = r.file.messages
    · exact ⟨recordedFrames calls, .refl _, fun _ => rfl, by rw [hsame, hfiled]⟩
    · have hsends := hviews.filterMap r.timedSendOf
      rw [hfiled] at hsends
      obtain ⟨frames, hperm, htimed⟩ := exists_perm_of_perm_map hsends
      exact ⟨frames, hperm, fun heq => absurd heq hsame, htimed⟩
  refine ⟨frames, ⟨hperm, hsame, ?_⟩, ?_⟩
  · intro hsorted
    have htimes : (views.filterMap r.timedSendOf).Pairwise fun s t => s.1 ≤ t.1 := by
      refine hsorted.filterMap r.timedSendOf ?_
      intro v w hle s hs t ht
      obtain ⟨-, -, rfl⟩ := Option.map_eq_some_iff.mp hs
      obtain ⟨-, -, rfl⟩ := Option.map_eq_some_iff.mp ht
      exact hle
    rw [← htimed, List.pairwise_map] at htimes
    exact htimes
  · have hsent : ∀ view, r.sendOf view = (r.timedSendOf view).map Prod.snd := by
      intro view
      rw [Replay.timedSendOf, Option.map_map]
      exact (Option.map_id' ..).symm
    calc views.filterMap r.sendOf
        = (views.filterMap r.timedSendOf).map Prod.snd := by
          rw [List.map_filterMap]
          exact List.filterMap_congr fun view _ => hsent view
      _ = frames.map CanFrame.raw := by
          rw [← htimed, List.map_map]
          rfl

end Log

end Caneo
