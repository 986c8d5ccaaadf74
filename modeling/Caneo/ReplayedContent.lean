import Caneo.DbcPppWrapper
import Caneo.LogSchemas
import Caneo.MuxRoundTrip
import Caneo.TopicNames

/-!
# What a replayed frame contains

A frame passes four stages before a replay shows it again: it is decoded
(`DbcPppWrapper::decode`), its signals are set in a message of the type that `ProtoLog` has for its
id, the record goes to the topic of this type (`McapLogger::log`), and `McapReader::play` reads all
fields of the type back.

The decoder leaves signals out, and in a frame that is too short all of them and the name. The reader
does not ask which fields are set, so a signal that was left out comes back as 0. The frame that comes
back is therefore the frame that was logged exactly if nothing was left out, and the decoder and
`ProtoLog` take the id for the same message (`replayed_content_iff`).
-/

namespace Caneo

open BitField Containers

/-! ### Identifiers -/

/-- A C identifier. -/
def IsIdentifier (name : String) : Prop :=
  ∃ c rest, name.toList = c :: rest ∧ c.isDigit = false ∧
    ∀ d ∈ c :: rest, (d.isAlphanum || d = '_') = true

/-- All names of messages and signals are identifiers. -/
def INetwork.Identifiers (network : INetwork) : Prop :=
  ∀ msg ∈ network.messages, IsIdentifier msg.name ∧ ∀ sig ∈ msg.signals, IsIdentifier sig.name

theorem isIdentifier_of_all {name : String} {c : Char} {rest : List Char}
    (hname : name.toList = c :: rest) (hdigit : c.isDigit = false)
    (hall : ((c :: rest).all fun d => d.isAlphanum || d = '_') = true) : IsIdentifier name :=
  ⟨c, rest, hname, hdigit, List.all_eq_true.mp hall⟩

theorem sanitize_of_isIdentifier {name : String} (h : IsIdentifier name) : sanitize name = name := by
  obtain ⟨c, rest, hname, hdigit, hchars⟩ := h
  have hout : (name.toList.flatMap fun c =>
      if c.isAlphanum || c = '_' then [c] else List.replicate c.utf8Size '_') = name.toList := by
    rw [hname]
    have hsame : ∀ l : List Char, (∀ d ∈ l, (d.isAlphanum || d = '_') = true) →
        (l.flatMap fun c => if c.isAlphanum || c = '_' then [c] else List.replicate c.utf8Size '_') =
          l := by
      intro l hl
      induction l with
      | nil => rfl
      | cons d l ih =>
        rw [List.flatMap_cons, if_pos (by simpa using hl d List.mem_cons_self),
          ih fun e he => hl e (List.mem_cons_of_mem _ he)]
        rfl
    exact hsame _ hchars
  unfold sanitize
  simp only [Bool.or_eq_true, decide_eq_true_eq] at hout ⊢
  rw [hout, hname]
  simp only [hdigit, Bool.false_eq_true, if_false]
  rw [← hname, String.ofList_toList]

/-! ### Topics -/

/-- How the topic of a `/data` record is read: an interface without a slash, and the name. -/
theorem classifyTopic_data (iface name : String) :
    let info := McapReader.classifyTopic (iface ++ "/" ++ name ++ "/data")
    info.kind = .Data ∧ (info.iface = iface ↔ '/' ∉ iface.toList) ∧
      ('/' ∉ iface.toList → info.msgName = name) := by
  have htopic : (iface ++ "/" ++ name ++ "/data").toList =
      (iface.toList ++ '/' :: name.toList) ++ "/data".toList := by
    simp [String.toList_append]
  intro info
  have hinfo : info = ⟨.Data,
      String.ofList (iface.toList.take ((iface.toList.idxOf? '/').getD iface.toList.length)),
      String.ofList ((iface.toList ++ '/' :: name.toList).drop
        ((iface.toList.idxOf? '/').getD iface.toList.length + 1))⟩ := by
    change McapReader.classifyTopic (iface ++ "/" ++ name ++ "/data") = _
    rw [McapReader.classifyTopic, htopic, splitTopic_append]
    rfl
  refine ⟨by rw [hinfo], ?_, ?_⟩
  · rw [hinfo]
    constructor
    · intro hsame hslash
      obtain ⟨i, hidx⟩ := Option.isSome_iff_exists.mp (List.isSome_idxOf?.mpr hslash)
      obtain ⟨hlt, -⟩ := List.idxOf?_eq_some_iff.mp hidx
      have hlength := congrArg (fun s : String => s.toList.length) hsame
      dsimp only at hlength
      rw [String.toList_ofList, hidx, Option.getD_some, List.length_take] at hlength
      omega
    · intro hslash
      rw [List.idxOf?_eq_none_iff.mpr hslash, Option.getD_none, List.take_length,
        String.ofList_toList]
  · intro hslash
    rw [hinfo, List.idxOf?_eq_none_iff.mpr hslash, Option.getD_none]
    dsimp only
    rw [List.drop_append, List.drop_of_length_le (Nat.le_succ _), Nat.add_sub_cancel_left]
    exact String.ofList_toList

/-! ### The message of a frame -/

variable {pb : Protobuf}

/-- The table of the id has the field name of the signal. -/
def HasFieldName (names : UnorderedMap (BitVec 64) (UnorderedMap String String)) (id : BitVec 64)
    (signal : String) : Prop :=
  ∃ table, names id = some table ∧ table signal = some (sanitize signal)

theorem hasFieldName_addFieldNames (names : UnorderedMap (BitVec 64) (UnorderedMap String String))
    (msg : IMessage) {id : BitVec 64} {signal : String}
    (h : HasFieldName names id signal ∨ msg.id = id ∧ ∃ sig ∈ msg.signals, sig.name = signal) :
    HasFieldName (ProtoLog.addFieldNames names msg) id signal := by
  unfold HasFieldName ProtoLog.addFieldNames
  by_cases hid : id = msg.id
  · subst hid
    refine ⟨_, UnorderedMap.set_self _ _ _, ?_⟩
    rw [UnorderedMap.foldl_set_apply (fun sig : ISignal => sig.name) fun sig => sanitize sig.name]
    cases hfind : msg.signals.reverse.find? fun sig => sig.name = signal with
    | some sig =>
      have hname : sig.name = signal := by simpa using List.find?_some hfind
      rw [Option.map_some, hname]
      rfl
    | none =>
      rcases h with ⟨table, htable, hsignal⟩ | ⟨-, sig, hsig, hname⟩
      · rw [htable]
        exact hsignal
      · have hno := List.find?_eq_none.mp hfind sig (List.mem_reverse.mpr hsig)
        exact absurd hname (by simpa using hno)
  · rcases h with ⟨table, htable, hsignal⟩ | ⟨hid', -⟩
    · exact ⟨table, (UnorderedMap.set_ne _ _ hid).trans htable, hsignal⟩
    · exact absurd hid'.symm hid

/-- Every signal of a logged message has its field name in the table of the message's id. -/
theorem hasFieldName_foldl (l : List IMessage)
    (names : UnorderedMap (BitVec 64) (UnorderedMap String String)) {id : BitVec 64}
    {signal : String}
    (h : HasFieldName names id signal ∨
      ∃ msg ∈ l, msg.id = id ∧ ∃ sig ∈ msg.signals, sig.name = signal) :
    HasFieldName (l.foldl ProtoLog.addFieldNames names) id signal := by
  induction l generalizing names with
  | nil =>
    rcases h with h | ⟨msg, hmsg, -⟩
    · exact h
    · cases hmsg
  | cons msg l ih =>
    apply ih
    rcases h with h | ⟨msg', hmsg, hsignal⟩
    · exact Or.inl (hasFieldName_addFieldNames names msg (Or.inl h))
    · rcases List.mem_cons.mp hmsg with rfl | hmem
      · exact Or.inl (hasFieldName_addFieldNames names msg' (Or.inr hsignal))
      · exact Or.inr ⟨msg', hmem, hsignal⟩

namespace DynamicMessage

theorem fields_setDouble {m : DynamicMessage pb} {f : FieldDescriptorProto}
    (hmem : f ∈ m.descriptor.type.field) (htype : f.type = .TYPE_DOUBLE)
    (hlabel : f.label = .LABEL_OPTIONAL) (v : ℚ) :
    (m.setDouble f v).fields = m.fields.set f.name (.double v) := by
  have hadmits : f ∈ m.descriptor.type.field ∧ f.Admits (.double v) := ⟨hmem, htype, hlabel⟩
  rw [setDouble, set, dif_pos hadmits]

end DynamicMessage

/-- The fields of `messageType` are optional doubles with the signals' names. -/
theorem exists_field {msg : IMessage} {sig : ISignal} (hsig : sig ∈ msg.signals) :
    ∃ f ∈ (ProtoLog.messageType msg).field, f.name = sanitize sig.name := by
  obtain ⟨i, hi, rfl⟩ := List.mem_iff_getElem.mp hsig
  exact ⟨_, List.mem_mapIdx.mpr ⟨i, hi, rfl⟩, rfl⟩

theorem of_mem_field {msg : IMessage} {f : FieldDescriptorProto}
    (hf : f ∈ (ProtoLog.messageType msg).field) :
    f.type = .TYPE_DOUBLE ∧ f.label = .LABEL_OPTIONAL ∧
      ∃ sig ∈ msg.signals, f.name = sanitize sig.name := by
  obtain ⟨i, hi, rfl⟩ := List.mem_mapIdx.mp hf
  exact ⟨rfl, rfl, msg.signals[i], List.getElem_mem hi, rfl⟩

/-- What setting the decoded signals leaves in the fields: the last value of each name. -/
theorem fields_foldl_setSignal {msg : IMessage} {names : UnorderedMap String String}
    {decoded : List DecodedSignal}
    (hdecoded : ∀ s ∈ decoded, names s.name = some s.name ∧
      ∃ f ∈ (ProtoLog.messageType msg).field, f.name = s.name)
    {m : DynamicMessage pb} (hm : m.descriptor.type = ProtoLog.messageType msg) (name : String) :
    (decoded.foldl (ProtoLog.setSignal names) m).fields name =
      ((decoded.reverse.find? fun s => s.name = name).map fun s => .double s.value).or
        (m.fields name) := by
  induction decoded generalizing m with
  | nil => simp
  | cons s decoded ih =>
    obtain ⟨hname, f, hf, hfname⟩ := hdecoded s List.mem_cons_self
    have hfield : m.descriptor.findFieldByName s.name = some f := by
      rw [← hfname]
      exact find?_key_of_nodup _ m.descriptor.nodup_field (hm ▸ hf)
    have hset : ProtoLog.setSignal names m s = m.setDouble f s.value := by
      simp only [ProtoLog.setSignal, hname, hfield]
    have htype : (ProtoLog.setSignal names m s).descriptor.type = ProtoLog.messageType msg := by
      rw [ProtoLog.descriptor_setSignal, hm]
    have hfields := DynamicMessage.fields_setDouble (m := m) (hm ▸ hf) (of_mem_field hf).1
      (of_mem_field hf).2.1 s.value
    rw [List.foldl_cons, ih (fun s' hs' => hdecoded s' (List.mem_cons_of_mem _ hs')) htype, hset,
      hfields, UnorderedMap.set_apply, List.reverse_cons, List.find?_append]
    cases decoded.reverse.find? fun s => s.name = name with
    | some s' => simp
    | none =>
      by_cases hsame : s.name = name
      · simp [hsame, hfname]
      · have hother : name ≠ f.name := fun e => hsame (hfname ▸ e.symm)
        simp [hsame, hother]

/-- Signals with distinct field names have distinct names. -/
theorem eq_of_name_eq {msg : IMessage} {d : Descriptor pb}
    (hd : d.type = ProtoLog.messageType msg) {sig sig' : ISignal} (hsig : sig ∈ msg.signals)
    (hsig' : sig' ∈ msg.signals) (hname : sig.name = sig'.name) : sig = sig' := by
  have hfields : (ProtoLog.messageType msg).field.map (·.name) =
      msg.signals.map fun sig => sanitize sig.name := by
    apply List.ext_getElem?
    intro i
    rw [ProtoLog.messageType, List.getElem?_map, List.getElem?_map, List.getElem?_mapIdx,
      Option.map_map]
    rfl
  have hnodup := d.nodup_field
  rw [hd, hfields] at hnodup
  exact List.inj_on_of_nodup_map hnodup hsig hsig' (congrArg sanitize hname)

/-! ### The property, and when it holds -/

/-- The same interface, message name, and values of the same signals. -/
structure SameContent (a b : CanFrame) : Prop where
  interface : a.header.interface = b.header.interface
  msgName : a.msgName = b.msgName
  values : ∀ name v, (∃ s ∈ a.decoded, s.name = name ∧ s.value = v) ↔
    ∃ s ∈ b.decoded, s.name = name ∧ s.value = v

/-- The record is in the file with its topic, and is read back as it was written. -/
structure Stored (file : mcap.File) (record : mcap.Message) (w : Write pb) : Prop where
  topic : (file.channels[record.channelId]?).map (·.topic) = some w.topic
  readBack : ReadBack file record w

/-- The decoder takes the frame for the message that `ProtoLog` takes it for, the frame is long
enough for it, and every multiplexed signal is in the selected group. (No interface of Linux has a
slash in its name.) -/
def Replayable (network : INetwork) (frame : CanFrame) : Prop :=
  '/' ∉ frame.header.interface.toList ∧
    ∃ msg, (network.messages.find? fun msg => msg.id = frame.header.id.setWidth 64) = some msg ∧
      ((ProtoLog.logged network).reverse.find? fun msg => msg.id = frame.header.id.setWidth 64) =
        some msg ∧
      msg.messageSize ≤ frame.payload.length ∧
      ∀ sig ∈ msg.signals, DbcPppWrapper.skipped msg.muxSignal frame.payload sig = false

/-! ### The record -/

section Record

variable {casts : BitCasts} {wrapper : DbcPppWrapper} {interface : String} {network : INetwork}
  {log : ProtoLog pb} {frame : CanFrame} {msg : IMessage}

/-- What `ProtoLog` takes the frame for. -/
theorem exists_loggedMessage (hlog : ProtoLog.ofNetwork pb interface network = .ok log)
    {id : BitVec 64} (hdesc : (log.descriptor id).isSome = true) :
    ∃ msg d, ((ProtoLog.logged network).reverse.find? fun msg => msg.id = id) = some msg ∧
      log.descriptor id = some d ∧ d.type = ProtoLog.messageType msg := by
  obtain ⟨d, hd⟩ := Option.isSome_iff_exists.mp hdesc
  have htype := ProtoLog.descriptors_ofNetwork hlog id
  rw [hd, Option.map_some] at htype
  obtain ⟨msg, hmsg, hmt⟩ := Option.map_eq_some_iff.mp htype.symm
  exact ⟨msg, d, hmsg, hd, hmt.symm⟩

/-- The message of a frame with a descriptor. -/
theorem exists_buildMessage (hlog : ProtoLog.ofNetwork pb interface network = .ok log)
    {d : Descriptor pb} (hd : log.descriptor (frame.header.id.setWidth 64) = some d) :
    ∃ m, log.buildMessage frame = some m ∧ m.descriptor = d ∧
      LogCall.dataMessage (some log) frame = some m := by
  have hdescriptor := ProtoLog.descriptor_buildMessage hlog frame
  rw [hd] at hdescriptor
  obtain ⟨m, hm, hmd⟩ := Option.map_eq_some_iff.mp hdescriptor
  refine ⟨m, hm, hmd, ?_⟩
  rw [LogCall.dataMessage, Option.bind_some, hm]
  rfl

/-- A frame with a descriptor is logged. -/
theorem exists_head_writes (hlog : ProtoLog.ofNetwork pb interface network = .ok log)
    (hdesc : (log.descriptor (frame.header.id.setWidth 64)).isSome = true)
    (updateRatioMs : Option ℚ) :
    ∃ w, (LogCall.logFrame (some log) frame updateRatioMs).writes.head? = some w := by
  obtain ⟨d, hd⟩ := Option.isSome_iff_exists.mp hdesc
  obtain ⟨m, -, -, hdata⟩ := exists_buildMessage hlog hd
  unfold LogCall.writes
  dsimp only
  rw [hdata]
  exact ⟨_, rfl⟩

/-- The topic and the message of the `/data` record. -/
theorem head_writes (hlog : ProtoLog.ofNetwork pb interface network = .ok log) {d : Descriptor pb}
    (hd : log.descriptor (frame.header.id.setWidth 64) = some d) {updateRatioMs : Option ℚ}
    {w : Write pb} (hw : (LogCall.logFrame (some log) frame updateRatioMs).writes.head? = some w) :
    w.topic = frame.header.interface ++ "/" ++ d.name ++ "/data" ∧
      log.buildMessage frame = some w.message ∧ w.desc = d := by
  obtain ⟨m, hm, hmd, hdata⟩ := exists_buildMessage hlog hd
  unfold LogCall.writes at hw
  dsimp only at hw
  rw [hdata, Option.bind_some, hd] at hw
  cases hw
  exact ⟨rfl, hm, hmd⟩

/-- What `play` makes of the record. -/
theorem deliver_stored {file : mcap.File} {record : mcap.Message} {w : Write pb}
    (hstored : Stored file record w) {name : String}
    (htopic : w.topic = interface ++ "/" ++ name ++ "/data") (hash : String → BitVec 64)
    (now : Int) :
    ∃ m : DynamicMessage pb, m.descriptor.type = w.desc.type ∧ m.fields = w.message.fields ∧
      McapReader.deliver pb hash file now record = some (.onFrame
        (McapReader.rebuiltFrame hash (McapReader.classifyTopic w.topic) m now)) := by
  obtain ⟨channel, hchannel, hname⟩ := Option.map_eq_some_iff.mp hstored.topic
  obtain ⟨m, hparse, hfields⟩ := Option.map_eq_some_iff.mp hstored.readBack.fields
  have hkind : (McapReader.classifyTopic channel.topic).kind = .Data := by
    rw [hname, htopic]
    exact (classifyTopic_data interface name).1
  have hdescriptor : McapReader.descriptorOf pb file record = some m.descriptor := by
    obtain ⟨d, hd, hm⟩ := Option.bind_eq_some_iff.mp hparse
    unfold DynamicMessage.parseFrom at hm
    split at hm
    · cases hm
    · cases hm
      exact hd
  have htype := hstored.readBack.schema
  rw [hdescriptor, Option.map_some, Option.some.injEq] at htype
  refine ⟨m, htype, hfields, ?_⟩
  rw [McapReader.deliver, hchannel, Option.bind_some]
  dsimp only
  rw [hkind]
  dsimp only
  rw [hparse, ← hname]
  rfl

/-- The value that the reader takes from a field. -/
def readValue (fields : ProtoMessage) (name : String) : ℚ :=
  match fields name with
  | some (.double v) => v
  | _ => 0

/-- The reader takes a value for every signal of the message. -/
theorem mem_decodedSignals_iff {m : DynamicMessage pb}
    (htype : m.descriptor.type = ProtoLog.messageType msg)
    (hnames : ∀ sig ∈ msg.signals, IsIdentifier sig.name) (name : String) (v : ℚ) :
    (∃ s ∈ McapReader.decodedSignals m, s.name = name ∧ s.value = v) ↔
      ∃ sig ∈ msg.signals, sig.name = name ∧ readValue m.fields name = v := by
  unfold McapReader.decodedSignals
  rw [htype]
  constructor
  · rintro ⟨s, hs, hname, hvalue⟩
    obtain ⟨f, hf, rfl⟩ := List.mem_map.mp hs
    obtain ⟨-, -, sig, hsig, hfname⟩ := of_mem_field (List.mem_filter.mp hf).1
    rw [sanitize_of_isIdentifier (hnames sig hsig)] at hfname
    exact ⟨sig, hsig, hfname ▸ hname, hname ▸ hvalue⟩
  · rintro ⟨sig, hsig, rfl, hvalue⟩
    obtain ⟨f, hf, hfname⟩ := exists_field hsig
    rw [sanitize_of_isIdentifier (hnames sig hsig)] at hfname
    refine ⟨_, List.mem_map_of_mem (List.mem_filter.mpr ⟨hf, ?_⟩), hfname, ?_⟩
    · simpa using (of_mem_field hf).1
    · rw [← hvalue, ← hfname]
      rfl

/-- The fields of the record are the decoded values. -/
theorem fields_buildMessage (hlog : ProtoLog.ofNetwork pb interface network = .ok log)
    (hmsg : ((ProtoLog.logged network).reverse.find? fun msg =>
      msg.id = frame.header.id.setWidth 64) = some msg)
    (hnames : ∀ sig ∈ msg.signals, IsIdentifier sig.name)
    (hdecoded : ∀ s ∈ frame.decoded, ∃ sig ∈ msg.signals, sig.name = s.name)
    {m : DynamicMessage pb} (hm : log.buildMessage frame = some m) (name : String) :
    m.fields name = (frame.decoded.reverse.find? fun s => s.name = name).map
      fun s => .double s.value := by
  have hid : msg.id = frame.header.id.setWidth 64 := by simpa using List.find?_some hmsg
  have hlogged : msg ∈ ProtoLog.logged network :=
    List.mem_reverse.mp (List.mem_of_find?_eq_some hmsg)
  obtain ⟨file, -, -, hfieldNames⟩ := ProtoLog.exists_of_ofNetwork hlog
  have htype := ProtoLog.descriptors_ofNetwork hlog (frame.header.id.setWidth 64)
  rw [hmsg, ProtoLog.descriptor] at htype
  obtain ⟨d, hd, hdt⟩ := Option.map_eq_some_iff.mp htype
  unfold ProtoLog.buildMessage at hm
  rw [hd] at hm
  cases htable : log.fieldNames (frame.header.id.setWidth 64) with
  | none =>
    rw [htable] at hm
    cases hm
  | some table =>
    rw [htable] at hm
    cases hm
    refine (fields_foldl_setSignal (m := DynamicMessage.new d) ?_ hdt name).trans (Option.or_none ..)
    intro s hs
    obtain ⟨sig, hsig, hname⟩ := hdecoded s hs
    have hsafe := sanitize_of_isIdentifier (hnames sig hsig)
    have hfield : HasFieldName ((ProtoLog.logged network).foldl ProtoLog.addFieldNames
        UnorderedMap.empty) (frame.header.id.setWidth 64) s.name :=
      hasFieldName_foldl _ _ (Or.inr ⟨msg, hlogged, hid, sig, hsig, hname⟩)
    obtain ⟨table', htable', hentry⟩ := hfield
    rw [← hfieldNames, htable] at htable'
    cases htable'
    rw [← hname] at hentry ⊢
    rw [hentry, hsafe]
    refine ⟨rfl, ?_⟩
    obtain ⟨f, hf, hfname⟩ := exists_field hsig
    exact ⟨f, hf, hfname.trans hsafe⟩

/-- Logged messages with distinct types have distinct names. -/
theorem eq_of_logged_name_eq (hlog : ProtoLog.ofNetwork pb interface network = .ok log)
    {msg' : IMessage} (hmsg : msg ∈ ProtoLog.logged network)
    (hmsg' : msg' ∈ ProtoLog.logged network) (hname : msg.name = msg'.name) : msg = msg' := by
  obtain ⟨file, hproto, -, -⟩ := ProtoLog.exists_of_ofNetwork hlog
  have hnodup := (pb.nodup_of_accepts file.proto file.accepted).1
  rw [hproto, ProtoLog.fileProto, List.map_map] at hnodup
  exact List.inj_on_of_nodup_map hnodup hmsg hmsg' (congrArg sanitize hname)

end Record

/-! ### The frame that comes back -/

section Content

variable {casts : BitCasts} {interface : String} {network : INetwork} {log : ProtoLog pb}
  {frame : CanFrame} {msg : IMessage} {m : DynamicMessage pb}

/-- The signals that were decoded are those of the message that were not skipped. -/
theorem decoded_ofNetwork (hraw : frame.decoded = [])
    (hfind : (network.messages.find? fun msg => msg.id = frame.header.id.setWidth 64) = some msg)
    (hlen : msg.messageSize ≤ frame.payload.length) :
    ((DbcPppWrapper.ofNetwork network).decode casts frame).decoded =
      (msg.signals.filter fun sig =>
        !DbcPppWrapper.skipped msg.muxSignal frame.payload sig).map
          (DbcPppWrapper.decodedSignal casts frame.payload) := by
  rw [← DbcPppWrapper.messages_ofNetwork] at hfind
  rw [DbcPppWrapper.decoded_decode casts hfind hlen, hraw, List.nil_append]

/-- A signal that was skipped is read back although it was not decoded. -/
theorem not_skipped_of_values (hraw : frame.decoded = [])
    (hfind : (network.messages.find? fun msg => msg.id = frame.header.id.setWidth 64) = some msg)
    (hlen : msg.messageSize ≤ frame.payload.length)
    (htype : m.descriptor.type = ProtoLog.messageType msg)
    (hnames : ∀ sig ∈ msg.signals, IsIdentifier sig.name)
    (hvalues : ∀ name v, (∃ s ∈ McapReader.decodedSignals m, s.name = name ∧ s.value = v) →
      ∃ s ∈ ((DbcPppWrapper.ofNetwork network).decode casts frame).decoded,
        s.name = name ∧ s.value = v) {sig : ISignal} (hsig : sig ∈ msg.signals) :
    DbcPppWrapper.skipped msg.muxSignal frame.payload sig = false := by
  obtain ⟨s, hs, hname, -⟩ := hvalues sig.name (readValue m.fields sig.name)
    ((mem_decodedSignals_iff htype hnames _ _).mpr ⟨sig, hsig, rfl, rfl⟩)
  rw [decoded_ofNetwork hraw hfind hlen] at hs
  obtain ⟨sig', hsig', rfl⟩ := List.mem_map.mp hs
  obtain ⟨hmem, hkept⟩ := List.mem_filter.mp hsig'
  rw [← eq_of_name_eq htype hmem hsig hname]
  simpa using hkept

/-- If none was skipped, the values are read back. -/
theorem values_of_not_skipped (hlog : ProtoLog.ofNetwork pb interface network = .ok log)
    (hraw : frame.decoded = [])
    (hfind : (network.messages.find? fun msg => msg.id = frame.header.id.setWidth 64) = some msg)
    (hlast : ((ProtoLog.logged network).reverse.find? fun msg =>
      msg.id = frame.header.id.setWidth 64) = some msg)
    (hlen : msg.messageSize ≤ frame.payload.length)
    (hkept : ∀ sig ∈ msg.signals, DbcPppWrapper.skipped msg.muxSignal frame.payload sig = false)
    (hnames : ∀ sig ∈ msg.signals, IsIdentifier sig.name) {m' : DynamicMessage pb}
    (hm' : log.buildMessage ((DbcPppWrapper.ofNetwork network).decode casts frame) = some m')
    (htype : m.descriptor.type = ProtoLog.messageType msg) (hfields : m.fields = m'.fields)
    (name : String) (v : ℚ) :
    (∃ s ∈ McapReader.decodedSignals m, s.name = name ∧ s.value = v) ↔
      ∃ s ∈ ((DbcPppWrapper.ofNetwork network).decode casts frame).decoded,
        s.name = name ∧ s.value = v := by
  have hheader := DbcPppWrapper.header_decode casts (DbcPppWrapper.ofNetwork network) frame
  have hdecoded : ((DbcPppWrapper.ofNetwork network).decode casts frame).decoded =
      msg.signals.map (DbcPppWrapper.decodedSignal casts frame.payload) := by
    rw [decoded_ofNetwork hraw hfind hlen, List.filter_eq_self.mpr]
    intro sig hsig
    simp [hkept sig hsig]
  have hlisted : ∀ s ∈ ((DbcPppWrapper.ofNetwork network).decode casts frame).decoded,
      ∃ sig ∈ msg.signals, sig.name = s.name := by
    intro s hs
    rw [hdecoded] at hs
    obtain ⟨sig, hsig, rfl⟩ := List.mem_map.mp hs
    exact ⟨sig, hsig, rfl⟩
  rw [← hheader] at hlast
  have hset := fields_buildMessage hlog hlast hnames hlisted hm'
  rw [mem_decodedSignals_iff htype hnames, hfields, hdecoded]
  -- The field of a signal has the value that was decoded for it.
  have hread : ∀ sig ∈ msg.signals, readValue m'.fields sig.name =
      DbcPppWrapper.phys casts sig (sig.decode frame.payload) := by
    intro sig hsig
    have hmem : DbcPppWrapper.decodedSignal casts frame.payload sig ∈
        (msg.signals.map (DbcPppWrapper.decodedSignal casts frame.payload)).reverse :=
      List.mem_reverse.mpr (List.mem_map_of_mem hsig)
    obtain ⟨s, hs, hfound, hname⟩ := exists_find?_key (·.name) hmem
    obtain ⟨sig', hsig', rfl⟩ := List.mem_map.mp (List.mem_reverse.mp hs)
    cases eq_of_name_eq htype hsig' hsig hname
    rw [readValue, hset, hdecoded]
    rw [show sig.name = (DbcPppWrapper.decodedSignal casts frame.payload sig).name from rfl, hfound]
    rfl
  constructor
  · rintro ⟨sig, hsig, rfl, hvalue⟩
    refine ⟨_, List.mem_map_of_mem hsig, rfl, ?_⟩
    rw [← hvalue, hread sig hsig]
    rfl
  · rintro ⟨s, hs, rfl, rfl⟩
    obtain ⟨sig, hsig, rfl⟩ := List.mem_map.mp hs
    exact ⟨sig, hsig, rfl, hread sig hsig⟩

end Content

/-- What is read back from a record that is stored. -/
theorem sameContent_stored_iff {casts : BitCasts} {interface : String} {network : INetwork}
    {log : ProtoLog pb} (hlog : ProtoLog.ofNetwork pb interface network = .ok log)
    (hnames : network.Identifiers) {frame : CanFrame} (hraw : frame.decoded = [])
    (hunnamed : frame.msgName = "")
    (hdesc : (log.descriptor (frame.header.id.setWidth 64)).isSome = true)
    {updateRatioMs : Option ℚ} {w : Write pb}
    (hw : (LogCall.logFrame (some log) ((DbcPppWrapper.ofNetwork network).decode casts frame)
      updateRatioMs).writes.head? = some w)
    {file : mcap.File} {record : mcap.Message} (hstored : Stored file record w)
    (hash : String → BitVec 64) (now : Int) :
    (∃ rebuilt, McapReader.deliver pb hash file now record = some (.onFrame rebuilt) ∧
        SameContent rebuilt ((DbcPppWrapper.ofNetwork network).decode casts frame)) ↔
      Replayable network frame := by
  have hheader := DbcPppWrapper.header_decode casts (DbcPppWrapper.ofNetwork network) frame
  obtain ⟨msg, d, hlast, hd, htype⟩ := exists_loggedMessage hlog hdesc
  have hlogged : msg ∈ ProtoLog.logged network :=
    List.mem_reverse.mp (List.mem_of_find?_eq_some hlast)
  obtain ⟨hmem, hdependent⟩ := List.mem_filter.mp hlogged
  obtain ⟨hident, hsignals⟩ := hnames msg hmem
  have hdname : d.name = msg.name := by
    rw [Descriptor.name, htype]
    exact sanitize_of_isIdentifier hident
  obtain ⟨htopic, hbuilt, hwd⟩ := head_writes hlog (hheader.symm ▸ hd) hw
  rw [hheader, hdname] at htopic
  obtain ⟨m, hmtype, hmfields, hdeliver⟩ := deliver_stored hstored htopic hash now
  rw [hwd, htype] at hmtype
  obtain ⟨-, hiface, hname⟩ := classifyTopic_data frame.header.interface msg.name
  rw [← htopic] at hiface hname
  constructor
  · rintro ⟨rebuilt, hrebuilt, hsame⟩
    rw [hdeliver] at hrebuilt
    cases hrebuilt
    have hslash : '/' ∉ frame.header.interface.toList :=
      hiface.mp (hsame.interface.trans (congrArg (·.interface) hheader))
    -- The frame was given the name of the logged message, so the decoder found it.
    have hmsgName : ((DbcPppWrapper.ofNetwork network).decode casts frame).msgName = msg.name :=
      hsame.msgName.symm.trans (hname hslash)
    have hne : msg.name ≠ "" := by
      obtain ⟨c, rest, hlist, -⟩ := hident
      intro hempty
      rw [hempty] at hlist
      cases hlist
    obtain ⟨msg', hfind, hsameName, hlen⟩ := DbcPppWrapper.of_msgName_decode hunnamed hne hmsgName
    rw [DbcPppWrapper.messages_ofNetwork] at hfind
    have hlogged' : msg' ∈ ProtoLog.logged network :=
      List.mem_filter.mpr ⟨List.mem_of_find?_eq_some hfind, hsameName ▸ hdependent⟩
    cases eq_of_logged_name_eq hlog hlogged' hlogged hsameName
    refine ⟨hslash, msg, hfind, hlast, hlen, ?_⟩
    intro sig hsig
    exact not_skipped_of_values hraw hfind hlen hmtype hsignals
      (fun name v => (hsame.values name v).mp) hsig
  · rintro ⟨hslash, msg', hfind, hlast', hlen, hkept⟩
    rw [hlast] at hlast'
    cases hlast'
    have hmsgName : ((DbcPppWrapper.ofNetwork network).decode casts frame).msgName = msg.name := by
      rw [DbcPppWrapper.decode, DbcPppWrapper.messages_ofNetwork, hfind]
      dsimp only
      rw [if_neg (Nat.not_lt.mpr hlen)]
      exact (DbcPppWrapper.header_decodeMessage casts msg frame).2
    refine ⟨_, hdeliver, (hiface.mpr hslash).trans (congrArg (·.interface) hheader).symm,
      (hname hslash).trans hmsgName.symm, ?_⟩
    exact values_of_not_skipped hlog hraw hfind hlast hlen hkept hsignals hbuilt hmtype hmfields

/-! ### The record in a log -/

/-- No earlier record had the call's `/data` topic, or its type's name, with another type. -/
def ReadByOwnType (calls : List (LogCall pb)) (call : LogCall pb) : Prop :=
  ∀ w, call.writes.head? = some w →
    (registeredFor (calls.flatMap LogCall.writes) w).map (·.type) = some w.desc.type

/-- The records of a log have the topics they were logged with. -/
theorem topic_records {ws : List (Write pb)} {logger : McapLogger}
    (h : McapLogger.Recorded ws logger) {record : mcap.Message} {w : Write pb} (hw : w ∈ ws)
    (hrecord : logger.channels w.topic = some record.channelId) :
    (logger.writer.channels[record.channelId]?).map (·.topic) = some w.topic := by
  obtain ⟨w₀, hw₀, hfind, -⟩ := exists_find?_key Write.topic hw
  obtain ⟨id, -, hid, -, -⟩ := h.exists_schemaId hw₀
  rw [← McapLogger.lookup_channelTable hrecord, h.channel, hfind, Option.bind_some, hid]
  rfl

/-- A record that is read by its own type is stored. -/
theorem exists_stored {ws : List (Write pb)} {logger : McapLogger}
    (h : McapLogger.Recorded ws logger) {i : Nat} {w : Write pb} (hw : ws[i]? = some w)
    (hown : (registeredFor ws w).map (·.type) = some w.desc.type) :
    ∃ record, logger.writer.messages[i]? = some record ∧ Stored logger.writer record w := by
  obtain ⟨hi, hget⟩ := List.getElem?_eq_some_iff.mp hw
  have hi' : i < logger.writer.messages.length := h.messages.length_eq ▸ hi
  obtain ⟨hid, hdata⟩ := h.messages.get hi' hi
  rw [List.get_eq_getElem, List.get_eq_getElem, hget] at hid hdata
  exact ⟨_, List.getElem?_eq_getElem hi', topic_records h (List.mem_of_getElem? hw) hid,
    (readBack_iff_registered h hid hdata).mpr hown⟩

/-- **What comes back from a log.** A frame is decoded, logged and read back, whatever its payload
is and whatever else is logged: the interface, the message name and the values are those that were
logged if and only if the decoder takes the frame for the message that `ProtoLog` takes it for, the
frame is long enough, and no multiplexed signal is skipped. -/
theorem replayed_content_iff {casts : BitCasts} {interface : String} {network : INetwork}
    {log : ProtoLog pb} (hlog : ProtoLog.ofNetwork pb interface network = .ok log)
    (hnames : network.Identifiers) {frame : CanFrame} (hraw : frame.decoded = [])
    (hunnamed : frame.msgName = "")
    (hdesc : (log.descriptor (frame.header.id.setWidth 64)).isSome = true)
    (updateRatioMs : Option ℚ) {before after : List (LogCall pb)}
    (hbefore : ∀ c ∈ before, c.FromDbc) (hafter : ∀ c ∈ after, c.FromDbc)
    (hash : String → BitVec 64) (now : Int) :
    let logged := (DbcPppWrapper.ofNetwork network).decode casts frame
    let call := LogCall.logFrame (some log) logged updateRatioMs
    let calls := before ++ call :: after
    let file := (McapLogger.ofCalls calls).writer
    ReadByOwnType calls call →
      ∃ record, file.messages[(before.flatMap LogCall.writes).length]? = some record ∧
        ((∃ rebuilt, McapReader.deliver pb hash file now record = some (.onFrame rebuilt) ∧
            SameContent rebuilt logged) ↔ Replayable network frame) := by
  intro logged call calls file hown
  have hcalls : ∀ c ∈ calls, c.FromDbc := by
    intro c hc
    rcases List.mem_append.mp hc with hc | hc
    · exact hbefore c hc
    · rcases List.mem_cons.mp hc with rfl | hc
      · intro l hl
        cases hl
        exact ⟨interface, network, hlog⟩
      · exact hafter c hc
  have hheader : logged.header = frame.header := DbcPppWrapper.header_decode _ _ _
  obtain ⟨w, hw⟩ := exists_head_writes hlog (hheader.symm ▸ hdesc) updateRatioMs
  have hget : (calls.flatMap LogCall.writes)[(before.flatMap LogCall.writes).length]? = some w := by
    rw [List.flatMap_append, List.getElem?_append_right le_rfl, Nat.sub_self, List.flatMap_cons,
      ← List.head?_eq_getElem?, List.head?_append, hw]
    rfl
  obtain ⟨record, hrecord, hstored⟩ := exists_stored (McapLogger.recorded_foldl _) hget (hown w hw)
  rw [← ofCalls_eq hcalls] at hrecord hstored
  exact ⟨record, hrecord, sameContent_stored_iff hlog hnames hraw hunnamed hdesc hw hstored hash now⟩

/-! ### A log of one frame -/

theorem eq_ok_get {ε α : Type} (x : Except ε α) (h : x.toOption.isSome = true) :
    x = .ok (x.toOption.get h) := by
  cases x with
  | error e => cases h
  | ok a => rfl

/-- A drive that reports nothing but its speed, as a group of its switch. -/
def speedMessage : IMessage :=
  { DriveState.message with signals := [DriveState.Mode, DriveState.Speed] }

def speedLog : ProtoLog Protobuf.wire :=
  (ProtoLog.ofNetwork Protobuf.wire "vcan0" ⟨[speedMessage]⟩).toOption.get (by decide +kernel)

theorem speedMessage_identifiers : (⟨[speedMessage]⟩ : INetwork).Identifiers := by
  intro msg hmsg
  cases List.mem_singleton.mp hmsg
  refine ⟨isIdentifier_of_all rfl rfl (by decide +kernel), ?_⟩
  intro sig hsig
  rcases List.mem_pair.mp hsig with rfl | rfl
  · exact isIdentifier_of_all rfl rfl (by decide +kernel)
  · exact isIdentifier_of_all rfl rfl (by decide +kernel)

/-- A frame comes back whose only group is the one that its switch selects. -/
theorem replayed_content_speed :
    let logged := (DbcPppWrapper.ofNetwork ⟨[speedMessage]⟩).decode BitCasts.zero
      (DriveState.frame [0, 5, 0])
    let file := (McapLogger.ofCalls [.logFrame (some speedLog) logged none]).writer
    (logged.decoded.map fun s => (s.name, s.value)) = [("Mode", 0), ("Speed", 5)] ∧
      ∃ record, file.messages[0]? = some record ∧
        ∃ rebuilt, McapReader.deliver Protobuf.wire (fun _ => 0) file 0 record =
          some (.onFrame rebuilt) ∧ SameContent rebuilt logged := by
  intro logged file
  have hown : ReadByOwnType [LogCall.logFrame (some speedLog) logged none]
      (.logFrame (some speedLog) logged none) := by
    intro w hw
    have hall : ∀ w ∈ (LogCall.logFrame (some speedLog) logged none).writes,
        (registeredFor ([LogCall.logFrame (some speedLog) logged none].flatMap LogCall.writes)
          w).map (·.type) = some w.desc.type := by
      decide +kernel
    exact hall w (List.mem_of_mem_head? hw)
  have hnone : ∀ c ∈ ([] : List (LogCall Protobuf.wire)), c.FromDbc := by simp
  have hraw : (DriveState.frame [0, 5, 0]).decoded = [] := rfl
  obtain ⟨record, hrecord, hiff⟩ := replayed_content_iff (eq_ok_get _ (by decide +kernel))
    speedMessage_identifiers hraw rfl (by decide +kernel) none hnone hnone (fun _ => 0) 0 hown
  refine ⟨by decide +kernel, record, hrecord, hiff.mpr ?_⟩
  exact ⟨by decide +kernel, speedMessage, rfl, rfl, by decide +kernel, by decide +kernel⟩

/-! ### The signals of the other group -/

def driveLog : ProtoLog Protobuf.wire :=
  (ProtoLog.ofNetwork Protobuf.wire "vcan0" ⟨[DriveState.message]⟩).toOption.get (by decide +kernel)

/-- In mode 0 the message has no torque, but one of 0 is read back. -/
theorem not_replayed_driveState :
    let logged := (DbcPppWrapper.ofNetwork ⟨[DriveState.message]⟩).decode BitCasts.zero
      (DriveState.frame [0, 5, 0])
    let file := (McapLogger.ofCalls [.logFrame (some driveLog) logged none]).writer
    let record := file.messages[0]?
    (logged.decoded.map fun s => (s.name, s.value)) = [("Mode", 0), ("Speed", 5)] ∧
      ∃ rebuilt, record.bind (McapReader.deliver Protobuf.wire (fun _ => 0) file 0) =
          some (.onFrame rebuilt) ∧
        (rebuilt.decoded.map fun s => (s.name, s.value)) =
          [("Mode", 0), ("Speed", 5), ("Torque", 0)] ∧
        ¬ SameContent rebuilt logged := by
  intro logged file record
  have hlogged : (logged.decoded.map fun s => (s.name, s.value)) = [("Mode", 0), ("Speed", 5)] := by
    decide +kernel
  have hread : ((record.bind (McapReader.deliver Protobuf.wire (fun _ => 0) file 0)).bind fun
      | .onFrame f => some (f.decoded.map fun s => (s.name, s.value))
      | .onSend _ _ _ => none) = some [("Mode", 0), ("Speed", 5), ("Torque", 0)] := by
    decide +kernel
  obtain ⟨delivery, hdelivery, hvalues⟩ := Option.bind_eq_some_iff.mp hread
  cases delivery with
  | onSend iface canId payload => cases hvalues
  | onFrame rebuilt =>
    have hrebuilt := Option.some.inj hvalues
    refine ⟨hlogged, rebuilt, hdelivery, hrebuilt, ?_⟩
    intro hsame
    have htorque : (("Torque", 0) : String × ℚ) ∈ rebuilt.decoded.map fun s => (s.name, s.value) := by
      rw [hrebuilt]
      simp
    obtain ⟨s, hs, hpair⟩ := List.mem_map.mp htorque
    obtain ⟨s', hs', hname, hvalue⟩ := (hsame.values "Torque" 0).mp
      ⟨s, hs, congrArg Prod.fst hpair, congrArg Prod.snd hpair⟩
    have hmem : (s'.name, s'.value) ∈ logged.decoded.map fun s => (s.name, s.value) :=
      List.mem_map_of_mem hs'
    rw [hlogged, hname] at hmem
    simp at hmem

end Caneo
