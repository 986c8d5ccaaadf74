import Caneo.CanFrame
import Caneo.Dbc
import Caneo.Protobuf

/-!
# `ProtoLog`

One protobuf message type for every message of an interface's DBC, with one optional double field
for every signal (`src/proto/ProtoLog.cpp`), and the serialization of decoded frames under it.

DBC messages that share an id share one table of field names, and the descriptor of the last of
them (`descriptors_ofNetwork`).
-/

namespace Caneo

open BitField Containers

/-- Replace every byte that may not stand in a protobuf name. -/
def sanitize (name : String) : String :=
  let out := name.toList.flatMap fun c =>
    if c.isAlphanum || c = '_' then [c] else List.replicate c.utf8Size '_'
  match out with
  | [] => "_"
  | c :: _ => if c.isDigit then String.ofList ('_' :: out) else String.ofList out

structure ProtoLog (pb : Protobuf) where
  interface : String
  descriptors : UnorderedMap (BitVec 64) (Descriptor pb)
  fieldNames : UnorderedMap (BitVec 64) (UnorderedMap String String)

namespace ProtoLog

variable {pb : Protobuf}

/-! ### Construction -/

def independent : String := "VECTOR__INDEPENDENT_SIG_MSG"

/-- The messages of the DBC that get a type. -/
def logged (network : INetwork) : List IMessage :=
  network.messages.filter fun msg => msg.name ≠ independent

def messageType (msg : IMessage) : DescriptorProto where
  name := sanitize msg.name
  field := msg.signals.mapIdx fun i sig =>
    { name := sanitize sig.name, number := i + 1, type := .TYPE_DOUBLE, label := .LABEL_OPTIONAL }

def fileProto (interface : String) (network : INetwork) : FileDescriptorProto where
  name := interface ++ ".proto"
  messageType := (logged network).map messageType

/-- Record the field names of one message in the table of its id. -/
def addFieldNames (names : UnorderedMap (BitVec 64) (UnorderedMap String String))
    (msg : IMessage) : UnorderedMap (BitVec 64) (UnorderedMap String String) :=
  names.set msg.id <| msg.signals.foldl (fun m sig => m.set sig.name (sanitize sig.name))
    ((names msg.id).getD UnorderedMap.empty)

def addDescriptor (file : FileDescriptor pb) (descriptors : UnorderedMap (BitVec 64) (Descriptor pb))
    (msg : IMessage) : UnorderedMap (BitVec 64) (Descriptor pb) :=
  match file.findMessageTypeByName (sanitize msg.name) with
  | some desc => descriptors.set msg.id desc
  | none => descriptors

def ofNetwork (pb : Protobuf) (interface : String) (network : INetwork) :
    Except String (ProtoLog pb) :=
  match pb.buildFile (fileProto interface network) with
  | none => .error ("ProtoLog: failed to build protobuf descriptors for interface: " ++ interface)
  | some file => .ok
    { interface := interface,
      descriptors := (logged network).foldl (addDescriptor file) UnorderedMap.empty,
      fieldNames := (logged network).foldl addFieldNames UnorderedMap.empty }

/-- The constructor, with its exceptions. -/
def load (pb : Protobuf) (files : String → DbcFile) (interface dbcPath : String) :
    Except String (ProtoLog pb) :=
  match files dbcPath with
  | .missing => .error ("ProtoLog: cannot open DBC: " ++ dbcPath)
  | .unparsable => .error ("ProtoLog: cannot parse DBC: " ++ dbcPath)
  | .network network => ofNetwork pb interface network

/-! ### Serialization -/

def descriptor (log : ProtoLog pb) (msgId : BitVec 64) : Option (Descriptor pb) :=
  log.descriptors msgId

def setSignal (names : UnorderedMap String String) (m : DynamicMessage pb) (sig : DecodedSignal) :
    DynamicMessage pb :=
  match names sig.name with
  | none => m
  | some safe =>
    match m.descriptor.findFieldByName safe with
    | none => m
    | some f => m.setDouble f sig.value

def buildMessage (log : ProtoLog pb) (frame : CanFrame) : Option (DynamicMessage pb) :=
  match log.descriptors (frame.header.id.setWidth 64), log.fieldNames (frame.header.id.setWidth 64) with
  | some desc, some names => some (frame.decoded.foldl (setSignal names) (DynamicMessage.new desc))
  | _, _ => none

def serialize (log : ProtoLog pb) (frame : CanFrame) : Bytes :=
  match log.buildMessage frame with
  | none => []
  | some m => m.serializeToString

/-! ### Which descriptor an id has -/

/-- Every logged message has its type in the built file. -/
theorem findMessageType_of_mem {interface : String} {network : INetwork} {file : FileDescriptor pb}
    (hfile : file.proto = fileProto interface network) {msg : IMessage}
    (hmsg : msg ∈ logged network) :
    ∃ mem, file.findMessageTypeByName (sanitize msg.name) = some ⟨file, messageType msg, mem⟩ := by
  have mem : messageType msg ∈ file.proto.messageType := by
    rw [hfile]
    exact List.mem_map_of_mem hmsg
  exact ⟨mem, file.exists_of_mem mem⟩

theorem descriptors_foldl {interface : String} {network : INetwork} {file : FileDescriptor pb}
    (hfile : file.proto = fileProto interface network) (l : List IMessage)
    (hl : ∀ msg ∈ l, msg ∈ logged network)
    (descriptors : UnorderedMap (BitVec 64) (Descriptor pb)) (id : BitVec 64) :
    ((l.foldl (addDescriptor file) descriptors) id).map (·.type) =
      ((l.reverse.find? fun msg => msg.id = id).map messageType).or
        ((descriptors id).map (·.type)) := by
  induction l generalizing descriptors with
  | nil => simp
  | cons msg l ih =>
    obtain ⟨mem, hfind⟩ := findMessageType_of_mem hfile (hl msg List.mem_cons_self)
    rw [List.foldl_cons, ih (fun m hm => hl m (List.mem_cons_of_mem _ hm)), addDescriptor, hfind,
      List.reverse_cons, List.find?_append]
    cases l.reverse.find? fun msg => msg.id = id with
    | some m => simp
    | none =>
      by_cases hid : msg.id = id
      · simp [hid]
      · have hid' : id ≠ msg.id := fun e => hid e.symm
        simp [hid, UnorderedMap.set_ne _ _ hid']

/-- What the constructor has built. -/
theorem exists_of_ofNetwork {interface : String} {network : INetwork} {log : ProtoLog pb}
    (hlog : ofNetwork pb interface network = .ok log) :
    ∃ file : FileDescriptor pb, file.proto = fileProto interface network ∧
      log.descriptors = (logged network).foldl (addDescriptor file) UnorderedMap.empty ∧
      log.fieldNames = (logged network).foldl addFieldNames UnorderedMap.empty := by
  unfold ofNetwork Protobuf.buildFile at hlog
  split at hlog
  · cases hlog
  · rename_i file hfile
    split at hfile
    · cases hfile
      cases hlog
      exact ⟨_, rfl, rfl, rfl⟩
    · cases hfile

/-- The descriptor of an id is the type of the last message in the DBC that bears it. -/
theorem descriptors_ofNetwork {interface : String} {network : INetwork} {log : ProtoLog pb}
    (hlog : ofNetwork pb interface network = .ok log) (id : BitVec 64) :
    (log.descriptor id).map (·.type) =
      ((logged network).reverse.find? fun msg => msg.id = id).map messageType := by
  obtain ⟨file, hproto, hdescriptors, -⟩ := exists_of_ofNetwork hlog
  have h := descriptors_foldl hproto (logged network) (fun _ hm => hm) UnorderedMap.empty id
  rw [descriptor, hdescriptors, h]
  simp

theorem isSome_foldl_addFieldNames (l : List IMessage)
    (names : UnorderedMap (BitVec 64) (UnorderedMap String String)) {msg : IMessage}
    (h : (names msg.id).isSome = true ∨ msg ∈ l) :
    ((l.foldl addFieldNames names) msg.id).isSome = true := by
  induction l generalizing names with
  | nil => simpa using h
  | cons msg' l ih =>
    rw [List.foldl_cons]
    apply ih
    rw [addFieldNames, UnorderedMap.set_apply]
    rcases h with hnames | hmem
    · left
      split
      · rfl
      · exact hnames
    · rcases List.mem_cons.mp hmem with rfl | hmem
      · left
        rw [if_pos rfl]
        rfl
      · exact Or.inr hmem

@[simp] theorem descriptor_setSignal (names : UnorderedMap String String) (m : DynamicMessage pb)
    (sig : DecodedSignal) : (setSignal names m sig).descriptor = m.descriptor := by
  unfold setSignal
  split
  · rfl
  · split
    · rfl
    · exact DynamicMessage.descriptor_set _ _ _

theorem descriptor_foldl_setSignal (names : UnorderedMap String String)
    (decoded : List DecodedSignal) (m : DynamicMessage pb) :
    (decoded.foldl (setSignal names) m).descriptor = m.descriptor := by
  induction decoded generalizing m with
  | nil => rfl
  | cons sig decoded ih => rw [List.foldl_cons, ih, descriptor_setSignal]

/-- A frame has a message exactly if its id has a descriptor, and that is the message's. -/
theorem descriptor_buildMessage {interface : String} {network : INetwork} {log : ProtoLog pb}
    (hlog : ofNetwork pb interface network = .ok log) (frame : CanFrame) :
    (log.buildMessage frame).map (·.descriptor) = log.descriptor (frame.header.id.setWidth 64) := by
  obtain ⟨file, hproto, hdescriptors, hnames⟩ := exists_of_ofNetwork hlog
  have htype := descriptors_ofNetwork hlog (frame.header.id.setWidth 64)
  unfold buildMessage
  rw [descriptor] at htype ⊢
  cases hdesc : log.descriptors (frame.header.id.setWidth 64) with
  | none => rfl
  | some desc =>
    rw [hdesc, Option.map_some] at htype
    obtain ⟨msg, hfind, -⟩ := Option.map_eq_some_iff.mp htype.symm
    have hid : msg.id = frame.header.id.setWidth 64 := by simpa using List.find?_some hfind
    have hmem : msg ∈ logged network := List.mem_reverse.mp (List.mem_of_find?_eq_some hfind)
    have hsome := isSome_foldl_addFieldNames (logged network) UnorderedMap.empty (Or.inr hmem)
    rw [← hnames, hid] at hsome
    obtain ⟨names, hnames'⟩ := Option.isSome_iff_exists.mp hsome
    rw [hnames']
    simp [descriptor_foldl_setSignal, DynamicMessage.new]

end ProtoLog

end Caneo
