import Caneo.BitField
import Caneo.Containers
import Caneo.Wire

/-!
# Protobuf at run time

The program builds its message types at run time: it fills a `FileDescriptorProto`, lets a
`DescriptorPool` turn it into descriptors, and reads and writes messages through reflection. All
its types are flat (doubles and 32-bit integers, no nested messages, no package), and only those
are modelled.

`Protobuf` stands for the library: which files it accepts, and its wire format. The laws say that an
accepted file has distinct names, and that parsing under the type a message was serialized with
gives the message back. A `DynamicMessage` is a message of a built type, and holds nothing but
fields of it. `Protobuf.wire` is an instance of the library.
-/

namespace Caneo

open BitField Containers

inductive FieldType where
  | TYPE_DOUBLE
  | TYPE_UINT32
deriving DecidableEq, Repr

inductive FieldLabel where
  | LABEL_OPTIONAL
  | LABEL_REPEATED
deriving DecidableEq, Repr

structure FieldDescriptorProto where
  name : String
  number : Nat
  type : FieldType
  label : FieldLabel
deriving DecidableEq, Repr

structure DescriptorProto where
  name : String
  field : List FieldDescriptorProto
deriving DecidableEq, Repr

/-- A `proto2` file. -/
structure FileDescriptorProto where
  name : String
  messageType : List DescriptorProto
deriving DecidableEq, Repr

/-! ### Messages -/

inductive FieldValue where
  | double (v : ℚ)
  | uint32 (v : BitVec 32)
  | uint32s (vs : List (BitVec 32))
deriving DecidableEq

/-- The fields that are set. -/
abbrev ProtoMessage := UnorderedMap String FieldValue

/-- The value fits the field; a repeated field without elements is not set. -/
def FieldDescriptorProto.Admits (f : FieldDescriptorProto) : FieldValue → Prop
  | .double _ => f.type = .TYPE_DOUBLE ∧ f.label = .LABEL_OPTIONAL
  | .uint32 _ => f.type = .TYPE_UINT32 ∧ f.label = .LABEL_OPTIONAL
  | .uint32s vs => f.type = .TYPE_UINT32 ∧ f.label = .LABEL_REPEATED ∧ vs ≠ []

instance (f : FieldDescriptorProto) (v : FieldValue) : Decidable (f.Admits v) :=
  match v with
  | .double _ => inferInstanceAs (Decidable (_ ∧ _))
  | .uint32 _ => inferInstanceAs (Decidable (_ ∧ _))
  | .uint32s _ => inferInstanceAs (Decidable (_ ∧ _ ∧ _))

/-- Every field that is set is a field of the type, and admits its value. -/
def ProtoMessage.Conforms (m : ProtoMessage) (type : DescriptorProto) : Prop :=
  ∀ name v, m name = some v → ∃ f ∈ type.field, f.name = name ∧ f.Admits v

/-! ### The library -/

structure Protobuf where
  accepts : FileDescriptorProto → Bool
  serialize : DescriptorProto → ProtoMessage → Bytes
  parse : DescriptorProto → Bytes → Option ProtoMessage
  /-- Of a `FileDescriptorSet`. -/
  serializeFiles : List FileDescriptorProto → Bytes
  parseFiles : Bytes → Option (List FileDescriptorProto)
  nodup_of_accepts : ∀ file, accepts file = true →
    (file.messageType.map (·.name)).Nodup ∧
      ∀ type ∈ file.messageType, (type.field.map (·.name)).Nodup
  conforms_of_parse : ∀ type bytes m, parse type bytes = some m → ProtoMessage.Conforms m type
  parse_serialize : ∀ type m, (type.field.map (·.name)).Nodup → ProtoMessage.Conforms m type →
    parse type (serialize type m) = some m
  parseFiles_serializeFiles : ∀ files, parseFiles (serializeFiles files) = some files

variable (pb : Protobuf)

/-- A file a pool has built. -/
structure FileDescriptor where
  proto : FileDescriptorProto
  accepted : pb.accepts proto = true

/-- A message type of a built file. -/
structure Descriptor where
  file : FileDescriptor pb
  type : DescriptorProto
  mem : type ∈ file.proto.messageType

/-- The files it has built. -/
abbrev DescriptorPool := List (FileDescriptor pb)

variable {pb}

/-- `FindMessageTypeByName`, in one file. -/
def FileDescriptor.findMessageTypeByName (file : FileDescriptor pb) (name : String) :
    Option (Descriptor pb) :=
  (file.proto.messageType.attach.find? fun type => type.val.name = name).map fun type =>
    ⟨file, type.val, type.property⟩

/-- `BuildFile`, on a pool of its own. -/
def Protobuf.buildFile (pb : Protobuf) (file : FileDescriptorProto) : Option (FileDescriptor pb) :=
  if h : pb.accepts file = true then some ⟨file, h⟩ else none

namespace DescriptorPool

def findMessageTypeByName (pool : DescriptorPool pb) (name : String) : Option (Descriptor pb) :=
  pool.findSome? fun file => file.findMessageTypeByName name

/-- The file's name, or one of its types, is taken. -/
def clashes (pool : DescriptorPool pb) (file : FileDescriptorProto) : Bool :=
  pool.any (fun built => built.proto.name = file.name) ||
    file.messageType.any fun type => (findMessageTypeByName pool type.name).isSome

def buildFile (pool : DescriptorPool pb) (file : FileDescriptorProto) : DescriptorPool pb :=
  if clashes pool file then pool else pool ++ (pb.buildFile file).toList

end DescriptorPool

namespace Descriptor

def name (d : Descriptor pb) : String := d.type.name

/-- The files have no package. -/
def fullName (d : Descriptor pb) : String := d.type.name

def findFieldByName (d : Descriptor pb) (name : String) : Option FieldDescriptorProto :=
  d.type.field.find? fun f => f.name = name

end Descriptor

theorem Protobuf.buildFile_accepted (file : FileDescriptor pb) :
    pb.buildFile file.proto = some file := by
  simp [Protobuf.buildFile, file.accepted]

/-- Lookup by name finds the type itself: names are distinct. -/
theorem FileDescriptor.findMessageTypeByName_name (d : Descriptor pb) :
    d.file.findMessageTypeByName d.name = some d := by
  obtain ⟨file, type, mem⟩ := d
  have hnodup := (pb.nodup_of_accepts file.proto file.accepted).1
  have hattach : (file.proto.messageType.attach.map fun t => t.val.name).Nodup := by
    exact List.attach_map_val (f := DescriptorProto.name) ▸ hnodup
  have hfind := find?_key_of_nodup (fun t => t.val.name) hattach
    (List.mem_attach file.proto.messageType ⟨type, mem⟩)
  rw [FileDescriptor.findMessageTypeByName, Descriptor.name, hfind]
  rfl

theorem FileDescriptor.exists_of_mem (file : FileDescriptor pb) {type : DescriptorProto}
    (mem : type ∈ file.proto.messageType) :
    file.findMessageTypeByName type.name = some ⟨file, type, mem⟩ :=
  FileDescriptor.findMessageTypeByName_name ⟨file, type, mem⟩

theorem DescriptorPool.buildFile_nil (file : FileDescriptor pb) :
    DescriptorPool.buildFile [] file.proto = [file] := by
  simp [DescriptorPool.buildFile, DescriptorPool.clashes, DescriptorPool.findMessageTypeByName,
    Protobuf.buildFile_accepted]

theorem Descriptor.nodup_field (d : Descriptor pb) : (d.type.field.map (·.name)).Nodup :=
  (pb.nodup_of_accepts d.file.proto d.file.accepted).2 d.type d.mem

/-! ### Reflection -/

variable (pb) in
structure DynamicMessage where
  descriptor : Descriptor pb
  fields : ProtoMessage
  conforms : fields.Conforms descriptor.type

namespace DynamicMessage

def new (d : Descriptor pb) : DynamicMessage pb where
  descriptor := d
  fields := UnorderedMap.empty
  conforms name v h := by cases h

/-- Reflection ends the program on a field of another type or kind; nothing is set then. -/
def set (m : DynamicMessage pb) (f : FieldDescriptorProto) (v : FieldValue) : DynamicMessage pb :=
  if h : f ∈ m.descriptor.type.field ∧ f.Admits v then
    { descriptor := m.descriptor
      fields := m.fields.set f.name v
      conforms := by
        intro name w hw
        rw [UnorderedMap.set_apply] at hw
        split at hw
        · rename_i hname
          cases hw
          exact ⟨f, h.1, hname.symm, h.2⟩
        · exact m.conforms name w hw }
  else m

def setDouble (m : DynamicMessage pb) (f : FieldDescriptorProto) (v : ℚ) : DynamicMessage pb :=
  m.set f (.double v)

def setUInt32 (m : DynamicMessage pb) (f : FieldDescriptorProto) (v : BitVec 32) :
    DynamicMessage pb :=
  m.set f (.uint32 v)

def getRepeatedUInt32 (m : DynamicMessage pb) (f : FieldDescriptorProto) : List (BitVec 32) :=
  match m.fields f.name with
  | some (.uint32s vs) => vs
  | _ => []

def addUInt32 (m : DynamicMessage pb) (f : FieldDescriptorProto) (v : BitVec 32) :
    DynamicMessage pb :=
  m.set f (.uint32s (m.getRepeatedUInt32 f ++ [v]))

/-- A field that is not set reads as 0. -/
def getDouble (m : DynamicMessage pb) (f : FieldDescriptorProto) : ℚ :=
  match m.fields f.name with
  | some (.double v) => v
  | _ => 0

def getUInt32 (m : DynamicMessage pb) (f : FieldDescriptorProto) : BitVec 32 :=
  match m.fields f.name with
  | some (.uint32 v) => v
  | _ => 0

def serializeToString (m : DynamicMessage pb) : Bytes := pb.serialize m.descriptor.type m.fields

def parseFrom (d : Descriptor pb) (bytes : Bytes) : Option (DynamicMessage pb) :=
  match h : pb.parse d.type bytes with
  | none => none
  | some fields => some ⟨d, fields, pb.conforms_of_parse d.type bytes fields h⟩

@[simp] theorem descriptor_set (m : DynamicMessage pb) (f : FieldDescriptorProto) (v : FieldValue) :
    (m.set f v).descriptor = m.descriptor := by
  unfold set
  split <;> rfl

/-- Parsing under an equal type, of whatever file, gives the fields back. -/
theorem parseFrom_serializeToString (m : DynamicMessage pb) {d : Descriptor pb}
    (hd : d.type = m.descriptor.type) :
    (parseFrom d m.serializeToString).map (·.fields) = some m.fields := by
  have hparse : pb.parse d.type m.serializeToString = some m.fields := by
    rw [serializeToString, hd]
    exact pb.parse_serialize _ _ m.descriptor.nodup_field m.conforms
  unfold parseFrom
  split
  · rename_i h
    rw [hparse] at h
    cases h
  · rename_i fields h
    rw [hparse] at h
    cases h
    rfl

end DynamicMessage

/-! ### A library that behaves as documented

A message is written as the values of its type's fields in their order, the absent ones included;
what the reading type has no field for is dropped. -/

open Wire

def FieldDescriptorProto.codec : Codec FieldDescriptorProto :=
  (Codec.prod (Codec.prod Codec.string Codec.nat) (Codec.prod Codec.bool Codec.bool)).via
    (fun f => ((f.name, f.number), (f.type = .TYPE_DOUBLE, f.label = .LABEL_OPTIONAL)))
    (fun p => ⟨p.1.1, p.1.2, if p.2.1 then .TYPE_DOUBLE else .TYPE_UINT32,
      if p.2.2 then .LABEL_OPTIONAL else .LABEL_REPEATED⟩)
    (fun ⟨_, _, type, label⟩ => by cases type <;> cases label <;> rfl)

def DescriptorProto.codec : Codec DescriptorProto :=
  (Codec.prod Codec.string (Codec.list FieldDescriptorProto.codec)).via
    (fun d => (d.name, d.field)) (fun p => ⟨p.1, p.2⟩) fun _ => rfl

def FileDescriptorProto.codec : Codec FileDescriptorProto :=
  (Codec.prod Codec.string (Codec.list DescriptorProto.codec)).via
    (fun d => (d.name, d.messageType)) (fun p => ⟨p.1, p.2⟩) fun _ => rfl

def FieldValue.codec : Codec FieldValue :=
  (Codec.sum Codec.rat (Codec.sum (Codec.bitVec 32) (Codec.list (Codec.bitVec 32)))).via
    (fun
      | .double v => .inl v
      | .uint32 v => .inr (.inl v)
      | .uint32s vs => .inr (.inr vs))
    (fun
      | .inl v => .double v
      | .inr (.inl v) => .uint32 v
      | .inr (.inr vs) => .uint32s vs)
    (fun v => by cases v <;> rfl)

def valuesCodec : Codec (List (Option FieldValue)) := Codec.list (Codec.option FieldValue.codec)

/-- The message whose fields, in their order, have these values. -/
def ProtoMessage.ofValues (field : List FieldDescriptorProto) (values : List (Option FieldValue)) :
    ProtoMessage :=
  fun name => ((field.zip values).find? fun p => p.1.name = name).bind fun p =>
    p.2.filter fun v => p.1.Admits v

theorem ProtoMessage.ofValues_map {type : DescriptorProto} {m : ProtoMessage}
    (hnodup : (type.field.map (·.name)).Nodup) (hm : m.Conforms type) :
    ProtoMessage.ofValues type.field (type.field.map fun f => m f.name) = m := by
  funext name
  have hzip : type.field.zip (type.field.map fun f => m f.name) =
      type.field.map fun f => (f, m f.name) := by
    simpa using List.zip_map' (f := id) (g := fun f => m f.name) (l := type.field)
  rw [ProtoMessage.ofValues, hzip, List.find?_map, Option.bind_map]
  cases hfind : type.field.find? ((fun p => decide (p.1.name = name)) ∘ fun f => (f, m f.name)) with
  | none =>
    cases hname : m name with
    | none => rfl
    | some v =>
      obtain ⟨f, hf, rfl, -⟩ := hm name v hname
      have hfound := find?_key_of_nodup FieldDescriptorProto.name hnodup hf
      cases hfind.symm.trans hfound
  | some f =>
    have hfname : f.name = name := by simpa using List.find?_some hfind
    have hf := List.mem_of_find?_eq_some hfind
    subst hfname
    cases hvalue : m f.name with
    | none => simp [hvalue]
    | some v =>
      obtain ⟨f', hf', hname', hadmits⟩ := hm f.name v hvalue
      have : f' = f := List.inj_on_of_nodup_map hnodup hf' hf hname'
      subst this
      simp [hvalue, hadmits]

theorem ProtoMessage.conforms_ofValues (type : DescriptorProto) (values : List (Option FieldValue)) :
    (ProtoMessage.ofValues type.field values).Conforms type := by
  intro name v h
  obtain ⟨⟨f, value⟩, hfind, hvalue⟩ := Option.bind_eq_some_iff.mp h
  obtain ⟨-, hadmits⟩ := Option.filter_eq_some_iff.mp hvalue
  have hname := List.find?_some hfind
  have hmem := List.mem_of_find?_eq_some hfind
  exact ⟨f, (List.of_mem_zip hmem).1, by simpa using hname, by simpa using hadmits⟩

def Protobuf.wire : Protobuf where
  accepts file := (file.messageType.map (·.name)).Nodup &&
    file.messageType.all fun type =>
      (type.field.map (·.name)).Nodup && (type.field.map (·.number)).Nodup
  serialize type m := valuesCodec.encode (type.field.map fun f => m f.name)
  parse type bytes := (valuesCodec.decode bytes).map fun p => ProtoMessage.ofValues type.field p.1
  serializeFiles := (Codec.list FileDescriptorProto.codec).encode
  parseFiles bytes := ((Codec.list FileDescriptorProto.codec).decode bytes).map (·.1)
  nodup_of_accepts file h := by
    simp only [Bool.and_eq_true, decide_eq_true_eq, List.all_eq_true] at h
    exact ⟨h.1, fun type htype => (h.2 type htype).1⟩
  conforms_of_parse type bytes m h := by
    obtain ⟨p, -, rfl⟩ := Option.map_eq_some_iff.mp h
    exact ProtoMessage.conforms_ofValues type p.1
  parse_serialize type m hnodup hm := by
    have h := valuesCodec.decode_encode (type.field.map fun f => m f.name) []
    rw [List.append_nil] at h
    rw [h, Option.map_some, ProtoMessage.ofValues_map hnodup hm]
  parseFiles_serializeFiles files := by
    have h := (Codec.list FileDescriptorProto.codec).decode_encode files []
    rw [List.append_nil] at h
    rw [h, Option.map_some]

end Caneo
