import Caneo.McapLogger
import Caneo.Numerals

/-!
# `McapReader`

How `McapReader::play` reads one record (`src/logger/McapReader.cpp`): the record's channel gives
the topic and the schema, the topic says what the record is for, and the schema's message type, built
anew from the file, parses it. The pace of the replay and its filters are not modelled here.
-/

namespace Caneo

open BitField Containers

namespace McapReader

/-! ### Topics -/

inductive ChannelKind where
  | Data
  | Raw
  | Other
deriving DecidableEq, Repr

structure ChannelInfo where
  kind : ChannelKind
  iface : String
  msgName : String
deriving DecidableEq

/-- The topic without the suffix, split at its first slash. -/
def splitTopic (kind : ChannelKind) (suffix topic : List Char) : Option ChannelInfo :=
  if topic.length ≤ suffix.length then none
  else if suffix.isSuffixOf topic then
    let base := topic.take (topic.length - suffix.length)
    (base.idxOf? '/').map fun sep =>
      ⟨kind, String.ofList (base.take sep), String.ofList (base.drop (sep + 1))⟩
  else none

def classifyTopic (topic : String) : ChannelInfo :=
  ((splitTopic .Data "/data".toList topic.toList).or
    (splitTopic .Raw "/raw".toList topic.toList)).getD ⟨.Other, "", ""⟩

/-! ### Identifiers -/

def hexDigit (c : Char) : Option Nat :=
  if c.isDigit then some (c.toNat - '0'.toNat)
  else if 'a' ≤ c ∧ c ≤ 'f' then some (c.toNat - 'a'.toNat + 10)
  else if 'A' ≤ c ∧ c ≤ 'F' then some (c.toNat - 'A'.toNat + 10)
  else none

def hexPrefix (s : List Char) : List Char :=
  match s with
  | '0' :: x :: c :: rest =>
    if (x = 'x' ∨ x = 'X') ∧ (hexDigit c).isSome then c :: rest else s
  | _ => s

/-- `std::stoul(s, nullptr, 16)`; `none` if it throws. -/
def stoulHex (s : List Char) : Option (BitVec 64) :=
  let s := s.dropWhile Numerals.isSpace
  let (negative, s) := match s with
    | '-' :: rest => (true, rest)
    | '+' :: rest => (false, rest)
    | _ => (false, s)
  let digits := ((hexPrefix s).takeWhile fun c => (hexDigit c).isSome).filterMap hexDigit
  let value : Nat := digits.foldl (fun v d => 16 * v + d) 0
  if digits = [] ∨ 2 ^ 64 ≤ value then none
  else some (if negative then BitVec.ofInt 64 (-(value : Int)) else BitVec.ofNat 64 value)

/-- `hash` is `std::hash<std::string>`. -/
def deriveCanId (hash : String → BitVec 64) (msgName : String) : BitVec 32 :=
  let parsed := match msgName.toList with
    | '0' :: x :: c :: rest => if x = 'x' ∨ x = 'X' then stoulHex (c :: rest) else none
    | _ => none
  match parsed with
  | some id => id.setWidth 32
  | none => (hash msgName &&& 0x7FF#64).setWidth 32

/-! ### Records -/

variable (pb : Protobuf)

/-- The message type of a schema, built in a pool of its own. -/
def schemaState (schema : mcap.Schema) : Option (Descriptor pb) :=
  if schema.encoding ≠ "protobuf" then none
  else match pb.parseFiles schema.data with
    | none => none
    | some files =>
      DescriptorPool.findMessageTypeByName (files.foldl DescriptorPool.buildFile []) schema.name

/-- The message type by which the record is parsed: that of its channel's schema. -/
def descriptorOf (file : mcap.File) (msg : mcap.Message) : Option (Descriptor pb) :=
  (file.channels[msg.channelId]?).bind fun channel =>
    (file.schemas[channel.schemaId]?).bind (schemaState pb)

def parse (file : mcap.File) (msg : mcap.Message) : Option (DynamicMessage pb) :=
  (descriptorOf pb file msg).bind fun desc => DynamicMessage.parseFrom desc msg.data

/-- What a record is handed to: the views, or a socket. -/
inductive Delivery where
  | onFrame (frame : CanFrame)
  | onSend (iface : String) (canId : BitVec 32) (payload : Bytes)
deriving DecidableEq

variable {pb}

def decodedSignals (m : DynamicMessage pb) : List DecodedSignal :=
  (m.descriptor.type.field.filter fun f => f.type = .TYPE_DOUBLE).map fun f =>
    { name := f.name, value := m.getDouble f, unit := "" }

def rebuiltFrame (hash : String → BitVec 64) (info : ChannelInfo) (m : DynamicMessage pb)
    (now : Int) : CanFrame where
  header := { id := deriveCanId hash info.msgName, interface := info.iface, dlc := 0 }
  payload := []
  decoded := decodedSignals m
  msgName := info.msgName
  timestamp := now

def rawSend (info : ChannelInfo) (m : DynamicMessage pb) : Option Delivery :=
  match m.descriptor.findFieldByName "can_id", m.descriptor.findFieldByName "payload" with
  | some idField, some plField => some (.onSend info.iface (m.getUInt32 idField)
      ((m.getRepeatedUInt32 plField).map fun byte => byte.setWidth 8))
  | _, _ => none

def deliver (pb : Protobuf) (hash : String → BitVec 64) (file : mcap.File) (now : Int)
    (msg : mcap.Message) : Option Delivery :=
  (file.channels[msg.channelId]?).bind fun channel =>
    let info := classifyTopic channel.topic
    match info.kind with
    | .Other => none
    | .Data => (parse pb file msg).map fun m => .onFrame (rebuiltFrame hash info m now)
    | .Raw => (parse pb file msg).bind (rawSend info)

/-! ### What a schema resolves to -/

/-- The type that is built from a registered schema is the type it was registered for. -/
theorem schemaState_ofDescriptor (d : Descriptor pb) :
    schemaState pb (mcap.Schema.ofDescriptor d) = some d := by
  have hfile := pb.parseFiles_serializeFiles [d.file.proto]
  simp only [schemaState, mcap.Schema.ofDescriptor, ne_eq, not_true_eq_false, if_false, hfile,
    List.foldl_cons, List.foldl_nil, DescriptorPool.buildFile_nil]
  simp only [DescriptorPool.findMessageTypeByName, List.findSome?_cons, List.findSome?_nil]
  rw [show d.fullName = d.name from rfl, FileDescriptor.findMessageTypeByName_name]

/-- Every double that a message carries is among the signals that are read from it. -/
theorem mem_decodedSignals {m : DynamicMessage pb} {name : String} {v : ℚ}
    (h : m.fields name = some (.double v)) :
    ({ name := name, value := v, unit := "" } : DecodedSignal) ∈ decodedSignals m := by
  obtain ⟨f, hf, rfl, hadmits⟩ := m.conforms name _ h
  have hget : m.getDouble f = v := by
    rw [DynamicMessage.getDouble, h]
  rw [decodedSignals, List.mem_map]
  exact ⟨f, List.mem_filter.mpr ⟨hf, by simpa using hadmits.1⟩, by rw [hget]⟩

end McapReader

end Caneo
