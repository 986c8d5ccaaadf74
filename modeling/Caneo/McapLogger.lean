import Caneo.ProtoLog

/-!
# `McapLogger`

The MCAP log (`src/logger/McapLogger.cpp`). A frame is logged on two topics, `<base>/data` with the
message that `ProtoLog` has serialized (or the raw bytes, if the DBC does not know the frame) and
`<base>/raw` with its id and payload, and on `<base>/update_ratio` from the second frame on; models
log scalars on topics of their own. Schemas are registered once for each message type *name*,
channels once for each topic.

The file is the list of what the MCAP library was given; the id of a schema or a channel is its
position (the library hands out 16-bit numbers from 1 on).
-/

namespace Caneo

open BitField Containers

/-! ### The file -/

namespace mcap

structure Schema where
  name : String
  encoding : String
  data : Bytes
deriving DecidableEq

structure Channel where
  topic : String
  messageEncoding : String
  schemaId : Nat
deriving DecidableEq

structure Message where
  channelId : Nat
  sequence : Nat
  logTime : BitVec 64
  publishTime : BitVec 64
  data : Bytes
deriving DecidableEq

structure File where
  schemas : List Schema := []
  channels : List Channel := []
  messages : List Message := []

end mcap

structure McapLogger where
  writer : mcap.File := {}
  channels : UnorderedMap String Nat := UnorderedMap.empty
  schemas : UnorderedMap String Nat := UnorderedMap.empty

variable {pb : Protobuf}

/-- The schema that describes a message type: its file, and its name in it. -/
def mcap.Schema.ofDescriptor (descriptor : Descriptor pb) : mcap.Schema where
  name := descriptor.fullName
  encoding := "protobuf"
  data := pb.serializeFiles [descriptor.file.proto]

/-! ### The built-in message types -/

def rawCanFrameFile : FileDescriptorProto where
  name := "raw_can_frame.proto"
  messageType := [{ name := "RawCanFrame", field := [
    { name := "data", number := 1, type := .TYPE_UINT32, label := .LABEL_REPEATED }] }]

def scalarValueFile : FileDescriptorProto where
  name := "scalar_value.proto"
  messageType := [{ name := "ScalarValue", field := [
    { name := "value", number := 1, type := .TYPE_DOUBLE, label := .LABEL_OPTIONAL }] }]

def rawFrameFile : FileDescriptorProto where
  name := "raw_frame.proto"
  messageType := [{ name := "RawFrame", field := [
    { name := "can_id", number := 1, type := .TYPE_UINT32, label := .LABEL_OPTIONAL },
    { name := "payload", number := 2, type := .TYPE_UINT32, label := .LABEL_REPEATED }] }]

/-- `file`'s type `name`, built in a pool of its own. -/
def Protobuf.builtIn (pb : Protobuf) (file : FileDescriptorProto) (name : String) :
    Option (Descriptor pb) :=
  (pb.buildFile file).bind fun built => built.findMessageTypeByName name

/-- Set a field by its name. -/
def DynamicMessage.withField (m : DynamicMessage pb) (name : String)
    (g : DynamicMessage pb → FieldDescriptorProto → DynamicMessage pb) : DynamicMessage pb :=
  match m.descriptor.findFieldByName name with
  | some f => g m f
  | none => m

@[simp] theorem DynamicMessage.descriptor_withField (m : DynamicMessage pb) (name : String)
    (g : DynamicMessage pb → FieldDescriptorProto → DynamicMessage pb)
    (hg : ∀ f, (g m f).descriptor = m.descriptor) :
    (m.withField name g).descriptor = m.descriptor := by
  unfold withField
  split
  · exact hg _
  · rfl

namespace McapLogger

def getFallbackDescriptor (pb : Protobuf) : Option (Descriptor pb) :=
  pb.builtIn rawCanFrameFile "RawCanFrame"

def getScalarDescriptor (pb : Protobuf) : Option (Descriptor pb) :=
  pb.builtIn scalarValueFile "ScalarValue"

def getRawDescriptor (pb : Protobuf) : Option (Descriptor pb) := pb.builtIn rawFrameFile "RawFrame"

def addBytes (payload : Bytes) (m : DynamicMessage pb) (f : FieldDescriptorProto) :
    DynamicMessage pb :=
  payload.foldl (fun m byte => m.addUInt32 f (byte.setWidth 32)) m

def fallbackMessage (desc : Descriptor pb) (frame : CanFrame) : DynamicMessage pb :=
  (DynamicMessage.new desc).withField "data" (addBytes frame.payload)

def scalarMessage (desc : Descriptor pb) (value : ℚ) : DynamicMessage pb :=
  (DynamicMessage.new desc).withField "value" fun m f => m.setDouble f value

def rawMessage (desc : Descriptor pb) (frame : CanFrame) : DynamicMessage pb :=
  ((DynamicMessage.new desc).withField "can_id" fun m f => m.setUInt32 f frame.header.id).withField
    "payload" (addBytes frame.payload)

/-! ### Registration -/

def getOrRegisterSchema (logger : McapLogger) (descriptor : Descriptor pb) : McapLogger × Nat :=
  match logger.schemas descriptor.fullName with
  | some id => (logger, id)
  | none =>
    let id := logger.writer.schemas.length
    let schemas := logger.writer.schemas ++ [mcap.Schema.ofDescriptor descriptor]
    ({ logger with
        writer := { logger.writer with schemas := schemas }
        schemas := logger.schemas.set descriptor.fullName id }, id)

/-- Identifiers are positions in the file here. Those of the format have 16 bits, so fewer than 65536
topics and message types are assumed. -/
def getOrRegisterChannel (logger : McapLogger) (topic : String) (schemaId : Nat) :
    McapLogger × Nat :=
  match logger.channels topic with
  | some id => (logger, id)
  | none =>
    let id := logger.writer.channels.length
    let channels := logger.writer.channels ++ [⟨topic, "protobuf", schemaId⟩]
    ({ logger with
        writer := { logger.writer with channels := channels }
        channels := logger.channels.set topic id }, id)

/-- Register what the record needs, and write it. -/
def write (logger : McapLogger) (topic : String) (desc : Descriptor pb) (data : Bytes)
    (ts : BitVec 64) : McapLogger :=
  let (logger, schemaId) := logger.getOrRegisterSchema desc
  let (logger, channelId) := logger.getOrRegisterChannel topic schemaId
  { logger with writer := { logger.writer with
      messages := logger.writer.messages ++ [⟨channelId, 0, ts, ts, data⟩] } }

/-! ### Logging -/

/-- `0x{:03X}` -/
def formatId (id : BitVec 32) : String :=
  String.ofList ('0' :: 'x' :: List.leftpad 3 '0' ((Nat.toDigits 16 id.toNat).map Char.toUpper))

def baseTopic (frame : CanFrame) (descriptor : Option (Descriptor pb)) : String :=
  frame.header.interface ++ "/" ++ match descriptor with
    | some desc => desc.name
    | none => formatId frame.header.id

def frameNs (frame : CanFrame) : BitVec 64 := BitVec.ofInt 64 frame.timestamp

def logScalarAt (pb : Protobuf) (logger : McapLogger) (topic : String) (value : ℚ)
    (logTimeNs : BitVec 64) : McapLogger :=
  match getScalarDescriptor pb with
  | none => logger
  | some desc => logger.write topic desc (scalarMessage desc value).serializeToString logTimeNs

def logScalar (pb : Protobuf) (logger : McapLogger) (topic : String) (value : ℚ) (now : Int) :
    McapLogger :=
  logScalarAt pb logger topic value (BitVec.ofInt 64 now)

/-- The message type and the bytes of the `/data` record. -/
def dataRecord (frame : CanFrame) (descriptor : Option (Descriptor pb)) (serialized : Bytes) :
    Option (Descriptor pb × Bytes) :=
  match descriptor with
  | some desc => some (desc, serialized)
  | none => (getFallbackDescriptor pb).map fun desc =>
    (desc, (fallbackMessage desc frame).serializeToString)

def writeRaw (pb : Protobuf) (logger : McapLogger) (topic : String) (frame : CanFrame)
    (ts : BitVec 64) : McapLogger :=
  match getRawDescriptor pb with
  | none => logger
  | some desc => logger.write topic desc (rawMessage desc frame).serializeToString ts

def log (logger : McapLogger) (frame : CanFrame) (descriptor : Option (Descriptor pb))
    (serialized : Bytes) (updateRatioMs : Option ℚ) : McapLogger :=
  let topic := baseTopic frame descriptor
  let ts := frameNs frame
  match dataRecord frame descriptor serialized with
  | none => logger
  | some (desc, data) =>
    let logger := logger.write (topic ++ "/data") desc data ts
    let logger := writeRaw pb logger (topic ++ "/raw") frame ts
    match updateRatioMs with
    | none => logger
    | some ratio => logScalarAt pb logger (topic ++ "/update_ratio") ratio ts

end McapLogger

end Caneo
