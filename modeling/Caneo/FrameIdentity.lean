import Caneo.ActionHandler
import Caneo.DbcPppWrapper
import Caneo.GraphWindow
import Caneo.ProtoLog
import Caneo.SendModel
import Caneo.SignalRoundTrip
import Caneo.SocketCAN

/-!
# The identity of a frame

One CAN identifier has four representations: the 64-bit number of a `BO_` line, in which bit 31
marks an extended identifier; the `can_id` of a frame on the bus, with `CAN_EFF_FLAG` for the same
purpose; the 32-bit id of a received `CanFrame`; and the keys of the maps that look a frame up.
Sending and receiving mask with `CAN_EFF_MASK`, which drops the format in both directions.

So an extended message is never found again (`not_roundTrip_extended`), and whatever is taken for
a standard message can as well be an extended frame with the same number
(`not_noConfusion_standard`).
-/

namespace Caneo

open BitField Containers

def CAN_SFF_MASK : BitVec 32 := 0x7FF#32

inductive IdFormat where
  | standard
  | extended
deriving DecidableEq, Repr

def IdFormat.other : IdFormat → IdFormat
  | .standard => .extended
  | .extended => .standard

/-- The number of the message's `BO_` line is an identifier of this format. -/
def IMessage.HasFormat (msg : IMessage) : IdFormat → Prop
  | .standard => msg.id &&& ~~~CAN_SFF_MASK.setWidth 64 = 0
  | .extended => msg.id &&& ~~~CAN_EFF_MASK.setWidth 64 = CAN_EFF_FLAG.setWidth 64

/-- A data frame of this format. -/
def can_frame.HasFormat (raw : can_frame) : IdFormat → Prop
  | .standard => raw.canId &&& ~~~CAN_SFF_MASK = 0
  | .extended => raw.canId &&& ~~~CAN_EFF_MASK = CAN_EFF_FLAG

/-- The identifier, without its format. -/
def IMessage.number (msg : IMessage) : BitVec 32 := msg.id.setWidth 32 &&& CAN_EFF_MASK

/-- The id under which a plot preset registers the message's series. -/
def IMessage.graphId (msg : IMessage) : BitVec 32 := msg.id.setWidth 32

/-- The frame that is read back when an action sends `payload` for `sm`. -/
def echo (interface : String) (now : Int) (control : List Cmsg) (sm : SendMessage)
    (payload : Bytes) : Option CanFrame :=
  let action : Action Unit := Action.newSingle interface sm.id sm.name payload
  let call := SendCall.ofAction action false
  (SocketCAN.readFrame interface now
    { n := SocketCAN.sizeofFrame, raw := SocketCAN.send call.id call.data, control := control }).2

section Lookups

variable {pb : Protobuf} (network : INetwork) (log : ProtoLog pb) (interface : String)

/-- The decoder, the logger's descriptors and the plots look the frame up as `msg`. -/
structure TakenFor (msg : IMessage) (frame : CanFrame) : Prop where
  decoder :
    (DbcPppWrapper.ofNetwork network).messages (frame.header.id.setWidth 64) = some msg
  proto : (log.descriptor (frame.header.id.setWidth 64)).map (·.type) =
    some (ProtoLog.messageType msg)
  graph : ∀ s : SignalSeries, s.interface = interface → s.msgId = msg.graphId →
    s.listensTo frame = true

/-- What is sent for `msg` and read back is taken for `msg`. -/
def RoundTrip (msg : IMessage) : Prop :=
  ∀ sm : SendMessage, sm.Presents msg → ∀ payload : Bytes, payload.length = msg.messageSize →
    ∀ now control frame, echo interface now control sm payload = some frame →
      TakenFor network log interface msg frame

/-- No frame of the other format with the same number is taken for `msg`. -/
def NoConfusion (format : IdFormat) (msg : IMessage) : Prop :=
  ∀ raw : can_frame, raw.HasFormat format.other → raw.canId &&& CAN_EFF_MASK = msg.number →
    ∀ now control frame,
      (SocketCAN.readFrame interface now
        { n := SocketCAN.sizeofFrame, raw := raw, control := control }).2 = some frame →
        ¬ TakenFor network log interface msg frame

variable {network log interface}

/-! ### The id of the frame that comes back -/

theorem send_canId (id : BitVec 64) (data : Bytes) :
    (SocketCAN.send id data).canId &&& CAN_EFF_MASK = id.setWidth 32 &&& CAN_EFF_MASK := by
  have hmask : (CAN_EFF_MASK.setWidth 64).setWidth 32 = CAN_EFF_MASK := by decide
  rw [SocketCAN.send, BitVec.setWidth_and, hmask, BitVec.and_assoc, BitVec.and_self]

theorem exists_echo (interface : String) {sm : SendMessage} {msg : IMessage}
    (hpres : sm.Presents msg) (now : Int) (control : List Cmsg) (payload : Bytes) :
    ∃ frame, echo interface now control sm payload = some frame ∧
      frame.header.id = msg.number ∧ frame.header.interface = interface := by
  refine ⟨_, rfl, ?_, rfl⟩
  rw [IMessage.number, ← hpres.id_eq]
  exact send_canId _ _

/-- The three lookups depend on the frame's id and interface only. -/
theorem TakenFor.congr {msg : IMessage} {f g : CanFrame}
    (h : TakenFor network log interface msg f) (hid : g.header.id = f.header.id)
    (hiface : g.header.interface = f.header.interface) :
    TakenFor network log interface msg g where
  decoder := by rw [hid]; exact h.decoder
  proto := by rw [hid]; exact h.proto
  graph s hs hid' := by
    have hlisten := h.graph s hs hid'
    rwa [SignalSeries.listensTo, hid, hiface]

theorem number_setWidth (msg : IMessage) :
    msg.number.setWidth 64 = msg.id &&& CAN_EFF_MASK.setWidth 64 := by
  rw [IMessage.number, BitVec.setWidth_and]
  apply BitVec.eq_of_getLsbD_eq
  intro i hi
  rw [BitVec.getLsbD_and, BitVec.getLsbD_and, BitVec.getLsbD_setWidth, BitVec.getLsbD_setWidth]
  by_cases h32 : i < 32
  · simp [hi, h32]
  · simp [BitVec.getLsbD_of_ge CAN_EFF_MASK i (Nat.le_of_not_lt h32)]

/-! ### Standard messages come back -/

theorem and_eq_self_of_and_not {x m n : BitVec 64} (hx : x &&& ~~~m = 0#64) (hmn : m &&& n = m) :
    x &&& n = x := by
  have hself : x &&& m = x := by
    have hsplit : x &&& (m ||| ~~~m) = x &&& m ||| x &&& ~~~m := BitVec.and_or_distrib_left
    rw [BitVec.or_not_self, BitVec.and_allOnes, hx, BitVec.or_zero] at hsplit
    exact hsplit.symm
  rw [← hself, BitVec.and_assoc, hmn]

theorem number_of_standard {msg : IMessage} (hformat : msg.HasFormat .standard) :
    msg.number.setWidth 64 = msg.id ∧ msg.number = msg.graphId := by
  have hnumber : msg.number.setWidth 64 = msg.id := by
    rw [number_setWidth]
    exact and_eq_self_of_and_not hformat (by decide)
  refine ⟨hnumber, ?_⟩
  have hnarrow := congrArg (BitVec.setWidth 32) hnumber
  simpa [IMessage.graphId] using hnarrow

/-- A standard message that is alone with its id comes back as itself. -/
theorem roundTrip_of_standard {msg : IMessage} (hformat : msg.HasFormat .standard)
    (hlog : ProtoLog.ofNetwork pb interface network = .ok log)
    (hfirst : (network.messages.find? fun m => m.id = msg.id) = some msg)
    (hlast : ((ProtoLog.logged network).reverse.find? fun m => m.id = msg.id) = some msg) :
    RoundTrip network log interface msg := by
  intro sm hpres payload _ now control frame hframe
  obtain ⟨frame', hecho, hid, hiface⟩ := exists_echo interface hpres now control payload
  obtain rfl : frame' = frame := Option.some.inj (hecho.symm.trans hframe)
  obtain ⟨hkey, hgraph⟩ := number_of_standard hformat
  constructor
  · rw [hid, hkey, DbcPppWrapper.messages_ofNetwork, hfirst]
  · rw [hid, hkey, ProtoLog.descriptors_ofNetwork hlog, hlast, Option.map_some]
  · intro s hs hs'
    rw [SignalSeries.listensTo, hid, hiface, hs, hs', hgraph]
    simp

/-! ### The two formats -/

/-- The map of the decoder is keyed by the number with bit 31; the id read back has lost it. -/
theorem not_roundTrip_extended {msg : IMessage} (hformat : msg.HasFormat .extended) :
    ¬ RoundTrip network log interface msg := by
  intro hround
  have hpres := SendMessage.ofMessage_presents .insertion msg
  obtain ⟨frame, hecho, hid, -⟩ :=
    exists_echo interface hpres 0 [] (List.replicate msg.messageSize 0)
  have htaken := hround _ hpres _ List.length_replicate 0 [] frame hecho
  have hfind := htaken.decoder
  rw [DbcPppWrapper.messages_ofNetwork, hid, number_setWidth] at hfind
  have hkey : msg.id = msg.id &&& CAN_EFF_MASK.setWidth 64 := by simpa using List.find?_some hfind
  have hzero : msg.id &&& ~~~CAN_EFF_MASK.setWidth 64 = 0 := by
    rw [hkey, BitVec.and_assoc, BitVec.and_not_self]
    simp
  rw [IMessage.HasFormat, hzero] at hformat
  exact absurd hformat (by decide)

/-- A frame of the message's number with the flag set. -/
def extendedTwin (msg : IMessage) : can_frame where
  canId := msg.number ||| CAN_EFF_FLAG
  canDlc := 0
  data := List.replicate 8 0
  length_data := rfl
  dlc_le := by decide

theorem extendedTwin_hasFormat (msg : IMessage) : (extendedTwin msg).HasFormat .extended := by
  have hnumber : msg.number &&& ~~~CAN_EFF_MASK = 0#32 := by
    rw [IMessage.number, BitVec.and_assoc, BitVec.and_not_self]
    exact BitVec.and_zero
  have hflag : CAN_EFF_FLAG &&& ~~~CAN_EFF_MASK = CAN_EFF_FLAG := by decide
  change (msg.number ||| CAN_EFF_FLAG) &&& ~~~CAN_EFF_MASK = CAN_EFF_FLAG
  rw [BitVec.and_or_distrib_right, hnumber, hflag, BitVec.zero_or]

theorem extendedTwin_number (msg : IMessage) :
    (extendedTwin msg).canId &&& CAN_EFF_MASK = msg.number := by
  have hflag : CAN_EFF_FLAG &&& CAN_EFF_MASK = 0#32 := by decide
  change (msg.number ||| CAN_EFF_FLAG) &&& CAN_EFF_MASK = msg.number
  rw [BitVec.and_or_distrib_right, hflag, BitVec.or_zero, IMessage.number, BitVec.and_assoc,
    BitVec.and_self]

/-- What is taken for a standard message can be an extended frame with the same number. -/
theorem not_noConfusion_standard {msg : IMessage} (hround : RoundTrip network log interface msg) :
    ¬ NoConfusion network log interface .standard msg := by
  intro hno
  have hpres := SendMessage.ofMessage_presents .insertion msg
  obtain ⟨frame, hecho, hid, hiface⟩ :=
    exists_echo interface hpres 0 [] (List.replicate msg.messageSize 0)
  have htaken := hround _ hpres _ List.length_replicate 0 [] frame hecho
  refine hno (extendedTwin msg) (extendedTwin_hasFormat msg) (extendedTwin_number msg) 0 [] _ rfl
    (htaken.congr ?_ ?_)
  · rw [hid]
    exact extendedTwin_number msg
  · rw [hiface]

/-- Whatever the DBC, no message meets the whole contract: the extended ones do not come back, and
the standard ones are confused with extended frames. -/
theorem not_roundTrip_and_noConfusion (pb : Protobuf) (network : INetwork) (log : ProtoLog pb)
    (interface : String) (msg : IMessage) (format : IdFormat) (hformat : msg.HasFormat format) :
    ¬ (RoundTrip network log interface msg ∧ NoConfusion network log interface format msg) := by
  rintro ⟨hround, hno⟩
  cases format with
  | standard => exact not_noConfusion_standard hround hno
  | extended => exact not_roundTrip_extended hformat hround

end Lookups

/-! ### The shunt's current message -/

def ivtNetwork : INetwork := ⟨[IVT_Msg_Result_I]⟩

theorem exists_ivtLog : ∃ log, ProtoLog.ofNetwork Protobuf.wire "can0" ivtNetwork = .ok log := by
  have haccepts : Protobuf.wire.accepts (ProtoLog.fileProto "can0" ivtNetwork) = true := by
    decide +kernel
  exact ⟨_, by rw [ProtoLog.ofNetwork, Protobuf.buildFile, dif_pos haccepts]⟩

theorem IVT_Msg_Result_I_standard : IVT_Msg_Result_I.HasFormat .standard := by
  unfold IMessage.HasFormat
  decide

theorem IVT_Msg_Result_I_roundTrip {log : ProtoLog Protobuf.wire}
    (hlog : ProtoLog.ofNetwork Protobuf.wire "can0" ivtNetwork = .ok log) :
    RoundTrip ivtNetwork log "can0" IVT_Msg_Result_I := by
  refine roundTrip_of_standard IVT_Msg_Result_I_standard hlog ?_ ?_
  · simp [ivtNetwork]
  · have hname : IVT_Msg_Result_I.name ≠ ProtoLog.independent := by decide
    simp [ivtNetwork, ProtoLog.logged, hname]

theorem not_roundTrip_and_noConfusion_IVT_Msg_Result_I :
    IVT_Msg_Result_I.HasFormat .standard ∧
      ∃ log, ProtoLog.ofNetwork Protobuf.wire "can0" ivtNetwork = .ok log ∧
        ¬ (RoundTrip ivtNetwork log "can0" IVT_Msg_Result_I ∧
            NoConfusion ivtNetwork log "can0" .standard IVT_Msg_Result_I) := by
  obtain ⟨log, hlog⟩ := exists_ivtLog
  refine ⟨IVT_Msg_Result_I_standard, log, hlog, ?_⟩
  exact not_roundTrip_and_noConfusion Protobuf.wire ivtNetwork log "can0" IVT_Msg_Result_I
    .standard IVT_Msg_Result_I_standard

/-- The message comes back as itself, and the extended frame `0x80000521` as the message. -/
theorem confused_IVT_Msg_Result_I :
    (extendedTwin IVT_Msg_Result_I).canId = 0x80000521#32 ∧
      ∃ log, ProtoLog.ofNetwork Protobuf.wire "can0" ivtNetwork = .ok log ∧
        RoundTrip ivtNetwork log "can0" IVT_Msg_Result_I ∧
        ∃ frame, (SocketCAN.readFrame "can0" 0
            { n := SocketCAN.sizeofFrame, raw := extendedTwin IVT_Msg_Result_I }).2 = some frame ∧
          TakenFor ivtNetwork log "can0" IVT_Msg_Result_I frame := by
  obtain ⟨log, hlog⟩ := exists_ivtLog
  have hround := IVT_Msg_Result_I_roundTrip hlog
  refine ⟨by decide, log, hlog, hround, _, rfl, ?_⟩
  have hpres := SendMessage.ofMessage_presents .insertion IVT_Msg_Result_I
  exact (hround _ hpres (List.replicate 6 0) rfl 0 [] _ rfl).congr (by decide) rfl

end Caneo
