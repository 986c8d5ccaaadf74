import Caneo.CanFrame

/-!
# `SocketCAN`

What is written to and read from a raw CAN socket (`src/socket/SocketCAN.cpp`), over the kernel's
`struct can_frame`. The 32-bit `can_id` carries the identifier in its low 29 bits and three flags
above it; a standard frame has an 11-bit identifier and no `CAN_EFF_FLAG`.
-/

namespace Caneo

open BitField

def CAN_EFF_FLAG : BitVec 32 := 0x80000000#32
def CAN_EFF_MASK : BitVec 32 := 0x1FFFFFFF#32

/-- `struct can_frame`; the kernel accepts and delivers at most 8 bytes. -/
structure can_frame where
  canId : BitVec 32
  canDlc : BitVec 8
  data : Bytes
  length_data : data.length = 8
  dlc_le : canDlc.toNat ≤ 8

structure Timespec where
  tvSec : Int
  tvNsec : Int
deriving DecidableEq

/-- A control message; `ts` is the payload of `SCM_TIMESTAMPING`, software and hardware time. -/
structure Cmsg where
  isTimestamping : Bool
  software : Timespec
  hardware : Timespec

/-- The outcome of `recvmsg`: its return value, and what it wrote. -/
structure Recvmsg where
  n : Int
  raw : can_frame
  control : List Cmsg := []

namespace SocketCAN

def sizeofFrame : Int := 16

def Timespec.isZero (t : Timespec) : Bool := t.tvSec = 0 && t.tvNsec = 0

/-- The RX timestamp, hardware before software. -/
def rxTimestamp (control : List Cmsg) : Option Int :=
  match control.find? (·.isTimestamping) with
  | none => none
  | some cm =>
    let chosen := if !Timespec.isZero cm.hardware then some cm.hardware
      else if !Timespec.isZero cm.software then some cm.software
      else none
    chosen.map fun t => t.tvSec * 1000000000 + t.tvNsec

/-- `readFrame`: whether to keep draining, and the frame handed to the callback. `now` is the
construction time of the frame. -/
def readFrame (interface : String) (now : Int) (msg : Recvmsg) : Bool × Option CanFrame :=
  if msg.n < 0 then (false, none)
  else if msg.n < sizeofFrame then (true, none)
  else
    let payload := msg.raw.data.take msg.raw.canDlc.toNat
    let header : CanHeader :=
      { id := msg.raw.canId &&& CAN_EFF_MASK, interface := interface, dlc := msg.raw.canDlc }
    (true, some { header := header, payload := payload,
                  timestamp := (rxTimestamp msg.control).getD now })

/-- The frame that `send` writes to the socket. -/
def send (id : BitVec 64) (data : Bytes) : can_frame where
  canId := (id &&& CAN_EFF_MASK.setWidth 64).setWidth 32
  canDlc := BitVec.ofNat 8 (min data.length 8)
  data := data.take 8 ++ List.replicate (8 - data.length) 0
  length_data := by
    rw [List.length_append, List.length_take, List.length_replicate]
    omega
  dlc_le := by
    rw [BitVec.toNat_ofNat]
    exact le_trans (Nat.mod_le _ _) (Nat.min_le_right _ _)

/-! ### What comes back -/

/-- A payload of at most 8 bytes is sent whole. -/
theorem payload_send {id : BitVec 64} {data : Bytes} (hdata : data.length ≤ 8) :
    (send id data).data.take (send id data).canDlc.toNat = data := by
  have hdlc : (send id data).canDlc.toNat = data.length := by
    simp only [send, BitVec.toNat_ofNat]
    omega
  rw [hdlc]
  simp only [send]
  rw [List.take_of_length_le hdata, List.take_left]

end SocketCAN

end Caneo
