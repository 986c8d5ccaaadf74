import Caneo.CanStreamService
import Caneo.SocketCAN

/-!
# `SocketGrpc`, and what an acknowledged frame has become

A client's socket sends a frame as an RPC to the server (`src/socket/SocketGrpc.cpp`), whose service
passes it to the function that finds the interface's socket (`run_live`). On the way the id is cut to
32 bits and masked to 29, the payload is cut to 8 bytes, and an interface without a socket loses the
frame; the answer is `ok` whenever the service has such a function.

So `ok` means that the frame was written exactly if the server has a CAN socket for the interface and
the frame fits into it (`acknowledged_iff`).
-/

namespace Caneo

open BitField

/-! ### The client -/

namespace SocketGrpc

/-- The message that `send` fills. It is not sent before `start` has made a stub. -/
def send (interface : String) (started : Bool) (id : BitVec 64) (data : Bytes) :
    Option RawCanFrame :=
  if !started then none
  else some
    { interface := interface
      canId := id.setWidth 32
      dlc := BitVec.ofNat 32 data.length
      data := data
      timestampUs := 0 }

/-- The frame that the reader makes of a message; `now` is its construction time. -/
def frame (interface : String) (now : Int) (proto : RawCanFrame) : CanFrame where
  header := { id := proto.canId, interface := interface, dlc := proto.dlc.setWidth 8 }
  payload := proto.data
  timestamp := now

end SocketGrpc

/-! ### The server -/

/-- The interfaces that the server has sockets for. -/
structure ServerSockets where
  socketMap : List String
  grpcSocketMap : List String

/-- All sockets are of one kind: a server that is itself a client passes everything on. -/
def ServerSockets.ofConfig (grpcClient : String) (interfaces : List String) : ServerSockets :=
  if grpcClient = "" then ⟨interfaces, []⟩ else ⟨[], interfaces⟩

/-- What sending a frame led to: frames written to CAN sockets, and messages sent to another server. -/
structure Sent where
  written : List (String × can_frame) := []
  passedOn : List RawCanFrame := []

/-- `send_fn` of `run_live` -/
def ServerSockets.sendFn (s : ServerSockets) (iface : String) (id : BitVec 64) (data : Bytes) : Sent :=
  if iface ∈ s.grpcSocketMap then { passedOn := (SocketGrpc.send iface true id data).toList }
  else if iface ∈ s.socketMap then { written := [(iface, SocketCAN.send id data)] }
  else {}

/-- `Send`, with its answer -/
def CanStreamService.send (sendFn : Option (String → BitVec 64 → Bytes → Sent)) (req : RawCanFrame) :
    Sent × Bool :=
  match sendFn with
  | some sendFn => (sendFn req.interface (req.canId.setWidth 64) req.data, true)
  | none => ({}, false)

/-! ### The property, and when it holds -/

/-- A frame with this identifier and payload. -/
def can_frame.Carries (raw : can_frame) (id : BitVec 64) (data : Bytes) : Prop :=
  raw.canId.setWidth 64 = id ∧ raw.data.take raw.canDlc.toNat = data

/-- One frame was written to the interface's socket, and it carries this identifier and payload. -/
def Sent.WroteOnce (sent : Sent) (iface : String) (id : BitVec 64) (data : Bytes) : Prop :=
  ∃ raw, (sent.written.filter fun w => w.1 = iface) = [(iface, raw)] ∧ raw.Carries id data

/-- If the server answers `ok`, then the frame has been written. -/
def OkMeansWritten (sockets : ServerSockets) (started attached : Bool) (iface : String)
    (id : BitVec 64) (data : Bytes) : Prop :=
  ∀ req ∈ SocketGrpc.send iface started id data, ∀ sent,
    CanStreamService.send (if attached then some sockets.sendFn else none) req = (sent, true) →
    sent.WroteOnce iface id data

theorem canId_send_eq_iff (id : BitVec 64) (data : Bytes) :
    (SocketCAN.send ((id.setWidth 32).setWidth 64) data).canId.setWidth 64 = id ↔
      id.toNat < 2 ^ 29 := by
  have hvalue : ((SocketCAN.send ((id.setWidth 32).setWidth 64) data).canId.setWidth 64).toNat =
      id.toNat % 2 ^ 29 := by
    have hmask : (CAN_EFF_MASK.setWidth 64).toNat = 2 ^ 29 - 1 := by decide
    have hlt := id.isLt
    simp only [SocketCAN.send, BitVec.toNat_setWidth, BitVec.toNat_and, hmask,
      Nat.and_two_pow_sub_one_eq_mod]
    omega
  rw [← BitVec.toNat_inj, hvalue]
  constructor
  · intro hmod
    rw [← hmod]
    exact Nat.mod_lt _ (by decide)
  · intro hlt
    exact Nat.mod_eq_of_lt hlt

theorem data_send_eq_iff (id : BitVec 64) (data : Bytes) :
    (SocketCAN.send id data).data.take (SocketCAN.send id data).canDlc.toNat = data ↔
      data.length ≤ 8 := by
  constructor
  · intro hdata
    rw [← hdata, List.length_take]
    exact (Nat.min_le_left _ _).trans (SocketCAN.send id data).dlc_le
  · exact SocketCAN.payload_send

/-- A socket carries what has been sent if it fits. -/
theorem carries_send_iff (id : BitVec 64) (data : Bytes) :
    (SocketCAN.send ((id.setWidth 32).setWidth 64) data).Carries id data ↔
      id.toNat < 2 ^ 29 ∧ data.length ≤ 8 :=
  and_congr (canId_send_eq_iff id data) (data_send_eq_iff _ data)

theorem wroteOnce_sendFn_iff (s : ServerSockets) (iface : String) (id : BitVec 64) (data : Bytes) :
    (s.sendFn iface ((id.setWidth 32).setWidth 64) data).WroteOnce iface id data ↔
      (iface ∈ s.socketMap ∧ iface ∉ s.grpcSocketMap) ∧ id.toNat < 2 ^ 29 ∧ data.length ≤ 8 := by
  unfold ServerSockets.sendFn
  split
  · next hgrpc =>
    constructor
    · rintro ⟨raw, hraw, -⟩
      cases hraw
    · rintro ⟨⟨-, hnot⟩, -⟩
      exact absurd hgrpc hnot
  · next hgrpc =>
    split
    · next hcan =>
      have hwritten : ([(iface, SocketCAN.send ((id.setWidth 32).setWidth 64) data)].filter
          fun w => w.1 = iface) = [(iface, SocketCAN.send ((id.setWidth 32).setWidth 64) data)] := by
        simp
      constructor
      · rintro ⟨raw, hraw, hcarries⟩
        cases hwritten.symm.trans hraw
        exact ⟨⟨hcan, hgrpc⟩, (carries_send_iff id data).mp hcarries⟩
      · rintro ⟨-, hfits⟩
        exact ⟨_, hwritten, (carries_send_iff id data).mpr hfits⟩
    · next hcan =>
      constructor
      · rintro ⟨raw, hraw, -⟩
        cases hraw
      · rintro ⟨⟨hmem, -⟩, -⟩
        exact absurd hmem hcan

/-- A server that always answers `ok` must always write. -/
theorem okMeansWritten_attached (sockets : ServerSockets) (iface : String) (id : BitVec 64)
    (data : Bytes) :
    OkMeansWritten sockets true true iface id data ↔
      (iface ∈ sockets.socketMap ∧ iface ∉ sockets.grpcSocketMap) ∧ id.toNat < 2 ^ 29 ∧
        data.length ≤ 8 := by
  rw [← wroteOnce_sendFn_iff]
  constructor
  · intro h
    exact h _ rfl _ rfl
  · intro h req hreq sent hsent
    cases hreq
    cases hsent
    exact h

/-- **What the answer to a send means.** For every call of a client's `send` on an interface, and a
server with any sockets: that the answer `ok` implies that one frame with the id and the payload was
written to the server's socket for the interface holds if and only if nothing is asked or answered
(the client's socket is not started, or the server has no function to send with), or the server has a
CAN socket for the interface (and no gRPC socket, which comes first), the id fits into 29 bits and the
payload into 8 bytes. -/
theorem acknowledged_iff (sockets : ServerSockets) (started attached : Bool) (iface : String)
    (id : BitVec 64) (data : Bytes) :
    OkMeansWritten sockets started attached iface id data ↔
      (started = false ∨ attached = false) ∨
        (iface ∈ sockets.socketMap ∧ iface ∉ sockets.grpcSocketMap) ∧ id.toNat < 2 ^ 29 ∧
          data.length ≤ 8 := by
  cases started with
  | false =>
    constructor
    · intro _
      exact Or.inl (Or.inl rfl)
    · intro _ req hreq
      cases hreq
  | true =>
    cases attached with
    | false =>
      constructor
      · intro _
        exact Or.inl (Or.inr rfl)
      · intro _ req _ sent hsent
        cases hsent
    | true =>
      rw [okMeansWritten_attached]
      constructor
      · exact Or.inr
      · rintro ((h | h) | h)
        · cases h
        · cases h
        · exact h

/-- A server with a socket for `can0` answers `ok` to a frame for `can1`, which it drops; to a payload
of 9 bytes, which it cuts; and to an extended identifier with its flag, which it masks. -/
theorem not_okMeansWritten :
    let server := ServerSockets.ofConfig "" ["can0"]
    let nine : Bytes := [1, 2, 3, 4, 5, 6, 7, 8, 9]
    (server.sendFn "can1" 0x123 [1, 2]).written = [] ∧
      ¬ OkMeansWritten server true true "can1" 0x123 [1, 2] ∧
      ((server.sendFn "can0" 0x123 nine).written.map fun w => w.2.canDlc) = [8] ∧
      ¬ OkMeansWritten server true true "can0" 0x123 nine ∧
      ((server.sendFn "can0" 0x80000123 []).written.map fun w => w.2.canId) = [0x123] ∧
      ¬ OkMeansWritten server true true "can0" 0x80000123 [] := by
  intro server nine
  refine ⟨rfl, ?_, by decide +kernel, ?_, by decide +kernel, ?_⟩
  · rw [okMeansWritten_attached]
    decide +kernel
  · rw [okMeansWritten_attached]
    decide +kernel
  · rw [okMeansWritten_attached]
    decide +kernel

end Caneo
