import Caneo.DataFrameSet
import Caneo.DbcPppWrapper
import Caneo.Runs
import Caneo.SocketGrpc

/-!
# The frames of a remote client

A server stores a frame with the time at which it was received, and sends it to the clients of its
interface (`CanStreamService::broadcast`). The message has a time too, but it is that of the
broadcast, and the client's reader does not look at it: the frame it builds has the time of its own
construction (`SocketGrpc::start`). So the client's times are the server's plus the delay.

What both sides store for an id is the same apart from the time, and the time, and with it
`DataFrameSet::delta`, is the same exactly as long as there is no delay to speak of
(`replica_agrees_iff`).
-/

namespace Caneo

open BitField Containers Runs

/-! ### Decoding and time -/

namespace DbcPppWrapper

/-- Decoding does not look at the time, and leaves it. -/
theorem decodeMessage_setTimestamp (casts : BitCasts) (msg : IMessage) (frame : CanFrame)
    (ts : Int) :
    decodeMessage casts msg (frame.setTimestamp ts) =
      (decodeMessage casts msg frame).setTimestamp ts := by
  suffices hgen : ∀ (l : List ISignal) (f : CanFrame),
      l.foldl (fun f sig => if skipped msg.muxSignal frame.payload sig then f
        else f.addDecoded (decodedSignal casts frame.payload sig)) (f.setTimestamp ts) =
      (l.foldl (fun f sig => if skipped msg.muxSignal frame.payload sig then f
        else f.addDecoded (decodedSignal casts frame.payload sig)) f).setTimestamp ts from
    hgen msg.signals (frame.setMsgName msg.name)
  intro l
  induction l with
  | nil => exact fun f => rfl
  | cons sig l ih =>
    intro f
    rw [List.foldl_cons, List.foldl_cons, ← ih]
    split
    · rfl
    · rfl

theorem decode_setTimestamp (casts : BitCasts) (wrapper : DbcPppWrapper) (frame : CanFrame)
    (ts : Int) :
    wrapper.decode casts (frame.setTimestamp ts) = (wrapper.decode casts frame).setTimestamp ts := by
  have hid : (frame.setTimestamp ts).header.id = frame.header.id := rfl
  have hpayload : (frame.setTimestamp ts).payload = frame.payload := rfl
  unfold decode
  rw [hid]
  cases wrapper.messages (frame.header.id.setWidth 64) with
  | none => rfl
  | some msg =>
    dsimp only
    rw [hpayload]
    split
    · rfl
    · exact decodeMessage_setTimestamp casts msg frame ts

theorem payload_decode (casts : BitCasts) (wrapper : DbcPppWrapper) (frame : CanFrame) :
    (wrapper.decode casts frame).payload = frame.payload := by
  unfold decode
  split
  · rfl
  · next msg hmsg =>
    split
    · rfl
    · suffices hgen : ∀ (l : List ISignal) (f : CanFrame),
          (l.foldl (fun f sig => if skipped msg.muxSignal frame.payload sig then f
            else f.addDecoded (decodedSignal casts frame.payload sig)) f).payload = f.payload from
        hgen _ _
      intro l
      induction l with
      | nil => exact fun f => rfl
      | cons sig l ih =>
        intro f
        rw [List.foldl_cons, ih]
        split
        · rfl
        · rfl

end DbcPppWrapper

/-- `DecoderRegistry::decode`, for an interface with or without a DBC. -/
def decodeWith (casts : BitCasts) (decoder : Option DbcPppWrapper) (frame : CanFrame) : CanFrame :=
  decoder.elim frame fun wrapper => wrapper.decode casts frame

section Decoding

variable (casts : BitCasts) (decoder : Option DbcPppWrapper) (frame : CanFrame)

theorem decodeWith_setTimestamp (ts : Int) :
    decodeWith casts decoder (frame.setTimestamp ts) =
      (decodeWith casts decoder frame).setTimestamp ts := by
  cases decoder with
  | none => rfl
  | some wrapper => exact wrapper.decode_setTimestamp casts frame ts

theorem header_decodeWith : (decodeWith casts decoder frame).header = frame.header := by
  cases decoder with
  | none => rfl
  | some wrapper => exact wrapper.header_decode casts frame

theorem payload_decodeWith : (decodeWith casts decoder frame).payload = frame.payload := by
  cases decoder with
  | none => rfl
  | some wrapper => exact wrapper.payload_decode casts frame

theorem timestamp_decodeWith : (decodeWith casts decoder frame).timestamp = frame.timestamp := by
  have h : decodeWith casts decoder frame =
      (decodeWith casts decoder frame).setTimestamp frame.timestamp :=
    decodeWith_setTimestamp casts decoder frame frame.timestamp
  rw [h]
  rfl

end Decoding

/-! ### The two sides -/

/-- A frame that the server receives, the time of the broadcast (in microseconds), and the time at
which the client builds its frame. -/
structure Received where
  id : BitVec 32
  dlc : BitVec 8
  payload : Bytes
  timestamp : Int
  sentAt : Int
  arrivedAt : Int

/-- The frame that the server's socket delivers. -/
def Received.frame (iface : String) (r : Received) : CanFrame where
  header := ⟨r.id, iface, r.dlc⟩
  payload := r.payload
  timestamp := r.timestamp

/-- The frame that the client's socket delivers. -/
def Received.remoteFrame (iface : String) (r : Received) : CanFrame :=
  SocketGrpc.frame iface r.arrivedAt (RawCanFrame.ofFrame r.sentAt (r.frame iface))

/-- The frames of the interface, at the server and at the client. -/
structure Replica where
  server : DataFrameSet
  client : DataFrameSet

def Replica.init (iface : String) : Replica := ⟨⟨iface, .empty, .empty⟩, ⟨iface, .empty, .empty⟩⟩

section Replica

variable (casts : BitCasts) (serverDbc clientDbc : Option DbcPppWrapper) (iface : String)

def Replica.step (s : Replica) (r : Received) : Replica where
  server := s.server.update (decodeWith casts serverDbc (r.frame iface))
  client := s.client.update (decodeWith casts clientDbc (r.remoteFrame iface))

/-- Equal to a microsecond. -/
def Close (a b : Int) : Prop := -1000 < a - b ∧ a - b < 1000

instance (a b : Int) : Decidable (Close a b) := inferInstanceAs (Decidable (_ ∧ _))

/-- The rows of an id have the same content; if both sides have the same DBC, the decoded part too. -/
structure RowsAgree (sameDbc : Prop) (row row' : CanFrame) : Prop where
  header : row'.header = row.header
  payload : row'.payload = row.payload
  timestamp : Close row.timestamp row'.timestamp
  msgName : sameDbc → row'.msgName = row.msgName
  decoded : sameDbc → row'.decoded = row.decoded

structure Replica.Agrees (sameDbc : Prop) (s : Replica) : Prop where
  rows : ∀ id, Option.Rel (RowsAgree sameDbc) (s.server.frames id) (s.client.frames id)
  deltas : ∀ id, Option.Rel Close (s.server.deltas id) (s.client.deltas id)

/-- The frame is built at the client when it is received at the server, and as long after the last
one of its id. -/
def Replica.Prompt (s : Replica) (r : Received) : Prop :=
  Close r.timestamp r.arrivedAt ∧
    ∀ row ∈ s.server.frames r.id, ∀ row' ∈ s.client.frames r.id,
      Close (r.timestamp - row.timestamp) (r.arrivedAt - row'.timestamp)

instance (s : Replica) (r : Received) : Decidable (s.Prompt r) :=
  inferInstanceAs (Decidable (_ ∧ ∀ row ∈ s.server.frames r.id, ∀ row' ∈ s.client.frames r.id, _))

/-! ### What a step stores -/

theorem CanFrame.storedOver_keeps (frame : CanFrame) (row : Option CanFrame) :
    (frame.storedOver row).header = frame.header ∧ (frame.storedOver row).payload = frame.payload ∧
      (frame.storedOver row).timestamp = frame.timestamp := by
  have hfold : ∀ (signals : List DecodedSignal) (f : CanFrame),
      (signals.foldl CanFrame.addDecoded f).header = f.header ∧
        (signals.foldl CanFrame.addDecoded f).payload = f.payload ∧
        (signals.foldl CanFrame.addDecoded f).timestamp = f.timestamp := by
    intro signals
    induction signals with
    | nil => exact fun f => ⟨rfl, rfl, rfl⟩
    | cons signal signals ih =>
      intro f
      exact ih (f.addDecoded signal)
  cases row with
  | none => exact ⟨rfl, rfl, rfl⟩
  | some old =>
    unfold CanFrame.storedOver
    dsimp only
    split
    · unfold CanFrame.mergedInto
      dsimp only
      split
      · exact hfold old.decoded frame
      · exact hfold old.decoded frame
    · exact ⟨rfl, rfl, rfl⟩

/-- The decoded part of a row depends on the decoded parts of the frame and the old row. -/
theorem CanFrame.storedOver_decoded_congr {frame frame' : CanFrame} {row row' : Option CanFrame}
    (hframe : frame'.msgName = frame.msgName ∧ frame'.decoded = frame.decoded)
    (hrow : Option.Rel (fun old old' => old'.msgName = old.msgName ∧ old'.decoded = old.decoded)
      row row') :
    (frame'.storedOver row').msgName = (frame.storedOver row).msgName ∧
      (frame'.storedOver row').decoded = (frame.storedOver row).decoded := by
  cases hrow with
  | none => exact hframe
  | some h =>
    next old old' =>
    obtain ⟨hname, hdecoded⟩ := hframe
    have hfold := DataFrameSet.msgName_foldl_addDecoded
    have hfold' := DataFrameSet.decoded_foldl_addDecoded
    unfold CanFrame.storedOver CanFrame.mergedInto
    dsimp only
    rw [hdecoded, h.2, hfold, hfold, hname]
    split
    · split
      · exact ⟨h.1, by rw [CanFrame.setMsgName, CanFrame.setMsgName, hfold', hfold', hdecoded]⟩
      · exact ⟨by rw [hfold, hfold, hname], by rw [hfold', hfold', hdecoded]⟩
    · exact ⟨hname, hdecoded⟩

/-- The client's frame is the server's, with another time. -/
theorem remoteFrame_eq (r : Received) :
    r.remoteFrame iface = (r.frame iface).setTimestamp r.arrivedAt := by
  have hdlc : (r.dlc.setWidth 32).setWidth 8 = r.dlc := by
    apply BitVec.eq_of_toNat_eq
    rw [BitVec.toNat_setWidth, BitVec.toNat_setWidth]
    omega
  unfold Received.remoteFrame SocketGrpc.frame RawCanFrame.ofFrame Received.frame
  dsimp only
  rw [hdlc]
  rfl

variable {casts serverDbc clientDbc iface}

theorem rel_mono {α β : Type} {R S : α → β → Prop} (h : ∀ a b, R a b → S a b) {o : Option α}
    {o' : Option β} (hrel : Option.Rel R o o') : Option.Rel S o o' := by
  cases hrel with
  | some hab => exact .some (h _ _ hab)
  | none => exact .none

/-- What the two sides store for a frame. -/
theorem rowsAgree_storedOver {s : Replica} (hs : s.Agrees (serverDbc = clientDbc)) {r : Received}
    (htime : Close r.timestamp r.arrivedAt) :
    RowsAgree (serverDbc = clientDbc)
      ((decodeWith casts serverDbc (r.frame iface)).storedOver (s.server.frames r.id))
      ((decodeWith casts clientDbc (r.remoteFrame iface)).storedOver (s.client.frames r.id)) := by
  obtain ⟨hheader, hpayload, htimestamp⟩ := CanFrame.storedOver_keeps
    (decodeWith casts serverDbc (r.frame iface)) (s.server.frames r.id)
  obtain ⟨hheader', hpayload', htimestamp'⟩ := CanFrame.storedOver_keeps
    (decodeWith casts clientDbc (r.remoteFrame iface)) (s.client.frames r.id)
  have hparts : serverDbc = clientDbc →
      (decodeWith casts clientDbc (r.remoteFrame iface)).msgName =
          (decodeWith casts serverDbc (r.frame iface)).msgName ∧
        (decodeWith casts clientDbc (r.remoteFrame iface)).decoded =
          (decodeWith casts serverDbc (r.frame iface)).decoded := by
    intro hsame
    rw [remoteFrame_eq, decodeWith_setTimestamp, hsame]
    exact ⟨rfl, rfl⟩
  have hdecoded := fun hsame => CanFrame.storedOver_decoded_congr (hparts hsame)
    (rel_mono (fun _ _ h => ⟨h.msgName hsame, h.decoded hsame⟩) (hs.rows r.id))
  constructor
  · rw [hheader, hheader', header_decodeWith, header_decodeWith, remoteFrame_eq]
    rfl
  · rw [hpayload, hpayload', payload_decodeWith, payload_decodeWith, remoteFrame_eq]
    rfl
  · rw [htimestamp, htimestamp', timestamp_decodeWith, timestamp_decodeWith]
    exact htime
  · exact fun hsame => (hdecoded hsame).1
  · exact fun hsame => (hdecoded hsame).2

variable (casts serverDbc clientDbc iface) in
/-- The rows after a step. -/
theorem Replica.frames_step (s : Replica) (r : Received) (id : BitVec 32) :
    (s.step casts serverDbc clientDbc iface r).server.frames id =
        (if r.id = id then
          some ((decodeWith casts serverDbc (r.frame iface)).storedOver (s.server.frames id))
        else s.server.frames id) ∧
      (s.step casts serverDbc clientDbc iface r).client.frames id =
        if r.id = id then
          some ((decodeWith casts clientDbc (r.remoteFrame iface)).storedOver (s.client.frames id))
        else s.client.frames id := by
  constructor
  · refine (DataFrameSet.frames_update _ _ _).trans ?_
    rw [header_decodeWith]
    rfl
  · refine (DataFrameSet.frames_update _ _ _).trans ?_
    rw [header_decodeWith, remoteFrame_eq]
    rfl

variable (casts serverDbc clientDbc iface) in
/-- The time differences after a step. -/
theorem Replica.deltas_step (s : Replica) (r : Received) (id : BitVec 32) :
    (s.step casts serverDbc clientDbc iface r).server.deltas id =
        (if r.id = id then
          ((s.server.frames id).map fun old => r.timestamp - old.timestamp).or (s.server.deltas id)
        else s.server.deltas id) ∧
      (s.step casts serverDbc clientDbc iface r).client.deltas id =
        if r.id = id then
          ((s.client.frames id).map fun old => r.arrivedAt - old.timestamp).or (s.client.deltas id)
        else s.client.deltas id := by
  constructor
  · refine (DataFrameSet.deltas_update _ _ _).trans ?_
    rw [header_decodeWith, timestamp_decodeWith]
    rfl
  · refine (DataFrameSet.deltas_update _ _ _).trans ?_
    rw [header_decodeWith, timestamp_decodeWith, remoteFrame_eq]
    rfl

/-- The frame's own row and gap show whether it was prompt. -/
theorem Replica.prompt_of_agrees_step {s : Replica} {r : Received}
    (h : (s.step casts serverDbc clientDbc iface r).Agrees (serverDbc = clientDbc)) : s.Prompt r := by
  obtain ⟨hserver, hclient⟩ := s.frames_step casts serverDbc clientDbc iface r r.id
  obtain ⟨hdelta, hdelta'⟩ := s.deltas_step casts serverDbc clientDbc iface r r.id
  rw [if_pos rfl] at hserver hclient hdelta hdelta'
  constructor
  · have hrow := h.rows r.id
    rw [hserver, hclient, Option.rel_some_some] at hrow
    have htime := hrow.timestamp
    rwa [(CanFrame.storedOver_keeps _ _).2.2, (CanFrame.storedOver_keeps _ _).2.2,
      timestamp_decodeWith, timestamp_decodeWith, remoteFrame_eq] at htime
  · intro row hrow row' hrow'
    have hrel := h.deltas r.id
    rw [hdelta, hdelta', hrow, hrow'] at hrel
    exact Option.rel_some_some.mp hrel

/-- The other rows and gaps stay as they were. -/
theorem Replica.Prompt.agrees_step {s : Replica} {r : Received} (hprompt : s.Prompt r)
    (hs : s.Agrees (serverDbc = clientDbc)) :
    (s.step casts serverDbc clientDbc iface r).Agrees (serverDbc = clientDbc) := by
  obtain ⟨htime, hgap⟩ := hprompt
  constructor
  · intro id
    obtain ⟨hserver, hclient⟩ := s.frames_step casts serverDbc clientDbc iface r id
    rw [hserver, hclient]
    by_cases hid : r.id = id
    · subst hid
      rw [if_pos rfl, if_pos rfl]
      exact .some (rowsAgree_storedOver hs htime)
    · rw [if_neg hid, if_neg hid]
      exact hs.rows id
  · intro id
    obtain ⟨hdelta, hdelta'⟩ := s.deltas_step casts serverDbc clientDbc iface r id
    rw [hdelta, hdelta']
    by_cases hid : r.id = id
    · subst hid
      rw [if_pos rfl, if_pos rfl]
      have hrows := hs.rows r.id
      cases hrow : s.server.frames r.id with
      | none =>
        cases hrow' : s.client.frames r.id with
        | none => exact hs.deltas r.id
        | some row' => rw [hrow, hrow'] at hrows; cases hrows
      | some row =>
        cases hrow' : s.client.frames r.id with
        | none => rw [hrow, hrow'] at hrows; cases hrows
        | some row' => exact .some (hgap row hrow row' hrow')
    · rw [if_neg hid, if_neg hid]
      exact hs.deltas id

/-- A frame keeps the two sides in agreement exactly if it is prompt. -/
theorem Replica.agrees_step_iff {s : Replica} (hs : s.Agrees (serverDbc = clientDbc)) (r : Received) :
    (s.step casts serverDbc clientDbc iface r).Agrees (serverDbc = clientDbc) ↔ s.Prompt r :=
  ⟨Replica.prompt_of_agrees_step, fun hprompt => hprompt.agrees_step hs⟩

/-- After every frame of a sequence the two sides agree exactly if all frames are prompt. -/
theorem Replica.agrees_run_iff {s : Replica} (hs : s.Agrees (serverDbc = clientDbc))
    (rs : List Received) :
    (∀ k, (run (step casts serverDbc clientDbc iface) s (rs.take k)).Agrees (serverDbc = clientDbc)) ↔
      Meets (step casts serverDbc clientDbc iface) Prompt s rs := by
  apply forall_take_iff (I := fun _ => True) (fun _ _ _ => trivial) _ trivial hs rs
  intro s r _ hs
  exact agrees_step_iff hs r

/-- **What a client knows of the times.** For every sequence of frames, received at any times and
arriving at any others: after each of them the client has the same rows as the server (header,
payload, time, and with the same DBC also the message name), and the same time differences, if and
only if every frame is built at the client within a microsecond of its reception, and the delays of
consecutive frames of an id differ by less than that. -/
theorem replica_agrees_iff (rs : List Received) :
    (∀ k, (run (Replica.step casts serverDbc clientDbc iface) (Replica.init iface)
        (rs.take k)).Agrees (serverDbc = clientDbc)) ↔
      Meets (Replica.step casts serverDbc clientDbc iface) Replica.Prompt (Replica.init iface) rs := by
  have hinit : (Replica.init iface).Agrees (serverDbc = clientDbc) :=
    ⟨fun _ => .none, fun _ => .none⟩
  exact Replica.agrees_run_iff hinit rs

end Replica

/-- Two frames 10 ms apart; the second is delayed by 3 ms, the first by 1 ms. -/
def delayed : List Received :=
  [⟨0x100, 1, [1], 1000000000, 1000400, 1001000000⟩, ⟨0x100, 1, [2], 1010000000, 1010400, 1013000000⟩]

/-- At the client they are 12 ms apart, and the last one is 3 ms late. -/
theorem not_replica_agrees_delayed :
    let s := run (Replica.step BitCasts.zero none none "can0") (Replica.init "can0") delayed
    s.server.deltas 0x100 = some 10000000 ∧ s.client.deltas 0x100 = some 12000000 ∧
      ¬ ∀ k, (run (Replica.step BitCasts.zero none none "can0") (Replica.init "can0")
        (delayed.take k)).Agrees ((none : Option DbcPppWrapper) = none) := by
  intro s
  have hserver : s.server.deltas 0x100 = some 10000000 := by decide +kernel
  have hclient : s.client.deltas 0x100 = some 12000000 := by decide +kernel
  refine ⟨hserver, hclient, ?_⟩
  intro h
  have hrel : Option.Rel Close (s.server.deltas 0x100) (s.client.deltas 0x100) := (h 2).deltas 0x100
  rw [hserver, hclient, Option.rel_some_some] at hrel
  exact absurd hrel (by decide)

end Caneo
