import Caneo.SignalRoundTrip

/-!
# Which bits of a buffer are touched

`Encode` and `Decode` of a signal get a pointer and no length. `SendModel::encode` passes a buffer
of the message's declared size, `DbcPppWrapper::decode` the payload of the frame, which it has
compared with that size. Neither looks at where the signals are.

`encodeLogged` and `decodeLogged` are the two functions with a log of the signals they hand over and
of the size of the buffer they hand over with them. `accesses_inside_iff` says for which DBCs every
access stays in its buffer.
-/

namespace Caneo

open BitField Containers

/-- A call of `Encode` or `Decode`: the signal, and the size of the buffer in bytes. -/
structure Access where
  signal : ISignal
  size : Nat

/-- Every bit position of the signal is in the buffer. -/
def Access.Inside (access : Access) : Prop := access.signal.field.Within access.size

instance (access : Access) : Decidable access.Inside :=
  inferInstanceAs (Decidable (access.signal.field.Within access.size))

/-! ### Encoding -/

namespace SendMessage

def encodeSignalLogged (casts : BitCasts) (p : Bytes × List Access) (ss : SendSignal) :
    Bytes × List Access :=
  (ss.sig.encode (ss.raw casts) p.1, p.2 ++ [⟨ss.sig, p.1.length⟩])

def encodeLogged (casts : BitCasts) (sm : SendMessage) : Bytes × List Access :=
  sm.signals.foldl (encodeSignalLogged casts) (List.replicate sm.dlc 0, [])

theorem encodeLogged_fst (casts : BitCasts) (sm : SendMessage) :
    (sm.encodeLogged casts).1 = sm.encode casts := by
  unfold encodeLogged encode
  generalize ([] : List Access) = log
  generalize (List.replicate sm.dlc 0 : Bytes) = data
  induction sm.signals generalizing data log with
  | nil => rfl
  | cons ss l ih => exact ih _ _

/-- Every signal is handed over once, with the whole buffer. -/
theorem encodeLogged_snd (casts : BitCasts) {sm : SendMessage} (h : sm.BitAccess) :
    (sm.encodeLogged casts).2 = sm.signals.map fun ss => ⟨ss.sig, sm.dlc⟩ := by
  suffices hgen : ∀ (l : List SendSignal), (∀ ss ∈ l, ss.sig.BitAccess) → ∀ (data : Bytes)
      (log : List Access), data.length = sm.dlc →
      (l.foldl (encodeSignalLogged casts) (data, log)).2 =
        log ++ l.map fun ss => (⟨ss.sig, sm.dlc⟩ : Access) by
    have hall := hgen sm.signals h (List.replicate sm.dlc 0) [] List.length_replicate
    simpa [encodeLogged] using hall
  intro l
  induction l with
  | nil =>
    intro _ data log _
    simp
  | cons ss l ih =>
    intro hl data log hlen
    have hss := hl ss List.mem_cons_self
    have hkeep : (ss.sig.encode (ss.raw casts) data).length = sm.dlc := by
      rw [(hss.encode_isWrite _).length]
      exact hlen
    rw [List.foldl_cons, encodeSignalLogged,
      ih (fun ss' hss' => hl ss' (List.mem_cons_of_mem _ hss')) _ _ hkeep, hlen]
    simp

end SendMessage

/-! ### Decoding -/

namespace DbcPppWrapper

/-- The multiplexer filter reads the switch for every signal of a group. -/
def switchLogged (muxSig : Option ISignal) (raw : Bytes) (sig : ISignal) : List Access :=
  if sig.multiplexerIndicator = .MuxValue then muxSig.toList.map fun mux => ⟨mux, raw.length⟩
  else []

def decodeSignalLogged (casts : BitCasts) (msg : IMessage) (raw : Bytes)
    (p : CanFrame × List Access) (sig : ISignal) : CanFrame × List Access :=
  let log := p.2 ++ switchLogged msg.muxSignal raw sig
  if skipped msg.muxSignal raw sig then (p.1, log)
  else (p.1.addDecoded (decodedSignal casts raw sig), log ++ [⟨sig, raw.length⟩])

def decodeMessageLogged (casts : BitCasts) (msg : IMessage) (frame : CanFrame) :
    CanFrame × List Access :=
  msg.signals.foldl (decodeSignalLogged casts msg frame.payload) (frame.setMsgName msg.name, [])

def decodeLogged (casts : BitCasts) (wrapper : DbcPppWrapper) (frame : CanFrame) :
    CanFrame × List Access :=
  match wrapper.messages (frame.header.id.setWidth 64) with
  | none => (frame, [])
  | some msg =>
    if frame.payload.length < msg.messageSize then (frame, [])
    else decodeMessageLogged casts msg frame

theorem decodeMessageLogged_fst (casts : BitCasts) (msg : IMessage) (frame : CanFrame) :
    (decodeMessageLogged casts msg frame).1 = decodeMessage casts msg frame := by
  unfold decodeMessageLogged decodeMessage
  generalize ([] : List Access) = log
  generalize frame.setMsgName msg.name = f
  induction msg.signals generalizing f log with
  | nil => rfl
  | cons sig l ih =>
    rw [List.foldl_cons, List.foldl_cons, decodeSignalLogged]
    by_cases hskip : skipped msg.muxSignal frame.payload sig = true
    · rw [if_pos hskip, if_pos hskip]
      exact ih _ _
    · rw [if_neg hskip, if_neg hskip]
      exact ih _ _

theorem decodeLogged_fst (casts : BitCasts) (wrapper : DbcPppWrapper) (frame : CanFrame) :
    (wrapper.decodeLogged casts frame).1 = wrapper.decode casts frame := by
  unfold decodeLogged decode
  cases wrapper.messages (frame.header.id.setWidth 64) with
  | none => rfl
  | some msg =>
    dsimp only
    split
    · rfl
    · exact decodeMessageLogged_fst casts msg frame

/-- A signal of the message, or its switch, with the whole payload. -/
def Serves (msg : IMessage) (raw : Bytes) (access : Access) : Prop :=
  access.size = raw.length ∧ (access.signal ∈ msg.signals ∨ msg.muxSignal = some access.signal)

theorem serves_switchLogged {msg : IMessage} {raw : Bytes} {sig : ISignal} {access : Access}
    (hmem : access ∈ switchLogged msg.muxSignal raw sig) : Serves msg raw access := by
  unfold switchLogged at hmem
  split at hmem
  · obtain ⟨mux, hmux, rfl⟩ := List.mem_map.mp hmem
    exact ⟨rfl, Or.inr (Option.mem_toList.mp hmux)⟩
  · cases hmem

theorem serves_decodeSignalLogged {casts : BitCasts} {msg : IMessage} {raw : Bytes}
    {p : CanFrame × List Access} {sig : ISignal} (hsig : sig ∈ msg.signals)
    (hlog : ∀ access ∈ p.2, Serves msg raw access) :
    ∀ access ∈ (decodeSignalLogged casts msg raw p sig).2, Serves msg raw access := by
  have hswitch : ∀ access ∈ p.2 ++ switchLogged msg.muxSignal raw sig, Serves msg raw access := by
    intro access hmem
    rcases List.mem_append.mp hmem with hold | hnew
    · exact hlog access hold
    · exact serves_switchLogged hnew
  unfold decodeSignalLogged
  dsimp only
  split
  · exact hswitch
  · intro access hmem
    rcases List.mem_append.mp hmem with hold | hlast
    · exact hswitch access hold
    · rw [List.mem_singleton.mp hlast]
      exact ⟨rfl, Or.inl hsig⟩

theorem serves_decodeMessageLogged {casts : BitCasts} {msg : IMessage} {frame : CanFrame} :
    ∀ access ∈ (decodeMessageLogged casts msg frame).2, Serves msg frame.payload access := by
  suffices hgen : ∀ (l : List ISignal), (∀ sig ∈ l, sig ∈ msg.signals) →
      ∀ p : CanFrame × List Access, (∀ access ∈ p.2, Serves msg frame.payload access) →
      ∀ access ∈ (l.foldl (decodeSignalLogged casts msg frame.payload) p).2,
        Serves msg frame.payload access from
    hgen msg.signals (fun sig hsig => hsig) _ fun access hmem => by cases hmem
  intro l
  induction l with
  | nil => exact fun _ p hlog => hlog
  | cons sig l ih =>
    intro hl p hlog
    have hsig := @serves_decodeSignalLogged casts _ _ _ _ (hl sig List.mem_cons_self) hlog
    exact ih (fun sig' hsig' => hl sig' (List.mem_cons_of_mem _ hsig')) _ hsig

end DbcPppWrapper

/-! ### A whole DBC -/

/-- `MuxSignal()` is one of the message's signals. -/
def INetwork.MuxListed (network : INetwork) : Prop :=
  ∀ msg ∈ network.messages, ∀ mux, msg.muxSignal = some mux → mux ∈ msg.signals

def INetwork.BitAccess (network : INetwork) : Prop :=
  ∀ msg ∈ network.messages, ∀ sig ∈ msg.signals, sig.BitAccess

/-- `encode` of every message of every model made from the DBC stays in its buffer. -/
def INetwork.EncodesInside (srt : RangesSort) (casts : BitCasts) (network : INetwork) : Prop :=
  ∀ model, SendModel.From srt network model → ∀ sm ∈ model.messages,
    ∀ access ∈ (sm.encodeLogged casts).2, access.Inside

/-- `decode` of every frame stays in the frame's payload. -/
def INetwork.DecodesInside (casts : BitCasts) (network : INetwork) : Prop :=
  ∀ frame, ∀ access ∈ ((DbcPppWrapper.ofNetwork network).decodeLogged casts frame).2,
    access.Inside

/-- Every signal fits into the declared size of its message. -/
def INetwork.SignalsFit (network : INetwork) : Prop :=
  ∀ msg ∈ network.messages, ∀ sig ∈ msg.signals, sig.field.Within msg.messageSize

theorem SendMessage.Presents.inside_iff {casts : BitCasts} {sm : SendMessage} {msg : IMessage}
    (h : sm.Presents msg) (hbits : ∀ sig ∈ msg.signals, sig.BitAccess) :
    (∀ access ∈ (sm.encodeLogged casts).2, access.Inside) ↔
      ∀ sig ∈ msg.signals, sig.field.Within msg.messageSize := by
  rw [SendMessage.encodeLogged_snd casts (h.bitAccess hbits), h.dlc_eq]
  constructor
  · intro hall sig hsig
    obtain ⟨ss, hss, rfl⟩ := List.mem_map.mp (h.perm.mem_iff.mpr hsig)
    exact hall _ (List.mem_map_of_mem hss)
  · intro hall access haccess
    obtain ⟨ss, hss, rfl⟩ := List.mem_map.mp haccess
    exact hall ss.sig (h.perm.mem_iff.mp (List.mem_map_of_mem hss))

theorem INetwork.encodesInside_iff (srt : RangesSort) (casts : BitCasts) {network : INetwork}
    (hbits : network.BitAccess) : network.EncodesInside srt casts ↔ network.SignalsFit := by
  constructor
  · intro hinside msg hmsg
    have hmem : SendMessage.ofMessage srt msg ∈ (SendModel.ofNetwork srt network).messages :=
      (srt.perm _ _).mem_iff.mpr (List.mem_map_of_mem hmsg)
    have hpresents := SendMessage.ofMessage_presents srt msg
    exact (hpresents.inside_iff (hbits msg hmsg)).mp (hinside _ .new _ hmem)
  · intro hfit model hmodel sm hsm
    obtain ⟨msg, hmsg, hpresents⟩ := hmodel.presents hsm
    exact (hpresents.inside_iff (hbits msg hmsg)).mpr (hfit msg hmsg)

theorem INetwork.SignalsFit.decodesInside {network : INetwork} (hfit : network.SignalsFit)
    (hmux : network.MuxListed) (casts : BitCasts) : network.DecodesInside casts := by
  intro frame access haccess
  unfold DbcPppWrapper.decodeLogged at haccess
  rw [DbcPppWrapper.messages_ofNetwork] at haccess
  cases hfind : network.messages.find? fun msg => msg.id = frame.header.id.setWidth 64 with
  | none =>
    rw [hfind] at haccess
    cases haccess
  | some msg =>
    have hmsg := List.mem_of_find?_eq_some hfind
    rw [hfind] at haccess
    dsimp only at haccess
    split at haccess
    · cases haccess
    · next hlen =>
      obtain ⟨hsize, hsig⟩ := DbcPppWrapper.serves_decodeMessageLogged access haccess
      have hmem : access.signal ∈ msg.signals := by
        rcases hsig with hsig | hswitch
        · exact hsig
        · exact hmux msg hmsg _ hswitch
      rw [Access.Inside, hsize]
      exact (hfit msg hmsg _ hmem).mono (Nat.le_of_not_lt hlen)

/-- **Accesses inside the buffer.** All calls of `Encode` and `Decode` that a DBC gives rise to stay
inside the buffer they are handed exactly when every signal of the DBC fits into the declared size
of its message. -/
theorem accesses_inside_iff (srt : RangesSort) (casts : BitCasts) {network : INetwork}
    (hbits : network.BitAccess) (hmux : network.MuxListed) :
    (network.EncodesInside srt casts ∧ network.DecodesInside casts) ↔ network.SignalsFit := by
  constructor
  · rintro ⟨hencodes, -⟩
    exact (INetwork.encodesInside_iff srt casts hbits).mp hencodes
  · intro hfit
    exact ⟨(INetwork.encodesInside_iff srt casts hbits).mpr hfit, hfit.decodesInside hmux casts⟩

theorem accesses_inside_IVT_Msg_Result_I :
    INetwork.EncodesInside .insertion BitCasts.zero ⟨[IVT_Msg_Result_I]⟩ ∧
      INetwork.DecodesInside BitCasts.zero ⟨[IVT_Msg_Result_I]⟩ := by
  refine (accesses_inside_iff .insertion BitCasts.zero ?_ ?_).mpr ?_
  · intro msg hmsg
    rw [List.mem_singleton.mp hmsg]
    exact IVT_Msg_Result_I_bitAccess
  · intro msg hmsg mux hmux
    rw [List.mem_singleton.mp hmsg] at hmux
    cases hmux
  · intro msg hmsg
    rw [List.mem_singleton.mp hmsg]
    exact IVT_Msg_Result_I_plain.within

/-! The message of 0 bytes under which `vcan0.dbc` keeps the signals of no message. -/

def VECTOR__INDEPENDENT_SIG_MSG : IMessage where
  id := 3221225472
  name := "VECTOR__INDEPENDENT_SIG_MSG"
  messageSize := 0
  signals :=
    [ISignal.ofLine
      { name := "Ellipse_GPS_POS_Status", startBit := 0, bitSize := 32, byteOrder := .BigEndian,
        valueType := .Unsigned, minimum := 0, maximum := 0 },
    ISignal.ofLine
      { name := "M01_Can_Error_Rear", startBit := 0, bitSize := 1, valueType := .Unsigned,
        minimum := 0, maximum := 0 }]

def emptyFrame : CanFrame where
  header := { id := 3221225472, interface := "vcan0", dlc := 0 }
  payload := []

/-- The model lists the message; encoding it, and decoding an empty frame of it, touch bits of a
buffer that has none. -/
theorem accesses_outside_VECTOR__INDEPENDENT_SIG_MSG :
    ((SendModel.ofNetwork .insertion ⟨[VECTOR__INDEPENDENT_SIG_MSG]⟩).messages.map fun sm =>
      decide (∀ access ∈ (sm.encodeLogged BitCasts.zero).2, access.Inside)) = [false] ∧
    ¬ ∀ access ∈ ((DbcPppWrapper.ofNetwork ⟨[VECTOR__INDEPENDENT_SIG_MSG]⟩).decodeLogged
      BitCasts.zero emptyFrame).2, access.Inside := by
  decide +kernel

end Caneo
