import Caneo.CanFrame
import Caneo.Containers
import Caneo.Dbc

/-!
# `DbcPppWrapper`

The decoder of one interface (`src/decoder/DbcPppWrapper.cpp`). `decode` looks the frame's id up
among the messages of the DBC, skips the signals of multiplexed groups that the switch does not
select, and reports a physical value for each of the others.

An undeclared range (`[0|0]`) is replaced by `[0, 2^BitSize]`, and a value below a non-negative
minimum is taken for a wrongly sign-extended one and read again as unsigned. `phys_extend` gives
the reported value of an integer signal in terms of its bits alone.
-/

namespace Caneo

open BitField Containers

structure DbcPppWrapper where
  messages : UnorderedMap (BitVec 64) IMessage

namespace DbcPppWrapper

def ofNetwork (network : INetwork) : DbcPppWrapper where
  messages := network.messages.foldl (fun m msg => m.emplace msg.id msg) UnorderedMap.empty

/-- The constructor, with its two exceptions. -/
def load (files : String → DbcFile) (dbcPath : String) : Except String DbcPppWrapper :=
  match files dbcPath with
  | .missing => .error ("Failed to open DBC file: " ++ dbcPath)
  | .unparsable => .error ("Failed to parse DBC file: " ++ dbcPath)
  | .network network => .ok (ofNetwork network)

/-! ### One signal -/

def yMax (sig : ISignal) : ℚ :=
  if sig.minimum = 0 ∧ sig.maximum = 0 then 2 ^ sig.bitSize else sig.maximum

def mask (bitSize : Nat) : BitVec 64 :=
  if bitSize < 64 then (1#64 <<< bitSize) - 1#64 else BitVec.allOnes 64

def phys (casts : BitCasts) (sig : ISignal) (rawDecoded : BitVec 64) : ℚ :=
  match sig.extendedValueType with
  | .Float => casts.ofFloatBits (rawDecoded.setWidth 32)
  | .Double => casts.ofDoubleBits rawDecoded
  | .Integer =>
    let phys := sig.rawToPhys rawDecoded
    if phys < sig.minimum ∧ 0 ≤ sig.minimum ∧ sig.minimum < yMax sig then
      ((rawDecoded &&& mask sig.bitSize).toNat : ℚ) * sig.factor + sig.offset
    else phys

/-- The multiplexer filter: the signal belongs to a group that the switch does not select. -/
def skipped (muxSig : Option ISignal) (raw : Bytes) (sig : ISignal) : Bool :=
  sig.multiplexerIndicator = .MuxValue &&
    match muxSig with
    | none => true
    | some mux => mux.decode raw ≠ sig.multiplexerSwitchValue

def decodedSignal (casts : BitCasts) (raw : Bytes) (sig : ISignal) : DecodedSignal where
  name := sig.name
  value := phys casts sig (sig.decode raw)
  unit := sig.unit
  minVal := sig.minimum
  maxVal := yMax sig

/-! ### One frame -/

def decodeMessage (casts : BitCasts) (msg : IMessage) (frame : CanFrame) : CanFrame :=
  msg.signals.foldl
    (fun f sig =>
      if skipped msg.muxSignal frame.payload sig then f
      else f.addDecoded (decodedSignal casts frame.payload sig))
    (frame.setMsgName msg.name)

def decode (casts : BitCasts) (wrapper : DbcPppWrapper) (frame : CanFrame) : CanFrame :=
  match wrapper.messages (frame.header.id.setWidth 64) with
  | none => frame
  | some msg =>
    if frame.payload.length < msg.messageSize then frame else decodeMessage casts msg frame

theorem messages_ofNetwork (network : INetwork) (id : BitVec 64) :
    (ofNetwork network).messages id = network.messages.find? fun msg => msg.id = id := by
  have h := UnorderedMap.foldl_emplace_apply (fun msg : IMessage => msg.id) (fun msg => msg)
    network.messages UnorderedMap.empty id
  simpa [ofNetwork] using h

theorem decoded_decodeMessage (casts : BitCasts) (msg : IMessage) (frame : CanFrame) :
    (decodeMessage casts msg frame).decoded = frame.decoded ++
      (msg.signals.filter fun sig => !skipped msg.muxSignal frame.payload sig).map
        (decodedSignal casts frame.payload) := by
  suffices hgen : ∀ (l : List ISignal) (f : CanFrame),
      (l.foldl (fun f sig => if skipped msg.muxSignal frame.payload sig then f
        else f.addDecoded (decodedSignal casts frame.payload sig)) f).decoded =
      f.decoded ++ (l.filter fun sig => !skipped msg.muxSignal frame.payload sig).map
        (decodedSignal casts frame.payload) from hgen _ _
  intro l
  induction l with
  | nil => intro f; simp
  | cons sig l ih =>
    intro f
    rw [List.foldl_cons, ih]
    by_cases hskip : skipped msg.muxSignal frame.payload sig
    · simp [hskip]
    · simp [hskip, CanFrame.addDecoded]

/-- A frame that is looked up as `msg` and is long enough reports `msg`'s selected signals. -/
theorem decoded_decode (casts : BitCasts) {wrapper : DbcPppWrapper} {frame : CanFrame}
    {msg : IMessage} (hfind : wrapper.messages (frame.header.id.setWidth 64) = some msg)
    (hlen : msg.messageSize ≤ frame.payload.length) :
    (wrapper.decode casts frame).decoded = frame.decoded ++
      (msg.signals.filter fun sig => !skipped msg.muxSignal frame.payload sig).map
        (decodedSignal casts frame.payload) := by
  rw [decode, hfind]
  simp only [Nat.not_lt.mpr hlen, ↓reduceIte]
  exact decoded_decodeMessage casts msg frame

theorem header_decodeMessage (casts : BitCasts) (msg : IMessage) (frame : CanFrame) :
    (decodeMessage casts msg frame).header = frame.header ∧
      (decodeMessage casts msg frame).msgName = msg.name := by
  suffices hgen : ∀ (l : List ISignal) (f : CanFrame),
      let g := l.foldl (fun f sig => if skipped msg.muxSignal frame.payload sig then f
        else f.addDecoded (decodedSignal casts frame.payload sig)) f
      g.header = f.header ∧ g.msgName = f.msgName from hgen _ _
  intro l
  induction l with
  | nil => exact fun f => ⟨rfl, rfl⟩
  | cons sig l ih =>
    intro f
    rw [List.foldl_cons]
    refine ⟨(ih _).1.trans ?_, (ih _).2.trans ?_⟩
    · split <;> rfl
    · split <;> rfl

theorem header_decode (casts : BitCasts) (wrapper : DbcPppWrapper) (frame : CanFrame) :
    (wrapper.decode casts frame).header = frame.header := by
  unfold decode
  split
  · rfl
  · split
    · rfl
    · exact (header_decodeMessage casts _ frame).1

/-- A frame that was not decoded has no name yet. -/
theorem of_msgName_decode {casts : BitCasts} {wrapper : DbcPppWrapper} {frame : CanFrame}
    (hraw : frame.msgName = "") {name : String} (hne : name ≠ "")
    (h : (wrapper.decode casts frame).msgName = name) :
    ∃ msg, wrapper.messages (frame.header.id.setWidth 64) = some msg ∧ msg.name = name ∧
      msg.messageSize ≤ frame.payload.length := by
  unfold decode at h
  split at h
  · exact absurd (h.symm.trans hraw) hne
  · next msg hmsg =>
    split at h
    · exact absurd (h.symm.trans hraw) hne
    · next hlen =>
      rw [(header_decodeMessage casts msg frame).2] at h
      exact ⟨msg, hmsg, h, Nat.le_of_not_lt hlen⟩

/-! ### The reported value in terms of the signal's bits -/

theorem getLsbD_mask {n i : Nat} (hn : n ≤ 64) : (mask n).getLsbD i = decide (i < n) := by
  unfold mask
  split
  · rename_i hlt
    have hpow : 2 ^ n < 2 ^ 64 := Nat.pow_lt_pow_right (by decide) hlt
    have hpos : 0 < 2 ^ n := Nat.two_pow_pos n
    have hone : (1#64).toNat = 1 := rfl
    have hshift : (1#64 <<< n).toNat = 2 ^ n := by
      rw [BitVec.toNat_shiftLeft, hone, Nat.shiftLeft_eq, Nat.one_mul, Nat.mod_eq_of_lt hpow]
    have htoNat : ((1#64 <<< n) - 1#64).toNat = 2 ^ n - 1 := by
      rw [BitVec.toNat_sub_of_le, hshift, hone]
      rw [BitVec.le_def, hshift, hone]
      exact hpos
    rw [← BitVec.testBit_toNat, htoNat, Nat.testBit_two_pow_sub_one]
  · rename_i hge
    have h64 : n = 64 := by omega
    subst h64
    rw [BitVec.getLsbD_allOnes]

/-- Masking the widened value gives the field's bits back, whatever the sign extension added. -/
theorem toNat_extend_and_mask {s : SignalLine} (hn : s.bitSize ≤ 64) (x : BitVec s.bitSize) :
    (s.extend x &&& mask s.bitSize).toNat = x.toNat := by
  have hbits : s.extend x &&& mask s.bitSize = x.setWidth 64 := by
    apply BitVec.eq_of_getLsbD_eq
    intro i hi
    rw [BitVec.getLsbD_and, getLsbD_mask hn]
    by_cases hin : i < s.bitSize
    · unfold SignalLine.extend
      split
      · rw [BitVec.getLsbD_signExtend]
        simp [hi, hin]
      · simp [hi, hin]
    · simp [hin, BitVec.getLsbD_of_ge x i (Nat.le_of_not_lt hin)]
  rw [hbits, BitVec.toNat_setWidth]
  exact Nat.mod_eq_of_lt (Nat.lt_of_lt_of_le x.isLt (Nat.pow_le_pow_right (by decide) hn))

theorem phys_extend {casts : BitCasts} {sig : ISignal} (hint : sig.extendedValueType = .Integer)
    (hlin : sig.LinearPhys) (hn : sig.bitSize ≤ 64) (x : BitVec sig.bitSize) :
    phys casts sig (sig.extend x) =
      if (sig.rawInt (sig.extend x) : ℚ) * sig.factor + sig.offset < sig.minimum ∧
          0 ≤ sig.minimum ∧ sig.minimum < yMax sig then
        (x.toNat : ℚ) * sig.factor + sig.offset
      else (sig.rawInt (sig.extend x) : ℚ) * sig.factor + sig.offset := by
  simp only [phys, hint, hlin hint, toNat_extend_and_mask hn]

end DbcPppWrapper

end Caneo
