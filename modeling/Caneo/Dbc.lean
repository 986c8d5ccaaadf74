import Caneo.BitField
import Mathlib.Data.Rat.Floor
import Mathlib.Tactic.Linarith

/-!
# The DBC interface (`dbcppp`)

The program reaches a DBC file through dbcppp's abstract classes `INetwork`, `IMessage` and
`ISignal`. They are modelled as records of their getters; the four accessors of a signal
(`Decode`, `Encode`, `RawToPhys`, `PhysToRaw`) are fields too, because their code is not part of
this repository. What is relied on about them is stated by the predicates `BitAccess`,
`LinearPhys`, `InvertsExact` and `TruncatesPhys`, and every theorem that needs one names it.

`ISignal.ofLine` builds a signal whose accessors behave as documented; it serves as the concrete
instance wherever one is evaluated.

A C++ `double` is a rational number throughout: all arithmetic is exact.
-/

namespace Caneo

open BitField

inductive EByteOrder where
  | LittleEndian
  | BigEndian
deriving DecidableEq, Repr

inductive EValueType where
  | Signed
  | Unsigned
deriving DecidableEq, Repr

inductive EExtendedValueType where
  | Integer
  | Float
  | Double
deriving DecidableEq, Repr

inductive EMultiplexer where
  | NoMux
  | MuxSwitch
  | MuxValue
deriving DecidableEq, Repr

/-- What an `SG_` line (with its value type) declares. -/
structure SignalLine where
  name : String
  multiplexerIndicator : EMultiplexer := .NoMux
  multiplexerSwitchValue : BitVec 64 := 0
  startBit : Nat
  bitSize : Nat
  byteOrder : EByteOrder := .LittleEndian
  valueType : EValueType
  extendedValueType : EExtendedValueType := .Integer
  factor : ℚ := 1
  offset : ℚ := 0
  minimum : ℚ
  maximum : ℚ
  unit : String := ""

/-! ### Bit positions -/

/-- Mirror the bits inside each byte: the numbering in which a big-endian signal is contiguous. -/
def mirror (b : Nat) : Nat := 8 * (b / 8) + (7 - b % 8)

theorem mirror_mirror (b : Nat) : mirror (mirror b) = b := by
  unfold mirror
  omega

/-- Where bit `i` of the raw value lives. The start bit of a big-endian signal is the position of
its most significant bit. -/
def SignalLine.bitPos (s : SignalLine) (i : Nat) : Nat :=
  match s.byteOrder with
  | .LittleEndian => s.startBit + i
  | .BigEndian => mirror (mirror s.startBit + (s.bitSize - 1 - i))

/-- The signal's bits. -/
def SignalLine.field (s : SignalLine) : Field where
  width := s.bitSize
  pos := s.bitPos
  inj i hi j hj h := by
    unfold SignalLine.bitPos at h
    split at h
    · omega
    · have := congrArg mirror h
      rw [mirror_mirror, mirror_mirror] at this
      omega

/-! ### Signals, messages, networks -/

structure ISignal extends SignalLine where
  decode : Bytes → BitVec 64
  encode : BitVec 64 → Bytes → Bytes
  rawToPhys : BitVec 64 → ℚ
  physToRaw : ℚ → BitVec 64

structure IMessage where
  id : BitVec 64
  name : String
  messageSize : Nat
  signals : List ISignal
  muxSignal : Option ISignal := none

structure INetwork where
  messages : List IMessage

/-- What opening and parsing a DBC file can give. -/
inductive DbcFile where
  | missing
  | unparsable
  | network (network : INetwork)

/-- Widen the field's value to `raw_t`: signed signals are sign-extended. -/
def SignalLine.extend (s : SignalLine) (x : BitVec s.bitSize) : BitVec 64 :=
  match s.valueType with
  | .Signed => x.signExtend 64
  | .Unsigned => x.setWidth 64

/-- The integer a `raw_t` stands for. -/
def SignalLine.rawInt (s : SignalLine) (raw : BitVec 64) : Int :=
  match s.valueType with
  | .Signed => raw.toInt
  | .Unsigned => raw.toNat

/-- Conversion of a `double` to an integer type: rounding toward zero. -/
def truncate (v : ℚ) : Int := v.num.tdiv v.den

/-! ### What dbcppp documents -/

namespace ISignal

/-- `Encode` overwrites exactly the signal's bits with the low bits of the raw value, `Decode`
reads them back and sign-extends signed signals. -/
structure BitAccess (sig : ISignal) : Prop where
  encode_isWrite : ∀ raw, IsWrite sig.field raw.getLsbD (sig.encode raw)
  decode_eq : ∀ data, sig.field.Within data.length →
    sig.decode data = sig.extend (sig.field.read data)

/-- `RawToPhys(r) = r * Factor + Offset` on integer signals. -/
def LinearPhys (sig : ISignal) : Prop :=
  sig.extendedValueType = .Integer →
    ∀ raw, sig.rawToPhys raw = sig.rawInt raw * sig.factor + sig.offset

/-- `PhysToRaw` inverts `RawToPhys` on exact values. -/
def InvertsExact (sig : ISignal) : Prop :=
  sig.extendedValueType = .Integer → sig.factor ≠ 0 →
    ∀ raw, sig.physToRaw (sig.rawInt raw * sig.factor + sig.offset) = raw

/-- `PhysToRaw` truncates `(v - Offset) / Factor`. -/
def TruncatesPhys (sig : ISignal) : Prop :=
  sig.extendedValueType = .Integer →
    ∀ v, sig.physToRaw v = BitVec.ofInt 64 (truncate ((v - sig.offset) / sig.factor))

end ISignal

theorem truncate_intCast (r : Int) : truncate (r : ℚ) = r := by
  simp [truncate]

theorem truncate_mono {u v : ℚ} (h : u ≤ v) : truncate u ≤ truncate v := by
  have hu : (0 : Int) < u.den := Int.natCast_pos.mpr u.den_pos
  have hv : (0 : Int) < v.den := Int.natCast_pos.mpr v.den_pos
  -- over a common denominator
  have hcross : (v.den : Int) * u.num ≤ u.den * v.num := by
    rw [mul_comm, mul_comm (u.den : Int)]
    exact (Rat.le_iff u v).mp h
  calc truncate u = ((v.den : Int) * u.num).tdiv (v.den * u.den) :=
        (Int.mul_tdiv_mul_of_pos _ _ hv).symm
    _ ≤ ((u.den : Int) * v.num).tdiv (v.den * u.den) := Int.tdiv_le_tdiv (mul_pos hv hu) hcross
    _ = ((u.den : Int) * v.num).tdiv (u.den * v.den) := by rw [mul_comm (v.den : Int)]
    _ = truncate v := Int.mul_tdiv_mul_of_pos _ _ hu

theorem le_truncate {r : Int} {v : ℚ} (h : (r : ℚ) ≤ v) : r ≤ truncate v := by
  have hmono := truncate_mono h
  rwa [truncate_intCast] at hmono

theorem truncate_le {r : Int} {v : ℚ} (h : v ≤ (r : ℚ)) : truncate v ≤ r := by
  have hmono := truncate_mono h
  rwa [truncate_intCast] at hmono

theorem truncate_lt_iff {n : Int} (hn : 0 < n) (v : ℚ) : truncate v < n ↔ v < n := by
  constructor
  · intro h
    by_contra hge
    have hle := le_truncate (not_lt.mp hge)
    omega
  · intro h
    rcases le_or_gt 0 v with hv | hv
    · -- From 0 on, the truncated value is not above the value.
      have hnum : 0 ≤ v.num := Rat.num_nonneg.mpr hv
      have hfloor : truncate v = v.floor := by
        rw [truncate, Int.tdiv_eq_ediv_of_nonneg hnum, Rat.floor_def]
      rw [hfloor]
      exact Rat.floor_lt_iff.mpr h
    · have hle : truncate v ≤ 0 := truncate_le (r := 0) (by exact_mod_cast le_of_lt hv)
      omega

theorem ofInt_rawInt (s : SignalLine) (raw : BitVec 64) : BitVec.ofInt 64 (s.rawInt raw) = raw := by
  unfold SignalLine.rawInt
  split
  · exact BitVec.ofInt_toInt
  · simp

/-- A truncating `PhysToRaw` inverts `RawToPhys` on exact values. -/
theorem ISignal.TruncatesPhys.invertsExact {sig : ISignal} (h : sig.TruncatesPhys) :
    sig.InvertsExact := by
  intro htype hfactor raw
  have hdiv : ((sig.rawInt raw : ℚ) * sig.factor + sig.offset - sig.offset) / sig.factor =
      (sig.rawInt raw : ℚ) := by
    rw [add_sub_cancel_right, mul_div_cancel_right₀ _ hfactor]
  rw [h htype, hdiv, truncate_intCast]
  exact ofInt_rawInt _ _

/-! ### A signal that behaves as documented -/

/-- The signal of an `SG_` line with the accessors dbcppp documents for integer signals. -/
def ISignal.ofLine (s : SignalLine) : ISignal where
  toSignalLine := s
  decode data := s.extend (s.field.read data)
  encode raw := s.field.write raw.getLsbD
  rawToPhys raw := s.rawInt raw * s.factor + s.offset
  physToRaw v := BitVec.ofInt 64 (truncate ((v - s.offset) / s.factor))

theorem ISignal.ofLine_bitAccess (s : SignalLine) : (ISignal.ofLine s).BitAccess where
  encode_isWrite raw := s.field.isWrite_write raw.getLsbD
  decode_eq _ _ := rfl

theorem ISignal.ofLine_linearPhys (s : SignalLine) : (ISignal.ofLine s).LinearPhys :=
  fun _ _ => rfl

theorem ISignal.ofLine_truncatesPhys (s : SignalLine) : (ISignal.ofLine s).TruncatesPhys :=
  fun _ _ => rfl

/-! ### Bit patterns of floating-point values -/

/-- `std::bit_cast` between `float`, `double` and the unsigned integers of their size, together
with the conversion between `float` and `double`. -/
structure BitCasts where
  floatBits : ℚ → BitVec 32
  ofFloatBits : BitVec 32 → ℚ
  doubleBits : ℚ → BitVec 64
  ofDoubleBits : BitVec 64 → ℚ

/-- Correct for the value 0; for messages without floating-point signals. -/
def BitCasts.zero : BitCasts := ⟨fun _ => 0, fun _ => 0, fun _ => 0, fun _ => 0⟩

end Caneo
