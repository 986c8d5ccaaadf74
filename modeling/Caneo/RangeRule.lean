import Caneo.SignalRoundTrip

/-!
# Where the range rule lands

A signed signal whose declared range is not negative may be sent by a device that does not sign it.
The decoder notices that the sign-extended value is below the minimum, and reads the bits again as an
unsigned number, so that "the value lands in [dbc_min, dbc_max]". It does not look where it lands.
In terms of the raw values `rawMin` and `rawMax` of the range, the value is in the range for the bits
of `u` exactly if `Lands u` holds, and for all payloads exactly if the range reaches low enough that
nothing is read again, or begins in the lower half of the unsigned numbers and reaches up to the
largest one that is read again (`lands_in_range_iff`).
-/

namespace Caneo

open BitField

namespace ISignal

/-- An integer signal with a positive factor and a declared range that is not negative. -/
structure NonNegative (sig : ISignal) : Prop where
  integer : sig.extendedValueType = .Integer
  bitSize_le : sig.bitSize ≤ 64
  factor_pos : 0 < sig.factor
  minimum_nonneg : 0 ≤ sig.minimum
  range : sig.minimum < sig.maximum

/-- The raw values of the minimum and of the maximum, which need not be integers. -/
def rawMin (sig : ISignal) : ℚ := (sig.minimum - sig.offset) / sig.factor

def rawMax (sig : ISignal) : ℚ := (sig.maximum - sig.offset) / sig.factor

/-- If the signal is signed, and the bits of `u` as a signed number are below the minimum, then `u`
is in the range. -/
def Lands (sig : ISignal) (u : Nat) : Prop :=
  sig.valueType = .Signed → 2 ^ sig.bitSize ≤ 2 * u → (u : ℚ) - 2 ^ sig.bitSize < sig.rawMin →
    sig.rawMin ≤ u ∧ u ≤ sig.rawMax

variable {sig : ISignal}

namespace NonNegative

theorem yMax_eq (h : sig.NonNegative) : DbcPppWrapper.yMax sig = sig.maximum := by
  unfold DbcPppWrapper.yMax
  rw [if_neg]
  rintro ⟨hmin, hmax⟩
  have hrange := h.range
  rw [hmin, hmax] at hrange
  exact lt_irrefl _ hrange

theorem minimum_le_iff (h : sig.NonNegative) (r : ℚ) :
    sig.minimum ≤ r * sig.factor + sig.offset ↔ sig.rawMin ≤ r := by
  rw [rawMin, div_le_iff₀ h.factor_pos, sub_le_iff_le_add]

theorem le_maximum_iff (h : sig.NonNegative) (r : ℚ) :
    r * sig.factor + sig.offset ≤ sig.maximum ↔ r ≤ sig.rawMax := by
  rw [rawMax, le_div_iff₀ h.factor_pos, le_sub_iff_add_le]

/-- The reported value of the bits `x`, in raw values. -/
theorem phys_eq (h : sig.NonNegative) (hlin : sig.LinearPhys) (casts : BitCasts)
    (x : BitVec sig.bitSize) :
    DbcPppWrapper.phys casts sig (sig.extend x) =
      if (sig.rawInt (sig.extend x) : ℚ) < sig.rawMin then (x.toNat : ℚ) * sig.factor + sig.offset
      else sig.rawToPhys (sig.extend x) := by
  rw [DbcPppWrapper.phys_extend h.integer hlin h.bitSize_le, h.yMax_eq, hlin h.integer]
  have hlow : ((sig.rawInt (sig.extend x) : ℚ) * sig.factor + sig.offset < sig.minimum ∧
      0 ≤ sig.minimum ∧ sig.minimum < sig.maximum) ↔
        (sig.rawInt (sig.extend x) : ℚ) < sig.rawMin := by
    rw [and_iff_left ⟨h.minimum_nonneg, h.range⟩, ← not_le, ← not_le, h.minimum_le_iff]
  simp only [hlow]

/-- The decoder departs from `RawToPhys` exactly for a signed number below the minimum. -/
theorem phys_ne_iff (h : sig.NonNegative) (hlin : sig.LinearPhys) (casts : BitCasts)
    (x : BitVec sig.bitSize) :
    DbcPppWrapper.phys casts sig (sig.extend x) ≠ sig.rawToPhys (sig.extend x) ↔
      sig.valueType = .Signed ∧ 2 ^ sig.bitSize ≤ 2 * x.toNat ∧
        (x.toNat : ℚ) - 2 ^ sig.bitSize < sig.rawMin := by
  rw [h.phys_eq hlin]
  cases hs : sig.valueType with
  | Unsigned =>
    -- An unsigned number is not changed by reading it again.
    apply iff_of_false
    · rw [hlin h.integer, SignalLine.rawInt_extend_unsigned hs h.bitSize_le]
      intro hne
      apply hne
      push_cast
      exact ite_self _
    · rintro ⟨hsigned, -⟩
      cases hsigned
  | Signed =>
    rw [hlin h.integer, SignalLine.rawInt_extend_signed hs h.bitSize_le,
      BitVec.toInt_eq_toNat_cond]
    by_cases hsign : 2 * x.toNat < 2 ^ sig.bitSize
    · rw [if_pos hsign]
      apply iff_of_false
      · intro hne
        apply hne
        push_cast
        exact ite_self _
      · rintro ⟨-, hge, -⟩
        omega
    · rw [if_neg hsign]
      have hge : 2 ^ sig.bitSize ≤ 2 * x.toNat := not_lt.mp hsign
      have hcast : (((x.toNat : Int) - ((2 ^ sig.bitSize : Nat) : Int) : Int) : ℚ) =
          (x.toNat : ℚ) - 2 ^ sig.bitSize := by push_cast; rfl
      rw [hcast]
      have hpos : (0 : ℚ) < 2 ^ sig.bitSize := by positivity
      constructor
      · intro hne
        refine ⟨rfl, hge, ?_⟩
        by_contra hnot
        rw [if_neg hnot] at hne
        exact hne rfl
      · rintro ⟨-, -, hlow⟩
        rw [if_pos hlow]
        -- A positive factor keeps a full turn of the raw value apart.
        have hturn : 0 < (2 : ℚ) ^ sig.bitSize * sig.factor := mul_pos hpos h.factor_pos
        intro heq
        linarith

/-- Where the decoder departs from `RawToPhys` it reports the bits as an unsigned number. -/
theorem phys_eq_of_ne (h : sig.NonNegative) (hlin : sig.LinearPhys) {casts : BitCasts}
    {x : BitVec sig.bitSize}
    (hne : DbcPppWrapper.phys casts sig (sig.extend x) ≠ sig.rawToPhys (sig.extend x)) :
    DbcPppWrapper.phys casts sig (sig.extend x) = (x.toNat : ℚ) * sig.factor + sig.offset := by
  have heq := h.phys_eq hlin casts x
  by_cases hlow : (sig.rawInt (sig.extend x) : ℚ) < sig.rawMin
  · rw [if_pos hlow] at heq
    exact heq
  · rw [if_neg hlow] at heq
    exact absurd heq hne

/-- A value that the decoder reports for `x` other than `RawToPhys` is in the range. -/
theorem in_range_iff_lands (h : sig.NonNegative) (hlin : sig.LinearPhys) (casts : BitCasts)
    (x : BitVec sig.bitSize) :
    (DbcPppWrapper.phys casts sig (sig.extend x) ≠ sig.rawToPhys (sig.extend x) →
      sig.minimum ≤ DbcPppWrapper.phys casts sig (sig.extend x) ∧
        DbcPppWrapper.phys casts sig (sig.extend x) ≤ sig.maximum) ↔ sig.Lands x.toNat := by
  constructor
  · intro hrange hsigned hsign hlow
    have hne := (h.phys_ne_iff hlin casts x).mpr ⟨hsigned, hsign, hlow⟩
    obtain ⟨hmin, hmax⟩ := hrange hne
    rw [h.phys_eq_of_ne hlin hne] at hmin hmax
    exact ⟨(h.minimum_le_iff _).mp hmin, (h.le_maximum_iff _).mp hmax⟩
  · intro hlands hne
    obtain ⟨hsigned, hsign, hlow⟩ := (h.phys_ne_iff hlin casts x).mp hne
    obtain ⟨hmin, hmax⟩ := hlands hsigned hsign hlow
    rw [h.phys_eq_of_ne hlin hne]
    exact ⟨(h.minimum_le_iff _).mpr hmin, (h.le_maximum_iff _).mpr hmax⟩

end NonNegative

/-! ### All bit patterns of a signal -/

/-- No signed number of the signal is below the minimum, or the range begins in the lower half of
the unsigned numbers and reaches up to the largest one that is read again. -/
def AlwaysLands (sig : ISignal) : Prop :=
  sig.valueType = .Signed → 0 < sig.bitSize →
    2 * sig.rawMin ≤ -2 ^ sig.bitSize ∨
      2 * sig.rawMin ≤ 2 ^ sig.bitSize ∧
        2 ^ sig.bitSize - 1 + (min 0 ⌈sig.rawMin⌉ : Int) ≤ sig.rawMax

/-- The bits with only the sign bit set are the lowest that may be read again. -/
theorem lands_forall_low (hall : ∀ u < 2 ^ sig.bitSize, sig.Lands u)
    (hsigned : sig.valueType = .Signed) (hn : 0 < sig.bitSize)
    (hlow : -2 ^ sig.bitSize < 2 * sig.rawMin) : 2 * sig.rawMin ≤ 2 ^ sig.bitSize := by
  obtain ⟨m, hm⟩ := Nat.exists_eq_add_of_le' hn
  have hpow : 2 ^ sig.bitSize = 2 * 2 ^ m := by rw [hm, pow_succ, mul_comm]
  have hpowQ : (2 : ℚ) ^ sig.bitSize = 2 * 2 ^ m := by exact_mod_cast hpow
  have hpos : 0 < 2 ^ m := Nat.two_pow_pos m
  have hland := hall (2 ^ m) (by omega) hsigned (by omega)
  push_cast at hland
  rw [hpowQ] at hland hlow ⊢
  have hbelow := (hland (by linarith)).1
  linarith

/-- The largest number that is read again is `2^BitSize - 1 + min 0 ⌈rawMin⌉`. -/
theorem lands_forall_high (hall : ∀ u < 2 ^ sig.bitSize, sig.Lands u)
    (hsigned : sig.valueType = .Signed) (hn : 0 < sig.bitSize)
    (hlow : -2 ^ sig.bitSize < 2 * sig.rawMin) :
    2 ^ sig.bitSize - 1 + (min 0 ⌈sig.rawMin⌉ : Int) ≤ sig.rawMax := by
  obtain ⟨m, hm⟩ := Nat.exists_eq_add_of_le' hn
  have hpow : (2 : Int) ^ sig.bitSize = 2 * 2 ^ m := by rw [hm, pow_succ, mul_comm]
  have hpos : (0 : Int) < 2 ^ m := by positivity
  have hceil : -2 ^ m < ⌈sig.rawMin⌉ := by
    rw [Int.lt_ceil]
    have hpowQ : (2 : ℚ) ^ sig.bitSize = 2 * 2 ^ m := by exact_mod_cast hpow
    push_cast
    linarith
  obtain ⟨u, hu⟩ : ∃ u : Nat, (u : Int) = 2 ^ sig.bitSize - 1 + min 0 ⌈sig.rawMin⌉ :=
    ⟨(2 ^ sig.bitSize - 1 + min 0 ⌈sig.rawMin⌉).toNat, Int.toNat_of_nonneg (by omega)⟩
  have hlt : u < 2 ^ sig.bitSize := by zify; omega
  have hsign : 2 ^ sig.bitSize ≤ 2 * u := by zify; omega
  have hread : (u : ℚ) - 2 ^ sig.bitSize < sig.rawMin := by
    have hless : (u : Int) - 2 ^ sig.bitSize < ⌈sig.rawMin⌉ := by omega
    have hlessQ := Int.lt_ceil.mp hless
    push_cast at hlessQ
    exact hlessQ
  have hmax := (hall u hlt hsigned hsign hread).2
  have huQ : (u : ℚ) = 2 ^ sig.bitSize - 1 + (min 0 ⌈sig.rawMin⌉ : Int) := by exact_mod_cast hu
  rwa [huQ] at hmax

theorem lands_forall_iff : (∀ u < 2 ^ sig.bitSize, sig.Lands u) ↔ sig.AlwaysLands := by
  constructor
  · intro hall hsigned hn
    by_cases hlow : 2 * sig.rawMin ≤ -2 ^ sig.bitSize
    · exact Or.inl hlow
    · rw [not_le] at hlow
      exact Or.inr ⟨lands_forall_low hall hsigned hn hlow,
        lands_forall_high hall hsigned hn hlow⟩
  · intro halways u hu hsigned hsign hread
    have hn : 0 < sig.bitSize := by
      rcases Nat.eq_zero_or_pos sig.bitSize with h0 | hpos
      · rw [h0] at hu hsign
        omega
      · exact hpos
    have hsignQ : (2 : ℚ) ^ sig.bitSize ≤ 2 * u := by exact_mod_cast hsign
    rcases halways hsigned hn with hlow | ⟨hmin, hmax⟩
    · linarith
    · have htop : (u : Int) ≤ 2 ^ sig.bitSize - 1 + min 0 ⌈sig.rawMin⌉ := by
        have hceil : (u : Int) - 2 ^ sig.bitSize < ⌈sig.rawMin⌉ := by
          rw [Int.lt_ceil]
          push_cast
          exact hread
        have huInt : (u : Int) < 2 ^ sig.bitSize := by exact_mod_cast hu
        omega
      have htopQ : (u : ℚ) ≤ 2 ^ sig.bitSize - 1 + (min 0 ⌈sig.rawMin⌉ : Int) := by
        exact_mod_cast htop
      exact ⟨by linarith, by linarith⟩

end ISignal

/-! ### The reported values -/

/-- Whatever the other bits are, the signal's own may be any. -/
theorem ISignal.BitAccess.exists_payload {sig : ISignal} (hacc : sig.BitAccess)
    (hn : sig.bitSize ≤ 64) {size : Nat} (hwithin : sig.field.Within size) {u : Nat}
    (hu : u < 2 ^ sig.bitSize) :
    ∃ payload : Bytes, payload.length = size ∧ (sig.field.read payload).toNat = u := by
  have hwrite := hacc.encode_isWrite (BitVec.ofNat 64 u)
  have hlen := (hwrite.length (List.replicate size 0)).trans List.length_replicate
  refine ⟨sig.encode (BitVec.ofNat 64 u) (List.replicate size 0), hlen, ?_⟩
  have hread : sig.field.read (sig.encode (BitVec.ofNat 64 u) (List.replicate size 0)) =
      BitVec.ofNat sig.field.width u := by
    apply Field.read_eq_of_getBit
    intro i hi
    have h64 : i < 64 := Nat.lt_of_lt_of_le hi hn
    have hpos := hwithin i hi
    rw [hwrite.inside _ i hi (by rw [List.length_replicate]; exact hpos)]
    simp only [BitVec.getLsbD_ofNat, h64, hi, decide_true, Bool.true_and]
  rw [hread, BitVec.toNat_ofNat]
  exact Nat.mod_eq_of_lt hu

namespace DbcPppWrapper

/-- The signals that are reported for a payload. -/
def selected (msg : IMessage) (payload : Bytes) : List ISignal :=
  msg.signals.filter fun sig => !skipped msg.muxSignal payload sig

/-- What is reported for the `j`-th of them is `RawToPhys(Decode(payload))`, or is in the range. -/
def LandsInRange (wrapper : DbcPppWrapper) (casts : BitCasts) (sig : ISignal) (frame : CanFrame)
    (j : Nat) : Prop :=
  ∀ v, (wrapper.decode casts frame).reported (frame.decoded.length + j) = some v →
    v ≠ sig.rawToPhys (sig.decode frame.payload) → sig.minimum ≤ v ∧ v ≤ sig.maximum

/-- A signal of the message that is looked up for an id. -/
structure Decodes (wrapper : DbcPppWrapper) (id : BitVec 32) (msg : IMessage) (sig : ISignal) :
    Prop where
  find : wrapper.messages (id.setWidth 64) = some msg
  mem : sig ∈ msg.signals
  within : sig.field.Within msg.messageSize
  bitAccess : sig.BitAccess
  linear : sig.LinearPhys

variable {wrapper : DbcPppWrapper} {id : BitVec 32} {msg : IMessage} {sig : ISignal}

theorem Decodes.landsInRange_iff (h : wrapper.Decodes id msg sig) (hsig : sig.NonNegative)
    (casts : BitCasts) {frame : CanFrame} (hid : frame.header.id = id)
    (hlen : msg.messageSize ≤ frame.payload.length) {j : Nat}
    (hj : (selected msg frame.payload)[j]? = some sig) :
    wrapper.LandsInRange casts sig frame j ↔ sig.Lands (sig.field.read frame.payload).toNat := by
  have hfind : wrapper.messages (frame.header.id.setWidth 64) = some msg := hid ▸ h.find
  have hdecode := h.bitAccess.decode_eq frame.payload (h.within.mono hlen)
  have hreported : (wrapper.decode casts frame).reported (frame.decoded.length + j) =
      some (phys casts sig (sig.extend (sig.field.read frame.payload))) := by
    unfold selected at hj
    rw [CanFrame.reported, decoded_decode casts hfind hlen,
      List.getElem?_append_right (Nat.le_add_right _ _), Nat.add_sub_cancel_left,
      List.getElem?_map, hj]
    simp only [Option.map_some, decodedSignal, hdecode]
  unfold LandsInRange
  rw [hreported, hdecode]
  simp only [Option.some.injEq, forall_eq']
  exact hsig.in_range_iff_lands h.linear casts _

/-- **The range rule.** A value that the decoder reports instead of `RawToPhys` is in the declared
range exactly if the signal's bits land there, and for every payload exactly if the range is such
that they always do. -/
theorem lands_in_range_iff (casts : BitCasts) (network : INetwork) (id : BitVec 32)
    (msg : IMessage) (sig : ISignal) (h : (ofNetwork network).Decodes id msg sig)
    (hsig : sig.NonNegative) :
    (∀ (frame : CanFrame) (j : Nat), frame.header.id = id →
      msg.messageSize ≤ frame.payload.length → (selected msg frame.payload)[j]? = some sig →
        ((ofNetwork network).LandsInRange casts sig frame j ↔
          sig.Lands (sig.field.read frame.payload).toNat)) ∧
    (sig.multiplexerIndicator ≠ .MuxValue →
      ((∀ (frame : CanFrame) (j : Nat), frame.header.id = id →
        msg.messageSize ≤ frame.payload.length → (selected msg frame.payload)[j]? = some sig →
          (ofNetwork network).LandsInRange casts sig frame j) ↔ sig.AlwaysLands)) := by
  refine ⟨fun frame j hid hlen hj => h.landsInRange_iff hsig casts hid hlen hj, fun hmux => ?_⟩
  rw [← ISignal.lands_forall_iff]
  constructor
  · intro hall u hu
    obtain ⟨payload, hsize, hread⟩ :=
      h.bitAccess.exists_payload hsig.bitSize_le h.within hu
    let frame : CanFrame := { header := { id := id, interface := "", dlc := 0 }, payload := payload }
    have hmem : sig ∈ selected msg payload := by
      apply List.mem_filter.mpr
      exact ⟨h.mem, by simp [skipped, hmux]⟩
    obtain ⟨j, hj⟩ := List.mem_iff_getElem?.mp hmem
    have hid : frame.header.id = id := rfl
    have hlen : msg.messageSize ≤ frame.payload.length := le_of_eq hsize.symm
    have hland := (h.landsInRange_iff hsig casts hid hlen hj).mp (hall frame j hid hlen hj)
    rwa [hread] at hland
  · intro hlands frame j hid hlen hj
    apply (h.landsInRange_iff hsig casts hid hlen hj).mpr
    exact hlands _ (BitVec.isLt _)

end DbcPppWrapper

/-! The two `ERROR` signals of the repository's `vcan0.dbc` share bits and range, and differ in the
sign. -/

def ERROR (valueType : EValueType) : ISignal := ISignal.ofLine
  { name := "ERROR", startBit := 0, bitSize := 16, byteOrder := .LittleEndian,
    valueType := valueType, minimum := 0, maximum := 60000, unit := "g" }

def errorMsg (valueType : EValueType) : IMessage where
  id := 1
  name := "ERROR_MSG"
  messageSize := 2
  signals := [ERROR valueType]

def errorFrame (payload : Bytes) : CanFrame where
  header := { id := 1, interface := "vcan0", dlc := 2 }
  payload := payload

theorem ERROR_nonNegative (valueType : EValueType) : (ERROR valueType).NonNegative where
  integer := rfl
  bitSize_le := by simp [ERROR, ISignal.ofLine]
  factor_pos := by simp [ERROR, ISignal.ofLine]
  minimum_nonneg := by simp [ERROR, ISignal.ofLine]
  range := by simp [ERROR, ISignal.ofLine]

theorem ERROR_decodes (valueType : EValueType) :
    (DbcPppWrapper.ofNetwork ⟨[errorMsg valueType]⟩).Decodes 1 (errorMsg valueType)
      (ERROR valueType) where
  find := rfl
  mem := List.mem_singleton.mpr rfl
  within := by cases valueType <;> decide +kernel
  bitAccess := ISignal.ofLine_bitAccess _
  linear := ISignal.ofLine_linearPhys _

/-- 60000 sent without a sign is below the minimum as a signed number, and is read again. -/
theorem lands_in_range_ERROR :
    (DbcPppWrapper.ofNetwork ⟨[errorMsg .Signed]⟩).LandsInRange BitCasts.zero (ERROR .Signed)
      (errorFrame [96, 234]) 0 := by
  have h := DbcPppWrapper.lands_in_range_iff BitCasts.zero ⟨[errorMsg .Signed]⟩ 1
    (errorMsg .Signed) (ERROR .Signed) (ERROR_decodes .Signed) (ERROR_nonNegative .Signed)
  apply (h.1 (errorFrame [96, 234]) 0 rfl (by decide) rfl).mpr
  have hread : ((ERROR .Signed).field.read [96, 234]).toNat = 60000 := by decide +kernel
  unfold ISignal.Lands
  rw [errorFrame, hread]
  decide +kernel

/-- -1 is read again as well, and reported as 65535, which is above the maximum. -/
theorem not_lands_in_range_ERROR :
    ¬ (DbcPppWrapper.ofNetwork ⟨[errorMsg .Signed]⟩).LandsInRange BitCasts.zero (ERROR .Signed)
      (errorFrame [255, 255]) 0 := by
  intro h
  have hrange := h 65535 (by decide +kernel) (by decide +kernel)
  exact absurd hrange.2 (by decide +kernel)

end Caneo
