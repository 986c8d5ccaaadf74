import Caneo.DbcPppWrapper
import Caneo.SendModel
import Mathlib.Tactic.FieldSimp

/-!
# Encoding and decoding plain messages

A message without multiplexing whose signals occupy pairwise disjoint bits inside it. Whatever the
layout, each signal is decoded from its own bits (`decode_encode`), so a value survives
`SendModel::encode` followed by `DbcPppWrapper::decode` exactly when the decoder's range rule maps
the signal's bits back to it.

For declared ranges it does (`decode_encode_declared`): a signed signal with a non-negative range
comes back through the unsigned re-interpretation. For an undeclared range the made-up maximum
`2^BitSize` triggers the same re-interpretation for every negative value
(`decode_undeclared_signed_iff`).
-/

namespace Caneo

open BitField

/-- No multiplexing, and the signals occupy pairwise disjoint bits inside the message. -/
structure IMessage.Plain (msg : IMessage) : Prop where
  noMux : ∀ sig ∈ msg.signals, sig.multiplexerIndicator = .NoMux
  disjoint : msg.signals.Pairwise fun a b => a.field.Disjoint b.field
  within : ∀ sig ∈ msg.signals, sig.field.Within msg.messageSize

/-- The value reported for the `j`-th signal of the message. -/
def CanFrame.reported (frame : CanFrame) (j : Nat) : Option ℚ :=
  frame.decoded[j]?.map (·.value)

/-! ### Integers in `n` bits -/

/-- `r` fits `n` bits in two's complement. -/
def InSignedRange (n : Nat) (r : Int) : Prop := -2 ^ n ≤ 2 * r ∧ 2 * r < 2 ^ n

theorem InSignedRange.mono {n m : Nat} (hnm : n ≤ m) {r : Int} (h : InSignedRange n r) :
    InSignedRange m r := by
  have hpow : (2 : Int) ^ n ≤ 2 ^ m := pow_le_pow_right₀ (by norm_num) hnm
  obtain ⟨h1, h2⟩ := h
  constructor <;> omega

theorem toInt_ofInt_of_inSignedRange {n : Nat} {r : Int} (h : InSignedRange n r) :
    (BitVec.ofInt n r).toInt = r := by
  obtain ⟨h1, h2⟩ := h
  rw [BitVec.toInt_ofInt]
  apply Int.bmod_eq_of_le_mul_two
  · push_cast; omega
  · push_cast; omega

theorem toNat_ofInt_of_nonneg {n : Nat} {r : Int} (h0 : 0 ≤ r) (h1 : r < 2 ^ n) :
    ((BitVec.ofInt n r).toNat : Int) = r := by
  rw [BitVec.toNat_ofInt]
  push_cast
  rw [Int.emod_eq_of_lt h0 h1]
  omega

theorem setWidth_ofInt {n m : Nat} (h : n ≤ m) (r : Int) :
    (BitVec.ofInt m r).setWidth n = BitVec.ofInt n r := by
  apply BitVec.eq_of_toNat_eq
  have hn : 0 ≤ r % (2 : Int) ^ n := Int.emod_nonneg _ (by positivity)
  have hm : 0 ≤ r % (2 : Int) ^ m := Int.emod_nonneg _ (by positivity)
  rw [BitVec.toNat_setWidth, BitVec.toNat_ofInt, BitVec.toNat_ofInt]
  zify
  rw [Int.toNat_of_nonneg hm, Int.toNat_of_nonneg hn]
  exact Int.emod_emod_of_dvd r (pow_dvd_pow 2 h)

namespace SignalLine

theorem rawInt_extend_signed {s : SignalLine} (hs : s.valueType = .Signed) (hn : s.bitSize ≤ 64)
    (x : BitVec s.bitSize) : s.rawInt (s.extend x) = x.toInt := by
  simp only [rawInt, extend, hs]
  exact BitVec.toInt_signExtend_of_le hn

theorem rawInt_extend_unsigned {s : SignalLine} (hs : s.valueType = .Unsigned)
    (hn : s.bitSize ≤ 64) (x : BitVec s.bitSize) : s.rawInt (s.extend x) = x.toNat := by
  simp only [rawInt, extend, hs, BitVec.toNat_setWidth]
  rw [Nat.mod_eq_of_lt (Nat.lt_of_lt_of_le x.isLt (Nat.pow_le_pow_right (by decide) hn))]

end SignalLine

/-! ### Each signal is decoded from its own bits -/

theorem DbcPppWrapper.skipped_eq_false {mux : Option ISignal} {raw : Bytes} {sig : ISignal}
    (h : sig.multiplexerIndicator = .NoMux) : DbcPppWrapper.skipped mux raw sig = false := by
  simp [DbcPppWrapper.skipped, h]

/-- A fresh frame of a plain message reports all its signals, in the order of the DBC. -/
theorem IMessage.Plain.decoded_eq {msg : IMessage} (hplain : msg.Plain) {casts : BitCasts}
    {wrapper : DbcPppWrapper} {frame : CanFrame}
    (hfind : wrapper.messages (frame.header.id.setWidth 64) = some msg)
    (hfresh : frame.decoded = []) (hlen : msg.messageSize ≤ frame.payload.length) :
    (wrapper.decode casts frame).decoded =
      msg.signals.map (DbcPppWrapper.decodedSignal casts frame.payload) := by
  rw [DbcPppWrapper.decoded_decode casts hfind hlen, hfresh, List.nil_append]
  congr 1
  rw [List.filter_eq_self]
  intro sig hsig
  rw [DbcPppWrapper.skipped_eq_false (hplain.noMux sig hsig)]
  rfl

namespace SendMessage.Presents

variable {sm : SendMessage} {msg : IMessage}

theorem sig_mem (h : sm.Presents msg) {ss : SendSignal} (hss : ss ∈ sm.signals) :
    ss.sig ∈ msg.signals :=
  h.perm.mem_iff.mp (List.mem_map_of_mem hss)

theorem exists_sendSignal (h : sm.Presents msg) {sig : ISignal} (hsig : sig ∈ msg.signals) :
    ∃ ss ∈ sm.signals, ss.sig = sig :=
  List.mem_map.mp (h.perm.mem_iff.mpr hsig)

theorem bitAccess (h : sm.Presents msg) (hacc : ∀ sig ∈ msg.signals, sig.BitAccess) :
    sm.BitAccess :=
  fun _ hss => hacc _ (h.sig_mem hss)

theorem bitDisjoint (h : sm.Presents msg)
    (hdisj : msg.signals.Pairwise fun a b => a.field.Disjoint b.field) : sm.BitDisjoint := by
  have hsig : (sm.signals.map (·.sig)).Pairwise fun a b => a.field.Disjoint b.field :=
    (h.perm.pairwise_iff fun hab => hab.symm).mpr hdisj
  have hsignals := List.pairwise_map.mp hsig
  exact hsignals

/-- `Decode` on `encode`'s payload gives the low bits of the raw value `encode` wrote. -/
theorem decode_encode (h : sm.Presents msg) (hplain : msg.Plain)
    (hacc : ∀ sig ∈ msg.signals, sig.BitAccess) (casts : BitCasts) {ss : SendSignal}
    (hss : ss ∈ sm.signals) :
    ss.sig.decode (sm.encode casts) =
      ss.sig.extend ((ss.raw casts).setWidth ss.sig.bitSize) := by
  obtain ⟨k, hk⟩ := List.mem_iff_getElem?.mp hss
  have hba := h.bitAccess hacc
  have hwithin : ss.sig.field.Within sm.dlc := by
    rw [h.dlc_eq]; exact hplain.within _ (h.sig_mem hss)
  rw [(hba ss hss).decode_eq _ (by rw [SendMessage.length_encode hba]; exact hwithin),
    SendMessage.read_encode casts hba hk hwithin
      fun i hi => (h.bitDisjoint hplain.disjoint).not_shadowed hk hi]

end SendMessage.Presents

/-! ### Signed signals without a declared range -/

/-- A signed integer signal whose DBC line declares no range (`[0|0]`). -/
structure ISignal.UndeclaredSigned (sig : ISignal) : Prop where
  signed : sig.valueType = .Signed
  integer : sig.extendedValueType = .Integer
  minimum_eq : sig.minimum = 0
  maximum_eq : sig.maximum = 0
  factor_pos : 0 < sig.factor
  bitSize_lt : sig.bitSize < 64

/-- The bits of `r` are reported as `r * Factor + Offset` unless both `r` and the value are
negative: then they are read again as unsigned. -/
theorem ISignal.UndeclaredSigned.phys_eq_iff {sig : ISignal} (h : sig.UndeclaredSigned)
    (hlin : sig.LinearPhys) (casts : BitCasts) {r : Int} (hr : InSignedRange sig.bitSize r) :
    DbcPppWrapper.phys casts sig (sig.extend (BitVec.ofInt _ r)) = r * sig.factor + sig.offset ↔
      0 ≤ r ∨ 0 ≤ r * sig.factor + sig.offset := by
  have hymax : DbcPppWrapper.yMax sig = 2 ^ sig.bitSize := by
    simp [DbcPppWrapper.yMax, h.minimum_eq, h.maximum_eq]
  have hpos : (0 : ℚ) < 2 ^ sig.bitSize := by positivity
  rw [DbcPppWrapper.phys_extend h.integer hlin (Nat.le_of_lt h.bitSize_lt),
    SignalLine.rawInt_extend_signed h.signed (Nat.le_of_lt h.bitSize_lt),
    toInt_ofInt_of_inSignedRange hr, h.minimum_eq, hymax]
  by_cases hneg : (r : ℚ) * sig.factor + sig.offset < 0
  · rw [if_pos ⟨hneg, le_refl _, hpos⟩]
    constructor
    · intro heq
      -- a positive factor: equal values mean equal integers, and `toNat` is not negative
      have hmul : ((BitVec.ofInt sig.bitSize r).toNat : ℚ) * sig.factor = r * sig.factor := by
        linarith
      have hcast : ((BitVec.ofInt sig.bitSize r).toNat : ℚ) = (r : ℚ) :=
        mul_right_cancel₀ (ne_of_gt h.factor_pos) hmul
      left
      have : ((BitVec.ofInt sig.bitSize r).toNat : Int) = r := by exact_mod_cast hcast
      omega
    · intro hcond
      rcases hcond with h0 | h0
      · obtain ⟨-, hlt⟩ := hr
        have hint := toNat_ofInt_of_nonneg (n := sig.bitSize) h0 (by omega)
        have hcast : ((BitVec.ofInt sig.bitSize r).toNat : ℚ) = (r : ℚ) := by exact_mod_cast hint
        rw [hcast]
      · exact absurd h0 (not_le.mpr hneg)
  · rw [if_neg fun hc => hneg hc.1]
    exact ⟨fun _ => Or.inr (not_lt.mp hneg), fun _ => rfl⟩

/-- The value `r * Factor + Offset` of an exactly invertible signal is encoded as the bits of
`r`. -/
theorem ISignal.InvertsExact.physToRaw_eq {sig : ISignal} (h : sig.InvertsExact)
    (hint : sig.extendedValueType = .Integer) (hfactor : sig.factor ≠ 0)
    (hs : sig.valueType = .Signed) {r : Int} (hr : InSignedRange 64 r) :
    sig.physToRaw (r * sig.factor + sig.offset) = BitVec.ofInt 64 r := by
  have hraw := h hint hfactor (BitVec.ofInt 64 r)
  have hrawInt : sig.rawInt (BitVec.ofInt 64 r) = r := by
    simp only [SignalLine.rawInt, hs]
    exact toInt_ofInt_of_inSignedRange hr
  rwa [hrawInt] at hraw

theorem SendMessage.signals_setValue {sm : SendMessage} {k : Nat} {ss : SendSignal} (v : ℚ)
    (hk : sm.signals[k]? = some ss) :
    (sm.setValue k v).signals[k]? = some { ss with value := v } := by
  simp [SendMessage.setValue, hk]

theorem SendModel.encode_setValue {casts : BitCasts} {model : SendModel} {idx : Nat}
    {sm : SendMessage} (k : Nat) (v : ℚ) (hidx : model.messages[idx]? = some sm) :
    (model.setValue idx k v).encode casts idx = some ((sm.setValue k v).encode casts) := by
  simp [SendModel.encode, SendModel.setValue, hidx]

/-- **A signed signal without a declared range.** For a raw value `r`, a frame that carries it is
reported as `r * Factor + Offset`, and the value `r * Factor + Offset` given to `set_value` comes
back from decoding `encode`'s payload, exactly when `r` or the value itself is not negative. -/
theorem decode_undeclared_signed_iff (casts : BitCasts) (srt : Containers.RangesSort)
    (network : INetwork) (id : BitVec 32) (msg : IMessage)
    (hfind : (DbcPppWrapper.ofNetwork network).messages (id.setWidth 64) = some msg)
    (hplain : msg.Plain) (hacc : ∀ sig ∈ msg.signals, sig.BitAccess)
    (j : Nat) (sig : ISignal) (hj : msg.signals[j]? = some sig) (hsig : sig.UndeclaredSigned)
    (hlin : sig.LinearPhys) (hinv : sig.InvertsExact)
    (r : Int) (hr : InSignedRange sig.bitSize r) :
    (∀ frame : CanFrame, frame.header.id = id → frame.decoded = [] →
      msg.messageSize ≤ frame.payload.length →
      sig.field.read frame.payload = BitVec.ofInt sig.bitSize r →
        (((DbcPppWrapper.ofNetwork network).decode casts frame).reported j =
            some (r * sig.factor + sig.offset) ↔
          0 ≤ r ∨ 0 ≤ r * sig.factor + sig.offset)) ∧
    (∀ model, SendModel.From srt network model → ∀ idx sm, model.messages[idx]? = some sm →
      sm.Presents msg → ∀ k ss, sm.signals[k]? = some ss → ss.sig = sig →
      ∀ payload,
        (model.setValue idx k (r * sig.factor + sig.offset)).encode casts idx = some payload →
      ∀ frame : CanFrame, frame.header.id = id → frame.decoded = [] → frame.payload = payload →
        (((DbcPppWrapper.ofNetwork network).decode casts frame).reported j =
            some (r * sig.factor + sig.offset) ↔
          0 ≤ r ∨ 0 ≤ r * sig.factor + sig.offset)) := by
  have hmem : sig ∈ msg.signals := List.mem_of_getElem? hj
  have hframe : ∀ frame : CanFrame, frame.header.id = id → frame.decoded = [] →
      msg.messageSize ≤ frame.payload.length →
      sig.field.read frame.payload = BitVec.ofInt sig.bitSize r →
        (((DbcPppWrapper.ofNetwork network).decode casts frame).reported j =
            some (r * sig.factor + sig.offset) ↔
          0 ≤ r ∨ 0 ≤ r * sig.factor + sig.offset) := by
    intro frame hid hfresh hlen hread
    subst hid
    have hwithin : sig.field.Within frame.payload.length :=
      fun i hi => lt_of_lt_of_le (hplain.within sig hmem i hi) (by omega)
    have hdecode : sig.decode frame.payload = sig.extend (BitVec.ofInt sig.bitSize r) := by
      rw [(hacc sig hmem).decode_eq _ hwithin, hread]
    rw [← hsig.phys_eq_iff hlin casts hr, CanFrame.reported,
      hplain.decoded_eq hfind hfresh hlen, List.getElem?_map, hj, Option.map_some, Option.map_some,
      Option.some.injEq, DbcPppWrapper.decodedSignal, hdecode]
  refine ⟨hframe, ?_⟩
  intro model _ idx sm hidx hpres k ss hk hss payload hpayload frame hid hfresh hpl
  subst hss
  rw [SendModel.encode_setValue k _ hidx, Option.some.injEq] at hpayload
  have hset : (sm.setValue k (r * ss.sig.factor + ss.sig.offset)).Presents msg :=
    hpres.of_same (SameSignals.modify _ _ _)
  have hba := hset.bitAccess hacc
  have hkset := SendMessage.signals_setValue (r * ss.sig.factor + ss.sig.offset) hk
  have hlen : frame.payload.length = msg.messageSize := by
    rw [hpl, ← hpayload, SendMessage.length_encode hba, hset.dlc_eq]
  refine hframe frame hid hfresh (le_of_eq hlen.symm) ?_
  have hraw : SendSignal.raw casts { ss with value := r * ss.sig.factor + ss.sig.offset } =
      BitVec.ofInt 64 r := by
    simp only [SendSignal.raw, hsig.integer]
    exact hinv.physToRaw_eq hsig.integer (ne_of_gt hsig.factor_pos) hsig.signed
      (hr.mono (Nat.le_of_lt hsig.bitSize_lt))
  have hread := SendMessage.read_encode casts hba hkset
    (by rw [hset.dlc_eq]; exact hplain.within _ hmem)
    fun i hi => (hset.bitDisjoint hplain.disjoint).not_shadowed hkset hi
  rw [hpl, ← hpayload, hread, hraw]
  exact setWidth_ofInt (Nat.le_of_lt hsig.bitSize_lt) r

/-! The current measured by an `IVT-S` shunt, with the rest of its message, as the repository's
`vcan0.dbc` declares them. -/

def IVT_Result_I : ISignal := ISignal.ofLine
  { name := "IVT_Result_I", startBit := 23, bitSize := 32, byteOrder := .BigEndian,
    valueType := .Signed, minimum := 0, maximum := 0, unit := "mA" }

def IVT_Msg_Result_I : IMessage where
  id := 1313
  name := "IVT_Msg_Result_I"
  messageSize := 6
  signals :=
    [flag "IVT_Result_I_System_Error" 15 1, flag "IVT_Result_I_OCS" 12 1,
      flag "IVT_Result_I_Measurement_Error" 14 1, flag "IVT_Result_I_Channel_Error" 13 1,
      flag "IVT_ID_Result_I" 7 8, flag "IVT_MsgCount_Result_I" 11 4, IVT_Result_I]
where
  flag (name : String) (startBit bitSize : Nat) : ISignal := ISignal.ofLine
    { name := name, startBit := startBit, bitSize := bitSize, byteOrder := .BigEndian,
      valueType := .Unsigned, minimum := 0, maximum := 0 }

def IVT_Msg_Result_I_frame (payload : Bytes) : CanFrame where
  header := { id := 1313, interface := "vcan0", dlc := 6 }
  payload := payload

theorem IVT_Msg_Result_I_plain : IVT_Msg_Result_I.Plain where
  noMux := by decide
  disjoint := by decide +kernel
  within := by decide +kernel

theorem IVT_Result_I_undeclaredSigned : IVT_Result_I.UndeclaredSigned where
  signed := rfl
  integer := rfl
  minimum_eq := rfl
  maximum_eq := rfl
  factor_pos := by decide +kernel
  bitSize_lt := by decide

theorem IVT_Msg_Result_I_ofLine {sig : ISignal} (h : sig ∈ IVT_Msg_Result_I.signals) :
    ∃ s, sig = ISignal.ofLine s := by
  simp only [IVT_Msg_Result_I, List.mem_cons, List.not_mem_nil, or_false] at h
  rcases h with rfl | rfl | rfl | rfl | rfl | rfl | rfl <;> exact ⟨_, rfl⟩

theorem IVT_Msg_Result_I_bitAccess : ∀ sig ∈ IVT_Msg_Result_I.signals, sig.BitAccess := by
  intro sig h
  obtain ⟨s, rfl⟩ := IVT_Msg_Result_I_ofLine h
  exact ISignal.ofLine_bitAccess s

theorem decode_IVT_Result_I_nonneg :
    ((DbcPppWrapper.ofNetwork ⟨[IVT_Msg_Result_I]⟩).decode BitCasts.zero
      (IVT_Msg_Result_I_frame [0, 0, 0, 0, 0, 5])).reported 6 =
        some (((5 : Int) : ℚ) * IVT_Result_I.factor + IVT_Result_I.offset) := by
  have h := decode_undeclared_signed_iff BitCasts.zero .insertion ⟨[IVT_Msg_Result_I]⟩ 1313
    IVT_Msg_Result_I rfl IVT_Msg_Result_I_plain IVT_Msg_Result_I_bitAccess 6 IVT_Result_I rfl
    IVT_Result_I_undeclaredSigned (ISignal.ofLine_linearPhys _)
    (ISignal.ofLine_truncatesPhys _).invertsExact 5 (by constructor <;> decide)
  exact (h.1 (IVT_Msg_Result_I_frame [0, 0, 0, 0, 0, 5]) rfl rfl (by decide)
    (BitVec.eq_of_toNat_eq (by decide +kernel))).mpr (Or.inl (by decide))

/-- A current of -1 mA is reported as 4294967295 mA, and so is the value -1 given to `set_value`. -/
theorem decode_IVT_Result_I_negative :
    (IVT_Result_I.field.read [0, 0, 255, 255, 255, 255]).toInt = -1 ∧
    ((DbcPppWrapper.ofNetwork ⟨[IVT_Msg_Result_I]⟩).decode BitCasts.zero
      (IVT_Msg_Result_I_frame [0, 0, 255, 255, 255, 255])).reported 6 = some 4294967295 ∧
    ((SendModel.ofNetwork .insertion ⟨[IVT_Msg_Result_I]⟩).setValue 0 6 (-1)).encode
      BitCasts.zero 0 = some [0, 0, 255, 255, 255, 255] := by
  decide +kernel

/-! ### Declared ranges -/

/-- An integer signal with a positive factor and a declared range that its bits can hold. -/
structure ISignal.Declared (sig : ISignal) : Prop where
  integer : sig.extendedValueType = .Integer
  bitSize_lt : sig.bitSize < 64
  factor_pos : 0 < sig.factor
  range : sig.minimum < sig.maximum
  range_fits : (sig.maximum - sig.minimum) / sig.factor < 2 ^ sig.bitSize

/-- `v` is in the declared range and is the value of an integer in the signal's declared signed or
unsigned range, or in `[0, 2^BitSize)` when the signal is signed but its range is not negative. -/
def ISignal.Representable (sig : ISignal) (v : ℚ) : Prop :=
  sig.minimum ≤ v ∧ v ≤ sig.maximum ∧ ∃ r : Int, v = r * sig.factor + sig.offset ∧
    ((sig.valueType = .Signed ∧ InSignedRange sig.bitSize r) ∨
      (sig.valueType = .Unsigned ∧ 0 ≤ r ∧ r < 2 ^ sig.bitSize) ∨
      (sig.valueType = .Signed ∧ 0 ≤ sig.minimum ∧ 0 ≤ r ∧ r < 2 ^ sig.bitSize))

theorem ISignal.Declared.yMax_eq {sig : ISignal} (h : sig.Declared) :
    DbcPppWrapper.yMax sig = sig.maximum := by
  unfold DbcPppWrapper.yMax
  rw [if_neg]
  rintro ⟨hmin, hmax⟩
  have := h.range
  rw [hmin, hmax] at this
  exact lt_irrefl _ this

/-- A truncating `PhysToRaw` gives the integer of an exact value. -/
theorem ISignal.TruncatesPhys.physToRaw_eq {sig : ISignal} (h : sig.TruncatesPhys)
    (hint : sig.extendedValueType = .Integer) (hfactor : sig.factor ≠ 0) (r : Int) :
    sig.physToRaw (r * sig.factor + sig.offset) = BitVec.ofInt 64 r := by
  rw [h hint, add_sub_cancel_right, mul_div_cancel_right₀ _ hfactor, truncate_intCast]

/-- Twice the sign bit of an `n`-bit integer that does not fit two's complement. -/
theorem toInt_ofInt_of_upper {n : Nat} {r : Int} (h0 : 0 ≤ r) (h1 : r < 2 ^ n)
    (hup : ¬ InSignedRange n r) : (BitVec.ofInt n r).toInt = r - 2 ^ n := by
  have hhalf : (2 : Int) ^ n ≤ 2 * r := by
    by_contra hlt
    exact hup ⟨by have : (0 : Int) < 2 ^ n := by positivity
                  omega, by omega⟩
  have hrange : InSignedRange n (r - 2 ^ n) := by
    constructor <;> omega
  have hsame : BitVec.ofInt n r = BitVec.ofInt n (r - 2 ^ n) := by
    apply BitVec.eq_of_toNat_eq
    rw [BitVec.toNat_ofInt, BitVec.toNat_ofInt]
    congr 1
    push_cast
    rw [Int.sub_emod_right]
  rw [hsame]
  exact toInt_ofInt_of_inSignedRange hrange

/-- The range rule maps the bits of a representable value back to the value. The case that needs
it is a signed signal with a non-negative range and the top bit set: sign extension lands one
full turn `2^BitSize * Factor` too low, which is below the minimum. -/
theorem ISignal.Declared.phys_eq {sig : ISignal} (h : sig.Declared) (hlin : sig.LinearPhys)
    (htrunc : sig.TruncatesPhys) (casts : BitCasts) {v : ℚ} (hv : sig.Representable v) :
    DbcPppWrapper.phys casts sig
      (sig.extend ((sig.physToRaw v).setWidth sig.bitSize)) = v := by
  have hn : sig.bitSize ≤ 64 := Nat.le_of_lt h.bitSize_lt
  have hfactor : sig.factor ≠ 0 := ne_of_gt h.factor_pos
  obtain ⟨hmin, hmax, r, hr, hcases⟩ := hv
  have hbits : (sig.physToRaw v).setWidth sig.bitSize = BitVec.ofInt sig.bitSize r := by
    rw [hr, htrunc.physToRaw_eq h.integer hfactor, setWidth_ofInt hn]
  rw [hbits, DbcPppWrapper.phys_extend h.integer hlin hn, h.yMax_eq]
  -- when the widened integer is `r` itself, the value is `v` and so not below the minimum
  have hdirect : sig.rawInt (sig.extend (BitVec.ofInt sig.bitSize r)) = r →
      (if (sig.rawInt (sig.extend (BitVec.ofInt sig.bitSize r)) : ℚ) * sig.factor + sig.offset <
            sig.minimum ∧ 0 ≤ sig.minimum ∧ sig.minimum < sig.maximum then
        ((BitVec.ofInt sig.bitSize r).toNat : ℚ) * sig.factor + sig.offset
      else (sig.rawInt (sig.extend (BitVec.ofInt sig.bitSize r)) : ℚ) * sig.factor +
        sig.offset) = v := by
    intro hint
    rw [hint, ← hr, if_neg fun hc => absurd hc.1 (not_lt.mpr hmin)]
  rcases hcases with ⟨hs, hin⟩ | ⟨hs, h0, h1⟩ | ⟨hs, hm0, h0, h1⟩
  · apply hdirect
    rw [SignalLine.rawInt_extend_signed hs hn, toInt_ofInt_of_inSignedRange hin]
  · apply hdirect
    rw [SignalLine.rawInt_extend_unsigned hs hn, toNat_ofInt_of_nonneg h0 h1]
  · by_cases hin : InSignedRange sig.bitSize r
    · apply hdirect
      rw [SignalLine.rawInt_extend_signed hs hn, toInt_ofInt_of_inSignedRange hin]
    · have hlow : ((r - 2 ^ sig.bitSize : Int) : ℚ) * sig.factor + sig.offset < sig.minimum := by
        have hfit := (div_lt_iff₀ h.factor_pos).mp h.range_fits
        push_cast
        have : ((r : ℚ) - 2 ^ sig.bitSize) * sig.factor + sig.offset =
            v - 2 ^ sig.bitSize * sig.factor := by rw [hr]; ring
        rw [this]
        linarith
      rw [SignalLine.rawInt_extend_signed hs hn, toInt_ofInt_of_upper h0 h1 hin,
        if_pos ⟨hlow, hm0, h.range⟩, hr]
      have hnat : ((BitVec.ofInt sig.bitSize r).toNat : ℚ) = (r : ℚ) := by
        exact_mod_cast toNat_ofInt_of_nonneg h0 h1
      rw [hnat]

/-- **Declared ranges round-trip.** Give every signal of a plain message a representable value;
the frame with `encode`'s payload is decoded to every signal exactly once, with its own value. -/
theorem decode_encode_declared (casts : BitCasts) (network : INetwork) (id : BitVec 32)
    (msg : IMessage)
    (hfind : (DbcPppWrapper.ofNetwork network).messages (id.setWidth 64) = some msg)
    (hplain : msg.Plain) (hacc : ∀ sig ∈ msg.signals, sig.BitAccess)
    (hlin : ∀ sig ∈ msg.signals, sig.LinearPhys)
    (htrunc : ∀ sig ∈ msg.signals, sig.TruncatesPhys)
    (hdecl : ∀ sig ∈ msg.signals, sig.Declared)
    (model : SendModel) (idx : Nat) (sm : SendMessage)
    (hidx : model.messages[idx]? = some sm) (hpres : sm.Presents msg)
    (val : ISignal → ℚ) (hval : ∀ ss ∈ sm.signals, ss.value = val ss.sig)
    (hrep : ∀ sig ∈ msg.signals, sig.Representable (val sig))
    (frame : CanFrame) (hid : frame.header.id = id) (hfresh : frame.decoded = [])
    (hpayload : model.encode casts idx = some frame.payload) :
    ((DbcPppWrapper.ofNetwork network).decode casts frame).decoded =
      msg.signals.map fun sig =>
        { name := sig.name, value := val sig, unit := sig.unit,
          minVal := sig.minimum, maxVal := sig.maximum } := by
  subst hid
  have hpl : sm.encode casts = frame.payload := by
    simpa [SendModel.encode, hidx] using hpayload
  have hlen : frame.payload.length = msg.messageSize := by
    rw [← hpl, SendMessage.length_encode (hpres.bitAccess hacc), hpres.dlc_eq]
  rw [hplain.decoded_eq hfind hfresh (le_of_eq hlen.symm)]
  apply List.map_congr_left
  intro sig hsig
  obtain ⟨ss, hss, rfl⟩ := hpres.exists_sendSignal hsig
  have hd := hdecl _ hsig
  have hphys : DbcPppWrapper.phys casts ss.sig (ss.sig.decode frame.payload) = val ss.sig := by
    rw [← hpl, hpres.decode_encode hplain hacc casts hss]
    have hraw : ss.raw casts = ss.sig.physToRaw (val ss.sig) := by
      simp only [SendSignal.raw, hd.integer, hval ss hss]
    rw [hraw]
    exact hd.phys_eq (hlin _ hsig) (htrunc _ hsig) casts (hrep _ hsig)
  rw [DbcPppWrapper.decodedSignal, hphys, hd.yMax_eq]

/-! A battery current in tenths of an ampere, declared signed with a non-negative range, next to a
temperature with an offset. -/

def BatteryCurrent : ISignal := ISignal.ofLine
  { name := "BatteryCurrent", startBit := 0, bitSize := 8, valueType := .Signed,
    factor := 1 / 10, minimum := 0, maximum := 25, unit := "A" }

def BatteryTemperature : ISignal := ISignal.ofLine
  { name := "BatteryTemperature", startBit := 15, bitSize := 8, byteOrder := .BigEndian,
    valueType := .Unsigned, offset := -40, minimum := -40, maximum := 100, unit := "degC" }

def BatteryState : IMessage where
  id := 512
  name := "BatteryState"
  messageSize := 2
  signals := [BatteryCurrent, BatteryTemperature]

theorem BatteryState_plain : BatteryState.Plain where
  noMux := by decide
  disjoint := by decide +kernel
  within := by decide +kernel

theorem BatteryState_ofLine {sig : ISignal} (h : sig ∈ BatteryState.signals) :
    ∃ s, sig = ISignal.ofLine s := by
  simp only [BatteryState, List.mem_cons, List.not_mem_nil, or_false] at h
  rcases h with rfl | rfl <;> exact ⟨_, rfl⟩

def BatteryState_model : SendModel :=
  ((SendModel.ofNetwork .insertion ⟨[BatteryState]⟩).setValue 0 0 20).setValue 0 1 (-12)

def BatteryState_val (sig : ISignal) : ℚ := if sig.name = "BatteryCurrent" then 20 else -12

theorem BatteryCurrent_declared : BatteryCurrent.Declared where
  integer := rfl
  bitSize_lt := by decide
  factor_pos := by decide +kernel
  range := by decide +kernel
  range_fits := by decide +kernel

theorem BatteryTemperature_declared : BatteryTemperature.Declared where
  integer := rfl
  bitSize_lt := by decide
  factor_pos := by decide +kernel
  range := by decide +kernel
  range_fits := by decide +kernel

/-- 20 A are sent as the byte 200, the signed byte -56. -/
theorem decode_encode_BatteryState :
    ((DbcPppWrapper.ofNetwork ⟨[BatteryState]⟩).decode BitCasts.zero
      { header := { id := 512, interface := "vcan0", dlc := 2 }, payload := [200, 28] }).decoded =
      BatteryState.signals.map fun sig =>
        { name := sig.name, value := BatteryState_val sig, unit := sig.unit,
          minVal := sig.minimum, maxVal := sig.maximum } := by
  have hmodel : SendModel.From .insertion ⟨[BatteryState]⟩ BatteryState_model :=
    .setValue 0 1 (-12) (.setValue 0 0 20 .new)
  obtain ⟨msg, hmsg, hpres⟩ := hmodel.presents List.mem_cons_self
  obtain rfl := List.mem_singleton.mp hmsg
  refine decode_encode_declared BitCasts.zero ⟨[BatteryState]⟩ 512 BatteryState rfl
    BatteryState_plain ?_ ?_ ?_ ?_ BatteryState_model 0 _ rfl hpres BatteryState_val ?_ ?_ _ rfl rfl
    (by decide +kernel)
  · intro sig h
    obtain ⟨s, rfl⟩ := BatteryState_ofLine h
    exact ISignal.ofLine_bitAccess s
  · intro sig h
    obtain ⟨s, rfl⟩ := BatteryState_ofLine h
    exact ISignal.ofLine_linearPhys s
  · intro sig h
    obtain ⟨s, rfl⟩ := BatteryState_ofLine h
    exact ISignal.ofLine_truncatesPhys s
  · intro sig h
    rcases List.mem_pair.mp h with rfl | rfl
    · exact BatteryCurrent_declared
    · exact BatteryTemperature_declared
  · decide +kernel
  · intro sig h
    rcases List.mem_pair.mp h with rfl | rfl
    · exact ⟨by decide +kernel, by decide +kernel, 200, by decide +kernel,
        Or.inr (Or.inr (by decide +kernel))⟩
    · exact ⟨by decide +kernel, by decide +kernel, 28, by decide +kernel,
        Or.inr (Or.inl (by decide +kernel))⟩

end Caneo
