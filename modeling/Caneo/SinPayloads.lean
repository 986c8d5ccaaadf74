import Caneo.ActionPreset
import Caneo.RangeRule

/-!
# A payload with one signal replaced

The encode functions of the send window and of the presets write one signal into a payload that
`SendModel::encode` made. Only the signal's own bits change (`getBit_encodeFn`), so what they build
is the payload of the message with that value exactly if `PhysToRaw` and `encode` store the same bits
for it (`encodeFn_eq_encode_iff`). They do for integers; a floating-point value is scaled by the one
and not by the other.

For an integer signal whose range ends at raw values, clamping the value keeps the truncated raw value
between them, and so the reported value in the range (`replaces_encodeFn`).
-/

namespace Caneo

open BitField

/-! ### Clamping -/

/-- The value that is encoded for `v`. -/
def Preset.clamp (yLo yHi v : ℚ) : ℚ := if yLo < yHi then max yLo (min v yHi) else v

theorem Preset.clamp_of_mem {yLo yHi v : ℚ} (h : yLo < yHi → yLo ≤ v ∧ v ≤ yHi) :
    clamp yLo yHi v = v := by
  unfold clamp
  split
  · next hlt =>
    obtain ⟨hlo, hhi⟩ := h hlt
    rw [min_eq_left hhi, max_eq_right hlo]
  · rfl

theorem Preset.clamp_mem {yLo yHi : ℚ} (h : yLo < yHi) (v : ℚ) :
    yLo ≤ clamp yLo yHi v ∧ clamp yLo yHi v ≤ yHi := by
  rw [clamp, if_pos h]
  exact ⟨le_max_left _ _, max_le (le_of_lt h) (min_le_right _ _)⟩

/-! ### The bits that change -/

section Bits

variable {sig : ISignal} {base : Bytes}

theorem length_encodeFn (hacc : sig.BitAccess) (yLo yHi v : ℚ) :
    (Preset.encodeFn base sig yLo yHi v).length = base.length :=
  (hacc.encode_isWrite _).length base

theorem getBit_encodeFn (hacc : sig.BitAccess) (yLo yHi v : ℚ) {i : Nat} (hi : i < sig.bitSize)
    (hb : sig.field.pos i < 8 * base.length) :
    getBit (Preset.encodeFn base sig yLo yHi v) (sig.field.pos i) =
      (sig.physToRaw (Preset.clamp yLo yHi v)).getLsbD i :=
  (hacc.encode_isWrite _).inside base i hi hb

theorem getBit_encodeFn_of_not_covers (hacc : sig.BitAccess) (yLo yHi v : ℚ) {b : Nat}
    (hb : ¬ sig.field.Covers b) :
    getBit (Preset.encodeFn base sig yLo yHi v) b = getBit base b :=
  (hacc.encode_isWrite _).outside base b hb

theorem read_encodeFn (hacc : sig.BitAccess) (hwithin : sig.field.Within base.length)
    (yLo yHi v : ℚ) :
    sig.field.read (Preset.encodeFn base sig yLo yHi v) =
      (sig.physToRaw (Preset.clamp yLo yHi v)).setWidth sig.bitSize := by
  apply Field.read_eq_of_getBit
  intro i hi
  have hi' : i < sig.bitSize := hi
  rw [getBit_encodeFn hacc yLo yHi v hi' (hwithin i hi)]
  simp [SignalLine.field, hi']

/-- A signal on other bits is decoded as in the base payload. -/
theorem decode_encodeFn_of_disjoint (hacc : sig.BitAccess) {other : ISignal}
    (hother : other.BitAccess) (hdisj : other.field.Disjoint sig.field)
    (hwithin : other.field.Within base.length) (yLo yHi v : ℚ) :
    other.decode (Preset.encodeFn base sig yLo yHi v) = other.decode base := by
  have hlen : (Preset.encodeFn base sig yLo yHi v).length = base.length :=
    length_encodeFn hacc yLo yHi v
  rw [hother.decode_eq _ hwithin, hother.decode_eq _ (hlen ▸ hwithin)]
  congr 1
  apply Field.read_eq_of_getBit
  intro i hi
  rw [getBit_encodeFn_of_not_covers hacc yLo yHi v (hdisj _ ⟨i, hi, rfl⟩), Field.getLsbD_read _ _ hi]

end Bits

/-! ### Compared with `SendModel::encode` -/

/-- The bits that stand for `x` in a signal of floating-point type. -/
def ISignal.floatRaw (casts : BitCasts) (sig : ISignal) (x : ℚ) : BitVec 64 :=
  match sig.extendedValueType with
  | .Float => (casts.floatBits x).setWidth 64
  | .Double | .Integer => casts.doubleBits x

/-- `PhysToRaw` gives the bits of `(v - Offset) / Factor` for a signal of floating-point type. -/
def ISignal.FloatPhys (casts : BitCasts) (sig : ISignal) : Prop :=
  sig.extendedValueType ≠ .Integer →
    ∀ v, sig.physToRaw v = sig.floatRaw casts ((v - sig.offset) / sig.factor)

/-- `v` and `(v - Offset) / Factor` have the same bits in the signal, if it is of floating-point
type. -/
def ISignal.SameBits (casts : BitCasts) (sig : ISignal) (v : ℚ) : Prop :=
  sig.extendedValueType ≠ .Integer →
    (sig.floatRaw casts ((v - sig.offset) / sig.factor)).setWidth sig.bitSize =
      (sig.floatRaw casts v).setWidth sig.bitSize

theorem SendSignal.raw_eq_floatRaw (casts : BitCasts) {ss : SendSignal}
    (h : ss.sig.extendedValueType ≠ .Integer) : ss.raw casts = ss.sig.floatRaw casts ss.value := by
  unfold SendSignal.raw ISignal.floatRaw
  cases htype : ss.sig.extendedValueType with
  | Float => rfl
  | Double => rfl
  | Integer => exact absurd htype h

/-- `PhysToRaw` and `encode` store the same bits for `v`. -/
theorem ISignal.FloatPhys.sameBits_iff {casts : BitCasts} {ss : SendSignal}
    (h : ss.sig.FloatPhys casts) (v : ℚ) :
    (ss.sig.physToRaw v).setWidth ss.sig.bitSize =
        (SendSignal.raw casts { ss with value := v }).setWidth ss.sig.bitSize ↔
      ss.sig.SameBits casts v := by
  unfold ISignal.SameBits
  by_cases hint : ss.sig.extendedValueType = .Integer
  · have hraw : SendSignal.raw casts { ss with value := v } = ss.sig.physToRaw v := by
      simp only [SendSignal.raw, hint]
    rw [hraw]
    exact iff_of_true rfl fun hne => absurd hint hne
  · have hraw : SendSignal.raw casts { ss with value := v } = ss.sig.floatRaw casts v :=
      SendSignal.raw_eq_floatRaw casts hint
    rw [h hint, hraw]
    exact ⟨fun heq _ => heq, fun heq => heq hint⟩

namespace SendMessage

variable {sm : SendMessage} {casts : BitCasts} {k : Nat} {ss : SendSignal}

/-- The same signals, and the same raw values for those that cover the bit `b`. -/
def SameRawAt (casts : BitCasts) (b : Nat) (l₁ l₂ : List SendSignal) : Prop :=
  List.Forall₂ (fun s₁ s₂ => s₂.sig = s₁.sig ∧
    (s₁.sig.field.Covers b → s₂.raw casts = s₁.raw casts)) l₁ l₂

theorem SameRawAt.getBit_foldl {b : Nat} {l₁ l₂ : List SendSignal} (h : SameRawAt casts b l₁ l₂)
    (hacc : ∀ s ∈ l₁, s.sig.BitAccess) {d₁ d₂ : Bytes} (hlen : d₁.length = d₂.length)
    (hb : b < 8 * d₁.length) (hbit : getBit d₁ b = getBit d₂ b) :
    getBit (l₁.foldl (fun data ss => ss.sig.encode (ss.raw casts) data) d₁) b =
      getBit (l₂.foldl (fun data ss => ss.sig.encode (ss.raw casts) data) d₂) b := by
  unfold SameRawAt at h
  induction h generalizing d₁ d₂ with
  | nil => exact hbit
  | @cons s₁ s₂ l₁ l₂ hs _ ih =>
    obtain ⟨hsig, hraw⟩ := hs
    have hwrite₁ := (hacc s₁ List.mem_cons_self).encode_isWrite (s₁.raw casts)
    have hwrite₂ := (hacc s₁ List.mem_cons_self).encode_isWrite (s₂.raw casts)
    rw [List.foldl_cons, List.foldl_cons, hsig]
    apply ih fun s hs => hacc s (List.mem_cons_of_mem _ hs)
    · rw [hwrite₁.length, hwrite₂.length, hlen]
    · rw [hwrite₁.length]
      exact hb
    · by_cases hcov : s₁.sig.field.Covers b
      · obtain ⟨i, hi, rfl⟩ := hcov
        rw [hwrite₁.inside _ i hi hb, hwrite₂.inside _ i hi (hlen ▸ hb), hraw ⟨i, hi, rfl⟩]
      · rw [hwrite₁.outside _ _ hcov, hwrite₂.outside _ _ hcov, hbit]

theorem sameRawAt_modify {b : Nat} {l : List SendSignal} (v : ℚ) (hk : l[k]? = some ss)
    (hb : ¬ ss.sig.field.Covers b) :
    SameRawAt casts b l (l.modify k fun ss => { ss with value := v }) := by
  unfold SameRawAt
  induction l generalizing k with
  | nil => cases hk
  | cons s l ih =>
    cases k with
    | zero =>
      cases hk
      refine List.Forall₂.cons ⟨rfl, fun hcov => absurd hcov hb⟩ ?_
      exact List.forall₂_same.mpr fun s _ => ⟨rfl, fun _ => rfl⟩
    | succ k => exact List.Forall₂.cons ⟨rfl, fun _ => rfl⟩ (ih hk)

/-- Setting the value of a signal changes no bit outside it. -/
theorem getBit_encode_setValue (hacc : sm.BitAccess) (v : ℚ) (hk : sm.signals[k]? = some ss)
    {b : Nat} (hb : b < 8 * sm.dlc) (hcov : ¬ ss.sig.field.Covers b) :
    getBit ((sm.setValue k v).encode casts) b = getBit (sm.encode casts) b := by
  symm
  apply (sameRawAt_modify v hk hcov).getBit_foldl hacc rfl
  · rwa [List.length_replicate]
  · rfl

theorem bitAccess_setValue (hacc : sm.BitAccess) (k : Nat) (v : ℚ) :
    (sm.setValue k v).BitAccess := by
  intro ss hss
  have hsigs : sm.signals.map (·.sig) = (sm.setValue k v).signals.map (·.sig) :=
    (SameSignals.modify sm.signals k v).map_eq (·.sig) fun _ _ => rfl
  have hmem : ss.sig ∈ sm.signals.map (·.sig) := hsigs ▸ List.mem_map_of_mem hss
  obtain ⟨ss₀, hss₀, he⟩ := List.mem_map.mp hmem
  exact he ▸ hacc ss₀ hss₀

theorem bitDisjoint_setValue (hdisj : sm.BitDisjoint) (k : Nat) (v : ℚ) :
    (sm.setValue k v).BitDisjoint := by
  have hfields : (sm.signals.map fun ss => ss.sig.field) =
      (sm.setValue k v).signals.map fun ss => ss.sig.field :=
    (SameSignals.modify sm.signals k v).map_eq (fun ss => ss.sig.field) fun _ _ => rfl
  have hpair : (sm.signals.map fun ss => ss.sig.field).Pairwise Field.Disjoint :=
    List.pairwise_map.mpr hdisj
  rw [hfields] at hpair
  exact List.pairwise_map.mp hpair

/-- **The two encoders.** The payload with the value of one signal replaced is that of the message
with this value exactly if `PhysToRaw` stores the bits that `encode` does. -/
theorem encodeFn_eq_encode_iff (hacc : sm.BitAccess) (hdisj : sm.BitDisjoint)
    (hk : sm.signals[k]? = some ss) (hwithin : ss.sig.field.Within sm.dlc)
    (hphys : ss.sig.FloatPhys casts) {v : ℚ}
    (hv : ss.minVal < ss.maxVal → ss.minVal ≤ v ∧ v ≤ ss.maxVal) :
    Preset.encodeFn (sm.encode casts) ss.sig ss.minVal ss.maxVal v =
        (sm.setValue k v).encode casts ↔ ss.sig.SameBits casts v := by
  have hss := hacc ss (List.mem_of_getElem? hk)
  have haccset := bitAccess_setValue hacc k v
  have hkset := SendMessage.signals_setValue v hk
  have hlen : (sm.encode casts).length = sm.dlc := length_encode hacc
  rw [← hphys.sameBits_iff v]
  have hread : ss.sig.field.read (Preset.encodeFn (sm.encode casts) ss.sig ss.minVal ss.maxVal v) =
      (ss.sig.physToRaw v).setWidth ss.sig.bitSize := by
    rw [read_encodeFn hss (hlen ▸ hwithin), Preset.clamp_of_mem hv]
  have hreadset : ss.sig.field.read ((sm.setValue k v).encode casts) =
      (SendSignal.raw casts { ss with value := v }).setWidth ss.sig.bitSize :=
    read_encode casts haccset hkset hwithin fun i hi =>
      (bitDisjoint_setValue hdisj k v).not_shadowed hkset hi
  constructor
  · intro heq
    rw [← hread, ← hreadset, heq]
  · intro heq
    apply Bytes.ext_getBit
    · rw [length_encodeFn hss, hlen, length_encode haccset]
      rfl
    · intro b hb
      rw [length_encodeFn hss, hlen] at hb
      by_cases hcov : ss.sig.field.Covers b
      · obtain ⟨i, hi, rfl⟩ := hcov
        rw [← Field.getLsbD_read _ _ hi, ← Field.getLsbD_read _ _ hi, hread, hreadset, heq]
      · rw [getBit_encodeFn_of_not_covers hss _ _ v hcov, getBit_encode_setValue hacc v hk hb hcov]

end SendMessage

/-- The signals occupy pairwise disjoint bits inside the message. -/
structure IMessage.Apart (msg : IMessage) : Prop where
  disjoint : msg.signals.Pairwise fun a b => a.field.Disjoint b.field
  within : ∀ sig ∈ msg.signals, sig.field.Within msg.messageSize

/-- The same for a message of a send model, and the value set through the model. -/
theorem SendModel.encodeFn_eq_encode_iff {casts : BitCasts} {msg : IMessage} (hmsg : msg.Apart)
    (hacc : ∀ sig ∈ msg.signals, sig.BitAccess) (hphys : ∀ sig ∈ msg.signals, sig.FloatPhys casts)
    {model : SendModel} {idx : Nat} {sm : SendMessage} (hidx : model.messages[idx]? = some sm)
    (hpres : sm.Presents msg) {k : Nat} {ss : SendSignal} (hk : sm.signals[k]? = some ss) {v : ℚ}
    (hv : ss.sig.minimum < ss.sig.maximum → ss.sig.minimum ≤ v ∧ v ≤ ss.sig.maximum) :
    (model.setValue idx k v).encode casts idx =
        some (Preset.encodeFn (sm.encode casts) ss.sig ss.minVal ss.maxVal v) ↔
      ss.sig.SameBits casts v := by
  have hss := List.mem_of_getElem? hk
  have hsig := hpres.sig_mem hss
  obtain ⟨-, -, hmin, hmax⟩ := hpres.labels ss hss
  rw [SendModel.encode_setValue k v hidx, Option.some.injEq, eq_comm]
  apply SendMessage.encodeFn_eq_encode_iff (hpres.bitAccess hacc)
  · exact hpres.bitDisjoint hmsg.disjoint
  · exact hk
  · rw [hpres.dlc_eq]
    exact hmsg.within _ hsig
  · exact hphys _ hsig
  · rw [hmin, hmax]
    exact hv

/-! ### Decoding a clamped value -/

/-- An integer in the signal's declared signed or unsigned range. -/
def ISignal.Holds (sig : ISignal) (r : Int) : Prop :=
  (sig.valueType = .Signed ∧ InSignedRange sig.bitSize r) ∨
    (sig.valueType = .Unsigned ∧ 0 ≤ r ∧ r < 2 ^ sig.bitSize)

/-- An integer signal with a positive factor and a declared range from one raw value to another. -/
structure ISignal.RawRange (sig : ISignal) : Prop where
  integer : sig.extendedValueType = .Integer
  bitSize_lt : sig.bitSize < 64
  factor_pos : 0 < sig.factor
  range : sig.minimum < sig.maximum
  minimum_raw : ∃ r : Int, sig.Holds r ∧ sig.minimum = r * sig.factor + sig.offset
  maximum_raw : ∃ r : Int, sig.Holds r ∧ sig.maximum = r * sig.factor + sig.offset

namespace ISignal

variable {sig : ISignal}

/-- The integers that a signal holds have no gaps. -/
theorem Holds.between {lo r hi : Int} (hlo : sig.Holds lo) (hhi : sig.Holds hi) (h1 : lo ≤ r)
    (h2 : r ≤ hi) : sig.Holds r := by
  unfold Holds InSignedRange at *
  cases hs : sig.valueType with
  | Signed =>
    simp only [hs, true_and, reduceCtorEq, false_and, or_false] at hlo hhi ⊢
    omega
  | Unsigned =>
    simp only [hs, true_and, reduceCtorEq, false_and, false_or] at hlo hhi ⊢
    omega

theorem Holds.turn {lo hi : Int} (hlo : sig.Holds lo) (hhi : sig.Holds hi) :
    hi - lo < 2 ^ sig.bitSize := by
  unfold Holds InSignedRange at *
  cases hs : sig.valueType with
  | Signed =>
    simp only [hs, true_and, reduceCtorEq, false_and, or_false] at hlo hhi
    omega
  | Unsigned =>
    simp only [hs, true_and, reduceCtorEq, false_and, false_or] at hlo hhi
    omega

theorem RawRange.declared (h : sig.RawRange) : sig.Declared where
  integer := h.integer
  bitSize_lt := h.bitSize_lt
  factor_pos := h.factor_pos
  range := h.range
  range_fits := by
    obtain ⟨lo, hlo, hmin⟩ := h.minimum_raw
    obtain ⟨hi, hhi, hmax⟩ := h.maximum_raw
    have hturn : ((hi - lo : Int) : ℚ) < 2 ^ sig.bitSize := by exact_mod_cast hlo.turn hhi
    have hdiff : sig.maximum - sig.minimum = ((hi - lo : Int) : ℚ) * sig.factor := by
      rw [hmin, hmax]
      push_cast
      ring
    rw [hdiff, mul_div_cancel_right₀ _ (ne_of_gt h.factor_pos)]
    exact hturn

/-- The truncated raw value of a value in the range is one that the signal holds, and its own value
is in the range. -/
theorem RawRange.exists_raw (h : sig.RawRange) (htrunc : sig.TruncatesPhys) {v : ℚ}
    (hlo : sig.minimum ≤ v) (hhi : v ≤ sig.maximum) :
    ∃ r : Int, sig.physToRaw v = sig.physToRaw (r * sig.factor + sig.offset) ∧
      sig.Representable (r * sig.factor + sig.offset) := by
  obtain ⟨lo, hholdslo, hmin⟩ := h.minimum_raw
  obtain ⟨hi, hholdshi, hmax⟩ := h.maximum_raw
  have hpos := h.factor_pos
  have hlow : (lo : ℚ) ≤ (v - sig.offset) / sig.factor := by
    rw [le_div_iff₀ hpos]
    linarith
  have hhigh : (v - sig.offset) / sig.factor ≤ (hi : ℚ) := by
    rw [div_le_iff₀ hpos]
    linarith
  have hlor := le_truncate hlow
  have hrhi := truncate_le hhigh
  have hlorQ : (lo : ℚ) ≤ (truncate ((v - sig.offset) / sig.factor) : Int) := by exact_mod_cast hlor
  have hrhiQ : ((truncate ((v - sig.offset) / sig.factor) : Int) : ℚ) ≤ hi := by exact_mod_cast hrhi
  refine ⟨truncate ((v - sig.offset) / sig.factor), ?_, ?_, ?_, _, rfl, ?_⟩
  · rw [htrunc h.integer, htrunc.physToRaw_eq h.integer (ne_of_gt hpos)]
  · rw [hmin]
    have hmul := mul_le_mul_of_nonneg_right hlorQ (le_of_lt hpos)
    linarith
  · rw [hmax]
    have hmul := mul_le_mul_of_nonneg_right hrhiQ (le_of_lt hpos)
    linarith
  · rcases hholdslo.between hholdshi hlor hrhi with hsigned | hunsigned
    · exact Or.inl hsigned
    · exact Or.inr (Or.inl hunsigned)

/-- Whatever value is encoded, the decoded one is in the range. -/
theorem RawRange.phys_clamp (h : sig.RawRange) (hlin : sig.LinearPhys) (htrunc : sig.TruncatesPhys)
    (casts : BitCasts) (v : ℚ) :
    let x := DbcPppWrapper.phys casts sig (sig.extend
      ((sig.physToRaw (Preset.clamp sig.minimum sig.maximum v)).setWidth sig.bitSize))
    sig.minimum ≤ x ∧ x ≤ sig.maximum := by
  obtain ⟨hlo, hhi⟩ := Preset.clamp_mem h.range v
  obtain ⟨r, hraw, hrep⟩ := h.exists_raw htrunc hlo hhi
  dsimp only
  rw [hraw, h.declared.phys_eq hlin htrunc casts hrep]
  exact ⟨hrep.1, hrep.2.1⟩

end ISignal

/-! ### What is reported -/

namespace DbcPppWrapper

/-- A frame of the message that has not been decoded yet. -/
structure Carries (wrapper : DbcPppWrapper) (msg : IMessage) (payload : Bytes) (frame : CanFrame) :
    Prop where
  find : wrapper.messages (frame.header.id.setWidth 64) = some msg
  payload_eq : frame.payload = payload
  fresh : frame.decoded = []

/-- What is reported of frames with the payload `payload`, compared with frames with `base`: a value
in the range of `sig`, and of the signals on other bits what they have in `base`. All signals are
still reported, unless the multiplexer switch was changed. -/
structure Replaces (casts : BitCasts) (wrapper : DbcPppWrapper) (msg : IMessage) (sig : ISignal)
    (base payload : Bytes) : Prop where
  in_range : ∀ frame, wrapper.Carries msg payload frame → ∀ j,
    (selected msg payload)[j]? = some sig →
      ∃ x, (wrapper.decode casts frame).reported j = some x ∧ sig.minimum ≤ x ∧ x ≤ sig.maximum
  others : ∀ frame frame₀, wrapper.Carries msg payload frame → wrapper.Carries msg base frame₀ →
    ∀ j j₀ other, (selected msg payload)[j]? = some other → (selected msg base)[j₀]? = some other →
      other.field.Disjoint sig.field →
        (wrapper.decode casts frame).reported j = (wrapper.decode casts frame₀).reported j₀
  same_selected : (∀ mux, msg.muxSignal = some mux →
      mux ∈ msg.signals ∧ mux.field.Disjoint sig.field) → selected msg payload = selected msg base

theorem Carries.reported {wrapper : DbcPppWrapper} {msg : IMessage} {payload : Bytes}
    {frame : CanFrame} (h : wrapper.Carries msg payload frame) (casts : BitCasts)
    (hlen : msg.messageSize ≤ payload.length) {j : Nat} {sig : ISignal}
    (hj : (selected msg payload)[j]? = some sig) :
    (wrapper.decode casts frame).reported j = some (decodedSignal casts payload sig).value := by
  obtain ⟨hfind, rfl, hfresh⟩ := h
  unfold selected at hj
  rw [CanFrame.reported, decoded_decode casts hfind hlen, hfresh, List.nil_append,
    List.getElem?_map, hj]
  rfl

/-- **The frames of a sin action.** Whatever value is encoded, the reported one is in the range, and
nothing else changes. -/
theorem replaces_encodeFn (casts : BitCasts) (wrapper : DbcPppWrapper) {msg : IMessage}
    (hwithin : ∀ sig ∈ msg.signals, sig.field.Within msg.messageSize)
    (hacc : ∀ sig ∈ msg.signals, sig.BitAccess) {sig : ISignal} (hsig : sig ∈ msg.signals)
    (hlin : sig.LinearPhys) (htrunc : sig.TruncatesPhys) (hrange : sig.RawRange) {base : Bytes}
    (hbase : base.length = msg.messageSize) (v : ℚ) :
    Replaces casts wrapper msg sig base
      (Preset.encodeFn base sig sig.minimum sig.maximum v) where
  in_range frame hcarries j hj := by
    have hlen : (Preset.encodeFn base sig sig.minimum sig.maximum v).length = base.length :=
      length_encodeFn (hacc sig hsig) _ _ v
    have hin : sig.field.Within base.length := hbase ▸ hwithin sig hsig
    have hdecode := (hacc sig hsig).decode_eq _ (hlen ▸ hin)
    rw [read_encodeFn (hacc sig hsig) hin _ _ v] at hdecode
    refine ⟨_, hcarries.reported casts (by rw [hlen, hbase]) hj, ?_⟩
    dsimp only [decodedSignal]
    rw [hdecode]
    exact hrange.phys_clamp hlin htrunc casts v
  others frame frame₀ hcarries hcarries₀ j j₀ other hj hj₀ hdisj := by
    have hlen : (Preset.encodeFn base sig sig.minimum sig.maximum v).length = base.length :=
      length_encodeFn (hacc sig hsig) _ _ v
    have hother : other ∈ msg.signals := List.mem_of_mem_filter (List.mem_of_getElem? hj)
    have hdecode := decode_encodeFn_of_disjoint (hacc sig hsig) (hacc other hother) hdisj
      (hbase ▸ hwithin other hother) sig.minimum sig.maximum v
    rw [hcarries.reported casts (by rw [hlen, hbase]) hj,
      hcarries₀.reported casts (le_of_eq hbase.symm) hj₀]
    dsimp only [decodedSignal]
    rw [hdecode]
  same_selected hmux := by
    unfold selected
    apply List.filter_congr
    intro other _
    unfold skipped
    cases hswitch : msg.muxSignal with
    | none => rfl
    | some mux =>
      obtain ⟨hmem, hdisj⟩ := hmux mux hswitch
      have hdecode := decode_encodeFn_of_disjoint (hacc sig hsig) (hacc mux hmem) hdisj
        (hbase ▸ hwithin mux hmem) sig.minimum sig.maximum v
      simp only [hdecode]

end DbcPppWrapper

end Caneo
