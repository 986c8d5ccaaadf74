import Caneo.SignalRoundTrip

/-!
# Encoding and decoding multiplexed messages

The decoder reports the signals of the group that the switch selects and no other group. The
encoder knows nothing of groups: it writes the signals of *all* of them in start-bit order, so
where two groups share bits the last one written decides what the selected group reads back.

`decode_encode_mux_iff` says when a multiplexed message nevertheless round-trips: every bit of a
decoded signal that a later signal overwrites must happen to have the same value there.
-/

namespace Caneo

open BitField

/-! ### Multiplexed messages -/

def ISignal.DifferentGroups (a b : ISignal) : Prop :=
  a.multiplexerIndicator = .MuxValue ∧ b.multiplexerIndicator = .MuxValue ∧
    a.multiplexerSwitchValue ≠ b.multiplexerSwitchValue

instance (a b : ISignal) : Decidable (a.DifferentGroups b) :=
  inferInstanceAs (Decidable (_ ∧ _ ∧ _))

/-- A switch, plain signals and groups, all unsigned integers. Only signals of different groups
may share bits. -/
structure IMessage.Multiplexed (msg : IMessage) (sw : ISignal) : Prop where
  muxSignal : msg.muxSignal = some sw
  mem : sw ∈ msg.signals
  isSwitch : sw.multiplexerIndicator = .MuxSwitch
  unsigned : ∀ sig ∈ msg.signals, sig.valueType = .Unsigned
  integer : ∀ sig ∈ msg.signals, sig.extendedValueType = .Integer
  disjoint : msg.signals.Pairwise fun a b => a.DifferentGroups b ∨ a.field.Disjoint b.field
  within : ∀ sig ∈ msg.signals, sig.field.Within msg.messageSize

/-- `sig` belongs to no group or to the group of the switch value `raw`. -/
def ISignal.selected (raw : BitVec 64) (sig : ISignal) : Bool :=
  sig.multiplexerIndicator ≠ .MuxValue || raw = sig.multiplexerSwitchValue

/-- `PhysToRaw` gives the value bits that fit the signal and that `RawToPhys` maps back to it. -/
def ISignal.Carries (sig : ISignal) (v : ℚ) : Prop :=
  (sig.physToRaw v).toNat < 2 ^ sig.bitSize ∧ sig.rawToPhys (sig.physToRaw v) = v

theorem DbcPppWrapper.not_skipped (sw : ISignal) (raw : Bytes) (sig : ISignal) :
    (!DbcPppWrapper.skipped (some sw) raw sig) = sig.selected (sw.decode raw) := by
  by_cases hind : sig.multiplexerIndicator = .MuxValue <;>
    simp [DbcPppWrapper.skipped, ISignal.selected, hind]

/-! ### One unsigned signal -/

namespace ISignal

variable {sig : ISignal}

/-- On an unsigned signal the range rule changes nothing: masking keeps all bits. -/
theorem phys_extend_unsigned (casts : BitCasts) (hu : sig.valueType = .Unsigned)
    (hint : sig.extendedValueType = .Integer) (hlin : sig.LinearPhys) (x : BitVec sig.bitSize) :
    DbcPppWrapper.phys casts sig (sig.extend x) =
      ((x.setWidth 64).toNat : ℚ) * sig.factor + sig.offset := by
  have hextend : sig.extend x = x.setWidth 64 := by simp [SignalLine.extend, hu]
  have hmask : x.setWidth 64 &&& DbcPppWrapper.mask sig.bitSize = x.setWidth 64 := by
    apply BitVec.eq_of_getLsbD_eq
    intro i hi
    rw [BitVec.getLsbD_and]
    by_cases hn : sig.bitSize ≤ 64
    · rw [DbcPppWrapper.getLsbD_mask hn, BitVec.getLsbD_setWidth]
      by_cases hin : i < sig.bitSize
      · simp [hin]
      · simp [BitVec.getLsbD_of_ge x i (Nat.le_of_not_lt hin)]
    · rw [DbcPppWrapper.mask, if_neg (by omega), BitVec.getLsbD_allOnes, decide_eq_true hi,
        Bool.and_true]
  have hraw : (sig.rawInt (x.setWidth 64) : ℚ) = ((x.setWidth 64).toNat : ℚ) := by
    simp only [SignalLine.rawInt, hu, Int.cast_natCast]
  simp only [DbcPppWrapper.phys, hint, hlin hint, hextend, hmask, hraw, ite_self]

/-- A field of the signal's width decodes to a carried value exactly when it holds the value's
bits (or the factor is 0, and all bits mean the same). -/
theorem Carries.phys_eq_iff {v : ℚ} (hv : sig.Carries v) (casts : BitCasts)
    (hu : sig.valueType = .Unsigned) (hint : sig.extendedValueType = .Integer)
    (hlin : sig.LinearPhys) (x : BitVec sig.bitSize) :
    DbcPppWrapper.phys casts sig (sig.extend x) = v ↔
      sig.factor = 0 ∨ ∀ i < sig.bitSize, i < 64 →
        x.getLsbD i = (sig.physToRaw v).getLsbD i := by
  obtain ⟨hfits, hback⟩ := hv
  have hlinear : ((sig.physToRaw v).toNat : ℚ) * sig.factor + sig.offset = v := by
    rw [hlin hint] at hback
    simpa [SignalLine.rawInt, hu] using hback
  have hbits : x.setWidth 64 = sig.physToRaw v ↔
      ∀ i < sig.bitSize, i < 64 → x.getLsbD i = (sig.physToRaw v).getLsbD i := by
    constructor
    · intro heq i hi h64
      rw [← heq, BitVec.getLsbD_setWidth]
      simp [h64]
    · intro hall
      apply BitVec.eq_of_getLsbD_eq
      intro i h64
      rw [BitVec.getLsbD_setWidth]
      by_cases hi : i < sig.bitSize
      · simpa [h64] using hall i hi h64
      · have hle : 2 ^ sig.bitSize ≤ 2 ^ i :=
          Nat.pow_le_pow_right (by decide) (Nat.le_of_not_lt hi)
        have hzero : (sig.physToRaw v).getLsbD i = false := by
          rw [← BitVec.testBit_toNat]
          exact Nat.testBit_lt_two_pow (lt_of_lt_of_le hfits hle)
        rw [hzero, BitVec.getLsbD_of_ge x i (Nat.le_of_not_lt hi), Bool.and_false]
  rw [phys_extend_unsigned casts hu hint hlin, ← hbits]
  constructor
  · intro heq
    by_cases hfactor : sig.factor = 0
    · exact Or.inl hfactor
    · right
      have hmul : ((x.setWidth 64).toNat : ℚ) * sig.factor =
          ((sig.physToRaw v).toNat : ℚ) * sig.factor := by linarith
      have hcast := mul_right_cancel₀ hfactor hmul
      exact BitVec.eq_of_toNat_eq (by exact_mod_cast hcast)
  · rintro (hfactor | heq)
    · rw [← hlinear, hfactor, mul_zero, mul_zero]
    · rw [heq, hlinear]

end ISignal

/-! ### Bits that survive the later writes -/

namespace SendMessage

/-- If signals after `k` are written over bit `i` of signal `k`, the last of them has the same
bit there. -/
def KeepsBit (casts : BitCasts) (sm : SendMessage) (k i : Nat) : Prop :=
  ∀ ss, sm.signals[k]? = some ss →
    ∀ k' ss' i', k < k' → sm.signals[k']? = some ss' → i' < ss'.sig.bitSize →
      ss'.sig.field.pos i' = ss.sig.field.pos i → ¬ sm.Shadowed k' (ss.sig.field.pos i) →
        (ss'.raw casts).getLsbD i' = (ss.raw casts).getLsbD i

theorem getBit_encode_eq_iff (casts : BitCasts) {sm : SendMessage} (h : sm.BitAccess) {k : Nat}
    {ss : SendSignal} (hk : sm.signals[k]? = some ss) {i : Nat} (hi : i < ss.sig.bitSize)
    (hb : ss.sig.field.pos i < 8 * sm.dlc) :
    getBit (sm.encode casts) (ss.sig.field.pos i) = (ss.raw casts).getLsbD i ↔
      sm.KeepsBit casts k i := by
  constructor
  · intro heq ss₀ hk₀ k' ss' i' _ hk' hi' hpos hlast
    obtain rfl : ss = ss₀ := by rw [hk] at hk₀; exact Option.some.inj hk₀
    rw [← heq, ← hpos]
    exact (getBit_encode h hk' hi' (hpos ▸ hb) (hpos ▸ hlast)).symm
  · intro hkeep
    by_cases hsh : sm.Shadowed k (ss.sig.field.pos i)
    · obtain ⟨k', ss', hlt, hk', ⟨i', hi', hpos⟩, hlast⟩ := hsh.exists_last
      rw [← hkeep ss hk k' ss' i' hlt hk' hi' hpos hlast, ← hpos]
      exact getBit_encode h hk' hi' (hpos ▸ hb) (hpos ▸ hlast)
    · exact getBit_encode h hk hi hb hsh

theorem keepsBit_of_not_shadowed (casts : BitCasts) {sm : SendMessage} {k : Nat}
    {ss : SendSignal} (hk : sm.signals[k]? = some ss) {i : Nat}
    (h : ¬ sm.Shadowed k (ss.sig.field.pos i)) : sm.KeepsBit casts k i := by
  intro ss₀ hk₀ k' ss' i' hlt hk' hi' hpos _
  obtain rfl : ss = ss₀ := by rw [hk] at hk₀; exact Option.some.inj hk₀
  exact absurd ((sm.shadowed_iff _ _).mpr ⟨k', ss', hlt, hk', i', hi', hpos⟩) h

end SendMessage

/-! ### The round trip -/

namespace IMessage.Multiplexed

variable {msg : IMessage} {sw : ISignal} {sm : SendMessage}

/-- The switch shares no bit with any other signal. -/
theorem switch_not_shadowed (h : msg.Multiplexed sw) (hpres : sm.Presents msg) {k : Nat}
    {ss : SendSignal} (hk : sm.signals[k]? = some ss) (hss : ss.sig = sw) {i : Nat}
    (hi : i < ss.sig.bitSize) : ¬ sm.Shadowed k (ss.sig.field.pos i) := by
  have hsig : (sm.signals.map (·.sig)).Pairwise fun a b =>
      a.DifferentGroups b ∨ a.field.Disjoint b.field := by
    refine (hpres.perm.pairwise_iff ?_).mpr h.disjoint
    rintro a b (⟨ha, hb, hne⟩ | hd)
    · exact Or.inl ⟨hb, ha, hne.symm⟩
    · exact Or.inr hd.symm
  rw [SendMessage.shadowed_iff]
  rintro ⟨k', ss', hlt, hk', hcov⟩
  obtain ⟨hkl, rfl⟩ := List.getElem?_eq_some_iff.mp hk
  obtain ⟨hkl', rfl⟩ := List.getElem?_eq_some_iff.mp hk'
  have hpair := List.pairwise_iff_getElem.mp (List.pairwise_map.mp hsig) k k' hkl hkl' hlt
  rcases hpair with ⟨hind, -, -⟩ | hd
  · rw [hss, h.isSwitch] at hind
    exact EMultiplexer.noConfusion hind
  · exact hd _ ⟨i, hi, rfl⟩ hcov

theorem decode_eq (h : msg.Multiplexed sw) (hpres : sm.Presents msg)
    (hacc : ∀ sig ∈ msg.signals, sig.BitAccess) (casts : BitCasts) {ss : SendSignal}
    (hss : ss ∈ sm.signals) :
    ss.sig.decode (sm.encode casts) = ss.sig.extend (ss.sig.field.read (sm.encode casts)) := by
  have hba := hpres.bitAccess hacc
  refine (hba ss hss).decode_eq _ ?_
  rw [SendMessage.length_encode hba, hpres.dlc_eq]
  exact h.within _ (hpres.sig_mem hss)

theorem raw_eq (h : msg.Multiplexed sw) (hpres : sm.Presents msg) (casts : BitCasts)
    {ss : SendSignal} (hss : ss ∈ sm.signals) : ss.raw casts = ss.sig.physToRaw ss.value := by
  simp only [SendSignal.raw, h.integer _ (hpres.sig_mem hss)]

/-- The decoder sees the switch value that was set. -/
theorem decode_switch (h : msg.Multiplexed sw) (hpres : sm.Presents msg)
    (hacc : ∀ sig ∈ msg.signals, sig.BitAccess) (casts : BitCasts) {k : Nat} {ss : SendSignal}
    (hk : sm.signals[k]? = some ss) (hsw : ss.sig = sw) (hcar : ss.sig.Carries ss.value) :
    sw.decode (sm.encode casts) = ss.sig.physToRaw ss.value := by
  have hss := List.mem_of_getElem? hk
  have hmem := hpres.sig_mem hss
  have hread := SendMessage.read_encode casts (hpres.bitAccess hacc) hk
    (by rw [hpres.dlc_eq]; exact h.within _ hmem)
    fun i hi => h.switch_not_shadowed hpres hk hsw hi
  rw [← hsw, h.decode_eq hpres hacc casts hss, hread, h.raw_eq hpres casts hss]
  simp only [SignalLine.extend, h.unsigned _ hmem]
  apply BitVec.eq_of_toNat_eq
  rw [BitVec.toNat_setWidth, BitVec.toNat_setWidth, Nat.mod_eq_of_lt hcar.1,
    Nat.mod_eq_of_lt (BitVec.isLt _)]

/-- The decoder reports a signal's own value exactly when its bits survive the later writes. -/
theorem phys_eq_iff (h : msg.Multiplexed sw) (hpres : sm.Presents msg)
    (hacc : ∀ sig ∈ msg.signals, sig.BitAccess) (hlin : ∀ sig ∈ msg.signals, sig.LinearPhys)
    (casts : BitCasts) {k : Nat} {ss : SendSignal} (hk : sm.signals[k]? = some ss)
    (hcar : ss.sig.Carries ss.value) :
    DbcPppWrapper.phys casts ss.sig (ss.sig.decode (sm.encode casts)) = ss.value ↔
      ss.sig.factor = 0 ∨ ∀ i < ss.sig.bitSize, i < 64 → sm.KeepsBit casts k i := by
  have hss := List.mem_of_getElem? hk
  have hmem := hpres.sig_mem hss
  rw [h.decode_eq hpres hacc casts hss]
  refine (hcar.phys_eq_iff casts (h.unsigned _ hmem) (h.integer _ hmem) (hlin _ hmem) _).trans ?_
  refine or_congr Iff.rfl (forall_congr' fun i => forall_congr' fun hi => forall_congr' fun _ => ?_)
  have hbit := SendMessage.getBit_encode_eq_iff casts (hpres.bitAccess hacc) hk hi
    (by rw [hpres.dlc_eq]; exact h.within _ hmem i hi)
  rw [h.raw_eq hpres casts hss] at hbit
  rw [← hbit]
  exact Eq.congr (Field.getLsbD_read _ _ hi) rfl

end IMessage.Multiplexed

/-- **When a multiplexed message round-trips.** Give every signal a value its bits can carry. The
frame with `encode`'s payload is decoded to exactly the switch, the plain signals and the group
that the switch value selects, each with its own value, if and only if every bit of these signals
that a later signal (in start-bit order) is written over has the same value there. -/
theorem decode_encode_mux_iff (casts : BitCasts) (network : INetwork) (id : BitVec 32)
    (msg : IMessage) (sw : ISignal)
    (hfind : (DbcPppWrapper.ofNetwork network).messages (id.setWidth 64) = some msg)
    (hmux : msg.Multiplexed sw) (hacc : ∀ sig ∈ msg.signals, sig.BitAccess)
    (hlin : ∀ sig ∈ msg.signals, sig.LinearPhys)
    (model : SendModel) (idx : Nat) (sm : SendMessage)
    (hidx : model.messages[idx]? = some sm) (hpres : sm.Presents msg)
    (val : ISignal → ℚ) (hval : ∀ ss ∈ sm.signals, ss.value = val ss.sig)
    (hcar : ∀ sig ∈ msg.signals, sig.Carries (val sig))
    (frame : CanFrame) (hid : frame.header.id = id) (hfresh : frame.decoded = [])
    (hpayload : model.encode casts idx = some frame.payload) :
    ((DbcPppWrapper.ofNetwork network).decode casts frame).decoded =
        (msg.signals.filter (ISignal.selected (sw.physToRaw (val sw)))).map (fun sig =>
          { name := sig.name, value := val sig, unit := sig.unit,
            minVal := sig.minimum, maxVal := DbcPppWrapper.yMax sig }) ↔
      ∀ k ss, sm.signals[k]? = some ss → ss.sig.selected (sw.physToRaw (val sw)) = true →
        ss.sig.factor = 0 ∨ ∀ i < ss.sig.bitSize, i < 64 → sm.KeepsBit casts k i := by
  subst hid
  have hpl : sm.encode casts = frame.payload := by
    simpa [SendModel.encode, hidx] using hpayload
  have hcarries : ∀ ss ∈ sm.signals, ss.sig.Carries ss.value := by
    intro ss hss
    rw [hval ss hss]
    exact hcar _ (hpres.sig_mem hss)
  have hlen : frame.payload.length = msg.messageSize := by
    rw [← hpl, SendMessage.length_encode (hpres.bitAccess hacc), hpres.dlc_eq]
  have hswitch : sw.decode frame.payload = sw.physToRaw (val sw) := by
    obtain ⟨ss, hss, hsw⟩ := hpres.exists_sendSignal hmux.mem
    obtain ⟨k, hk⟩ := List.mem_iff_getElem?.mp hss
    rw [← hpl, hmux.decode_switch hpres hacc casts hk hsw (hcarries ss hss), hval ss hss, hsw]
  have hfilter : (msg.signals.filter fun sig =>
      !DbcPppWrapper.skipped msg.muxSignal frame.payload sig) =
      msg.signals.filter (ISignal.selected (sw.physToRaw (val sw))) := by
    apply List.filter_congr
    intro sig _
    rw [hmux.muxSignal, DbcPppWrapper.not_skipped, hswitch]
  rw [DbcPppWrapper.decoded_decode casts hfind (le_of_eq hlen.symm), hfresh, List.nil_append,
    hfilter, List.map_inj_left]
  -- entry by entry: the reported value is the signal's own
  have hentry : ∀ sig, DbcPppWrapper.decodedSignal casts frame.payload sig =
      { name := sig.name, value := val sig, unit := sig.unit,
        minVal := sig.minimum, maxVal := DbcPppWrapper.yMax sig } ↔
      DbcPppWrapper.phys casts sig (sig.decode frame.payload) = val sig := by
    intro sig
    simp [DbcPppWrapper.decodedSignal]
  constructor
  · intro hall k ss hk hsel
    have hss := List.mem_of_getElem? hk
    have hphys := (hentry _).mp (hall ss.sig (List.mem_filter.mpr ⟨hpres.sig_mem hss, hsel⟩))
    rw [← hval ss hss, ← hpl] at hphys
    exact (hmux.phys_eq_iff hpres hacc hlin casts hk (hcarries ss hss)).mp hphys
  · intro hkeep sig hsig
    obtain ⟨hmem, hsel⟩ := List.mem_filter.mp hsig
    obtain ⟨ss, hss, rfl⟩ := hpres.exists_sendSignal hmem
    obtain ⟨k, hk⟩ := List.mem_iff_getElem?.mp hss
    rw [hentry, ← hval ss hss, ← hpl]
    exact (hmux.phys_eq_iff hpres hacc hlin casts hk (hcarries ss hss)).mpr (hkeep k ss hk hsel)

/-! A drive that reports its speed or its torque. The two groups share seven bits. -/

namespace DriveState

def Mode : ISignal := ISignal.ofLine
  { name := "Mode", multiplexerIndicator := .MuxSwitch, startBit := 0, bitSize := 8,
    valueType := .Unsigned, minimum := 0, maximum := 255 }

def Speed : ISignal := ISignal.ofLine
  { name := "Speed", multiplexerIndicator := .MuxValue, multiplexerSwitchValue := 0,
    startBit := 8, bitSize := 8, valueType := .Unsigned, minimum := 0, maximum := 255 }

def Torque : ISignal := ISignal.ofLine
  { name := "Torque", multiplexerIndicator := .MuxValue, multiplexerSwitchValue := 1,
    startBit := 9, bitSize := 8, valueType := .Unsigned, minimum := 0, maximum := 255 }

def message : IMessage where
  id := 256
  name := "DriveState"
  messageSize := 3
  signals := [Mode, Speed, Torque]
  muxSignal := some Mode

def model (mode : ℚ) : SendModel :=
  ((((SendModel.ofNetwork .insertion ⟨[message]⟩).setValue 0 0 mode).setValue 0 1 255).setValue
    0 2 0)

def frame (payload : Bytes) : CanFrame where
  header := { id := 256, interface := "vcan0", dlc := 3 }
  payload := payload

def val (mode : ℚ) (sig : ISignal) : ℚ :=
  if sig.name = "Mode" then mode else if sig.name = "Speed" then 255 else 0

theorem multiplexed : message.Multiplexed Mode where
  muxSignal := rfl
  mem := List.mem_cons_self
  isSwitch := rfl
  unsigned := by decide
  integer := by decide
  disjoint := by decide +kernel
  within := by decide +kernel

theorem ofLine {sig : ISignal} (h : sig ∈ message.signals) : ∃ s, sig = ISignal.ofLine s := by
  simp only [message, List.mem_cons, List.not_mem_nil, or_false] at h
  rcases h with rfl | rfl | rfl <;> exact ⟨_, rfl⟩

theorem model_from (mode : ℚ) : SendModel.From .insertion ⟨[message]⟩ (model mode) :=
  .setValue 0 2 0 (.setValue 0 1 255 (.setValue 0 0 mode .new))

instance (sig : ISignal) (v : ℚ) : Decidable (sig.Carries v) :=
  inferInstanceAs (Decidable (_ ∧ _))

/-- In mode 1 the torque, which is written last, is reported. -/
theorem decode_encode_torque :
    ((DbcPppWrapper.ofNetwork ⟨[message]⟩).decode BitCasts.zero (frame [1, 1, 0])).decoded =
      (message.signals.filter (ISignal.selected (Mode.physToRaw (val 1 Mode)))).map fun sig =>
        { name := sig.name, value := val 1 sig, unit := sig.unit,
          minVal := sig.minimum, maxVal := DbcPppWrapper.yMax sig } := by
  obtain ⟨msg, hmsg, hpres⟩ := (model_from 1).presents List.mem_cons_self
  obtain rfl := List.mem_singleton.mp hmsg
  refine (decode_encode_mux_iff BitCasts.zero ⟨[message]⟩ 256 message Mode rfl
    multiplexed ?_ ?_ (model 1) 0 _ rfl hpres (val 1) (by decide +kernel)
    (by decide +kernel) (frame [1, 1, 0]) rfl rfl (by decide +kernel)).mpr ?_
  · intro sig h
    obtain ⟨s, rfl⟩ := ofLine h
    exact ISignal.ofLine_bitAccess s
  · intro sig h
    obtain ⟨s, rfl⟩ := ofLine h
    exact ISignal.ofLine_linearPhys s
  · intro k ss hk hsel
    match k, hk with
    | 0, hk =>
      right
      intro i hi _
      refine SendMessage.keepsBit_of_not_shadowed _ hk ?_
      obtain rfl := Option.some.inj hk
      revert i
      decide +kernel
    | 1, hk =>
      obtain rfl := Option.some.inj hk
      exact absurd hsel (by decide +kernel)
    | 2, hk =>
      right
      intro i hi _
      refine SendMessage.keepsBit_of_not_shadowed _ hk ?_
      obtain rfl := Option.some.inj hk
      revert i
      decide +kernel
    | k + 3, hk => cases show (none : Option SendSignal) = some ss from hk

/-- In mode 0 a speed of 255 comes back as 1: the torque 0 is written over its upper bits. -/
theorem decode_encode_speed :
    (model 0).encode BitCasts.zero 0 = some [0, 1, 0] ∧
    ((DbcPppWrapper.ofNetwork ⟨[message]⟩).decode BitCasts.zero (frame [0, 1, 0])).decoded.map
      (fun s => (s.name, s.value)) = [("Mode", 0), ("Speed", 1)] ∧
    (∀ sig ∈ message.signals, sig.Carries (val 0 sig)) ∧ val 0 Speed = 255 := by
  decide +kernel

end DriveState

end Caneo
