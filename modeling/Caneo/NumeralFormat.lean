import Caneo.Numerals
import Mathlib.Algebra.Order.Floor.Ring
import Mathlib.Data.Int.Log
import Mathlib.Data.List.DropRight
import Mathlib.Data.Rat.Floor
import Mathlib.Tactic.Linarith
import Mathlib.Tactic.Positivity
import Mathlib.Tactic.Ring

/-!
# Numbers with a given number of digits

`formatG` is `{:.pg}`, which rounds a number to `p` significant digits and writes them as a numeral,
with an exponent where that is shorter. Read back, an integer is the same if and only if `p` digits
and zeros behind them make it (`stod_formatG_iff`).
-/

namespace Numerals

/-! ### Rounding -/

/-- To the nearest integer, and to the even one of two. -/
def roundHalfEven (q : ℚ) : Int :=
  if q - ⌊q⌋ < 1 / 2 then ⌊q⌋
  else if 1 / 2 < q - ⌊q⌋ then ⌊q⌋ + 1
  else if ⌊q⌋ % 2 = 0 then ⌊q⌋ else ⌊q⌋ + 1

theorem roundHalfEven_bounds (q : ℚ) : ⌊q⌋ ≤ roundHalfEven q ∧ roundHalfEven q ≤ ⌊q⌋ + 1 := by
  unfold roundHalfEven
  repeat' split
  all_goals omega

theorem roundHalfEven_intCast (z : ℤ) : roundHalfEven z = z := by
  simp [roundHalfEven]

/-! ### Significant digits -/

/-- What one in the last of `p` digits of a number stands for. -/
def lastDigit (p : Nat) (q : ℚ) : ℚ := 10 ^ (Int.log 10 q - (p - 1 : Int))

/-- The first `p` digits of a positive number, rounded, and the exponent of the first of them. -/
def significand (p : Nat) (q : ℚ) : Nat × Int :=
  let m := (roundHalfEven (q / lastDigit p q)).toNat
  let x := Int.log 10 q
  if m = 10 ^ p then (10 ^ (p - 1), x + 1) else (m, x)

section Significand

variable {p : Nat} {q : ℚ}

theorem lastDigit_pos (p : Nat) (q : ℚ) : 0 < lastDigit p q := zpow_pos (by norm_num) _

/-- There are `p` digits. -/
theorem digits_bounds (hp : 0 < p) (hq : 0 < q) :
    10 ^ (p - 1) ≤ ⌊q / lastDigit p q⌋ ∧ ⌊q / lastDigit p q⌋ < 10 ^ p := by
  have hten : (10 : ℚ) ≠ 0 := by norm_num
  have hlow : (10 : ℚ) ^ (p - 1) * lastDigit p q = 10 ^ Int.log 10 q := by
    rw [lastDigit, ← zpow_natCast, ← zpow_add₀ hten]
    congr 1
    omega
  have hhigh : (10 : ℚ) ^ p * lastDigit p q = 10 ^ (Int.log 10 q + 1) := by
    rw [lastDigit, ← zpow_natCast, ← zpow_add₀ hten]
    congr 1
    omega
  constructor
  · rw [Int.le_floor]
    push_cast
    rw [le_div_iff₀ (lastDigit_pos p q), hlow]
    exact_mod_cast Int.zpow_log_le_self (by norm_num) hq
  · rw [Int.floor_lt]
    push_cast
    rw [div_lt_iff₀ (lastDigit_pos p q), hhigh]
    exact_mod_cast Int.lt_zpow_succ_log_self (by norm_num) q

theorem rounded_bounds (hp : 0 < p) (hq : 0 < q) :
    10 ^ (p - 1) ≤ roundHalfEven (q / lastDigit p q) ∧ roundHalfEven (q / lastDigit p q) ≤ 10 ^ p := by
  obtain ⟨hlow, hhigh⟩ := digits_bounds hp hq
  obtain ⟨hfloor, hceil⟩ := roundHalfEven_bounds (q / lastDigit p q)
  exact ⟨hlow.trans hfloor, by omega⟩

theorem significand_bounds (hp : 0 < p) (hq : 0 < q) :
    10 ^ (p - 1) ≤ (significand p q).1 ∧ (significand p q).1 < 10 ^ p := by
  obtain ⟨hlow, hhigh⟩ := rounded_bounds hp hq
  have hlow' : 10 ^ (p - 1) ≤ (roundHalfEven (q / lastDigit p q)).toNat := by
    zify
    rwa [Int.toNat_of_nonneg ((by positivity : (0 : ℤ) ≤ 10 ^ (p - 1)).trans hlow)]
  have hhigh' : (roundHalfEven (q / lastDigit p q)).toNat ≤ 10 ^ p := by
    rw [Int.toNat_le]
    exact_mod_cast hhigh
  unfold significand
  dsimp only
  split
  · exact ⟨le_refl _, Nat.pow_lt_pow_right (by norm_num) (Nat.sub_lt hp Nat.one_pos)⟩
  · next hne => exact ⟨hlow', lt_of_le_of_ne hhigh' hne⟩

/-- The digits stand for the rounded number. -/
theorem value_significand (hp : 0 < p) (hq : 0 < q) :
    ((significand p q).1 : ℚ) * 10 ^ ((significand p q).2 - (p - 1 : Int)) =
      roundHalfEven (q / lastDigit p q) * lastDigit p q := by
  have hten : (10 : ℚ) ≠ 0 := by norm_num
  have hnat : ((roundHalfEven (q / lastDigit p q)).toNat : ℚ) =
      roundHalfEven (q / lastDigit p q) := by
    have hpos : (0 : ℤ) ≤ roundHalfEven (q / lastDigit p q) :=
      (by positivity : (0 : ℤ) ≤ 10 ^ (p - 1)).trans (rounded_bounds hp hq).1
    exact_mod_cast Int.toNat_of_nonneg hpos
  rw [← hnat]
  unfold significand
  dsimp only
  split
  · next hbump =>
    -- the first digit is one, and has moved
    rw [hbump, lastDigit]
    push_cast
    rw [← zpow_natCast, ← zpow_natCast, ← zpow_add₀ hten, ← zpow_add₀ hten]
    congr 1
    omega
  · rfl

end Significand

/-! ### Writing -/

namespace Exponent

/-- An exponent is written with two digits at least. -/
def ofInt (x : Int) : Exponent :=
  let ds := Nat.toDigits 10 x.natAbs
  { letter := 'e'
    sign := if x < 0 then .minus else .plus
    digits := if ds.length < 2 then '0' :: ds else ds
    isLetter := Or.inl rfl
    isDigits := by
      have hds : ds.all Char.isDigit = true := by
        rw [List.all_eq_true]
        exact fun c hc => Nat.isDigit_of_mem_toDigits (by decide) (by decide) hc
      split
      · rw [List.all_cons, hds]
        rfl
      · exact hds
    nonempty := by
      split
      · simp
      · exact Nat.toDigits_ne_nil }

theorem value_ofInt (x : Int) : (ofInt x).value = x := by
  have hdigits : Nat.ofDigitChars 10 (ofInt x).digits 0 = x.natAbs := by
    simp only [ofInt]
    split
    · simp [Nat.ofDigitChars_cons]
    · simp
  rw [value, hdigits]
  by_cases hneg : x < 0
  · have hsign : (ofInt x).sign = .minus := if_pos hneg
    rw [hsign, Sign.factor]
    omega
  · have hsign : (ofInt x).sign = .plus := if_neg hneg
    rw [hsign, Sign.factor]
    omega

end Exponent

namespace Numeral

/-- Trailing zeros behind the point are not written, nor a point without digits. -/
def ofDigits (sign : Sign) (whole fraction : List Char) (exponent : Option Exponent)
    (hwhole : whole.all Char.isDigit = true) (hfraction : fraction.all Char.isDigit = true)
    (hne : whole ≠ []) : Numeral :=
  let ds := fraction.rdropWhile (· = '0')
  { sign := sign
    whole := whole
    fraction := if ds = [] then none else some ds
    exponent := exponent
    isWhole := hwhole
    isFraction := by
      split
      · rfl
      · rw [List.all_eq_true] at hfraction ⊢
        exact fun c hc => hfraction c ((List.rdropWhile_prefix _ _).subset hc)
    nonempty := by simp [hne] }

theorem value_ofDigits (sign : Sign) (whole fraction : List Char) (exponent : Option Exponent)
    (hwhole : whole.all Char.isDigit = true) (hfraction : fraction.all Char.isDigit = true)
    (hne : whole ≠ []) :
    (ofDigits sign whole fraction exponent hwhole hfraction hne).value =
      sign.factor * Nat.ofDigitChars 10 (whole ++ fraction) 0 *
        10 ^ (exponent.elim 0 Exponent.value - fraction.length : Int) := by
  have hsplit := List.rdropWhile_append_rtakeWhile (p := (· = '0')) (l := fraction)
  have hzeros : fraction.rtakeWhile (· = '0') =
      List.replicate (fraction.rtakeWhile (· = '0')).length '0' := by
    rw [List.eq_replicate_iff]
    exact ⟨rfl, fun c hc => by simpa using List.mem_rtakeWhile_imp hc⟩
  generalize hds : fraction.rdropWhile (· = '0') = ds at hsplit
  generalize (fraction.rtakeWhile (· = '0')).length = k at hzeros
  rw [hzeros] at hsplit
  have hfrac : (ofDigits sign whole fraction exponent hwhole hfraction hne).fraction.getD [] = ds := by
    simp only [ofDigits, hds]
    split
    · next hnil => exact hnil.symm
    · rfl
  have hvalue : (ofDigits sign whole fraction exponent hwhole hfraction hne).value =
      sign.factor * Nat.ofDigitChars 10 (whole ++ ds) 0 *
        10 ^ (exponent.elim 0 Exponent.value - ds.length : Int) := by
    rw [value, hfrac]
    rfl
  have hpadded : Nat.ofDigitChars 10 (whole ++ (ds ++ List.replicate k '0')) 0 =
      10 ^ k * Nat.ofDigitChars 10 (whole ++ ds) 0 := by
    rw [← List.append_assoc, Nat.ofDigitChars_append, Nat.ofDigitChars_replicate_zero]
  rw [hvalue, ← hsplit, hpadded, List.length_append, List.length_replicate]
  have hexponent : (exponent.elim 0 Exponent.value - ds.length : Int) =
      (exponent.elim 0 Exponent.value - (ds.length + k : Nat) : Int) + k := by
    push_cast
    ring
  have hten : (10 : ℚ) ≠ 0 := by norm_num
  rw [hexponent, zpow_add₀ hten, zpow_natCast]
  push_cast
  ring

/-- `{:.pg}`: without an exponent where it is at least -4 and less than the precision. -/
def general (p : Nat) (q : ℚ) : Numeral :=
  if q = 0 then ⟨.none, ['0'], none, none, by decide, by decide, by decide⟩
  else
    let sign := if q < 0 then Sign.minus else .none
    let m := (significand p |q|).1
    let x := (significand p |q|).2
    let ds := Nat.toDigits 10 m
    have hds : ds.all Char.isDigit = true := by
      rw [List.all_eq_true]
      exact fun c hc => Nat.isDigit_of_mem_toDigits (by decide) (by decide) hc
    have hsome : ∀ k, ds.take (k + 1) ≠ [] := fun k h =>
      Nat.toDigits_ne_nil ((List.take_eq_nil_iff.mp h).resolve_left (Nat.succ_ne_zero k))
    have htake : ∀ k, (ds.take k).all Char.isDigit = true := fun k => by
      rw [List.all_eq_true] at hds ⊢
      exact fun c hc => hds c (List.take_subset k ds hc)
    have hdrop : ∀ k, (ds.drop k).all Char.isDigit = true := fun k => by
      rw [List.all_eq_true] at hds ⊢
      exact fun c hc => hds c (List.drop_subset k ds hc)
    if -4 ≤ x ∧ x < p then
      if 0 ≤ x then
        ofDigits sign (ds.take (x.toNat + 1)) (ds.drop (x.toNat + 1)) none (htake _) (hdrop _)
          (hsome _)
      else
        ofDigits sign ['0'] (List.replicate (-x - 1).toNat '0' ++ ds) none (by decide)
          (by simp [hds]) (by decide)
    else
      ofDigits sign (ds.take 1) (ds.drop 1) (some (.ofInt x)) (htake _) (hdrop _) (hsome 0)

end Numeral

/-- `std::format("{:.pg}", q)` -/
def formatG (p : Nat) (q : ℚ) : String := String.ofList (Numeral.general p q).text

/-! ### Reading what was written -/

section General

variable {p : Nat} {q : ℚ}

theorem length_toDigits_significand (hp : 0 < p) (hq : 0 < q) :
    (Nat.toDigits 10 (significand p q).1).length = p := by
  obtain ⟨hlow, hhigh⟩ := significand_bounds hp hq
  apply le_antisymm ((Nat.length_toDigits_le_iff (by decide) hp).mpr hhigh)
  by_contra hshort
  have hpos : 0 < (Nat.toDigits 10 (significand p q).1).length := Nat.length_toDigits_pos
  have hlt := (Nat.length_toDigits_le_iff (b := 10) (n := (significand p q).1) (k := p - 1)
    (by decide) (by omega)).mp (by omega)
  omega

theorem ofDigitChars_zero_cons (ds : List Char) :
    Nat.ofDigitChars 10 ('0' :: ds) 0 = Nat.ofDigitChars 10 ds 0 := by
  simp [Nat.ofDigitChars_cons]

/-- All digits are written, wherever the point stands. -/
theorem value_split {m : Nat} (hlength : (Nat.toDigits 10 m).length = p) (sign : Sign) (k : Nat)
    (exponent : Option Exponent)
    (hwhole : ((Nat.toDigits 10 m).take k).all Char.isDigit = true)
    (hfraction : ((Nat.toDigits 10 m).drop k).all Char.isDigit = true)
    (hne : (Nat.toDigits 10 m).take k ≠ []) :
    (Numeral.ofDigits sign ((Nat.toDigits 10 m).take k) ((Nat.toDigits 10 m).drop k) exponent hwhole
      hfraction hne).value =
      sign.factor * m * 10 ^ (exponent.elim 0 Exponent.value - (p - k : Nat) : Int) := by
  rw [Numeral.value_ofDigits, List.take_append_drop, Nat.ofDigitChars_ten_toDigits,
    List.length_drop, hlength]

/-- The numeral is that of the rounded number. -/
theorem value_general (hp : 0 < p) (hq : q ≠ 0) :
    (Numeral.general p q).value = (if q < 0 then -1 else 1) *
      (roundHalfEven (|q| / lastDigit p |q|) * lastDigit p |q|) := by
  have hpos : 0 < |q| := abs_pos.mpr hq
  have hlength := length_toDigits_significand hp hpos
  have hsign : (((if q < 0 then Sign.minus else .none).factor : ℤ) : ℚ) =
      if q < 0 then -1 else 1 := by
    split <;> simp [Sign.factor]
  rw [← value_significand hp hpos, ← mul_assoc]
  unfold Numeral.general
  split
  · next hzero => exact absurd hzero hq
  · dsimp only
    split
    · split
      · next hx hnonneg =>
        rw [value_split hlength, hsign]
        congr 2
        simp only [Option.elim_none]
        omega
      · rw [Numeral.value_ofDigits, hsign, List.singleton_append, ofDigitChars_zero_cons,
          Nat.ofDigitChars_append, Nat.ofDigitChars_replicate_zero, Nat.mul_zero,
          Nat.ofDigitChars_ten_toDigits, List.length_append, List.length_replicate, hlength]
        congr 2
        simp only [Option.elim_none]
        omega
    · rw [value_split hlength, hsign]
      congr 2
      simp only [Option.elim_some, Exponent.value_ofInt]
      omega

end General

/-! ### Integers -/

/-- The integer is one of at most `p` digits, with zeros behind them. -/
def HasDigits (p : Nat) (v : ℤ) : Prop := ∃ (d : ℤ) (k : ℕ), |d| < 10 ^ p ∧ v = d * 10 ^ k

section Integer

variable {p : Nat} {v : ℤ}

theorem hasDigits_iff_natAbs :
    HasDigits p v ↔ ∃ d k : ℕ, d < 10 ^ p ∧ v.natAbs = d * 10 ^ k := by
  constructor
  · rintro ⟨d, k, hd, rfl⟩
    refine ⟨d.natAbs, k, ?_, by simp [Int.natAbs_mul, Int.natAbs_pow]⟩
    zify
    exact hd
  · rintro ⟨d, k, hd, hv⟩
    refine ⟨v.sign * d, k, ?_, ?_⟩
    · have hsign : |v.sign| ≤ 1 := by
        rcases Int.sign_trichotomy v with h | h | h <;> simp [h]
      rw [abs_mul, Nat.abs_cast]
      have hd : (d : ℤ) < 10 ^ p := by exact_mod_cast hd
      nlinarith [abs_nonneg v.sign, Int.natCast_nonneg d]
    · have hcast : (v.natAbs : ℤ) = d * 10 ^ k := by exact_mod_cast hv
      rw [mul_assoc, ← hcast, Int.sign_mul_natAbs]

theorem hasDigits_of_lt (h : v.natAbs < 10 ^ p) : HasDigits p v :=
  hasDigits_iff_natAbs.mpr ⟨v.natAbs, 0, h, by simp⟩

theorem abs_eq_natAbs (v : ℤ) : |(v : ℚ)| = (v.natAbs : ℚ) := by
  rw [Nat.cast_natAbs, Int.cast_abs]

/-- In a number with enough digits the last one stands for a power of ten. -/
theorem lastDigit_eq_pow (hp : 0 < p) {a : ℕ} (ha : 10 ^ p ≤ a) :
    ∃ n : ℕ, lastDigit p a = 10 ^ n ∧ 10 ^ n ≤ a := by
  have hpos : (0 : ℚ) < a := by
    exact_mod_cast lt_of_lt_of_le (Nat.pow_pos (by norm_num)) ha
  have hlog : (p : ℤ) ≤ Int.log 10 (a : ℚ) := by
    rw [← Int.zpow_le_iff_le_log (by norm_num) hpos, zpow_natCast]
    exact_mod_cast ha
  obtain ⟨n, hn⟩ := Int.eq_ofNat_of_zero_le (a := Int.log 10 (a : ℚ) - (p - 1 : ℤ)) (by omega)
  have hpow : ((10 : ℕ) : ℚ) ^ (n : ℤ) ≤ a := by
    rw [Int.zpow_le_iff_le_log (by norm_num) hpos]
    omega
  refine ⟨n, by rw [lastDigit, hn, zpow_natCast], ?_⟩
  rw [zpow_natCast] at hpow
  exact_mod_cast hpow

/-- With `d` digits in front, what stands before the last of `p` digits is an integer. -/
theorem div_lastDigit {d k : ℕ} (hd : d < 10 ^ p) (hpos : 0 < d * 10 ^ k) :
    ∃ z : ℤ, ((d * 10 ^ k : ℕ) : ℚ) / lastDigit p (d * 10 ^ k : ℕ) = z := by
  have hten : (10 : ℚ) ≠ 0 := by norm_num
  have hpos' : (0 : ℚ) < (d * 10 ^ k : ℕ) := by exact_mod_cast hpos
  have hlt : Int.log 10 ((d * 10 ^ k : ℕ) : ℚ) < (p + k : ℕ) := by
    rw [← Int.lt_zpow_iff_log_lt (by norm_num) hpos', zpow_natCast]
    have hnat : d * 10 ^ k < 10 ^ (p + k) := by
      rw [pow_add]
      exact Nat.mul_lt_mul_of_pos_right hd (Nat.pow_pos (by norm_num))
    exact_mod_cast hnat
  obtain ⟨n, hn⟩ := Int.eq_ofNat_of_zero_le
    (a := k - (Int.log 10 ((d * 10 ^ k : ℕ) : ℚ) - (p - 1 : ℤ))) (by push_cast at hlt ⊢; omega)
  refine ⟨d * 10 ^ n, ?_⟩
  rw [div_eq_iff (lastDigit_pos p _).ne', lastDigit]
  generalize Int.log 10 ((d * 10 ^ k : ℕ) : ℚ) = x at hn
  push_cast
  rw [mul_assoc, ← zpow_natCast, ← zpow_natCast, ← zpow_add₀ hten]
  congr 2
  omega

/-- Rounding to fewer digits than the number has adds less than the number itself. -/
theorem rounded_le (hp : 0 < p) {a : ℕ} (ha : 10 ^ p ≤ a) :
    ∃ m n : ℕ, roundHalfEven ((a : ℚ) / lastDigit p a) = m ∧ lastDigit p a = 10 ^ n ∧
      m * 10 ^ n ≤ 2 * a := by
  obtain ⟨n, hn, hle⟩ := lastDigit_eq_pow hp ha
  have hpos : (0 : ℚ) < a := by exact_mod_cast lt_of_lt_of_le (Nat.pow_pos (by norm_num)) ha
  have hnonneg : 0 ≤ roundHalfEven ((a : ℚ) / lastDigit p a) :=
    (by positivity : (0 : ℤ) ≤ 10 ^ (p - 1)).trans (rounded_bounds hp hpos).1
  obtain ⟨m, hm⟩ := Int.eq_ofNat_of_zero_le hnonneg
  refine ⟨m, n, hm, hn, ?_⟩
  have hceil : (m : ℚ) ≤ a / 10 ^ n + 1 := by
    have hup := (roundHalfEven_bounds ((a : ℚ) / lastDigit p a)).2
    have hfloor := Int.floor_le ((a : ℚ) / lastDigit p a)
    rw [hm, hn] at hup
    rw [hn] at hfloor
    have hup' : (m : ℚ) ≤ ⌊(a : ℚ) / 10 ^ n⌋ + 1 := by exact_mod_cast hup
    linarith
  have hpow : (0 : ℚ) < 10 ^ n := by positivity
  have hle' : (10 : ℚ) ^ n ≤ a := by exact_mod_cast hle
  have hbound : (m : ℚ) * 10 ^ n ≤ 2 * a := by
    calc (m : ℚ) * 10 ^ n
        ≤ (a / 10 ^ n + 1) * 10 ^ n := mul_le_mul_of_nonneg_right hceil hpow.le
      _ = a + 10 ^ n := by rw [add_mul, div_mul_cancel₀ _ hpow.ne', one_mul]
      _ ≤ 2 * a := by linarith
  exact_mod_cast hbound

/-- An integer is written exactly if it has so few digits. -/
theorem value_general_eq_iff (hp : 0 < p) : (Numeral.general p v).value = v ↔ HasDigits p v := by
  by_cases hzero : v = 0
  · subst hzero
    refine iff_of_true ?_ (hasDigits_of_lt (Nat.pow_pos (by norm_num)))
    simp [Numeral.general, Numeral.value, Nat.ofDigitChars_cons]
  · have hne : (v : ℚ) ≠ 0 := Int.cast_ne_zero.mpr hzero
    have hpos : (0 : ℚ) < v.natAbs := abs_eq_natAbs v ▸ abs_pos.mpr hne
    have hround : (Numeral.general p v).value = v ↔
        (roundHalfEven (v.natAbs / lastDigit p v.natAbs) : ℚ) * lastDigit p v.natAbs =
          v.natAbs := by
      rw [value_general hp hne, abs_eq_natAbs, ← abs_eq_natAbs]
      by_cases hneg : (v : ℚ) < 0
      · rw [if_pos hneg, abs_of_neg hneg, neg_one_mul, neg_eq_iff_eq_neg]
      · rw [if_neg hneg, abs_of_nonneg (not_lt.mp hneg), one_mul]
    rw [hround]
    constructor
    · intro hexact
      by_cases hfew : v.natAbs < 10 ^ p
      · exact hasDigits_of_lt hfew
      · obtain ⟨m, n, hm, hn, -⟩ := rounded_le hp (not_lt.mp hfew)
        have hdigits := (eq_div_iff (lastDigit_pos p v.natAbs).ne').mpr hexact
        have hbound := (digits_bounds hp hpos).2
        rw [← hdigits, Int.floor_intCast, hm] at hbound
        have hvalue : ((m * 10 ^ n : ℕ) : ℚ) = v.natAbs := by
          rw [← hexact, hm, hn]
          push_cast
          rfl
        exact hasDigits_iff_natAbs.mpr ⟨m, n, by exact_mod_cast hbound,
          (Nat.cast_injective hvalue).symm⟩
    · rw [hasDigits_iff_natAbs]
      rintro ⟨d, k, hd, hv⟩
      rw [hv] at hpos ⊢
      obtain ⟨z, hz⟩ := div_lastDigit hd (by exact_mod_cast hpos)
      rw [hz, roundHalfEven_intCast, ← hz, div_mul_cancel₀ _ (lastDigit_pos p _).ne']

theorem value_general_int (hp : 0 < p) (v : ℤ) :
    ∃ z : ℤ, (Numeral.general p v).value = z ∧ |z| ≤ 2 * |v| := by
  by_cases hfew : v.natAbs < 10 ^ p
  · refine ⟨v, (value_general_eq_iff hp).mpr (hasDigits_of_lt hfew), ?_⟩
    linarith [abs_nonneg v]
  · obtain ⟨m, n, hm, hn, hbound⟩ := rounded_le hp (not_lt.mp hfew)
    have hne : (v : ℚ) ≠ 0 := by
      rw [Int.cast_ne_zero]
      rintro rfl
      exact hfew (Nat.pow_pos (by norm_num))
    refine ⟨(if (v : ℚ) < 0 then -1 else 1) * (m * 10 ^ n), ?_, ?_⟩
    · rw [value_general hp hne, abs_eq_natAbs, hm, hn]
      push_cast
      rfl
    · have hsign : |(if (v : ℚ) < 0 then -1 else 1 : ℤ)| = 1 := by split <;> simp
      rw [abs_mul, hsign, one_mul, abs_of_nonneg (by positivity), Int.abs_eq_natAbs]
      exact_mod_cast hbound

/-- What is read back is an integer too, and the same one if it has so few digits. -/
theorem stod_formatG (r : Rounding) (hp : 0 < p) (hv : |v| ≤ 2 ^ 52) :
    ∃ w : ℚ, stod r (formatG p v) = some w ∧ (w = v ↔ HasDigits p v) := by
  obtain ⟨z, hz, hbound⟩ := value_general_int hp v
  refine ⟨z, ?_, ?_⟩
  · rw [stod_of_text r (n := Numeral.general p v) (by simp [formatG]), hz]
    exact r.exact z (by linarith)
  · rw [← hz]
    exact value_general_eq_iff hp

end Integer

end Numerals
