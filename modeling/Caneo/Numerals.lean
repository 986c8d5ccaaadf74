import Mathlib.Algebra.Field.Rat
import Mathlib.Algebra.Order.Group.Unbundled.Int
import Mathlib.Data.Rat.Cast.Defs
import Mathlib.Data.Rat.Lemmas

/-!
# Decimal numerals

A `Numeral` is what the C library reads as a number: a sign, digits with at most one point, and an
exponent. `read` takes the numeral in front of a text and leaves the rest, `stod` and `stol` are the
conversions of the standard library on top of it; they ignore the rest. Infinities and hexadecimal
numerals are left out.
-/

namespace Numerals

/-! ### Numerals -/

inductive Sign where
  | none
  | plus
  | minus
deriving DecidableEq

namespace Sign

def text : Sign → List Char
  | none => []
  | plus => ['+']
  | minus => ['-']

def factor : Sign → Int
  | none | plus => 1
  | minus => -1

end Sign

structure Exponent where
  letter : Char
  sign : Sign
  digits : List Char
  isLetter : letter = 'e' ∨ letter = 'E'
  isDigits : digits.all Char.isDigit = true
  nonempty : digits ≠ []
deriving DecidableEq

/-- `fraction` is what stands behind the point, if there is a point. -/
structure Numeral where
  sign : Sign
  whole : List Char
  fraction : Option (List Char)
  exponent : Option Exponent
  isWhole : whole.all Char.isDigit = true
  isFraction : (fraction.getD []).all Char.isDigit = true
  nonempty : whole ++ fraction.getD [] ≠ []
deriving DecidableEq

namespace Exponent

def text (e : Exponent) : List Char := e.letter :: (e.sign.text ++ e.digits)

def value (e : Exponent) : Int := e.sign.factor * Nat.ofDigitChars 10 e.digits 0

end Exponent

namespace Numeral

def text (n : Numeral) : List Char :=
  n.sign.text ++ (n.whole ++ (n.fraction.elim [] (fun ds => '.' :: ds) ++
    n.exponent.elim [] Exponent.text))

def value (n : Numeral) : ℚ :=
  n.sign.factor * Nat.ofDigitChars 10 (n.whole ++ n.fraction.getD []) 0 *
    10 ^ (n.exponent.elim 0 Exponent.value - (n.fraction.getD []).length : Int)

end Numeral

/-! ### Reading -/

def readSign : List Char → Sign × List Char
  | '+' :: l => (.plus, l)
  | '-' :: l => (.minus, l)
  | l => (.none, l)

def readFraction : List Char → Option (List Char) × List Char
  | '.' :: l => (some (l.takeWhile Char.isDigit), l.dropWhile Char.isDigit)
  | l => (none, l)

/-- There is no exponent where no digits follow. -/
def readExponent : List Char → Option (Exponent × List Char)
  | [] => none
  | c :: l =>
    let p := readSign l
    if h : (c = 'e' ∨ c = 'E') ∧ p.2.takeWhile Char.isDigit ≠ [] then
      some (⟨c, p.1, p.2.takeWhile Char.isDigit, h.1, List.all_takeWhile, h.2⟩,
        p.2.dropWhile Char.isDigit)
    else none

theorem isDigit_readFraction (l : List Char) :
    ((readFraction l).1.getD []).all Char.isDigit = true := by
  unfold readFraction
  split
  · exact List.all_takeWhile
  · rfl

/-- The numeral in front of a text, and what follows it. -/
def read (l : List Char) : Option (Numeral × List Char) :=
  let signed := readSign l
  let whole := signed.2.takeWhile Char.isDigit
  let pointed := readFraction (signed.2.dropWhile Char.isDigit)
  if h : whole ++ pointed.1.getD [] ≠ [] then
    match readExponent pointed.2 with
    | some (e, rest) =>
      some (⟨signed.1, whole, pointed.1, some e, List.all_takeWhile, isDigit_readFraction _, h⟩, rest)
    | none =>
      some (⟨signed.1, whole, pointed.1, none, List.all_takeWhile, isDigit_readFraction _, h⟩,
        pointed.2)
  else none

/-! What is read is in front of the text. -/

theorem text_readSign (l : List Char) : (readSign l).1.text ++ (readSign l).2 = l := by
  unfold readSign
  split <;> rfl

theorem text_readFraction (l : List Char) :
    (readFraction l).1.elim [] (fun ds => '.' :: ds) ++ (readFraction l).2 = l := by
  unfold readFraction
  split
  · simp [List.takeWhile_append_dropWhile]
  · rfl

theorem text_readExponent {l rest : List Char} {e : Exponent}
    (h : readExponent l = some (e, rest)) : e.text ++ rest = l := by
  unfold readExponent at h
  split at h
  · cases h
  · next c l =>
    dsimp only at h
    split at h
    · cases h
      have hsign := text_readSign l
      rw [← List.takeWhile_append_dropWhile (p := Char.isDigit) (l := (readSign l).2)] at hsign
      simpa [Exponent.text] using hsign
    · cases h

theorem text_of_read {l rest : List Char} {n : Numeral} (h : read l = some (n, rest)) :
    n.text ++ rest = l := by
  have hsign := text_readSign l
  rw [← List.takeWhile_append_dropWhile (p := Char.isDigit) (l := (readSign l).2),
    ← text_readFraction ((readSign l).2.dropWhile Char.isDigit)] at hsign
  unfold read at h
  dsimp only at h
  split at h
  · split at h
    · next e rest' hexp =>
      rw [← text_readExponent hexp] at hsign
      cases h
      simpa [Numeral.text] using hsign
    · cases h
      simpa [Numeral.text] using hsign
  · cases h

/-! A numeral is read as a whole. -/

/-- The text does not go on with a digit. -/
def EndsDigits (l : List Char) : Prop := ∀ c ∈ l.head?, c.isDigit = false

theorem takeWhile_digits {ds l : List Char} (hds : ds.all Char.isDigit = true) (hl : EndsDigits l) :
    (ds ++ l).takeWhile Char.isDigit = ds ∧ (ds ++ l).dropWhile Char.isDigit = l := by
  have hall : ∀ c ∈ ds, c.isDigit = true := List.all_eq_true.mp hds
  rw [List.takeWhile_append_of_pos hall, List.dropWhile_append_of_pos hall]
  rcases l with _ | ⟨c, l⟩
  · simp
  · have hc : c.isDigit = false := hl c rfl
    simp [hc]

theorem readSign_text (s : Sign) {l : List Char} (hl : ∀ c ∈ l.head?, c ≠ '+' ∧ c ≠ '-') :
    readSign (s.text ++ l) = (s, l) := by
  rcases s
  · rcases l with _ | ⟨c, l⟩
    · rfl
    · obtain ⟨hplus, hminus⟩ := hl c rfl
      simp [Sign.text, readSign, hplus, hminus]
  · rfl
  · rfl

theorem ne_sign_of_isDigit {c : Char} (h : c.isDigit = true) : c ≠ '+' ∧ c ≠ '-' := by
  constructor
  · rintro rfl
    exact absurd h (by decide)
  · rintro rfl
    exact absurd h (by decide)

theorem head?_digits {ds : List Char} (hds : ds.all Char.isDigit = true) (l : List Char)
    (hne : ds ≠ []) : ∀ c ∈ (ds ++ l).head?, c.isDigit = true := by
  obtain ⟨d, ds, rfl⟩ := List.exists_cons_of_ne_nil hne
  rintro c ⟨⟩
  exact List.all_eq_true.mp hds d List.mem_cons_self

theorem readExponent_text (e : Exponent) : readExponent e.text = some (e, []) := by
  have hsign : readSign (e.sign.text ++ e.digits) = (e.sign, e.digits) := by
    refine readSign_text e.sign fun c hc => ne_sign_of_isDigit ?_
    exact head?_digits e.isDigits [] e.nonempty c (by simpa using hc)
  have htake := takeWhile_digits (l := []) e.isDigits (by simp [EndsDigits])
  rw [List.append_nil] at htake
  rw [Exponent.text, readExponent]
  simp only [hsign, htake.1, htake.2]
  rw [dif_pos ⟨e.isLetter, e.nonempty⟩]

theorem endsDigits_exponent (exponent : Option Exponent) :
    EndsDigits (exponent.elim [] Exponent.text) := by
  rcases exponent with _ | e
  · simp [EndsDigits]
  · rintro c ⟨⟩
    rcases e.isLetter with h | h <;> simp [h]

theorem readFraction_text {fraction : Option (List Char)}
    (hds : (fraction.getD []).all Char.isDigit = true) (exponent : Option Exponent) :
    readFraction (fraction.elim [] (fun ds => '.' :: ds) ++ exponent.elim [] Exponent.text) =
      (fraction, exponent.elim [] Exponent.text) := by
  rcases fraction with _ | ds
  · rcases exponent with _ | e
    · rfl
    · rcases e.isLetter with h | h <;> simp [Exponent.text, readFraction, h]
  · have htake := takeWhile_digits hds (endsDigits_exponent exponent)
    simp only [Option.getD_some] at htake
    simp [readFraction, htake.1, htake.2]

theorem read_text (n : Numeral) : read n.text = some (n, []) := by
  obtain ⟨sign, whole, fraction, exponent, hwhole, hfraction, hne⟩ := n
  have hends : EndsDigits (fraction.elim [] (fun ds => '.' :: ds) ++
      exponent.elim [] Exponent.text) := by
    rcases fraction with _ | ds
    · exact endsDigits_exponent exponent
    · rintro c ⟨⟩
      decide
  have hsign := readSign_text sign (l := whole ++ (fraction.elim [] (fun ds => '.' :: ds) ++
      exponent.elim [] Exponent.text)) (by
    intro c hc
    rcases hempty : whole with _ | ⟨d, ds⟩
    · -- without digits in front there is a point
      rcases fraction with _ | ds
      · simp [hempty] at hne
      · rw [hempty] at hc
        cases hc
        decide
    · exact ne_sign_of_isDigit (head?_digits hwhole _ (by simp [hempty]) c hc))
  have htake := takeWhile_digits hwhole hends
  have hread := readFraction_text hfraction exponent
  unfold read Numeral.text
  simp only [hsign, htake.1, htake.2, hread]
  rw [dif_pos hne]
  rcases exponent with _ | e
  · rfl
  · simp only [Option.elim_some, readExponent_text e]

theorem read_eq_iff {l : List Char} {n : Numeral} : read l = some (n, []) ↔ n.text = l := by
  constructor
  · intro h
    simpa using text_of_read h
  · rintro rfl
    exact read_text n

/-! ### The conversions of the standard library -/

/-- Rounding to a floating point format with 53 bits; there is no result out of its range. -/
structure Rounding where
  nearest : ℚ → Option ℚ
  exact : ∀ n : ℤ, |n| ≤ 2 ^ 53 → nearest n = some n

/-- A format that has all numbers. -/
def Rounding.unlimited : Rounding := ⟨some, fun _ _ => rfl⟩

/-- `std::isspace` -/
def isSpace (c : Char) : Bool := c = ' ' || (9 ≤ c.toNat && c.toNat ≤ 13)

/-- `std::stod` -/
def stod (r : Rounding) (text : String) : Option ℚ :=
  (read (text.toList.dropWhile isSpace)).bind fun p => r.nearest p.1.value

/-- `std::stol`, for 64 bits -/
def stol (text : String) : Option Int :=
  let signed := readSign (text.toList.dropWhile isSpace)
  let ds := signed.2.takeWhile Char.isDigit
  let v := signed.1.factor * Nat.ofDigitChars 10 ds 0
  if ds ≠ [] ∧ -2 ^ 63 ≤ v ∧ v < 2 ^ 63 then some v else none

theorem not_isSpace_of_isDigit {c : Char} (h : c.isDigit = true) : isSpace c = false := by
  simp only [Char.isDigit, Bool.and_eq_true, decide_eq_true_eq, ge_iff_le] at h
  have hzero : (48 : Nat) ≤ c.toNat := h.1
  have hspace : c ≠ ' ' := by
    rintro rfl
    exact absurd h.1 (by decide)
  simp [isSpace, hspace]
  omega

theorem dropWhile_isSpace (n : Numeral) : n.text.dropWhile isSpace = n.text := by
  obtain ⟨sign, whole, fraction, exponent, hwhole, hfraction, hne⟩ := n
  rcases sign
  · rcases whole with _ | ⟨d, ds⟩
    · rcases fraction with _ | ds
      · simp at hne
      · rfl
    · have hd : isSpace d = false := by
        rw [List.all_cons, Bool.and_eq_true] at hwhole
        exact not_isSpace_of_isDigit hwhole.1
      simp [Numeral.text, Sign.text, hd]
  · rfl
  · rfl

/-- A text that is a numeral is converted to the number nearest to it. -/
theorem stod_of_text (r : Rounding) {text : String} {n : Numeral} (h : n.text = text.toList) :
    stod r text = r.nearest n.value := by
  rw [stod, ← h, dropWhile_isSpace, read_text]
  rfl

/-! ### Whole texts -/

def IsNumeral (text : String) : Prop := ∃ n : Numeral, n.text = text.toList

theorem isNumeral_iff {text : String} :
    IsNumeral text ↔ (read text.toList).map (·.2) = some [] := by
  constructor
  · rintro ⟨n, htext⟩
    rw [read_eq_iff.mpr htext]
    rfl
  · intro h
    obtain ⟨⟨n, rest⟩, hread, rfl⟩ := Option.map_eq_some_iff.mp h
    exact ⟨n, read_eq_iff.mp hread⟩

instance (text : String) : Decidable (IsNumeral text) := decidable_of_iff' _ isNumeral_iff

/-- The whole text is a numeral, and `v` its value. -/
def Means (text : String) (v : ℚ) : Prop := ∃ n : Numeral, n.text = text.toList ∧ n.value = v

/-- The whole text is a numeral, and `v` the number nearest to its value. -/
def MeansNearest (r : Rounding) (text : String) (v : ℚ) : Prop :=
  ∃ n : Numeral, n.text = text.toList ∧ r.nearest n.value = some v

/-- Which is what `stod` makes of such a text. -/
theorem meansNearest_iff {r : Rounding} {text : String} {v : ℚ} :
    MeansNearest r text v ↔ IsNumeral text ∧ stod r text = some v := by
  constructor
  · rintro ⟨n, htext, hvalue⟩
    exact ⟨⟨n, htext⟩, (stod_of_text r htext).trans hvalue⟩
  · rintro ⟨⟨n, htext⟩, hstod⟩
    exact ⟨n, htext, (stod_of_text r htext).symm.trans hstod⟩

/-! Of digits `stol` reads all. -/

theorem means_of_stol {text : String} (hdigits : text.toList.all Char.isDigit = true) {v : Int}
    (h : stol text = some v) : Means text v := by
  have hsigned : readSign (text.toList.dropWhile isSpace) = (.none, text.toList) := by
    rcases htext : text.toList with _ | ⟨c, l⟩
    · rfl
    · have hc : c.isDigit = true := List.all_eq_true.mp hdigits c (htext ▸ List.mem_cons_self)
      have hsign := ne_sign_of_isDigit hc
      simp [not_isSpace_of_isDigit hc, readSign, hsign.1, hsign.2]
  have htake := (takeWhile_digits (l := []) hdigits (by simp [EndsDigits])).1
  rw [List.append_nil] at htake
  simp only [stol, hsigned, htake] at h
  split at h
  · next hne =>
    cases h
    refine ⟨⟨.none, text.toList, none, none, hdigits, rfl, by simpa using hne.1⟩, ?_, ?_⟩
    · simp [Numeral.text, Sign.text]
    · simp [Numeral.value, Sign.factor]
  · cases h

/-! ### Texts that are typed -/

/-- A sign, digits and a point, each of which may be missing. -/
def IsMantissa (l : List Char) : Prop :=
  ∃ (sign : Sign) (whole : List Char) (fraction : Option (List Char)),
    whole.all Char.isDigit = true ∧ (fraction.getD []).all Char.isDigit = true ∧
      l = sign.text ++ (whole ++ fraction.elim [] (fun ds => '.' :: ds))

theorem isMantissa_nil : IsMantissa [] := ⟨.none, [], none, rfl, rfl, rfl⟩

theorem isMantissa_minus : IsMantissa ['-'] := ⟨.minus, [], none, rfl, rfl, rfl⟩

theorem IsMantissa.push_digit {l : List Char} (h : IsMantissa l) {c : Char}
    (hc : c.isDigit = true) : IsMantissa (l ++ [c]) := by
  obtain ⟨sign, whole, fraction, hwhole, hfraction, rfl⟩ := h
  rcases fraction with _ | ds
  · exact ⟨sign, whole ++ [c], none, by simp [hwhole, hc], rfl, by simp⟩
  · refine ⟨sign, whole, some (ds ++ [c]), hwhole, ?_, by simp⟩
    rw [Option.getD_some] at hfraction ⊢
    simp [hfraction, hc]

theorem IsMantissa.push_point {l : List Char} (h : IsMantissa l) (hpoint : '.' ∉ l) :
    IsMantissa (l ++ ['.']) := by
  obtain ⟨sign, whole, fraction, hwhole, hfraction, rfl⟩ := h
  rcases fraction with _ | ds
  · exact ⟨sign, whole, some [], hwhole, rfl, by simp⟩
  · simp at hpoint

theorem IsMantissa.dropLast {l : List Char} (h : IsMantissa l) : IsMantissa l.dropLast := by
  obtain ⟨sign, whole, fraction, hwhole, hfraction, rfl⟩ := h
  rcases fraction with _ | ds
  · rcases List.eq_nil_or_concat whole with rfl | ⟨whole, d, rfl⟩
    · rcases sign <;> exact isMantissa_nil
    · rw [List.concat_eq_append] at hwhole ⊢
      rw [List.all_append, Bool.and_eq_true] at hwhole
      refine ⟨sign, whole, none, hwhole.1, rfl, ?_⟩
      simp [← List.append_assoc]
  · have hwritten : ∀ ds : List Char, sign.text ++ (whole ++ '.' :: ds) =
        (sign.text ++ (whole ++ ['.'])) ++ ds := by simp
    rcases List.eq_nil_or_concat ds with rfl | ⟨ds, d, rfl⟩
    · refine ⟨sign, whole, none, hwhole, rfl, ?_⟩
      rw [Option.elim_some, hwritten, List.append_nil, ← List.append_assoc, List.dropLast_concat]
      simp
    · rw [List.concat_eq_append] at hfraction ⊢
      rw [Option.getD_some, List.all_append, Bool.and_eq_true] at hfraction
      refine ⟨sign, whole, some ds, hwhole, hfraction.1, ?_⟩
      rw [Option.elim_some, Option.elim_some, hwritten, ← List.append_assoc, List.dropLast_concat]
      exact (hwritten ds).symm

/-- A mantissa without digits is no number, and every other one is a numeral. -/
theorem meansNearest_of_mantissa {r : Rounding} {text : String} (h : IsMantissa text.toList) {v : ℚ}
    (hv : stod r text = some v) : MeansNearest r text v := by
  refine meansNearest_iff.mpr ⟨?_, hv⟩
  obtain ⟨sign, whole, fraction, hwhole, hfraction, htext⟩ := h
  by_cases hne : whole ++ fraction.getD [] ≠ []
  · refine ⟨⟨sign, whole, fraction, none, hwhole, hfraction, hne⟩, ?_⟩
    rw [htext, Numeral.text, Option.elim_none, List.append_nil]
  · rw [not_not, List.append_eq_nil_iff] at hne
    obtain ⟨rfl, hempty⟩ := hne
    rw [stod, htext] at hv
    rcases fraction with _ | ds
    · rcases sign <;> cases hv
    · rw [Option.getD_some] at hempty
      subst hempty
      rcases sign <;> cases hv

end Numerals
