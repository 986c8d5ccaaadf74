import Mathlib.Data.List.Basic

/-!
# Runs of a deterministic transition system

A system is a total function `step : S → L → S`; the label says what happens next (which input
arrives, which of several pending events takes place, what the environment answers), so that
quantifying over lists of labels quantifies over all interleavings.

A property of every run comes from an invariant by induction. Where a property holds only of runs
whose steps are well behaved, the good behaviour is a predicate on the state *before* the step and
the label, and `Meets` says that every step of a run has it.
-/

namespace Runs

variable {S L : Type} (step : S → L → S)

def run (s : S) (ls : List L) : S := ls.foldl step s

@[simp] theorem run_nil (s : S) : run step s [] = s := rfl

@[simp] theorem run_cons (s : S) (l : L) (ls : List L) :
    run step s (l :: ls) = run step (step s l) ls := rfl

theorem run_append (s : S) (ls₁ ls₂ : List L) :
    run step s (ls₁ ++ ls₂) = run step (run step s ls₁) ls₂ := List.foldl_append

/-- Every step of the run satisfies `C`, a predicate on the state before it and its label. -/
def Meets (C : S → L → Prop) : S → List L → Prop
  | _, [] => True
  | s, l :: ls => C s l ∧ Meets C (step s l) ls

instance Meets.decidable (C : S → L → Prop) [∀ s l, Decidable (C s l)] :
    ∀ (s : S) (ls : List L), Decidable (Meets step C s ls)
  | _, [] => inferInstanceAs (Decidable True)
  | s, l :: ls =>
    have := Meets.decidable C (step s l) ls
    inferInstanceAs (Decidable (C s l ∧ Meets step C (step s l) ls))

variable {step}

theorem Meets.mono {C D : S → L → Prop} (h : ∀ s l, C s l → D s l) {s : S} {ls : List L}
    (hls : Meets step C s ls) : Meets step D s ls := by
  induction ls generalizing s with
  | nil => trivial
  | cons l ls ih =>
    obtain ⟨hl, hrest⟩ := hls
    exact ⟨h s l hl, ih hrest⟩

theorem meets_append {C : S → L → Prop} {s : S} {ls₁ ls₂ : List L} :
    Meets step C s (ls₁ ++ ls₂) ↔ Meets step C s ls₁ ∧ Meets step C (run step s ls₁) ls₂ := by
  induction ls₁ generalizing s with
  | nil => simp [Meets]
  | cons l ls₁ ih => simp [Meets, ih, and_assoc]

theorem meets_cons {C : S → L → Prop} {s : S} {l : L} {ls : List L} :
    Meets step C s (l :: ls) ↔ C s l ∧ Meets step C (step s l) ls := Iff.rfl

/-- What every well-behaved step preserves holds at the end of every well-behaved run. -/
theorem Meets.invariant {C : S → L → Prop} {P : S → Prop}
    (hstep : ∀ s l, P s → C s l → P (step s l)) {s : S} {ls : List L} (hs : P s)
    (hls : Meets step C s ls) : P (run step s ls) := by
  induction ls generalizing s with
  | nil => exact hs
  | cons l ls ih =>
    obtain ⟨hl, hrest⟩ := hls
    exact ih (hstep s l hs hl) hrest

/-- What every step with one of the labels preserves holds at the end of the run. -/
theorem run_invariant_mem {P : S → Prop} {ls : List L} (hstep : ∀ s, ∀ l ∈ ls, P s → P (step s l))
    {s : S} (hs : P s) : P (run step s ls) := by
  induction ls generalizing s with
  | nil => exact hs
  | cons l ls ih =>
    apply ih
    · exact fun s l' hl' => hstep s l' (List.mem_cons_of_mem _ hl')
    · exact hstep s l List.mem_cons_self hs

/-- What every step preserves holds at the end of every run. -/
theorem run_invariant {P : S → Prop} (hstep : ∀ s l, P s → P (step s l)) {s : S} (hs : P s)
    (ls : List L) : P (run step s ls) :=
  run_invariant_mem (fun s l _ => hstep s l) hs

/-- Where one step keeps a property exactly if it is well behaved, the property lasts through a
run exactly if all its steps are. -/
theorem forall_take_iff {C : S → L → Prop} {I P : S → Prop}
    (hinv : ∀ s l, I s → I (step s l)) (hstep : ∀ s l, I s → P s → (P (step s l) ↔ C s l))
    {s : S} (hI : I s) (hs : P s) (ls : List L) :
    (∀ k, P (run step s (ls.take k))) ↔ Meets step C s ls := by
  induction ls generalizing s with
  | nil =>
    constructor
    · exact fun _ => trivial
    · intro _ k
      rwa [List.take_nil]
  | cons l ls ih =>
    rw [meets_cons, ← hstep s l hI hs]
    constructor
    · intro h
      have hfirst : P (step s l) := h 1
      exact ⟨hfirst, (ih (hinv s l hI) hfirst).mp fun k => h (k + 1)⟩
    · rintro ⟨hfirst, hrest⟩ k
      cases k with
      | zero => exact hs
      | succ k => exact (ih (hinv s l hI) hfirst).mpr hrest k

/-- Where an invariant makes two conditions on a step the same, they are the same for a run. -/
theorem meets_iff_meets {C D : S → L → Prop} {I : S → Prop}
    (hinv : ∀ s l, I s → I (step s l)) (h : ∀ s l, I s → (C s l ↔ D s l)) {s : S} (hs : I s)
    (ls : List L) : Meets step C s ls ↔ Meets step D s ls := by
  induction ls generalizing s with
  | nil => exact Iff.rfl
  | cons l ls ih => rw [meets_cons, meets_cons, h s l hs, ih (hinv s l hs)]

/-- A quantity that no well-behaved step changes, while `P` lasts, is the same at the end. -/
theorem Meets.eq_of_step {C : S → L → Prop} {P : S → Prop} {Q : Type} {q : S → Q}
    (hinv : ∀ s l, P s → C s l → P (step s l)) (hq : ∀ s l, P s → C s l → q (step s l) = q s)
    {s : S} {ls : List L} (hs : P s) (hls : Meets step C s ls) : q (run step s ls) = q s := by
  induction ls generalizing s with
  | nil => rfl
  | cons l ls ih =>
    obtain ⟨hl, hrest⟩ := hls
    rw [run_cons, ih (hinv s l hs hl) hrest, hq s l hs hl]

end Runs
