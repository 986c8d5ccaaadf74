import Caneo.Runs
import Mathlib.Logic.Function.Basic

/-!
# An event loop on edge-triggered sources

One thread serves several sources, which others fill at any time. A source raises an *edge* when
something comes to its queue, and not again for what is there already; the loop consumes the edge
when it calls the source's handler. A handler that takes until the queue is empty leaves nothing
behind that no edge tells of (`awake_run`): what comes while it runs raises an edge of its own. A
handler that gives up earlier may.

Each source's elements are taken in the order in which they came, each once
(`takenFrom_append_queue`).
-/

namespace EdgeTriggered

open Runs

/-- `taken` has every element that a handler took, with a stamp of the moment. -/
structure Loop (ι α τ : Type) where
  queue : ι → List α
  edge : ι → Bool
  current : Option ι
  taken : List (ι × α × τ)

inductive Label (ι α τ : Type) where
  | arrive (i : ι) (a : α)
  | wake (i : ι)
  /-- The handler takes the next element, or finds none and returns. -/
  | take (t : τ)
  /-- The handler returns early. -/
  | giveUp

variable {ι α τ : Type} [DecidableEq ι]

namespace Loop

def init : Loop ι α τ where
  queue _ := []
  edge _ := false
  current := none
  taken := []

def step (s : Loop ι α τ) : Label ι α τ → Loop ι α τ
  | .arrive i a =>
    { s with
      queue := Function.update s.queue i (s.queue i ++ [a])
      edge := Function.update s.edge i true }
  | .wake i =>
    if s.current.isNone && s.edge i then
      { s with edge := Function.update s.edge i false, current := some i }
    else s
  | .take t =>
    match s.current with
    | none => s
    | some i =>
      match s.queue i with
      | [] => { s with current := none }
      | a :: rest =>
        { s with queue := Function.update s.queue i rest, taken := s.taken ++ [(i, a, t)] }
  | .giveUp => { s with current := none }

/-- What was taken from the source. -/
def takenFrom (s : Loop ι α τ) (i : ι) : List α :=
  s.taken.filterMap fun p => if p.1 = i then some p.2.1 else none

end Loop

/-! What a step is, by what there is to do. -/

section Steps

variable {s : Loop ι α τ} {i : ι}

theorem step_wake (hidle : s.current = none) (hedge : s.edge i = true) :
    s.step (.wake i) = { s with edge := Function.update s.edge i false, current := some i } := by
  unfold Loop.step
  exact if_pos (by rw [hidle, hedge]; rfl)

theorem step_wake_of_not (h : ¬ (s.current.isNone && s.edge i) = true) :
    s.step (.wake i) = s := by
  unfold Loop.step
  exact if_neg h

theorem step_take_of_idle (hidle : s.current = none) (t : τ) : s.step (.take t) = s := by
  unfold Loop.step
  rw [hidle]

theorem step_take_of_empty (hcurrent : s.current = some i) (hqueue : s.queue i = []) (t : τ) :
    s.step (.take t) = { s with current := none } := by
  unfold Loop.step
  rw [hcurrent]
  dsimp only
  rw [hqueue]

theorem step_take {a : α} {rest : List α} (hcurrent : s.current = some i)
    (hqueue : s.queue i = a :: rest) (t : τ) :
    s.step (.take t) =
      { s with queue := Function.update s.queue i rest, taken := s.taken ++ [(i, a, t)] } := by
  unfold Loop.step
  rw [hcurrent]
  dsimp only
  rw [hqueue]

end Steps

/-- What came to the source. -/
def arrivals (i : ι) (ls : List (Label ι α τ)) : List α :=
  ls.filterMap fun
    | .arrive j a => if j = i then some a else none
    | .wake _ | .take _ | .giveUp => none

/-! ### Nothing is lost, taken twice, or taken out of its turn -/

section Order

variable (s : Loop ι α τ) (i : ι)

theorem takenFrom_append_queue_step (l : Label ι α τ) :
    (s.step l).takenFrom i ++ (s.step l).queue i =
      s.takenFrom i ++ s.queue i ++ arrivals i [l] := by
  cases l with
  | arrive j a =>
    by_cases hji : j = i
    · subst hji
      simp [Loop.step, Loop.takenFrom, arrivals]
    · have hij : i ≠ j := fun h => hji h.symm
      simp [Loop.step, Loop.takenFrom, arrivals, hji, hij]
  | wake j =>
    simp only [Loop.step, arrivals, List.filterMap_cons_none, List.filterMap_nil, List.append_nil]
    split <;> rfl
  | take t =>
    rw [show arrivals i [(.take t : Label ι α τ)] = [] from rfl, List.append_nil]
    cases hcurrent : s.current with
    | none => rw [step_take_of_idle hcurrent]
    | some j =>
      cases hqueue : s.queue j with
      | nil =>
        rw [step_take_of_empty hcurrent hqueue]
        rfl
      | cons a rest =>
        rw [step_take hcurrent hqueue]
        by_cases hji : j = i
        · subst hji
          simp [Loop.takenFrom, hqueue]
        · have hij : i ≠ j := fun h => hji h.symm
          simp [Loop.takenFrom, hji, hij]
  | giveUp => simp [Loop.step, Loop.takenFrom, arrivals]

/-- What was taken and what still waits is what came, in its order. -/
theorem takenFrom_append_queue (ls : List (Label ι α τ)) :
    (run Loop.step s ls).takenFrom i ++ (run Loop.step s ls).queue i =
      s.takenFrom i ++ s.queue i ++ arrivals i ls := by
  induction ls generalizing s with
  | nil => exact (List.append_nil _).symm
  | cons l ls ih =>
    have harrivals : arrivals i (l :: ls) = arrivals i [l] ++ arrivals i ls :=
      List.filterMap_append (l := [l])
    rw [run_cons, ih, takenFrom_append_queue_step, harrivals, List.append_assoc _ (arrivals i [l])]

end Order

theorem mem_arrivals {i : ι} {a : α} {ls : List (Label ι α τ)} : a ∈ arrivals i ls ↔ .arrive i a ∈ ls := by
  induction ls with
  | nil => simp [arrivals]
  | cons l ls ih =>
    have harrivals : arrivals i (l :: ls) = arrivals i [l] ++ arrivals i ls :=
      List.filterMap_append (l := [l])
    rw [harrivals, List.mem_append, ih, List.mem_cons]
    apply or_congr_left
    cases l with
    | arrive j b =>
      by_cases hji : j = i
      · simp [arrivals, hji]
      · have hij : i ≠ j := fun h => hji h.symm
        simp [arrivals, hji, hij]
    | wake j => simp [arrivals]
    | take t => simp [arrivals]
    | giveUp => simp [arrivals]

/-- What was taken from a source came to it. -/
theorem arrive_of_taken {i : ι} {a : α} {t : τ} {ls : List (Label ι α τ)}
    (h : (i, a, t) ∈ (run Loop.step Loop.init ls).taken) : .arrive i a ∈ ls := by
  have hall := takenFrom_append_queue Loop.init i ls
  have hinit : (Loop.init : Loop ι α τ).takenFrom i ++ (Loop.init : Loop ι α τ).queue i = [] := rfl
  rw [hinit, List.nil_append] at hall
  rw [← mem_arrivals, ← hall]
  apply List.mem_append_left
  exact List.mem_filterMap.mpr ⟨_, h, if_pos rfl⟩

/-! ### Nothing is left behind -/

/-- A source where something waits has an edge, or its handler is at work. -/
def Loop.Awake (s : Loop ι α τ) : Prop :=
  ∀ i, s.queue i ≠ [] → s.edge i = true ∨ s.current = some i

/-- A handler returns only when it finds nothing. -/
def Loop.Drains (s : Loop ι α τ) : Label ι α τ → Prop
  | .giveUp => ∀ i, s.current = some i → s.queue i = []
  | .arrive .. | .wake _ | .take _ => True

omit [DecidableEq ι] in
theorem awake_init : (Loop.init : Loop ι α τ).Awake := fun _ h => absurd rfl h

theorem awake_step {s : Loop ι α τ} (h : s.Awake) {l : Label ι α τ} (hl : s.Drains l) :
    (s.step l).Awake := by
  intro i hwaits
  cases l with
  | arrive j a =>
    by_cases hij : i = j
    · subst hij
      exact Or.inl (Function.update_self ..)
    · simp only [Loop.step, Function.update_of_ne hij] at hwaits ⊢
      exact h i hwaits
  | wake j =>
    by_cases hready : (s.current.isNone && s.edge j) = true
    · rw [Bool.and_eq_true, Option.isNone_iff_eq_none] at hready
      obtain ⟨hidle, hedge⟩ := hready
      rw [step_wake hidle hedge] at hwaits ⊢
      by_cases hij : i = j
      · exact Or.inr (congrArg some hij.symm)
      · rcases h i hwaits with hedge | hcurrent
        · exact Or.inl ((Function.update_of_ne hij _ _).trans hedge)
        · rw [hidle] at hcurrent
          cases hcurrent
    · rw [step_wake_of_not hready] at hwaits ⊢
      exact h i hwaits
  | take t =>
    cases hcurrent : s.current with
    | none =>
      rw [step_take_of_idle hcurrent] at hwaits ⊢
      exact h i hwaits
    | some j =>
      cases hqueue : s.queue j with
      | nil =>
        rw [step_take_of_empty hcurrent hqueue] at hwaits ⊢
        rcases h i hwaits with hedge | hsome
        · exact Or.inl hedge
        · rw [hcurrent, Option.some.injEq] at hsome
          exact absurd (hsome ▸ hqueue) hwaits
      | cons a rest =>
        rw [step_take hcurrent hqueue] at hwaits ⊢
        by_cases hij : i = j
        · exact Or.inr (hij ▸ hcurrent)
        · simp only [Function.update_of_ne hij] at hwaits
          exact h i hwaits
  | giveUp =>
    rcases h i hwaits with hedge | hcurrent
    · exact Or.inl hedge
    · exact absurd (hl i hcurrent) hwaits

/-- In a run whose handlers drain their queues, nothing waits without an edge. -/
theorem awake_run {s : Loop ι α τ} (h : s.Awake) {ls : List (Label ι α τ)}
    (hls : Meets Loop.step Loop.Drains s ls) : (run Loop.step s ls).Awake :=
  hls.invariant (P := Loop.Awake) (fun _ _ hs hl => awake_step hs hl) h

/-! ### Everything is taken in the end -/

section Progress

/-- The labels of the loop itself. -/
def Label.isOwn : Label ι α τ → Bool
  | .wake _ | .take _ => true
  | .arrive .. | .giveUp => false

/-- The handler that is at work can come to its end, and the other sources stay as they are. -/
theorem exists_drain_current (t : τ) {s : Loop ι α τ} {i : ι} (hcurrent : s.current = some i) :
    ∃ ls : List (Label ι α τ), (∀ l ∈ ls, l.isOwn = true) ∧
      (run Loop.step s ls).current = none ∧ (run Loop.step s ls).queue i = [] ∧
      (run Loop.step s ls).edge = s.edge ∧
      ∀ j, j ≠ i → (run Loop.step s ls).queue j = s.queue j := by
  induction hqueue : s.queue i generalizing s with
  | nil =>
    refine ⟨[.take t], by simp [Label.isOwn], ?_⟩
    rw [run_cons, run_nil, step_take_of_empty hcurrent hqueue]
    exact ⟨rfl, hqueue, rfl, fun _ _ => rfl⟩
  | cons a rest ih =>
    have hstep := step_take hcurrent hqueue t
    obtain ⟨ls, hown, hidle, hempty, hedge, hothers⟩ := ih (s := s.step (.take t))
      (by rw [hstep]; exact hcurrent) (by rw [hstep]; exact Function.update_self ..)
    refine ⟨.take t :: ls, ?_, hidle, hempty, hedge.trans (by rw [hstep]), ?_⟩
    · intro l hl
      rcases List.mem_cons.mp hl with rfl | hl
      · rfl
      · exact hown l hl
    · intro j hj
      rw [run_cons, hothers j hj, hstep]
      exact Function.update_of_ne hj _ _

/-- Without further arrivals the loop can come to where nothing waits. -/
theorem exists_drain (t : τ) (is : List ι) {s : Loop ι α τ} (h : s.Awake) :
    ∃ ls : List (Label ι α τ), (∀ l ∈ ls, l.isOwn = true) ∧
      (run Loop.step s ls).current = none ∧ (run Loop.step s ls).Awake ∧
      (∀ i, s.queue i = [] → (run Loop.step s ls).queue i = []) ∧
      ∀ i ∈ is, (run Loop.step s ls).queue i = [] := by
  have hkeeps : ∀ {s : Loop ι α τ} {ls : List (Label ι α τ)}, s.Awake →
      (∀ l ∈ ls, l.isOwn = true) → (run Loop.step s ls).Awake := by
    intro s ls hs hown
    apply run_invariant_mem (P := Loop.Awake) _ hs
    intro s' l hl hs'
    apply awake_step hs'
    cases l with
    | arrive j a => trivial
    | wake j => trivial
    | take t => trivial
    | giveUp => cases hown _ hl
  -- First the handler that is at work, if there is one, comes to its end.
  have hidle : ∃ ls : List (Label ι α τ), (∀ l ∈ ls, l.isOwn = true) ∧
      (run Loop.step s ls).current = none ∧
      ∀ i, s.queue i = [] → (run Loop.step s ls).queue i = [] := by
    cases hcurrent : s.current with
    | none =>
      refine ⟨[], ?_, hcurrent, fun _ h => h⟩
      intro l hl
      cases hl
    | some j =>
      obtain ⟨ls, hown, hnone, hempty, -, hothers⟩ := exists_drain_current t hcurrent
      refine ⟨ls, hown, hnone, ?_⟩
      intro i hi
      by_cases hij : i = j
      · rw [hij]
        exact hempty
      · rw [hothers i hij]
        exact hi
  obtain ⟨ls₀, hown₀, hnone₀, hkept₀⟩ := hidle
  induction is with
  | nil => exact ⟨ls₀, hown₀, hnone₀, hkeeps h hown₀, hkept₀, fun i hi => by cases hi⟩
  | cons j is ih =>
    obtain ⟨ls, hown, hnone, hawake, hkept, hall⟩ := ih
    by_cases hwaits : (run Loop.step s ls).queue j = []
    · refine ⟨ls, hown, hnone, hawake, hkept, ?_⟩
      intro i hi
      rcases List.mem_cons.mp hi with rfl | hi
      · exact hwaits
      · exact hall i hi
    · -- Where something waits there is an edge, as no handler is at work.
      have hedge : (run Loop.step s ls).edge j = true := by
        rcases hawake j hwaits with hedge | hcurrent
        · exact hedge
        · rw [hnone] at hcurrent
          cases hcurrent
      have hwoken := step_wake hnone hedge
      have hwake : ((run Loop.step s ls).step (.wake j)).current = some j := by
        rw [hwoken]
      have hqueues : ((run Loop.step s ls).step (.wake j)).queue = (run Loop.step s ls).queue := by
        rw [hwoken]
      obtain ⟨ls', hown', hnone', hempty', -, hothers'⟩ := exists_drain_current t hwake
      have hown'' : ∀ l ∈ ls ++ (.wake j :: ls'), l.isOwn = true := by
        intro l hl
        rcases List.mem_append.mp hl with hl | hl
        · exact hown l hl
        · rcases List.mem_cons.mp hl with rfl | hl
          · rfl
          · exact hown' l hl
      have hstays : ∀ i, (run Loop.step s ls).queue i = [] →
          (run Loop.step s (ls ++ (.wake j :: ls'))).queue i = [] := by
        intro i hi
        rw [run_append, run_cons]
        by_cases hij : i = j
        · rw [hij]
          exact hempty'
        · rw [hothers' i hij, hqueues]
          exact hi
      refine ⟨ls ++ (.wake j :: ls'), hown'', ?_, hkeeps h hown'', ?_, ?_⟩
      · rw [run_append, run_cons]
        exact hnone'
      · exact fun i hi => hstays i (hkept i hi)
      · intro i hi
        rcases List.mem_cons.mp hi with rfl | hi
        · rw [run_append, run_cons]
          exact hempty'
        · exact hstays i (hall i hi)

end Progress

end EdgeTriggered
