import Caneo.KeyFrames
import Caneo.Navigation
import Mathlib.Data.String.Basic

/-!
# The interface that the trace tab shows

The tab strip of the trace tab has the interfaces that frames came from, in the order of their names,
and the selection is a position in it. A key that turns the strip chooses an interface; the first
frame of an interface also moves the selection, to the interface before the chosen one, when its name
does not sort behind that (`trace_selection_stays_iff`). The send tab has the same kind of selection
over a list that never changes.
-/

namespace Caneo

open Runs Containers

/-- What stands at a position is still there after an insertion if and only if it sorts before what
is inserted. -/
theorem getElem?_orderedInsert_iff {α : Type} [LinearOrder α] {l : List α}
    (hl : l.Pairwise (· < ·)) {i : Nat} {x a : α} (hx : l[i]? = some x) (ha : a ∉ l) :
    (l.orderedInsert (· ≤ ·) a)[i]? = some x ↔ x < a := by
  induction l generalizing i with
  | nil => simp at hx
  | cons b l ih =>
    rw [List.pairwise_cons] at hl
    rw [List.mem_cons, not_or] at ha
    rw [List.orderedInsert_cons]
    by_cases hab : a ≤ b
    · -- everything from here on moves up by one
      have hbx : b ≤ x := by
        rcases List.mem_cons.mp (List.mem_of_getElem? hx) with rfl | hmem
        · exact le_refl x
        · exact (hl.1 x hmem).le
      rw [if_pos hab]
      refine iff_of_false (fun hsame => ?_) (not_lt.mpr (hab.trans hbx))
      rcases i with _ | i
      · rw [List.getElem?_cons_zero, Option.some.injEq] at hsame hx
        exact ha.1 (hsame.trans hx.symm)
      · rw [List.getElem?_cons_succ] at hsame hx
        have hmem := List.mem_of_getElem? hx
        rcases i with _ | i
        · rw [List.getElem?_cons_zero, Option.some.injEq] at hsame
          exact lt_irrefl x (hsame ▸ hl.1 x hmem)
        · rw [List.getElem?_cons_succ] at hsame
          obtain ⟨hi, hxi⟩ := List.getElem?_eq_some_iff.mp hsame
          obtain ⟨hi', hxi'⟩ := List.getElem?_eq_some_iff.mp hx
          have hlt := List.pairwise_iff_getElem.mp hl.2 i (i + 1) hi hi' (Nat.lt_succ_self i)
          rw [hxi, hxi'] at hlt
          exact lt_irrefl x hlt
    · rw [if_neg hab]
      rcases i with _ | i
      · rw [List.getElem?_cons_zero] at hx ⊢
        rw [Option.some.injEq] at hx
        exact iff_of_true (congrArg some hx) (hx ▸ not_le.mp hab)
      · rw [List.getElem?_cons_succ] at hx ⊢
        exact ih hl.2 hx ha.2

theorem pairwise_lt_orderedInsert {α : Type} [LinearOrder α] {l : List α}
    (hl : l.Pairwise (· < ·)) {a : α} (ha : a ∉ l) :
    (l.orderedInsert (· ≤ ·) a).Pairwise (· < ·) := by
  induction l with
  | nil => simp
  | cons b l ih =>
    rw [List.pairwise_cons] at hl
    rw [List.mem_cons, not_or] at ha
    rw [List.orderedInsert_cons]
    split
    · next hab =>
      have hlt : a < b := lt_of_le_of_ne hab ha.1
      refine List.pairwise_cons.mpr ⟨fun c hc => ?_, List.pairwise_cons.mpr hl⟩
      rcases List.mem_cons.mp hc with rfl | hc
      · exact hlt
      · exact hlt.trans (hl.1 c hc)
    · next hab =>
      refine List.pairwise_cons.mpr ⟨fun c hc => ?_, ih hl.2 ha.2⟩
      rcases List.mem_cons.mp ((List.perm_orderedInsert _ a l).mem_iff.mp hc) with rfl | hc
      · exact not_le.mp hab
      · exact hl.1 c hc

namespace TuiDataFrameSet

/-! ### The tab strip -/

def traceNames (t : TuiDataFrameSet) : List String := t.sets.map (·.1)

/-- The interface whose frames are drawn. -/
def shownTrace (t : TuiDataFrameSet) : Option String :=
  (clampCursor t.subTabTrace t.sets.length).bind fun i => t.traceNames[i]?

/-- The names are in order, without repetition, and the selection is one of them. -/
structure TraceOk (t : TuiDataFrameSet) : Prop where
  sorted : t.traceNames.Pairwise (· < ·)
  selected : t.subTabTrace < max 1 t.sets.length

theorem traceNames_update (t : TuiDataFrameSet) (frame : CanFrame) :
    (t.update frame).traceNames =
      if frame.header.interface ∈ t.traceNames then t.traceNames
      else t.traceNames.orderedInsert (· ≤ ·) frame.header.interface := by
  have hnames : ∀ sets : List (String × List (BitVec 32)),
      (sets.map fun p => if p.1 = frame.header.interface then
        (p.1, update.insertId frame.header.id p.2) else p).map (·.1) = sets.map (·.1) := by
    intro sets
    rw [List.map_map]
    apply List.map_congr_left
    intro p _
    dsimp only [Function.comp_apply]
    split <;> rfl
  have hany : (t.sets.any fun p => p.1 = frame.header.interface) = true ↔
      frame.header.interface ∈ t.traceNames := by
    simp [traceNames]
  rw [traceNames, update, hnames]
  by_cases hmem : frame.header.interface ∈ t.traceNames
  · rw [if_pos hmem, if_pos (hany.mpr hmem)]
    rfl
  · rw [if_neg hmem, if_neg (mt hany.mp hmem)]
    exact List.map_orderedInsert _ _ Prod.fst t.sets (frame.header.interface, [])
      (fun _ _ => Iff.rfl) fun _ _ => Iff.rfl

theorem length_traceNames (t : TuiDataFrameSet) : t.traceNames.length = t.sets.length :=
  List.length_map _

theorem shownTrace_eq {t : TuiDataFrameSet} (h : t.subTabTrace < t.sets.length) :
    t.shownTrace = t.traceNames[t.subTabTrace]? := by
  rw [shownTrace, clampCursor, if_neg (by omega), min_eq_left (by omega)]
  rfl

theorem TraceOk.update {t : TuiDataFrameSet} (h : t.TraceOk) (frame : CanFrame) :
    (t.update frame).TraceOk := by
  have hlength : t.sets.length ≤ (t.update frame).sets.length := by
    rw [← length_traceNames, ← length_traceNames, traceNames_update]
    split
    · exact le_refl _
    · rw [(List.perm_orderedInsert _ _ _).length_eq]
      exact Nat.le_succ _
  constructor
  · rw [traceNames_update]
    split
    · exact h.sorted
    · next hnew => exact pairwise_lt_orderedInsert h.sorted hnew
  · exact lt_of_lt_of_le h.selected (max_le_max (le_refl 1) hlength)

/-- A frame leaves the chosen interface if it is of an interface that is there, or behind it. -/
theorem shownTrace_update_iff {t : TuiDataFrameSet} (h : t.TraceOk) (frame : CanFrame)
    {shown : String} (hshown : t.shownTrace = some shown) :
    (t.update frame).shownTrace = some shown ↔
      frame.header.interface ∈ t.traceNames ∨ shown < frame.header.interface := by
  have hsome : t.sets.length ≠ 0 := by
    intro hnone
    rw [shownTrace, hnone] at hshown
    cases hshown
  have hselected : t.subTabTrace < t.sets.length := by
    have := h.selected
    omega
  have hat := shownTrace_eq hselected
  rw [hshown] at hat
  have hlength := congrArg List.length (traceNames_update t frame)
  rw [length_traceNames] at hlength
  by_cases hmem : frame.header.interface ∈ t.traceNames
  · rw [if_pos hmem, length_traceNames] at hlength
    rw [shownTrace_eq (by rw [hlength]; exact hselected), traceNames_update, if_pos hmem]
    exact iff_of_true hat.symm (Or.inl hmem)
  · rw [if_neg hmem, (List.perm_orderedInsert _ _ _).length_eq, List.length_cons,
      length_traceNames] at hlength
    have hselected' : (t.update frame).subTabTrace < (t.update frame).sets.length := by
      rw [hlength]
      exact hselected.trans (Nat.lt_succ_self _)
    rw [shownTrace_eq hselected', traceNames_update, if_neg hmem, or_iff_right hmem]
    exact getElem?_orderedInsert_iff h.sorted hat.symm hmem

/-! ### Keys -/

section Keys

variable {env : Env} {t : TuiDataFrameSet}

/-! The wizard has nothing to do with the strip. -/

theorem traceTabs_periodEdit (event : Event) : (t.periodEdit env event).traceTabs = t.traceTabs := by
  unfold periodEdit
  repeat' split
  all_goals rfl

theorem traceTabs_typeSelect (event : Event) : (t.typeSelect env event).traceTabs = t.traceTabs := by
  unfold typeSelect
  repeat' split
  · rfl
  · rfl
  · exact congrArg Prod.fst (untouched_createPeriodicAction _)
  all_goals rfl

theorem traceTabs_startSin (now : ℚ) : (t.startSin env now).traceTabs = t.traceTabs := by
  rw [startSin]
  repeat' split
  · exact congrArg Prod.fst (untouched_createSinAction _ _ _ _)
  all_goals rfl

theorem traceTabs_periodicEdit (event : Event) (now : ℚ) :
    (t.periodicEdit env event now).traceTabs = t.traceTabs := by
  unfold periodicEdit
  repeat' split
  any_goals rfl
  · exact traceTabs_periodEdit _
  · exact traceTabs_typeSelect _
  · exact traceTabs_startSin now
  · exact traceTabs_startSin now

/-- The keys that turn the strip. -/
def TurnsTrace (t : TuiDataFrameSet) (event : Event) : Prop :=
  (event = .ArrowLeft ∨ event = .ArrowRight) ∧ t.navLevel = 1 ∧ t.mainTab = 0

/-! ### Steps -/

theorem TraceOk.of_tabs {t' : TuiDataFrameSet} (h : t.TraceOk) (hsame : t'.traceTabs = t.traceTabs) :
    t'.TraceOk := by
  obtain ⟨htab, hsets⟩ := Prod.mk.inj hsame
  refine ⟨?_, ?_⟩
  · rw [traceNames, hsets]
    exact h.sorted
  · rw [htab, hsets]
    exact h.selected

theorem shownTrace_of_tabs {t' : TuiDataFrameSet} (hsame : t'.traceTabs = t.traceTabs) :
    t'.shownTrace = t.shownTrace := by
  obtain ⟨htab, hsets⟩ := Prod.mk.inj hsame
  rw [shownTrace, shownTrace, traceNames, traceNames, htab, hsets]

theorem TraceOk.turned (h : t.TraceOk) (turn : Nat) : (subTabs.turned t turn).TraceOk := by
  rw [subTabs.turned]
  split
  · split
    · exact h
    · next hsome =>
      have hcount : t.sets.length ≠ 0 := fun hnone => hsome (by simpa using hnone)
      refine ⟨h.sorted, ?_⟩
      simp only [turnTab, if_neg hcount]
      exact lt_of_lt_of_le (Nat.mod_lt _ (Nat.pos_of_ne_zero hcount)) (le_max_right _ _)
  · exact h.of_tabs rfl

/-- What a step does to the strip. -/
theorem trace_step_cases (env : Env) (t : TuiDataFrameSet) (l : Label) :
    (∃ frame, l = .frame frame ∧ t.step env l = t.update frame) ∨
      (∀ frame, l ≠ .frame frame) ∧ (t.step env l).traceTabs = t.traceTabs ∨
      ∃ event now turn, l = .key event now ∧ t.TurnsTrace event ∧
        t.step env l = subTabs.turned t turn := by
  rcases l with ⟨event, now⟩ | frame | timer | tick
  · rw [step]
    split
    · exact Or.inr (Or.inl ⟨by simp, rfl⟩)
    · have hframe := keyFrame_onEvent env t event now
      generalize t.onEvent env event now = t' at hframe ⊢
      rcases hframe with hsame | ⟨turn, hevent, hlevel, htab⟩ | - | ⟨hsame, -⟩
      · exact Or.inr (Or.inl ⟨by simp, congrArg Prod.fst hsame⟩)
      · exact Or.inr (Or.inr ⟨event, now, turn, rfl, ⟨hevent, hlevel, htab⟩, rfl⟩)
      · exact Or.inr (Or.inl ⟨by simp, traceTabs_periodicEdit event now⟩)
      · exact Or.inr (Or.inl ⟨by simp, hsame⟩)
  · exact Or.inl ⟨frame, rfl, rfl⟩
  · exact Or.inr (Or.inl ⟨by simp, rfl⟩)
  · exact Or.inr (Or.inl ⟨by simp, rfl⟩)

theorem TraceOk.step (h : t.TraceOk) (l : Label) : (t.step env l).TraceOk := by
  rcases trace_step_cases env t l with
    ⟨frame, -, hstep⟩ | ⟨-, hsame⟩ | ⟨-, -, turn, -, -, hstep⟩
  · rw [hstep]
    exact h.update frame
  · exact h.of_tabs hsame
  · rw [hstep]
    exact h.turned turn

theorem Started.traceOk {cfgs : List InterfaceConfig} (h : t.Started env cfgs) : t.TraceOk := by
  obtain ⟨handler, playbackCtrl, modelTabEnabled, -, -, rfl⟩ := h.exists_eq
  exact ⟨List.Pairwise.nil, Nat.zero_lt_one⟩

end Keys

/-! ### The property -/

/-- If the step changes the shown interface, it is a key that turns the strip. -/
def SelectionStays (env : Env) (t : TuiDataFrameSet) (l : Label) : Prop :=
  ∀ shown, t.shownTrace = some shown → (t.step env l).shownTrace ≠ some shown →
    ∃ event now, l = .key event now ∧ (event = .ArrowLeft ∨ event = .ArrowRight) ∧
      t.navLevel = 1 ∧ t.mainTab = 0

/-- A frame of an interface that is new to the strip is of one behind the shown interface. -/
def NewBehind (t : TuiDataFrameSet) (l : Label) : Prop :=
  ∀ frame shown, l = .frame frame → t.shownTrace = some shown →
    frame.header.interface ∈ t.sets.map (·.1) ∨ shown < frame.header.interface

theorem selectionStays_iff {env : Env} {t : TuiDataFrameSet} (h : t.TraceOk) (l : Label) :
    t.SelectionStays env l ↔ t.NewBehind l := by
  rcases trace_step_cases env t l with
    ⟨frame, rfl, hstep⟩ | ⟨hframe, hsame⟩ | ⟨event, now, turn, rfl, hkey, -⟩
  · rw [SelectionStays, NewBehind, hstep]
    constructor
    · rintro hstays frame' shown ⟨⟩ hshown
      refine (shownTrace_update_iff h frame hshown).mp ?_
      by_contra hchanged
      obtain ⟨event, now, hl, -⟩ := hstays shown hshown hchanged
      cases hl
    · intro hbehind shown hshown hchanged
      exact absurd ((shownTrace_update_iff h frame hshown).mpr (hbehind frame shown rfl hshown))
        hchanged
  · refine iff_of_true (fun shown hshown hchanged => ?_) ?_
    · exact absurd ((shownTrace_of_tabs hsame).trans hshown) hchanged
    · exact fun frame _ hl _ => absurd hl (hframe frame)
  · refine iff_of_true (fun _ _ _ => ⟨event, now, rfl, hkey⟩) ?_
    rintro frame shown ⟨⟩

/-- Through any run, the trace tab stays on its interface exactly if every interface that comes new
sorts behind the one that is shown. -/
theorem trace_selection_stays_iff (env : Env) (cfgs : List InterfaceConfig) (t₀ : TuiDataFrameSet)
    (hstart : t₀.Started env cfgs) (ls : List Label) :
    Meets (step env) (SelectionStays env) t₀ ls ↔ Meets (step env) NewBehind t₀ ls :=
  meets_iff_meets (I := TraceOk) (fun _ l h => h.step l) (fun _ l h => selectionStays_iff h l)
    hstart.traceOk ls

/-! ### Two interfaces -/

def twoInterfaces : List InterfaceConfig := [⟨"can0", "", ""⟩, ⟨"can1", "", ""⟩]

/-- The first frame of an interface. -/
def frameOf (iface : String) : Label :=
  .frame { header := ⟨0x100, iface, 0⟩, payload := [] }

def twoTui : TuiDataFrameSet where
  interfaces := ["can0", "can1"]
  handler := ActionHandler.init (elmoEnv.sendModels twoInterfaces)

theorem started_twoTui : twoTui.Started elmoEnv twoInterfaces := Or.inl ⟨0, false, rfl⟩

/-- `can1` is shown when the first frame of `can0` comes. -/
theorem trace_selection_moves :
    ¬∀ env cfgs t₀, t₀.Started env cfgs → ∀ ls, Meets (step env) (SelectionStays env) t₀ ls := by
  intro h
  obtain ⟨-, hstays, -⟩ := h elmoEnv twoInterfaces twoTui started_twoTui [frameOf "can1", frameOf "can0"]
  obtain ⟨event, now, hl, -⟩ := hstays "can1" (by decide +kernel) (by decide +kernel)
  cases hl

/-- In this order it stays. -/
theorem trace_selection_stays_two :
    Meets (step elmoEnv) (SelectionStays elmoEnv) twoTui [frameOf "can0", frameOf "can1"] := by
  refine (trace_selection_stays_iff elmoEnv twoInterfaces twoTui started_twoTui _).mpr ⟨?_, ?_, trivial⟩
  · rintro frame shown - hshown
    cases hshown
  · rintro frame shown ⟨⟩ hshown
    have hcan0 : (twoTui.step elmoEnv (frameOf "can0")).shownTrace = some "can0" := by decide +kernel
    rw [hcan0, Option.some.injEq] at hshown
    exact Or.inr (hshown ▸ by decide +kernel)

end TuiDataFrameSet

end Caneo
