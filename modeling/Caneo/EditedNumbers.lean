import Caneo.ActionPeriods
import Caneo.EditorPrefill
import Caneo.KeyFrames
import Caneo.KeyRequests

/-!
# The numbers that are used are the numbers that are shown

The TUI has six editors for numbers. The wizard's four let nothing be typed but a mantissa, and what
`stod` and `stol` read of a mantissa is all of it or nothing. The two editors for values take digits,
points and minus signs in any order, and `stod` ignores what follows the first numeral; a sin action's
period is moreover cut to a `long`. So what is set there is what is shown if and only if a text that
begins with a numeral is one as a whole, and for a period one of a `long` (`numbers_as_shown_iff`).
-/

namespace Caneo

open EventLoop Runs Containers Numerals

/-! ### Typing in the wizard -/

namespace TuiDataFrameSet

theorem digits_push {buf : String} (h : buf.toList.all Char.isDigit = true) {c : Char}
    (hc : c.isDigit = true) : (buf.push c).toList.all Char.isDigit = true := by
  simp [hc]
  simpa using h

theorem digits_popBack {buf : String} (h : buf.toList.all Char.isDigit = true) :
    (popBack buf).toList.all Char.isDigit = true := by
  rw [popBack, String.toList_ofList]
  rw [List.all_eq_true] at h ⊢
  exact fun c hc => h c (List.mem_of_mem_dropLast hc)

theorem digits_handleNum {buf : String} (h : buf.toList.all Char.isDigit = true) (event : Event) :
    (handleNum event buf false).toList.all Char.isDigit = true := by
  unfold handleNum
  split
  · exact digits_popBack h
  · split
    · exact digits_push h ‹_›
    · simpa using h
  · exact h

theorem mantissa_handleNum {buf : String} (h : IsMantissa buf.toList) (event : Event) :
    IsMantissa (handleNum event buf true).toList := by
  unfold handleNum
  split
  · rw [popBack, String.toList_ofList]
    exact h.dropLast
  · next c =>
    split
    · next hc =>
      rw [String.toList_push]
      exact h.push_digit hc
    · split
      · next hpoint =>
        simp only [Bool.true_and, Bool.and_eq_true, beq_iff_eq, Bool.not_eq_true',
          String.contains_char_eq, decide_eq_false_iff_not] at hpoint
        rw [String.toList_push, hpoint.1]
        exact h.push_point hpoint.2
      · split
        · next hminus =>
          simp only [Bool.true_and, Bool.and_eq_true, beq_iff_eq, String.isEmpty_iff] at hminus
          rw [String.toList_push, hminus.1, hminus.2]
          exact isMantissa_minus
        · exact h
  · exact h

end TuiDataFrameSet

/-- What the wizard's editors let through. Past its first step the wizard has the interval that is
shown. -/
structure WizardView.Typed (w : WizardView) : Prop where
  interval : w.intervalBuf.toList.all Char.isDigit = true
  read : w.step = .None ∨ w.step = .Period ∨ stol w.intervalBuf = some w.intervalMs
  amplitude : IsMantissa w.amplitudeBuf.toList
  period : w.periodBuf.toList.all Char.isDigit = true
  offset : IsMantissa w.offsetBuf.toList

namespace TuiDataFrameSet

section Wizard

variable {env : Env} {t : TuiDataFrameSet}

theorem typed_empty : (WizardView.mk .None "" 0 "" "" "").Typed where
  interval := rfl
  read := Or.inl rfl
  amplitude := isMantissa_nil
  period := rfl
  offset := isMantissa_nil

theorem typed_resetPeriodic (t : TuiDataFrameSet) : t.resetPeriodic.wizardView.Typed := typed_empty

theorem typed_opened {w : WizardView} (h : w.Typed) : (opened w).Typed where
  interval := rfl
  read := Or.inr (Or.inl rfl)
  amplitude := h.amplitude
  period := h.period
  offset := h.offset

/-- Past the first step, to any other. -/
theorem typed_goes {w : WizardView} (h : w.Typed) (hread : stol w.intervalBuf = some w.intervalMs)
    (step : PeriodicStep) : ({ w with step := step } : WizardView).Typed where
  interval := h.interval
  read := Or.inr (Or.inr hread)
  amplitude := h.amplitude
  period := h.period
  offset := h.offset

theorem typed_periodEdit (hstol : env.stol = stol) (h : t.wizardView.Typed)
    (hstep : t.periodicStep = .Period) (event : Event) :
    (t.periodEdit env event).wizardView.Typed := by
  have hedited : ∀ buf : String, buf.toList.all Char.isDigit = true →
      ({ t with periodicIntervalBuf := buf } : TuiDataFrameSet).wizardView.Typed :=
    fun _ hbuf => ⟨hbuf, Or.inr (Or.inl hstep), h.amplitude, h.period, h.offset⟩
  have hread : (t.periodEdit env .Return).wizardView.Typed := by
    by_cases hempty : t.periodicIntervalBuf.isEmpty = true
    · simp only [periodEdit, hempty, if_true]
      exact h
    · rcases hparse : env.stol t.periodicIntervalBuf with _ | ms
      · simp only [periodEdit, hempty, hparse, Bool.false_eq_true, if_false]
        exact h
      · simp only [periodEdit, hempty, hparse, Bool.false_eq_true, if_false]
        rw [hstol] at hparse
        exact ⟨h.interval, Or.inr (Or.inr hparse), h.amplitude, h.period, h.offset⟩
  rcases event with _ | _ | _ | _ | _ | _ | _ | _ | c | _
  case Return => exact hread
  case ArrowRight => exact hread
  case Backspace => exact hedited _ (digits_popBack h.interval)
  case Character =>
    rw [periodEdit]
    split
    · exact hedited _ (digits_push h.interval ‹_›)
    · exact h
  all_goals exact h

theorem typed_typeSelect (h : t.wizardView.Typed) (hstep : t.periodicStep = .TypeSelect)
    (event : Event) : (t.typeSelect env event).wizardView.Typed := by
  have hread : stol t.periodicIntervalBuf = some t.periodicIntervalMs := by
    simpa [wizardView, hstep] using h.read
  unfold typeSelect
  split
  · exact h
  · exact h
  · split
    · exact typed_resetPeriodic _
    · exact typed_goes h hread .SinAmplitude
  · exact typed_goes h hread .Period
  · exact h

theorem typed_periodicEdit (hstol : env.stol = stol) (h : t.wizardView.Typed) (event : Event)
    (now : ℚ) : (t.periodicEdit env event now).wizardView.Typed := by
  have hgoes : ∀ step, t.periodicStep ≠ .None → t.periodicStep ≠ .Period →
      ({ t with periodicStep := step } : TuiDataFrameSet).wizardView.Typed :=
    fun step hnone hperiod => typed_goes h ((h.read.resolve_left hnone).resolve_left hperiod) step
  have hamplitude : ∀ event, ({ t with
      sinAmplitudeBuf := handleNum event t.sinAmplitudeBuf true } :
        TuiDataFrameSet).wizardView.Typed :=
    fun event => ⟨h.interval, h.read, mantissa_handleNum h.amplitude event, h.period, h.offset⟩
  have hperiod : ∀ event, ({ t with sinPeriodBuf := handleNum event t.sinPeriodBuf false } :
      TuiDataFrameSet).wizardView.Typed :=
    fun event => ⟨h.interval, h.read, h.amplitude, digits_handleNum h.period event, h.offset⟩
  have hoffset : ∀ event, ({ t with sinOffsetBuf := handleNum event t.sinOffsetBuf true } :
      TuiDataFrameSet).wizardView.Typed :=
    fun event => ⟨h.interval, h.read, h.amplitude, h.period, mantissa_handleNum h.offset event⟩
  unfold periodicEdit
  split
  · exact typed_resetPeriodic t
  · split
    · exact h
    · exact typed_periodEdit hstol h ‹_› _
    · exact typed_typeSelect h ‹_› _
    -- between the fields, within a field, or at the button
    all_goals first
      | exact hgoes _ (by simp [*]) (by simp [*])
      | exact hamplitude _
      | exact hperiod _
      | exact hoffset _
      | exact typed_resetPeriodic _

theorem typed_step (hstol : env.stol = stol) (h : t.wizardView.Typed) (l : Label) :
    (t.step env l).wizardView.Typed := by
  rcases wizard_step_cases env t l with hsame | hopened | ⟨event, now, -, -, hwizard⟩
  · rw [hsame]
    exact h
  · rw [hopened]
    exact typed_opened h
  · rw [hwizard]
    exact typed_periodicEdit hstol h event now

theorem Started.typed {cfgs : List InterfaceConfig} (h : t.Started env cfgs) :
    t.wizardView.Typed := by
  obtain ⟨handler, playbackCtrl, modelTabEnabled, -, -, rfl⟩ := h.exists_eq
  exact typed_empty

end Wizard

/-! ### Confirmations -/

/-- The text of the open editor for values. -/
def valueText (t : TuiDataFrameSet) : String :=
  if t.actionsEditing then t.actionsEditBuf else t.sendEditBuf

/-- The signal that the editor of the send tab sets. -/
def sendSlot (t : TuiDataFrameSet) : Option (Nat × Nat × Nat) :=
  t.selectedMsg.bind fun p =>
    (clampCursor t.sendSigCursor p.2.2.signals.length).map fun k => (p.1, p.2.1, k)

/-- The open editor is for something: a sin parameter, a signal of an action, or a signal on the send
tab. -/
inductive HasTarget (t : TuiDataFrameSet) : Prop where
  | param {info : ActionInfo} : t.actionsEditing = true → t.snapshot[t.actionsCursor]? = some info →
      info.typeName = "Sin" → HasTarget t
  | action {info : ActionInfo} : t.actionsEditing = true →
      t.snapshot[t.actionsCursor]? = some info → info.typeName ≠ "Sin" →
      t.actionSlot info ≠ none → HasTarget t
  | send : t.actionsEditing = false → t.periodicStep = .None → t.sendEditing = true →
      t.sendSlot ≠ none → HasTarget t

/-- The key confirms the text of an editor for values. -/
structure Confirms (t : TuiDataFrameSet) (event : Event) : Prop where
  alive : t.exited = false ∧ t.handler.terminated = false
  key : event = .Return ∨ event = .ArrowLeft
  target : t.HasTarget

/-- The editor is for the period of a sin action. -/
def EditsPeriod (t : TuiDataFrameSet) : Prop :=
  t.actionsEditing = true ∧ t.actionsSigCursor = 1 ∧
    ∃ info, t.snapshot[t.actionsCursor]? = some info ∧ info.typeName = "Sin"

theorem not_editsPeriod {t : TuiDataFrameSet} (h : t.actionsEditing = false) : ¬ t.EditsPeriod := by
  rintro ⟨hediting, -⟩
  rw [h] at hediting
  cases hediting

/-- The number is an integer in the range of `long`. -/
def IsLong (v : ℚ) : Prop := ∃ n : Int, v = n ∧ -2 ^ 63 ≤ n ∧ n < 2 ^ 63

/-- These are the numbers that the conversion to `long` keeps. -/
theorem toLong_eq_iff (v : ℚ) : (toLong v : ℚ) = v ↔ IsLong v := by
  constructor
  · intro heq
    refine ⟨toLong v, heq.symm, ?_⟩
    unfold toLong
    split
    · assumption
    · decide
  · rintro ⟨n, rfl, hrange⟩
    rw [toLong, truncate_intCast, if_pos hrange]

/-- If `stod` finds a number in front of the text, the text is a numeral as a whole, and for a period
the number is an integer in the range of `long`. -/
def ReadsWhole (r : Rounding) (t : TuiDataFrameSet) : Prop :=
  ∀ v, stod r t.valueText = some v → IsNumeral t.valueText ∧ (t.EditsPeriod → IsLong v)

/-- The step confirms no text that is only read in part. -/
def WholeNumeral (r : Rounding) (t : TuiDataFrameSet) (l : Label) : Prop :=
  ∀ event now, l = .key event now → t.Confirms event → t.ReadsWhole r

/-- The number that an edit of a sin parameter sets: the period is a `long`. -/
def usedValue (param : Int) (v : ℚ) : ℚ := if param = 1 then toLong v else v

/-- The numbers of a request are the ones that are shown, or the defaults of the empty fields. -/
def Shows (r : Rounding) (t : TuiDataFrameSet) : Request SendModels → Prop
  | .updateSinParam _ param v => MeansNearest r t.valueText (usedValue param v)
  | .addAction a =>
    (a.isPeriodic = true → Means t.periodicIntervalBuf a.period) ∧
    ∀ p, a.sinParams = some p →
      (if t.sinAmplitudeBuf.isEmpty then p.amplitude = 0
        else MeansNearest r t.sinAmplitudeBuf p.amplitude) ∧
      (if t.sinPeriodBuf.isEmpty then p.sinPeriod = 1000 else Means t.sinPeriodBuf p.sinPeriod) ∧
      (if t.sinOffsetBuf.isEmpty then p.offset = 0 else MeansNearest r t.sinOffsetBuf p.offset)
  | .addActionPaused _ | .removeAction _ | .togglePause _ | .updatePayload .. => True

/-- What a step sets, requests or goes on with is what is shown, and without a numeral a confirmation
changes nothing. -/
structure NumbersAsShown (env : Env) (r : Rounding) (t : TuiDataFrameSet) (l : Label) : Prop where
  committed : ∀ c, t.commit env l = some c → MeansNearest r t.valueText c.value
  requested : ∀ event now request, l = .key event now →
    (t.step env l).handler.loop.closures = t.handler.loop.closures ++ [request] → t.Shows r request
  interval : t.periodicStep = .Period → (t.step env l).periodicStep = .TypeSelect →
    Means t.periodicIntervalBuf (t.step env l).periodicIntervalMs
  rejected : ∀ event now, l = .key event now → t.Confirms event → ¬ IsNumeral t.valueText →
    (t.step env l).handler = t.handler

section Confirm

variable {env : Env} {r : Rounding} {t : TuiDataFrameSet} {event : Event}

theorem closures_post (t : TuiDataFrameSet) (q : Request SendModels) :
    (t.post env q).handler.loop.closures =
      if t.handler.terminated then t.handler.loop.closures
      else t.handler.loop.closures ++ [(q.allocate t.handler.nextPtr).1] :=
  ActionHandler.closures_request env.trig t.handler q

/-- Where `stod` finds no number, nothing happens. -/
theorem Confirms.handler_eq (h : t.Confirms event) (hparse : env.stod t.valueText = none) (now : ℚ) :
    (t.step env (.key event now)).handler = t.handler := by
  have hactions : t.actionsEditing = true → (t.step env (.key event now)).handler = t.handler := by
    intro hediting
    rw [valueText, if_pos hediting] at hparse
    rw [step_commit_actions h.alive hediting h.key]
    simp only [commitActionsEdit, commitPayload, hparse]
    repeat' split
    all_goals first | rfl | simp_all
  rcases h.target with ⟨hediting, -, -⟩ | ⟨hediting, -, -, -⟩ | ⟨hediting, hperiodic, hsending, -⟩
  · exact hactions hediting
  · exact hactions hediting
  · rw [valueText, if_neg (by simp [hediting])] at hparse
    rw [step_commit_send h.alive hediting hperiodic hsending h.key]
    simp only [commitSendEdit, hparse]
    repeat' split
    all_goals first | rfl | simp_all

/-- Where it finds one, that is set or requested. -/
theorem Confirms.cases (h : t.Confirms event) {w : ℚ} (htext : t.valueText.isEmpty = false)
    (hparse : env.stod t.valueText = some w) (now : ℚ) :
    (¬ t.EditsPeriod ∧ ∃ c, t.commit env (.key event now) = some c) ∨
      (t.step env (.key event now)).handler.loop.closures =
        t.handler.loop.closures ++ [.updateSinParam t.actionsCursor t.actionsSigCursor w] := by
  have halive : (t.exited || t.handler.terminated) = false := by simp [h.alive]
  have hkey : ∀ c, ifCommitKey event c = c := fun c => if_pos h.key
  rcases h.target with ⟨hediting, hentry, hsin⟩ | ⟨hediting, hentry, hconstant, hslot⟩ |
    ⟨hediting, hperiodic, hsending, hslot⟩
  · rw [valueText, if_pos hediting] at htext hparse
    apply Or.inr
    have hcommit : t.commitActionsEdit env =
        t.post env (.updateSinParam t.actionsCursor t.actionsSigCursor w) := by
      simp [commitActionsEdit, hentry, htext, hsin, hparse]
    rw [step_commit_actions h.alive hediting h.key, hcommit]
    exact (closures_post t _).trans (if_neg (by simp [h.alive]))
  · rw [valueText, if_pos hediting] at htext hparse
    obtain ⟨slot, hslot⟩ := Option.ne_none_iff_exists'.mp hslot
    obtain ⟨p, hmessage, hslot⟩ := Option.bind_eq_some_iff.mp hslot
    obtain ⟨k, hclamp, -⟩ := Option.map_eq_some_iff.mp hslot
    refine Or.inl ⟨?_, ⟨p.1, p.2.1, k, w⟩, ?_⟩
    · rintro ⟨-, -, info, hinfo, hsin⟩
      rw [hentry, Option.some.injEq] at hinfo
      exact hconstant (hinfo ▸ hsin)
    rw [commit, halive, if_neg Bool.false_ne_true, keyCommit, if_pos hediting, hkey, actionsCommit]
    simp [hentry, htext, hconstant, hmessage, hclamp, hparse]
  · rw [valueText, if_neg (by simp [hediting])] at htext hparse
    obtain ⟨slot, hslot⟩ := Option.ne_none_iff_exists'.mp hslot
    obtain ⟨p, hsel, hslot⟩ := Option.bind_eq_some_iff.mp hslot
    obtain ⟨k, hclamp, -⟩ := Option.map_eq_some_iff.mp hslot
    refine Or.inl ⟨not_editsPeriod hediting, ⟨p.1, p.2.1, k, w⟩, ?_⟩
    rw [commit, halive, if_neg Bool.false_ne_true, keyCommit, if_neg (by simp [hediting]),
      if_neg (by simp [hperiodic]), if_pos hsending, hkey, sendCommit]
    simp [htext, hsel, hclamp, hparse]

theorem exists_of_ifCommitKey {c : Commit} {o : Option Commit} (h : ifCommitKey event o = some c) :
    (event = .Return ∨ event = .ArrowLeft) ∧ o = some c := by
  rw [ifCommitKey] at h
  split at h
  · exact ⟨‹_›, h⟩
  · cases h

theorem target_of_actionsCommit (hediting : t.actionsEditing = true) {c : Commit}
    (h : t.actionsCommit env = some c) : t.HasTarget ∧ env.stod t.valueText = some c.value := by
  obtain ⟨info, hentry, h⟩ := Option.bind_eq_some_iff.mp h
  split at h
  · cases h
  · next hconstant =>
    obtain ⟨⟨i, mi, msg⟩, hmessage, h⟩ := Option.bind_eq_some_iff.mp h
    obtain ⟨k, hclamp, h⟩ := Option.bind_eq_some_iff.mp h
    obtain ⟨v, hparse, h⟩ := Option.bind_eq_some_iff.mp h
    cases h
    have hconstant : info.typeName ≠ "Sin" := by
      rintro hsin
      simp [hsin] at hconstant
    refine ⟨.action hediting hentry hconstant (by simp [actionSlot, hmessage, hclamp]), ?_⟩
    rw [valueText, if_pos hediting]
    exact hparse

theorem target_of_sendCommit (hediting : t.actionsEditing = false)
    (hperiodic : t.periodicStep = .None) (hsending : t.sendEditing = true) {c : Commit}
    (h : t.sendCommit env = some c) : t.HasTarget ∧ env.stod t.valueText = some c.value := by
  rw [sendCommit] at h
  split at h
  · cases h
  · obtain ⟨⟨i, mi, msg⟩, hsel, h⟩ := Option.bind_eq_some_iff.mp h
    obtain ⟨v, hparse, h⟩ := Option.bind_eq_some_iff.mp h
    obtain ⟨k, hclamp, h⟩ := Option.bind_eq_some_iff.mp h
    cases h
    refine ⟨.send hediting hperiodic hsending (by simp [sendSlot, hsel, hclamp]), ?_⟩
    rw [valueText, if_neg (by simp [hediting])]
    exact hparse

/-- What is committed is the number that `stod` finds in a text that is confirmed. -/
theorem exists_of_commit {l : Label} {c : Commit} (h : t.commit env l = some c) :
    ∃ event now, l = .key event now ∧ t.Confirms event ∧ env.stod t.valueText = some c.value := by
  rcases l with ⟨event, now⟩ | frame | timer | tick
  · rw [commit] at h
    split at h
    · cases h
    · next halive =>
      have halive : t.exited = false ∧ t.handler.terminated = false := by simpa using halive
      refine ⟨event, now, rfl, ?_⟩
      rw [keyCommit] at h
      split at h
      · next hediting =>
        obtain ⟨hkey, h⟩ := exists_of_ifCommitKey h
        obtain ⟨htarget, hparse⟩ := target_of_actionsCommit hediting h
        exact ⟨⟨halive, hkey, htarget⟩, hparse⟩
      · next hediting =>
        split at h
        · cases h
        · next hperiodic =>
          split at h
          · next hsending =>
            obtain ⟨hkey, h⟩ := exists_of_ifCommitKey h
            obtain ⟨htarget, hparse⟩ := target_of_sendCommit (by simpa using hediting)
              (not_not.mp hperiodic) hsending h
            exact ⟨⟨halive, hkey, htarget⟩, hparse⟩
          · cases h
  · cases h
  · cases h
  · cases h

/-! ### Requests -/

theorem eq_of_posted {t₁ : TuiDataFrameSet} (hloop : t₁.handler.loop = t.handler.loop)
    {q request : Request SendModels}
    (hnew : (t₁.post env q).handler.loop.closures = t.handler.loop.closures ++ [request]) :
    ∃ ptr, request = (q.allocate ptr).1 := by
  rw [closures_post, hloop] at hnew
  split at hnew
  · simp at hnew
  · rw [List.append_cancel_left_eq, List.singleton_inj] at hnew
    exact ⟨_, hnew.symm⟩

/-- The editor of the actions tab requests the number that `stod` finds in its text. -/
theorem posted_commitActionsEdit {request : Request SendModels}
    (hnew : (t.commitActionsEdit env).handler.loop.closures =
      t.handler.loop.closures ++ [request]) :
    (∃ idx payload, request = .updatePayload idx payload) ∨
      ∃ info w, t.snapshot[t.actionsCursor]? = some info ∧ info.typeName = "Sin" ∧
        env.stod t.actionsEditBuf = some w ∧
        request = .updateSinParam t.actionsCursor t.actionsSigCursor w := by
  unfold commitActionsEdit at hnew
  split at hnew
  · simp at hnew
  · next info hentry =>
    split at hnew
    · simp at hnew
    · split at hnew
      · next hsin =>
        split at hnew
        · simp at hnew
        · next w hparse =>
          obtain ⟨ptr, rfl⟩ := eq_of_posted rfl hnew
          exact Or.inr ⟨info, w, hentry, hsin, hparse, rfl⟩
      · unfold commitPayload at hnew
        split at hnew
        · simp at hnew
        · split at hnew
          · obtain ⟨ptr, rfl⟩ := eq_of_posted (t := t) (by rfl) hnew
            exact Or.inl ⟨_, _, rfl⟩
          · simp at hnew

/-- The wizard's periodic action has the interval that was read. -/
theorem shows_createPeriodicAction (hread : stol t.periodicIntervalBuf = some t.periodicIntervalMs)
    (h : t.wizardView.Typed) {request : Request SendModels}
    (hnew : (t.createPeriodicAction env t.periodicIntervalMs).handler.loop.closures =
      t.handler.loop.closures ++ [request]) : t.Shows r request := by
  unfold createPeriodicAction at hnew
  split at hnew
  · simp at hnew
  · obtain ⟨ptr, rfl⟩ := eq_of_posted rfl hnew
    refine ⟨fun _ => means_of_stol h.interval hread, ?_⟩
    rintro p ⟨⟩

theorem shows_of_parseOr {α : Type} {parse : String → Option α} {fallback v : α} {buf : String}
    {P : Prop} (h : parseOr parse fallback buf = some v) (hread : parse buf = some v → P) :
    if buf.isEmpty then v = fallback else P := by
  rw [parseOr] at h
  split at h
  · rw [if_pos ‹_›]
    exact (Option.some.inj h).symm
  · rw [if_neg ‹_›]
    exact hread h

/-- Its sin action has the numbers of its fields. -/
theorem shows_startSin (hstod : env.stod = stod r) (hstol : env.stol = stol)
    (hread : stol t.periodicIntervalBuf = some t.periodicIntervalMs) (h : t.wizardView.Typed)
    {now : ℚ} {request : Request SendModels}
    (hnew : (t.startSin env now).handler.loop.closures = t.handler.loop.closures ++ [request]) :
    t.Shows r request := by
  unfold startSin at hnew
  split at hnew
  · next amp spMs offset hamp hsp hoffset =>
    rw [hstod] at hamp hoffset
    rw [hstol] at hsp
    split at hnew
    · unfold createSinAction at hnew
      split at hnew
      · simp at hnew
      · split at hnew
        · simp at hnew
        · obtain ⟨ptr, rfl⟩ := eq_of_posted rfl hnew
          refine ⟨fun _ => means_of_stol h.interval hread, ?_⟩
          rintro p ⟨⟩
          exact ⟨shows_of_parseOr hamp (meansNearest_of_mantissa h.amplitude),
            shows_of_parseOr hsp (means_of_stol h.period),
            shows_of_parseOr hoffset (meansNearest_of_mantissa h.offset)⟩
    · simp at hnew
  · simp at hnew

theorem shows_periodicEdit (hstod : env.stod = stod r) (hstol : env.stol = stol)
    (h : t.wizardView.Typed) {now : ℚ} {request : Request SendModels}
    (hnew : (t.periodicEdit env event now).handler.loop.closures =
      t.handler.loop.closures ++ [request]) : t.Shows r request := by
  have hread : t.periodicStep ≠ .None → t.periodicStep ≠ .Period →
      stol t.periodicIntervalBuf = some t.periodicIntervalMs := fun hnone hperiod =>
    (h.read.resolve_left hnone).resolve_left hperiod
  have hquiet : ∀ {t' : TuiDataFrameSet}, t'.handler = t.handler →
      t'.handler.loop.closures ≠ t.handler.loop.closures ++ [request] := by
    intro t' hsame
    rw [hsame]
    simp
  unfold periodicEdit at hnew
  split at hnew
  · exact absurd hnew (hquiet rfl)
  · split at hnew
    · exact absurd hnew (hquiet rfl)
    · exact absurd hnew (hquiet (handler_periodEdit _))
    · next hstep _ =>
      unfold typeSelect at hnew
      split at hnew
      · exact absurd hnew (hquiet rfl)
      · exact absurd hnew (hquiet rfl)
      · split at hnew
        · exact shows_createPeriodicAction (hread (by simp [hstep]) (by simp [hstep])) h hnew
        · exact absurd hnew (hquiet rfl)
      · exact absurd hnew (hquiet rfl)
      · exact absurd hnew (hquiet rfl)
    -- only the button at the end makes an action
    all_goals first
      | exact shows_startSin hstod hstol (hread (by simp [*]) (by simp [*])) h hnew
      | exact absurd hnew (hquiet rfl)

/-- Away from the editors nothing with a number is requested. -/
theorem shows_of_wants (hediting : t.actionsEditing = false) (hperiodic : t.periodicStep = .None)
    {q : Request SendModels} (hwants : Wants env t q) (ptr : Nat) :
    t.Shows r (q.allocate ptr).1 := by
  rcases hwants with _ | ⟨_, _, _, _, hstep⟩ | ⟨_, _, _, _, _, _, hstep⟩ | ⟨hedit⟩ | ⟨hedit, hnone⟩
  · refine ⟨?_, ?_⟩
    · rintro ⟨⟩
    · rintro p ⟨⟩
  · rw [hperiodic] at hstep
    cases hstep
  · rw [hperiodic] at hstep
    cases hstep
  · rw [hediting] at hedit
    cases hedit
  · rcases q with _ | _ | _ | _ | _ | _
    · cases hnone
    · cases hnone
    · trivial
    · trivial
    · cases hedit
    · cases hedit

theorem handler_actionsEdit (hkey : ¬ (event = .Return ∨ event = .ArrowLeft)) :
    (t.actionsEdit env event).handler = t.handler := by
  unfold actionsEdit
  split
  · exact absurd (Or.inl rfl) hkey
  · exact absurd (Or.inr rfl) hkey
  · rfl
  · rfl
  · split <;> rfl
  all_goals rfl

/-- The editor of the actions tab. -/
theorem shows_actionsEdit (hstod : env.stod = stod r)
    (halive : t.exited = false ∧ t.handler.terminated = false) (hediting : t.actionsEditing = true)
    (hwhole : t.Confirms event → t.ReadsWhole r)
    {request : Request SendModels}
    (hnew : (t.actionsEdit env event).handler.loop.closures =
      t.handler.loop.closures ++ [request]) : t.Shows r request := by
  by_cases hkey : event = .Return ∨ event = .ArrowLeft
  · have hcommit : (t.actionsEdit env event).handler = (t.commitActionsEdit env).handler := by
      rcases hkey with rfl | rfl <;> rfl
    rw [hcommit] at hnew
    rcases posted_commitActionsEdit hnew with ⟨idx, payload, rfl⟩ |
      ⟨info, w, hentry, hsin, hparse, rfl⟩
    · trivial
    · have htext : t.valueText = t.actionsEditBuf := if_pos hediting
      rw [hstod, ← htext] at hparse
      obtain ⟨hnumeral, hperiod⟩ := hwhole ⟨halive, hkey, .param hediting hentry hsin⟩ w hparse
      have hused : usedValue t.actionsSigCursor w = w := by
        rw [usedValue]
        split
        · next hcursor =>
          rw [toLong_eq_iff]
          exact hperiod ⟨hediting, by exact_mod_cast hcursor, info, hentry, hsin⟩
        · rfl
      rw [Shows, hused]
      exact meansNearest_iff.mpr ⟨hnumeral, hparse⟩
  · rw [handler_actionsEdit hkey] at hnew
    simp at hnew

theorem shows_of_step (hstod : env.stod = stod r) (hstol : env.stol = stol)
    (h : t.wizardView.Typed)
    (hwhole : t.Confirms event → t.ReadsWhole r) {now : ℚ}
    {request : Request SendModels}
    (hnew : (t.step env (.key event now)).handler.loop.closures =
      t.handler.loop.closures ++ [request]) : t.Shows r request := by
  by_cases hdead : (t.exited || t.handler.terminated) = true
  · have hstep : t.step env (.key event now) = t := if_pos hdead
    rw [hstep] at hnew
    simp at hnew
  · have halive : t.exited = false ∧ t.handler.terminated = false := by simpa using hdead
    by_cases hediting : t.actionsEditing = true
    · have hstep : t.step env (.key event now) = t.actionsEdit env event := by
        simp [TuiDataFrameSet.step, halive.1, halive.2, onEvent, hediting]
      rw [hstep] at hnew
      exact shows_actionsEdit hstod halive hediting hwhole hnew
    · have hediting : t.actionsEditing = false := by simpa using hediting
      by_cases hperiodic : t.periodicStep = .None
      · rcases wanted_key env t event now with hsame | ⟨q, hwants, hadded⟩
        · rw [hsame] at hnew
          simp at hnew
        · rw [hadded, List.append_cancel_left_eq, List.singleton_inj] at hnew
          rw [← hnew]
          exact shows_of_wants hediting hperiodic hwants _
      · have hstep : t.step env (.key event now) = t.periodicEdit env event now := by
          simp [TuiDataFrameSet.step, halive.1, halive.2, onEvent, hediting, hperiodic]
        rw [hstep] at hnew
        exact shows_periodicEdit hstod hstol h hnew

theorem stol_of_return (hstep : t.periodicStep = .Period)
    (hselect : (t.periodEdit env .Return).periodicStep = .TypeSelect) :
    env.stol t.periodicIntervalBuf = some (t.periodEdit env .Return).periodicIntervalMs := by
  by_cases hempty : t.periodicIntervalBuf.isEmpty = true
  · simp [periodEdit, hempty, hstep] at hselect
  · rcases hparse : env.stol t.periodicIntervalBuf with _ | ms
    · simp [periodEdit, hparse, hstep] at hselect
    · simp [periodEdit, hempty, hparse]

theorem stol_of_select (hstep : t.periodicStep = .Period)
    (hselect : (t.periodEdit env event).periodicStep = .TypeSelect) :
    env.stol t.periodicIntervalBuf = some (t.periodEdit env event).periodicIntervalMs := by
  have hstays : t.periodicStep ≠ .TypeSelect := by simp [hstep]
  rcases event with _ | _ | _ | _ | _ | _ | _ | _ | c | _
  case Return => exact stol_of_return hstep hselect
  case ArrowRight => exact stol_of_return hstep hselect
  case Character =>
    rw [periodEdit] at hselect
    split at hselect <;> exact absurd hselect hstays
  all_goals exact absurd hselect hstays

/-- The first step of the wizard is left with the interval that is shown. -/
theorem interval_of_step (hstol : env.stol = stol) (h : t.wizardView.Typed) {l : Label}
    (hstep : t.periodicStep = .Period) (hselect : (t.step env l).periodicStep = .TypeSelect) :
    Means t.periodicIntervalBuf (t.step env l).periodicIntervalMs := by
  rcases wizard_step_cases env t l with hsame | hopened | ⟨event, now, -, -, hwizard⟩
  · rw [(WizardView.mk.inj hsame).1, hstep] at hselect
    cases hselect
  · rw [(WizardView.mk.inj hopened).1] at hselect
    cases hselect
  · rw [hwizard] at hselect ⊢
    by_cases hescape : event = .Escape
    · unfold periodicEdit at hselect
      rw [if_pos hescape] at hselect
      cases hselect
    · have hedit : t.periodicEdit env event now = t.periodEdit env event := by
        unfold periodicEdit
        rw [if_neg hescape, hstep]
      rw [hedit] at hselect ⊢
      have hread := stol_of_select hstep hselect
      rw [hstol] at hread
      exact means_of_stol h.interval hread

theorem numbersAsShown_iff (hstod : env.stod = stod r) (hstol : env.stol = stol)
    (h : t.wizardView.Typed) (l : Label) : t.NumbersAsShown env r l ↔ t.WholeNumeral r l := by
  constructor
  · rintro hshown event now rfl hconfirms w hparse
    have htext : t.valueText.isEmpty = false := isEmpty_of_stod hparse
    have hparse' : env.stod t.valueText = some w := hstod ▸ hparse
    rcases hconfirms.cases htext hparse' now with ⟨hperiod, c, hcommit⟩ | hnew
    · exact ⟨(meansNearest_iff.mp (hshown.committed c hcommit)).1, fun h => absurd h hperiod⟩
    · obtain ⟨hnumeral, hused⟩ := meansNearest_iff.mp (hshown.requested event now _ rfl hnew)
      refine ⟨hnumeral, ?_⟩
      rintro ⟨-, hcursor, -⟩
      rw [hparse, Option.some.injEq, usedValue, if_pos (by exact_mod_cast hcursor)] at hused
      exact (toLong_eq_iff w).mp hused.symm
  · intro hwhole
    refine ⟨?_, ?_, interval_of_step hstol h, ?_⟩
    · intro c hcommit
      obtain ⟨event, now, rfl, hconfirms, hparse⟩ := exists_of_commit hcommit
      rw [hstod] at hparse
      exact meansNearest_iff.mpr ⟨(hwhole event now rfl hconfirms c.value hparse).1, hparse⟩
    · rintro event now request rfl hnew
      exact shows_of_step hstod hstol h (hwhole event now rfl) hnew
    · rintro event now rfl hconfirms hnot
      apply hconfirms.handler_eq
      rw [hstod, Option.eq_none_iff_forall_ne_some]
      exact fun v hv => hnot (hwhole event now rfl hconfirms v hv).1

end Confirm

/-- Through any run, the numbers that are used are the numbers that are shown exactly if every text
that is confirmed in an editor for values and begins with a numeral is one (for a period, an
integer in the range of `long`). -/
theorem numbers_as_shown_iff (env : Env) (r : Rounding) (cfgs : List InterfaceConfig)
    (t₀ : TuiDataFrameSet) (hstart : t₀.Started (env.withNumerals r) cfgs) (ls : List Label) :
    Meets (step (env.withNumerals r)) (NumbersAsShown (env.withNumerals r) r) t₀ ls ↔
      Meets (step (env.withNumerals r)) (WholeNumeral r) t₀ ls := by
  have hstod := env.stod_withNumerals r
  have hstol := env.stol_withNumerals r
  apply meets_iff_meets (I := fun t => t.wizardView.Typed)
  · exact fun _ l h => typed_step hstol h l
  · exact fun _ l h => numbersAsShown_iff hstod hstol h l
  · exact hstart.typed

/-- 12 is typed as the serial number. -/
theorem numbers_as_shown_twelve :
    Meets (step (serialEnv.withNumerals .unlimited))
      (NumbersAsShown (serialEnv.withNumerals .unlimited) .unlimited) serialTui
      (typedSerial ['1', '2']) := by
  rw [numbers_as_shown_iff serialEnv .unlimited serialInterfaces serialTui (started_serialTui _)]
  have hwhole : Meets (step (serialEnv.withNumerals .unlimited))
      (fun t _ => (IsNumeral t.valueText ∨ stod .unlimited t.valueText = none) ∧
        t.actionsEditing = false) serialTui (typedSerial ['1', '2']) := by decide +kernel
  apply hwhole.mono
  rintro t l ⟨htext, hediting⟩ event now - - v hv
  exact ⟨htext.resolve_right (by simp [hv]), fun hperiod => absurd hperiod (not_editsPeriod hediting)⟩

/-- 1-2 is typed, and 1 is set. -/
theorem numbers_not_as_shown :
    ¬∀ (env : Env) (r : Rounding) (cfgs : List InterfaceConfig) (t₀ : TuiDataFrameSet),
      t₀.Started (env.withNumerals r) cfgs → ∀ ls : List Label,
      Meets (step (env.withNumerals r)) (NumbersAsShown (env.withNumerals r) r) t₀ ls := by
  intro h
  have hall := h serialEnv .unlimited serialInterfaces serialTui (started_serialTui _)
    (typedSerial ['1', '-', '2'])
  have hsplit : typedSerial ['1', '-', '2'] =
      (typedSerial ['1', '-', '2']).dropLast ++ [.key .Return 0] := rfl
  rw [hsplit, meets_append] at hall
  have hcommit : (run (step (serialEnv.withNumerals .unlimited)) serialTui
      (typedSerial ['1', '-', '2']).dropLast).commit (serialEnv.withNumerals .unlimited)
        (.key .Return 0) = some ⟨0, 0, 0, 1⟩ := by decide +kernel
  have hnumeral := (meansNearest_iff.mp (hall.2.1.committed _ hcommit)).1
  revert hnumeral
  decide +kernel

end TuiDataFrameSet

end Caneo
