import Caneo.Tui

/-!
# What keys leave alone

Most keys have nothing to do with the tab strip of the trace tab, nor with the wizard for periodic and
sin actions. `keyFrame_onEvent` goes through all keys once and says which ones have.
-/

namespace Caneo

namespace TuiDataFrameSet

/-- The tab strip of the trace tab and the position in it. -/
def traceTabs (t : TuiDataFrameSet) : Nat × List (String × List (BitVec 32)) :=
  (t.subTabTrace, t.sets)

end TuiDataFrameSet

/-- What is entered in the wizard. -/
structure WizardView where
  step : PeriodicStep
  intervalBuf : String
  intervalMs : Int
  amplitudeBuf : String
  periodBuf : String
  offsetBuf : String
deriving DecidableEq

namespace TuiDataFrameSet

def wizardView (t : TuiDataFrameSet) : WizardView where
  step := t.periodicStep
  intervalBuf := t.periodicIntervalBuf
  intervalMs := t.periodicIntervalMs
  amplitudeBuf := t.sinAmplitudeBuf
  periodBuf := t.sinPeriodBuf
  offsetBuf := t.sinOffsetBuf

def untouched (t : TuiDataFrameSet) : (Nat × List (String × List (BitVec 32))) × WizardView :=
  (t.traceTabs, t.wizardView)

section Keys

variable {env : Env} {t : TuiDataFrameSet}

theorem untouched_createSingleAction : (t.createSingleAction env).untouched = t.untouched := by
  rw [createSingleAction]
  split <;> rfl

theorem untouched_createPeriodicAction (period : Int) :
    (t.createPeriodicAction env period).untouched = t.untouched := by
  rw [createPeriodicAction]
  split <;> rfl

theorem untouched_createSinAction (now amplitude : ℚ) (sinPeriod : Int) (offset : ℚ) :
    (t.createSinAction env now amplitude sinPeriod offset).untouched = t.untouched := by
  rw [createSinAction]
  repeat' split
  all_goals rfl

theorem untouched_commitActionsEdit : (t.commitActionsEdit env).untouched = t.untouched := by
  simp only [commitActionsEdit, commitPayload]
  repeat' split
  all_goals rfl

theorem untouched_actionsEdit (event : Event) :
    (t.actionsEdit env event).untouched = t.untouched := by
  unfold actionsEdit
  split
  · exact untouched_commitActionsEdit
  · exact untouched_commitActionsEdit
  · rfl
  · rfl
  · split <;> rfl
  all_goals rfl

theorem untouched_sendEdit (event : Event) : (t.sendEdit env event).untouched = t.untouched := by
  unfold sendEdit
  simp only [commitSendEdit]
  repeat' split
  all_goals rfl

theorem untouched_traceSearch (event : Event) : (t.traceSearch event).untouched = t.untouched := by
  unfold traceSearch
  split <;> rfl

theorem untouched_playbackFilter (ctrl : PlaybackController) (event : Event) :
    (t.playbackFilter ctrl event).untouched = t.untouched := by
  unfold playbackFilter
  repeat' split
  all_goals rfl

theorem untouched_actionSignals (event : Event) :
    (t.actionSignals env event).untouched = t.untouched := by
  unfold actionSignals
  dsimp only
  repeat' split
  all_goals rfl

theorem untouched_msgList (event : Event) : (t.msgList event).untouched = t.untouched := by
  unfold msgList
  repeat' split
  all_goals rfl

theorem untouched_playbackList (ctrl : PlaybackController) (event : Event) :
    (t.playbackList ctrl event).untouched = t.untouched := by
  unfold playbackList
  repeat' split
  all_goals rfl

theorem untouched_actionList (event : Event) : (t.actionList env event).untouched = t.untouched := by
  unfold actionList
  simp only [removeSelected]
  repeat' split
  all_goals rfl

theorem untouched_mainTabs (event : Event) : (t.mainTabs event).untouched = t.untouched := by
  unfold mainTabs
  split <;> rfl

theorem untouched_shortcut {event : Event} {t' : TuiDataFrameSet} (h : t.shortcut event = some t') :
    t'.untouched = t.untouched := by
  unfold shortcut at h
  repeat' split at h
  all_goals cases h
  all_goals rfl

/-! ### The frame of a key -/

/-- The wizard at its first step. -/
def opened (w : WizardView) : WizardView := { w with step := .Period, intervalBuf := "" }

/-- A key leaves strip and wizard alone, turns the strip, goes through the wizard or opens it. -/
inductive KeyFrame (env : Env) (t : TuiDataFrameSet) (event : Event) (now : ℚ) :
    TuiDataFrameSet → Prop where
  | keeps {t' : TuiDataFrameSet} : t'.untouched = t.untouched → KeyFrame env t event now t'
  | turns (turn : Nat) : event = .ArrowLeft ∨ event = .ArrowRight → t.navLevel = 1 → t.mainTab = 0 →
      KeyFrame env t event now (subTabs.turned t turn)
  | wizard : t.periodicStep ≠ .None → KeyFrame env t event now (t.periodicEdit env event now)
  | opens {t' : TuiDataFrameSet} : t'.traceTabs = t.traceTabs → t'.wizardView = opened t.wizardView →
      KeyFrame env t event now t'

variable {event : Event} {now : ℚ}

theorem keyFrame_openSignal : KeyFrame env t event now (t.openSignal env) := by
  rw [openSignal]
  repeat' split
  · exact .keeps rfl
  · exact .keeps rfl
  · exact .keeps untouched_createSingleAction
  · exact .opens rfl rfl

theorem keyFrame_sigList : KeyFrame env t event now (t.sigList env event) := by
  unfold sigList
  split
  · exact .keeps rfl
  · exact keyFrame_openSignal
  · exact keyFrame_openSignal
  · exact .keeps rfl
  · apply KeyFrame.keeps
    dsimp only
    split <;> rfl
  · exact .keeps untouched_createSingleAction
  · exact .opens rfl rfl
  · exact .keeps rfl

theorem keyFrame_turned (hevent : event = .ArrowLeft ∨ event = .ArrowRight)
    (hlevel : t.navLevel = 1) (turn : Nat) : KeyFrame env t event now (subTabs.turned t turn) := by
  by_cases htab : t.mainTab = 0
  · exact .turns turn hevent hlevel htab
  · apply KeyFrame.keeps
    rw [subTabs.turned, if_neg htab]
    rfl

theorem keyFrame_subTabs (hlevel : t.navLevel = 1) : KeyFrame env t event now (t.subTabs event) := by
  unfold subTabs
  split
  · apply KeyFrame.keeps
    split <;> rfl
  · apply KeyFrame.keeps
    repeat' split
    all_goals rfl
  · exact keyFrame_turned (Or.inr rfl) hlevel _
  · exact keyFrame_turned (Or.inl rfl) hlevel _
  · exact .keeps rfl

theorem keyFrame_view : KeyFrame env t event now (t.view env event) := by
  unfold view
  split
  · exact keyFrame_sigList
  · split
    · exact .keeps (untouched_playbackFilter _ event)
    · split
      · exact .keeps (untouched_actionSignals event)
      · exact .keeps (untouched_msgList event)
  · split
    · exact .keeps (untouched_actionSignals event)
    · exact .keeps (untouched_msgList event)
  · next hlevel _ =>
    split
    · exact .keeps (untouched_playbackList _ event)
    · split
      · exact .keeps (untouched_actionList event)
      · exact keyFrame_subTabs hlevel
  · next hlevel _ =>
    split
    · exact .keeps (untouched_actionList event)
    · exact keyFrame_subTabs hlevel
  · exact .keeps (untouched_mainTabs event)

variable (env t event now) in
theorem keyFrame_onEvent : KeyFrame env t event now (t.onEvent env event now) := by
  rw [onEvent]
  split
  · exact .keeps (untouched_actionsEdit event)
  · split
    · next hwizard => exact .wizard hwizard
    · split
      · exact .keeps (untouched_sendEdit event)
      · split
        · exact .keeps (untouched_traceSearch event)
        · rcases hshortcut : t.shortcut event with _ | t'
          · exact keyFrame_view
          · exact .keeps (untouched_shortcut hshortcut)

end Keys

/-! ### Steps -/

/-- What a step does to the wizard. -/
theorem wizard_step_cases (env : Env) (t : TuiDataFrameSet) (l : Label) :
    (t.step env l).wizardView = t.wizardView ∨
      (t.step env l).wizardView = opened t.wizardView ∨
      ∃ event now, l = .key event now ∧ t.periodicStep ≠ .None ∧
        t.step env l = t.periodicEdit env event now := by
  rcases l with ⟨event, now⟩ | frame | timer | tick
  · rw [step]
    split
    · exact Or.inl rfl
    · have hframe := keyFrame_onEvent env t event now
      generalize t.onEvent env event now = t' at hframe ⊢
      rcases hframe with hsame | ⟨turn, -, -, -⟩ | hwizard | ⟨-, hopened⟩
      · exact Or.inl (congrArg Prod.snd hsame)
      · apply Or.inl
        rw [subTabs.turned]
        repeat' split
        all_goals rfl
      · exact Or.inr (Or.inr ⟨event, now, rfl, hwizard, rfl⟩)
      · exact Or.inr (Or.inl hopened)
  · exact Or.inl rfl
  · exact Or.inl rfl
  · exact Or.inl rfl

end TuiDataFrameSet

end Caneo
