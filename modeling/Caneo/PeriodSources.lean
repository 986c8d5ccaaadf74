import Caneo.ActionPeriods
import Caneo.GuiEdits
import Caneo.KeyFrames
import Caneo.KeyRequests
import Caneo.PresetActions
import Caneo.TuiEdits

/-!
# Where periods come from

The GUI's windows raise every period to at least 1 before they use it, and the TUI's wizard does not
go on without a positive interval and starts no sin with another period. Two ways are left: a preset
file, whose numbers are taken as they are, and the TUI's editor of a sin action, which commits any
number.
-/

namespace Caneo

open BitField EventLoop Runs ActionHandler

/-! ### The wizard of the TUI -/

namespace TuiDataFrameSet

/-- Past its first step the wizard has an interval. -/
def WizardOk (t : TuiDataFrameSet) : Prop :=
  t.periodicStep = .None ∨ t.periodicStep = .Period ∨ 1 ≤ t.periodicIntervalMs

section Wizard

variable {env : Env} {t : TuiDataFrameSet}

theorem wizardOk_resetPeriodic : t.resetPeriodic.WizardOk := Or.inl rfl

theorem WizardOk.one_le (h : t.WizardOk) (hnone : t.periodicStep ≠ .None)
    (hperiod : t.periodicStep ≠ .Period) : 1 ≤ t.periodicIntervalMs := by
  rcases h with hstep | hstep | hms
  · exact absurd hstep hnone
  · exact absurd hstep hperiod
  · exact hms

theorem wizardOk_periodEdit (hstep : t.periodicStep = .Period) (event : Event) :
    (t.periodEdit env event).WizardOk := by
  have hquiet : t.WizardOk := Or.inr (Or.inl hstep)
  unfold periodEdit
  repeat' split
  all_goals first | exact hquiet | exact Or.inr (Or.inr ‹_›) | exact Or.inr (Or.inl hstep)

/-- The steps after the first one leave the interval alone. -/
theorem wizardOk_periodicEdit (h : t.WizardOk) (event : Event) (now : ℚ) :
    (t.periodicEdit env event now).WizardOk := by
  unfold periodicEdit
  split
  · exact wizardOk_resetPeriodic
  · by_cases hnone : t.periodicStep = .None
    · rw [hnone]
      exact h
    · by_cases hperiod : t.periodicStep = .Period
      · rw [hperiod]
        exact wizardOk_periodEdit hperiod event
      · have hms := h.one_le hnone hperiod
        split
        · exact h
        · exact absurd ‹_› hperiod
        · unfold typeSelect
          repeat' split
          all_goals first | exact wizardOk_resetPeriodic | exact Or.inr (Or.inr hms)
        all_goals first | exact wizardOk_resetPeriodic | exact Or.inr (Or.inr hms)

variable (env) in
theorem WizardOk.step (h : t.WizardOk) (l : Label) : (t.step env l).WizardOk := by
  rcases wizard_step_cases env t l with hsame | hopened | ⟨event, now, -, -, hwizard⟩
  · obtain ⟨hstep, -, hms, -⟩ := WizardView.mk.inj hsame
    rw [WizardOk, hstep, hms]
    exact h
  · exact Or.inr (Or.inl (WizardView.mk.inj hopened).1)
  · rw [hwizard]
    exact wizardOk_periodicEdit h event now

end Wizard

/-! ### The TUI -/

section Periods

variable {env : Env} {cfgs : List InterfaceConfig} {t : TuiDataFrameSet}

/-- An action of the wizard has the interval that was read, and a sin action a positive period. -/
theorem WizardOk.addsOk (h : t.WizardOk) {r : Request SendModels} (hwants : Wants env t r) :
    r.AddsOk := by
  cases hwants with
  | single =>
    rintro a ⟨⟩
    exact Action.periodsOk_newSingle _ _ _ _
  | periodic _ _ _ _ hstep =>
    rintro a ⟨⟩
    rw [Action.periodsOk_newPeriodic]
    apply h.one_le
    · simp [hstep]
    · simp [hstep]
  | sin _ _ _ _ _ _ hstep hperiod =>
    rintro a ⟨⟩
    rw [Action.periodsOk_newSin]
    refine ⟨?_, hperiod⟩
    apply h.one_le
    · simp [hstep]
    · simp [hstep]
  | edit _ hedit _ =>
    apply Request.addsOk_of_none
    cases r with
    | addAction b => cases hedit
    | addActionPaused b => cases hedit
    | _ => rfl
  | entry _ hnone => exact Request.addsOk_of_none hnone

/-- No edit that the io thread runs sets the period of a sin action below 1 ms. -/
def EditOk (t : TuiDataFrameSet) (l : Label) : Prop := ∀ x, io l = some x → t.handler.SinEditOk x

instance (t : TuiDataFrameSet) (l : Label) : Decidable (t.EditOk l) :=
  inferInstanceAs (Decidable (∀ x ∈ io l, t.handler.SinEditOk x))

/-- A TUI whose presets have their periods, like the actions of its wizard. -/
structure Timed (env : Env) (cfgs : List InterfaceConfig) (t : TuiDataFrameSet) : Prop where
  sound : t.Sound env cfgs
  wizard : t.WizardOk
  arrivals : t.handler.ArrivalsOk

theorem Timed.step (h : t.Timed env cfgs) (l : Label) : (t.step env l).Timed env cfgs where
  sound := h.sound.step l
  wizard := h.wizard.step env l
  arrivals := by
    cases l with
    | key event now =>
      rcases wanted_key env t event now with hsame | ⟨r, hwants, hadded⟩
      · unfold ArrivalsOk
        rw [hsame]
        exact h.arrivals
      · have hnew := (r.addsOk_allocate t.handler.nextPtr).mpr (h.wizard.addsOk hwants)
        unfold ArrivalsOk
        rw [hadded, List.forall_mem_append, List.forall_mem_singleton]
        exact ⟨h.arrivals, hnew⟩
    | frame frame => exact h.arrivals
    | expire timer =>
      apply h.arrivals.step h.sound.identities
      rintro r ⟨⟩
    | run tick =>
      apply h.arrivals.step h.sound.identities
      rintro r ⟨⟩

/-- As long as the presets have their periods, the edits of the TUI decide. -/
theorem Timed.periodsOk_run_iff (h : t.Timed env cfgs) (hok : t.handler.PeriodsOk)
    (ls : List Label) :
    (∀ k, (run (TuiDataFrameSet.step env) t (ls.take k)).handler.PeriodsOk) ↔
      Meets (TuiDataFrameSet.step env) EditOk t ls := by
  refine (hosts env).periodsOk_run_iff (J := fun t : TuiDataFrameSet => t.Timed env cfgs) (fun _ l h => h.step l)
    (fun _ h => h.sound.identities) ?_ h hok ls
  intro t l h
  unfold HostKeepsPeriods EditOk
  exact forall₂_congr fun x _ => h.arrivals.keepsPeriods_iff x

theorem allPeriodsOk_run_iff (hsound : t.Sound env cfgs) (hwizard : t.WizardOk)
    (hok : t.handler.PeriodsOk) (ls : List Label) :
    (∀ k, (run (TuiDataFrameSet.step env) t (ls.take k)).handler.AllPeriodsOk) ↔
      t.handler.ArrivalsOk ∧ Meets (TuiDataFrameSet.step env) EditOk t ls := by
  constructor
  · intro hall
    have htimed : t.Timed env cfgs := ⟨hsound, hwizard, (hall 0).2⟩
    exact ⟨htimed.arrivals, (htimed.periodsOk_run_iff hok ls).mp fun k => (hall k).1⟩
  · rintro ⟨harrivals, hmeets⟩ k
    have htimed : t.Timed env cfgs := ⟨hsound, hwizard, harrivals⟩
    have hk : (run (TuiDataFrameSet.step env) t (ls.take k)).Timed env cfgs :=
      run_invariant (P := fun t : TuiDataFrameSet => t.Timed env cfgs) (fun _ l h => h.step l)
        htimed _
    exact ⟨(htimed.periodsOk_run_iff hok ls).mpr hmeets k, hk.arrivals⟩

end Periods

end TuiDataFrameSet

/-! ### The GUI -/

namespace Gui

variable {env : Env} {cfgs : List InterfaceConfig} {g : Gui}

theorem Asks.addsOk {models : SendModels} {r : Request SendModels} (h : Asks env models r) :
    r.AddsOk := by
  cases h with
  | single =>
    rintro a ⟨⟩
    exact Action.periodsOk_newSingle _ _ _ _
  | periodic _ _ _ _ hperiod =>
    rintro a ⟨⟩
    exact (Action.periodsOk_newPeriodic _ _ _ _ _).mpr hperiod
  | sin _ _ _ _ _ _ _ _ hinterval hperiod =>
    rintro a ⟨⟩
    exact (Action.periodsOk_newSin _ _ _ _ _ _ _ _ _).mpr ⟨hinterval, hperiod⟩
  | _ => exact Request.addsOk_of_none rfl

theorem Asks.isSinPeriod {models : SendModels} {r : Request SendModels} (h : Asks env models r)
    {edit : Nat × ℚ} (hedit : r.sinPeriodEdit = some edit) : IsSinPeriod edit.2 := by
  cases h with
  | updateSinParam idx hvalue =>
    rw [Request.sinPeriodEdit] at hedit
    split at hedit
    · next hparam =>
      cases hedit
      exact hvalue hparam
    · cases hedit
  | _ => cases hedit

/-- A GUI whose presets have their periods: all its edits do. -/
structure Timed (env : Env) (cfgs : List InterfaceConfig) (h : ActionHandler SendModels) : Prop where
  reached : h.Reached env.trig (env.Presents cfgs)
  arrivals : h.ArrivalsOk
  edits : ∀ r ∈ h.loop.closures, ∀ edit ∈ r.sinPeriodEdit, IsSinPeriod edit.2

theorem keptByAsks_timed (env : Env) (cfgs : List InterfaceConfig) :
    KeptByAsks env (Timed env cfgs) where
  setValues h i mi values ht :=
    ⟨(keptByFrames_reached env cfgs).setValues h i mi values ht.reached, ht.arrivals, ht.edits⟩
  request h r hasks ht := by
    refine ⟨(keptByFrames_reached env cfgs).keptByAsks.request h r hasks ht.reached, ?_, ?_⟩
    · cases hterm : h.terminated with
      | true =>
        unfold ArrivalsOk
        rw [closures_request, if_pos hterm]
        exact ht.arrivals
      | false => exact (arrivalsOk_request_iff env.trig hterm r).mpr ⟨ht.arrivals, hasks.addsOk⟩
    · rw [closures_request]
      split
      · exact ht.edits
      · rw [List.forall_mem_append, List.forall_mem_singleton, Request.sinPeriodEdit_allocate]
        exact ⟨ht.edits, fun _ hedit => hasks.isSinPeriod hedit⟩

theorem Timed.own {h : ActionHandler SendModels} (ht : Timed env cfgs h)
    {l : ActionHandler.Label SendModels} (hl : ∀ r, l ≠ .request r)
    (hreached : (ActionHandler.step env.trig h l).Reached env.trig (env.Presents cfgs)) :
    Timed env cfgs (ActionHandler.step env.trig h l) where
  reached := hreached
  arrivals := ht.arrivals.step ht.reached.identities env.trig hl
  edits r hr := by
    rcases closures_step ht.reached.identities env.trig l hr with hold | ⟨r', hrequest, -⟩
    · exact ht.edits r hold
    · exact absurd hrequest (hl r')

theorem Timed.step (ht : Timed env cfgs g.handler) (l : Label) :
    Timed env cfgs (g.step env l).handler := by
  apply (keptByAsks_timed env cfgs).step _ _ ht l
  · intro h timer ht
    apply ht.own _ (ht.reached.expire timer)
    rintro r ⟨⟩
  · intro h tick ht
    apply ht.own _ (ht.reached.run tick)
    rintro r ⟨⟩

/-- So every closure that is run keeps the periods. -/
theorem Timed.hostKeepsPeriods (ht : Timed env cfgs g.handler) (l : Label) :
    HostKeepsPeriods (fun g => g.handler) io g l := by
  intro x _
  rw [ht.arrivals.keepsPeriods_iff]
  intro r hposted edit hedit a _ _
  exact ht.edits r (mem_closures_of_posted hposted) edit hedit

theorem Timed.allPeriodsOk_run (ht : Timed env cfgs g.handler) (hok : g.handler.PeriodsOk)
    (ls : List Label) : (run (Gui.step env) g ls).handler.AllPeriodsOk := by
  have hrun : Timed env cfgs (run (Gui.step env) g ls).handler ∧
      (run (Gui.step env) g ls).handler.PeriodsOk := by
    apply run_invariant (P := fun g : Gui => Timed env cfgs g.handler ∧ g.handler.PeriodsOk) _
      ⟨ht, hok⟩
    rintro g l ⟨ht, hok⟩
    refine ⟨ht.step l, ?_⟩
    exact ((hosts env).periodsOk_step_iff ht.reached.identities hok l).mpr (ht.hostKeepsPeriods l)
  exact ⟨hrun.2, hrun.1.arrivals⟩

end Gui

/-! ### Presets -/

/-- The actions of the preset files have their periods. -/
def Env.PresetsOk (env : Env) (now : ℚ) (cfgs : List InterfaceConfig) : Prop :=
  ∀ r ∈ env.presetRequests now cfgs, r.AddsOk

section Presets

variable {env : Env} {cfgs : List InterfaceConfig} {now : ℚ} {h : ActionHandler SendModels}

theorem Env.start_loadPresets
    (hload : env.loadPresets now (ActionHandler.init (env.sendModels cfgs)) cfgs = .ok h) :
    h.actions = [] ∧ ∀ r ∈ h.loop.closures, ∀ edit ∈ r.sinPeriodEdit, IsSinPeriod edit.2 := by
  refine env.loadPresets_invariant (I := fun h => h.actions = [] ∧
    ∀ r ∈ h.loop.closures, ∀ edit ∈ r.sinPeriodEdit, IsSinPeriod edit.2) ?_ ⟨rfl, ?_⟩ hload
  · rintro h a ⟨hactions, hedits⟩ -
    refine ⟨(undisturbed_request env.trig h _).actions.trans hactions, ?_⟩
    rw [closures_request]
    split
    · exact hedits
    · rw [List.forall_mem_append, List.forall_mem_singleton]
      refine ⟨hedits, ?_⟩
      rintro edit ⟨⟩
  · intro r hr
    cases hr

/-- The closures at the start are those of the presets. -/
theorem Env.arrivalsOk_loadPresets_iff
    (hload : env.loadPresets now (ActionHandler.init (env.sendModels cfgs)) cfgs = .ok h) :
    h.ArrivalsOk ↔ env.PresetsOk now cfgs := by
  rw [env.loadPresets_eq hload, arrivalsOk_requests_iff env.trig rfl]
  refine and_iff_right ?_
  intro r hr
  cases hr

end Presets

/-! ### All ways -/

/-- The periods of all actions, through any run: the presets decide, and in the TUI the edits of sin
actions. -/
theorem periods_ok_iff (env : Env) (cfgs : List InterfaceConfig) :
    (∀ now modelTabEnabled t₀, TuiDataFrameSet.runTui env now modelTabEnabled cfgs = .ok t₀ →
        ∀ ls : List TuiDataFrameSet.Label,
      (∀ k, (run (TuiDataFrameSet.step env) t₀ (ls.take k)).handler.AllPeriodsOk) ↔
        env.PresetsOk now cfgs ∧
          Meets (TuiDataFrameSet.step env) TuiDataFrameSet.EditOk t₀ ls) ∧
    (∀ messages, ∀ ls : List TuiDataFrameSet.Label,
      (∀ k, (run (TuiDataFrameSet.step env) (TuiDataFrameSet.runPlayback env messages cfgs)
          (ls.take k)).handler.AllPeriodsOk) ↔
        Meets (TuiDataFrameSet.step env) TuiDataFrameSet.EditOk
          (TuiDataFrameSet.runPlayback env messages cfgs) ls) ∧
    (∀ now g₀, Gui.runGui env now cfgs = .ok g₀ → ∀ ls : List Gui.Label,
      (∀ k, (run (Gui.step env) g₀ (ls.take k)).handler.AllPeriodsOk) ↔
        env.PresetsOk now cfgs) := by
  refine ⟨?_, ?_, ?_⟩
  · intro now modelTabEnabled t₀ hstart ls
    have hsound := TuiDataFrameSet.sound_runTui hstart
    obtain ⟨h, hload, rfl⟩ := TuiDataFrameSet.exists_of_runTui hstart
    rw [← env.arrivalsOk_loadPresets_iff hload]
    exact TuiDataFrameSet.allPeriodsOk_run_iff hsound (Or.inl rfl)
      (periodsOk_of_nil (env.start_loadPresets hload).1) ls
  · intro messages ls
    rw [TuiDataFrameSet.allPeriodsOk_run_iff (TuiDataFrameSet.sound_runPlayback env messages cfgs)
      (Or.inl rfl) (periodsOk_of_nil rfl) ls]
    apply and_iff_right
    intro r hr
    cases hr
  · intro now g₀ hstart ls
    have hsound := Gui.sound_runGui hstart
    obtain ⟨h, models, hload, -, rfl⟩ := Gui.exists_of_runGui hstart
    obtain ⟨hactions, hedits⟩ := env.start_loadPresets hload
    rw [← env.arrivalsOk_loadPresets_iff hload]
    constructor
    · exact fun hall => (hall 0).2
    · intro harrivals k
      have htimed : Gui.Timed env cfgs { h with world := models } := ⟨hsound, harrivals, hedits⟩
      exact Gui.Timed.allPeriodsOk_run htimed (periodsOk_of_nil hactions) _

/-! ### A sin preset for the steering controller

With a period of one second, and with none. -/

def sweepOf (periodMs : String) : YAML.Node :=
  .map [(.scalar "type", .scalar "sin"), (.scalar "msg", .scalar "SS_ELMO_CONFIG"),
    (.scalar "signal", .scalar "SS_ELMO_STATUS_LWS_MIN"), (.scalar "sin_period_ms", .scalar periodMs)]

def sweepingEnv : Env :=
  { elmoEnv with
    yamlFiles := fun path =>
      if path = "sweep.yaml" then .ok (.sequence [sweepOf "1000"])
      else if path = "still.yaml" then .ok (.sequence [sweepOf "0"])
      else .error "bad file" }

/-- The preset is added and paused; then its period is opened in the editor, and `typed` entered in
its place. -/
def editPeriod (typed : Char) : List TuiDataFrameSet.Label :=
  [.run (tickAt 0), .run (tickAt 0)] ++
  keys [.Character 'a', .Return, .ArrowDown, .Return, .Backspace, .Backspace, .Backspace, .Backspace,
    .Character typed, .Return] ++
  [.run (tickAt 0)]

theorem exists_ok_of_any {ε α : Type} {x : Except ε α} {p : α → Bool}
    (h : x.toOption.any p = true) : ∃ a, x = .ok a ∧ p a = true := by
  cases x with
  | error e => cases h
  | ok a => exact ⟨a, rfl, h⟩

/-- A sin action with the period 0. -/
theorem not_periodsOk_of_timing {W : Type} {h : ActionHandler W}
    (htiming : h.actions.map Action.timing = [some (20, some 0)]) : ¬ h.PeriodsOk := by
  obtain ⟨a, ha, htiming⟩ := List.map_eq_singleton_iff.mp htiming
  intro hok
  have hperiods := (Action.periodsOk_iff a).mp (hok a (ha ▸ List.mem_singleton_self a)) _ _ htiming
  exact absurd (hperiods.2 0 rfl) (by decide)

theorem presetsOk_sweeping : sweepingEnv.PresetsOk 0 (elmoInterfaces "sweep.yaml") := by
  have hall : ∀ r ∈ sweepingEnv.presetRequests 0 (elmoInterfaces "sweep.yaml"),
      ∀ a ∈ r.action, a.PeriodsOk := by
    decide +kernel
  exact hall

/-- A run of the TUI in which the period is set to 5 ms, and all runs of the GUI. -/
theorem periods_ok_sweeping :
    (∃ t₀, TuiDataFrameSet.runTui sweepingEnv 0 false (elmoInterfaces "sweep.yaml") = .ok t₀ ∧
      ∀ k, (run (TuiDataFrameSet.step sweepingEnv) t₀
        ((editPeriod '5').take k)).handler.AllPeriodsOk) ∧
    ∃ g₀, Gui.runGui sweepingEnv 0 (elmoInterfaces "sweep.yaml") = .ok g₀ ∧
      ∀ (ls : List Gui.Label) (k : Nat),
        (run (Gui.step sweepingEnv) g₀ (ls.take k)).handler.AllPeriodsOk := by
  obtain ⟨htui, -, hgui⟩ := periods_ok_iff sweepingEnv (elmoInterfaces "sweep.yaml")
  constructor
  · have hmeets : ((TuiDataFrameSet.runTui sweepingEnv 0 false
        (elmoInterfaces "sweep.yaml")).toOption.any fun t₀ =>
          Meets (TuiDataFrameSet.step sweepingEnv) TuiDataFrameSet.EditOk t₀
            (editPeriod '5')) = true := by
      decide +kernel
    obtain ⟨t₀, hstart, hmeets⟩ := exists_ok_of_any hmeets
    refine ⟨t₀, hstart, ?_⟩
    rw [htui 0 false t₀ hstart]
    exact ⟨presetsOk_sweeping, of_decide_eq_true hmeets⟩
  · have hstarts : ((Gui.runGui sweepingEnv 0
        (elmoInterfaces "sweep.yaml")).toOption.any fun _ => true) = true := by
      decide +kernel
    obtain ⟨g₀, hstart, -⟩ := exists_ok_of_any hstarts
    refine ⟨g₀, hstart, ?_⟩
    intro ls
    rw [hgui 0 g₀ hstart]
    exact presetsOk_sweeping

/-- The period 0 of the other preset is taken over by the GUI, and in the TUI the editor takes it for
the first. -/
theorem periods_not_ok_sweeping :
    (∃ g₀, Gui.runGui sweepingEnv 0 (elmoInterfaces "still.yaml") = .ok g₀ ∧
      (run (Gui.step sweepingEnv) g₀ [.run (tickAt 0)]).handler.actions.map Action.timing =
        [some (20, some 0)] ∧
      ¬ (run (Gui.step sweepingEnv) g₀ [.run (tickAt 0)]).handler.PeriodsOk) ∧
    sweepingEnv.PresetsOk 0 (elmoInterfaces "sweep.yaml") ∧
    ∃ t₀, TuiDataFrameSet.runTui sweepingEnv 0 false (elmoInterfaces "sweep.yaml") = .ok t₀ ∧
      (run (TuiDataFrameSet.step sweepingEnv) t₀ (editPeriod '0')).handler.actions.map
        Action.timing = [some (20, some 0)] ∧
      ¬ (run (TuiDataFrameSet.step sweepingEnv) t₀ (editPeriod '0')).handler.PeriodsOk := by
  refine ⟨?_, presetsOk_sweeping, ?_⟩
  · have htiming : ((Gui.runGui sweepingEnv 0 (elmoInterfaces "still.yaml")).toOption.any fun g₀ =>
        (run (Gui.step sweepingEnv) g₀ [.run (tickAt 0)]).handler.actions.map Action.timing =
          [some (20, some 0)]) = true := by
      decide +kernel
    obtain ⟨g₀, hstart, htiming⟩ := exists_ok_of_any htiming
    have htiming := of_decide_eq_true htiming
    exact ⟨g₀, hstart, htiming, not_periodsOk_of_timing htiming⟩
  · have htiming : ((TuiDataFrameSet.runTui sweepingEnv 0 false
        (elmoInterfaces "sweep.yaml")).toOption.any fun t₀ =>
          (run (TuiDataFrameSet.step sweepingEnv) t₀ (editPeriod '0')).handler.actions.map
            Action.timing = [some (20, some 0)]) = true := by
      decide +kernel
    obtain ⟨t₀, hstart, htiming⟩ := exists_ok_of_any htiming
    have htiming := of_decide_eq_true htiming
    exact ⟨t₀, hstart, htiming, not_periodsOk_of_timing htiming⟩

end Caneo
