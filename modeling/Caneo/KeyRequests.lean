import Caneo.ActionRequests
import Caneo.Tui

/-!
# What keys request

A key of the TUI posts one request at most. `Asks` says which requests a state can post: the edits are
those of the actions' editor, for the action under the cursor, and a sin action is only made in the
wizard, for the signal that `create_sin_action` takes. `wanted_onEvent` goes through all keys once.
-/

namespace Caneo

open BitField EventLoop Runs Containers

/-- A request that edits an action's values. -/
def Request.isEdit {W : Type} : Request W → Bool
  | .updateSinParam .. | .updatePayload .. => true
  | .addAction _ | .addActionPaused _ | .removeAction _ | .togglePause _ => false

theorem Request.isEdit_allocate {W : Type} (r : Request W) (ptr : Nat) :
    (r.allocate ptr).1.isEdit = r.isEdit := by
  cases r <;> rfl

theorem Request.index_allocate {W : Type} (r : Request W) (ptr : Nat) :
    (r.allocate ptr).1.index = r.index := by
  cases r <;> rfl

namespace TuiDataFrameSet

/-- The encode function of the sin action that `createSinAction` makes. -/
def sinFn (casts : BitCasts) (t : TuiDataFrameSet) :
    Option (ℚ → SendModels → Bytes × SendModels) :=
  t.selectedMsg.bind fun p =>
    (clampCursor t.sendSigCursor p.2.2.signals.length).map fun k => sinEncodeFn casts p.1 p.2.1 k

/-- What a key may request in a state. -/
inductive Asks (env : Env) (t : TuiDataFrameSet) : Request SendModels → Prop where
  | constant {a : Action SendModels} : a.encodeFn = none → Asks env t (.addAction a)
  | sin {a : Action SendModels} : t.periodicStep ≠ .None → a.encodeFn.isSome = true →
      a.encodeFn = t.sinFn env.casts → Asks env t (.addAction a)
  | edit {r : Request SendModels} : t.actionsEditing = true → r.isEdit = true →
      r.index = some t.actionsCursor → Asks env t r
  | entry {r : Request SendModels} : r.isEdit = false → r.action = none → Asks env t r

/-- The requests of a key in detail. A periodic or sin action has the interval of the wizard, and is
made in the wizard's last steps. -/
inductive Wants (env : Env) (t : TuiDataFrameSet) : Request SendModels → Prop where
  | single (iface : String) (msgId : BitVec 64) (msgName : String) (payload : Bytes) :
      Wants env t (.addAction (Action.newSingle iface msgId msgName payload))
  | periodic (iface : String) (msgId : BitVec 64) (msgName : String) (payload : Bytes) :
      t.periodicStep = .TypeSelect →
      Wants env t (.addAction (Action.newPeriodic iface msgId msgName payload t.periodicIntervalMs))
  | sin (now : ℚ) (iface : String) (msgId : BitVec 64) (msgName : String) (amplitude offset : ℚ)
      {sinPeriod : Int} {f : ℚ → SendModels → Bytes × SendModels} :
      t.periodicStep = .SinReady → 0 < sinPeriod → t.sinFn env.casts = some f →
      Wants env t (.addAction (Action.newSin now iface msgId msgName t.periodicIntervalMs f amplitude
        sinPeriod offset))
  | edit {r : Request SendModels} : t.actionsEditing = true → r.isEdit = true →
      r.index = some t.actionsCursor → Wants env t r
  | entry {r : Request SendModels} : r.isEdit = false → r.action = none → Wants env t r

theorem Wants.asks {env : Env} {t : TuiDataFrameSet} {r : Request SendModels}
    (h : Wants env t r) : Asks env t r := by
  cases h with
  | single => exact .constant rfl
  | periodic => exact .constant rfl
  | sin _ _ _ _ _ _ hstep _ hfn =>
    apply Asks.sin
    · rw [hstep]
      decide
    · rfl
    · exact hfn.symm
  | edit hediting hedit hindex => exact .edit hediting hedit hindex
  | entry hedit hnone => exact .entry hedit hnone

/-- At most one request is posted from `t` to `t'`, and `t` may post it. -/
def Posts (env : Env) (t t' : TuiDataFrameSet) : Prop :=
  t'.handler.loop.closures = t.handler.loop.closures ∨
    ∃ r, Asks env t r ∧ t'.handler.loop.closures =
      t.handler.loop.closures ++ [(r.allocate t.handler.nextPtr).1]

/-- The same, with the request in detail. -/
def Wanted (env : Env) (t t' : TuiDataFrameSet) : Prop :=
  t'.handler.loop.closures = t.handler.loop.closures ∨
    ∃ r, Wants env t r ∧ t'.handler.loop.closures =
      t.handler.loop.closures ++ [(r.allocate t.handler.nextPtr).1]

section Wanted

variable {env : Env} {t : TuiDataFrameSet}

/-- A key that leaves the handler alone. -/
theorem Wanted.quiet {t' : TuiDataFrameSet} (h : t'.handler = t.handler) : Wanted env t t' :=
  Or.inl (by rw [h])

theorem Wanted.post {t₁ : TuiDataFrameSet} (hloop : t₁.handler.loop = t.handler.loop)
    (hnext : t₁.handler.nextPtr = t.handler.nextPtr) {r : Request SendModels}
    (hr : Wants env t r) : Wanted env t (t₁.post env r) := by
  unfold Wanted TuiDataFrameSet.post ActionHandler.step
  dsimp only
  split
  · exact Or.inl (by rw [hloop])
  · refine Or.inr ⟨r, hr, ?_⟩
    rw [Loop.closures_post, hloop, hnext]

theorem wanted_createSingleAction : Wanted env t (t.createSingleAction env) := by
  unfold createSingleAction
  split
  · exact Wanted.quiet rfl
  · exact Wanted.post rfl rfl (.single _ _ _ _)

theorem wanted_createPeriodicAction (hstep : t.periodicStep = .TypeSelect) :
    Wanted env t (t.createPeriodicAction env t.periodicIntervalMs) := by
  unfold createPeriodicAction
  split
  · exact Wanted.quiet rfl
  · exact Wanted.post rfl rfl (.periodic _ _ _ _ hstep)

theorem wanted_startSin (hstep : t.periodicStep = .SinReady) (now : ℚ) :
    Wanted env t (t.startSin env now) := by
  unfold startSin
  split
  · split
    · next hperiod =>
      unfold createSinAction
      split
      · exact Wanted.quiet rfl
      · next i mi msg hsel =>
        split
        · exact Wanted.quiet rfl
        · next k hk =>
          refine Wanted.post rfl rfl (.sin _ _ _ _ _ _ hstep hperiod ?_)
          rw [sinFn, hsel, Option.bind_some, hk]
          rfl
    · exact Wanted.quiet rfl
  · exact Wanted.quiet rfl

/-! ### The input modes -/

theorem wanted_commitActionsEdit (hediting : t.actionsEditing = true) :
    Wanted env t (t.commitActionsEdit env) := by
  unfold commitActionsEdit
  split
  · exact Wanted.quiet rfl
  · split
    · exact Wanted.quiet rfl
    · split
      · split
        · exact Wanted.quiet rfl
        · exact Wanted.post rfl rfl (.edit hediting rfl rfl)
      · unfold commitPayload
        split
        · exact Wanted.quiet rfl
        · split
          · apply Wanted.post
            · rfl
            · rfl
            · exact .edit hediting rfl rfl
          · exact Wanted.quiet rfl

theorem wanted_actionsEdit (hediting : t.actionsEditing = true) (event : Event) :
    Wanted env t (t.actionsEdit env event) := by
  cases event with
  | Return => exact wanted_commitActionsEdit hediting
  | ArrowLeft => exact wanted_commitActionsEdit hediting
  | Character c =>
    refine Wanted.quiet ?_
    rw [actionsEdit]
    split <;> rfl
  | _ => exact Wanted.quiet rfl

theorem wanted_typeSelect (hstep : t.periodicStep = .TypeSelect) (event : Event) :
    Wanted env t (t.typeSelect env event) := by
  unfold typeSelect
  split
  · exact Wanted.quiet rfl
  · exact Wanted.quiet rfl
  · split
    · exact wanted_createPeriodicAction hstep
    · exact Wanted.quiet rfl
  · exact Wanted.quiet rfl
  · exact Wanted.quiet rfl

theorem wanted_periodicEdit (event : Event) (now : ℚ) :
    Wanted env t (t.periodicEdit env event now) := by
  unfold periodicEdit
  split
  · exact Wanted.quiet rfl
  · split
    · exact Wanted.quiet rfl
    · exact Wanted.quiet (handler_periodEdit _)
    · exact wanted_typeSelect ‹_› _
    all_goals first | exact wanted_startSin ‹_› now | exact Wanted.quiet rfl

theorem wanted_commitSendEdit : Wanted env t (t.commitSendEdit env) := by
  refine Or.inl ?_
  unfold commitSendEdit
  repeat' split
  all_goals rfl

theorem wanted_sendEdit (event : Event) : Wanted env t (t.sendEdit env event) := by
  cases event with
  | Return => exact wanted_commitSendEdit
  | ArrowLeft => exact wanted_commitSendEdit
  | Character c =>
    refine Wanted.quiet ?_
    rw [sendEdit]
    split <;> rfl
  | _ => exact Wanted.quiet rfl

/-! ### The views -/

theorem wanted_openSignal : Wanted env t (t.openSignal env) := by
  unfold openSignal
  split
  · exact Wanted.quiet rfl
  · split
    · exact Wanted.quiet rfl
    · split
      · exact wanted_createSingleAction
      · exact Wanted.quiet rfl

theorem wanted_sigList (event : Event) : Wanted env t (t.sigList env event) := by
  unfold sigList
  split
  · exact Wanted.quiet rfl
  · exact wanted_openSignal
  · exact wanted_openSignal
  · exact Wanted.quiet rfl
  · refine Wanted.quiet ?_
    dsimp only
    split <;> rfl
  · exact wanted_createSingleAction
  · exact Wanted.quiet rfl
  · exact Wanted.quiet rfl

theorem wanted_removeSelected : Wanted env t (t.removeSelected env) := by
  unfold removeSelected
  split
  · exact Wanted.quiet rfl
  · next info _ =>
    have hposts : Wanted env t (t.post env (.removeAction info.idx)) :=
      Wanted.post rfl rfl (.entry rfl rfl)
    exact hposts

theorem wanted_actionList (event : Event) : Wanted env t (t.actionList env event) := by
  unfold actionList
  split
  · refine Wanted.quiet ?_
    split <;> rfl
  · refine Wanted.quiet ?_
    split <;> rfl
  · refine Wanted.quiet ?_
    split <;> rfl
  · refine Wanted.quiet ?_
    split <;> rfl
  · split
    · exact Wanted.quiet rfl
    · exact Wanted.post rfl rfl (.entry rfl rfl)
  · exact wanted_removeSelected
  · exact wanted_removeSelected
  · exact Wanted.quiet rfl

theorem wanted_view (event : Event) : Wanted env t (t.view env event) := by
  unfold view
  split
  · exact wanted_sigList event
  · split
    · exact Wanted.quiet (handler_playbackFilter _ event)
    · split
      · exact Wanted.quiet (handler_actionSignals event)
      · exact Wanted.quiet (handler_msgList event)
  · split
    · exact Wanted.quiet (handler_actionSignals event)
    · exact Wanted.quiet (handler_msgList event)
  · split
    · exact Wanted.quiet (handler_playbackList _ event)
    · split
      · exact wanted_actionList event
      · exact Wanted.quiet (handler_subTabs event)
  · split
    · exact wanted_actionList event
    · exact Wanted.quiet (handler_subTabs event)
  · exact Wanted.quiet (handler_mainTabs event)

variable (env t) in
theorem wanted_onEvent (event : Event) (now : ℚ) : Wanted env t (t.onEvent env event now) := by
  unfold onEvent
  split
  · next hediting => exact wanted_actionsEdit hediting event
  · split
    · exact wanted_periodicEdit event now
    · split
      · exact wanted_sendEdit event
      · split
        · exact Wanted.quiet (handler_traceSearch event)
        · cases hs : t.shortcut event with
          | none => exact wanted_view event
          | some t' => exact Wanted.quiet (handler_shortcut hs)

variable (env t) in
theorem wanted_key (event : Event) (now : ℚ) : Wanted env t (t.step env (.key event now)) := by
  unfold TuiDataFrameSet.step
  dsimp only
  split
  · exact Wanted.quiet rfl
  · exact wanted_onEvent env t event now

variable (env t) in
theorem posts_key (event : Event) (now : ℚ) : Posts env t (t.step env (.key event now)) :=
  (wanted_key env t event now).imp_right fun ⟨r, hwants, hadded⟩ => ⟨r, hwants.asks, hadded⟩

end Wanted

end TuiDataFrameSet

end Caneo
