import Caneo.EditTargets
import Caneo.Navigation

/-!
# Edit sessions of the TUI

On the actions tab, ArrowRight shows the signals of the action under the cursor, and there opens the
editor of a signal, whose text is loaded from the action. The cursor stays where it is until the view is
left, and the commit posts a request for this position.
-/

namespace Caneo

open BitField EventLoop Runs Containers ActionHandler

namespace TuiDataFrameSet

/-- The key opens the action at `idx`: its signals, or the editor of one of them. -/
structure Opens (t : TuiDataFrameSet) (event : Event) (idx : Nat) : Prop where
  alive : t.exited = false ∧ t.handler.terminated = false
  closed : t.actionsEditing = false
  tab : t.mainTab = 2
  level : t.navLevel = 1 ∨ t.navLevel = 2
  key : event = .ArrowRight ∨ event = .Return
  cursor : t.actionsCursor = idx
  lt : idx < t.snapshot.length

/-- The signals of an action are shown. -/
def InView (t : TuiDataFrameSet) (_ : Label) : Prop := t.mainTab = 2 ∧ t.navLevel = 2

instance (t : TuiDataFrameSet) (l : Label) : Decidable (t.InView l) :=
  inferInstanceAs (Decidable (t.mainTab = 2 ∧ t.navLevel = 2))

/-- The io thread's steps. -/
def io : Label → Option (ActionHandler.Label SendModels)
  | .expire timer => some (.expire timer)
  | .run tick => some (.run tick)
  | .key .. | .frame _ => none

section Origin

variable (env : Env)

/-- The action that the editor's text was loaded from: when the editor is opened, the one under the
cursor. -/
def origin (t : TuiDataFrameSet) (o : Option Nat) (l : Label) : Option Nat :=
  if t.actionsEditing = false ∧ (t.step env l).actionsEditing = true then
    t.handler.ptrs[t.actionsCursor]?
  else o

/-- A step of the TUI, with the origin of the text. -/
def stepOrigin (s : TuiDataFrameSet × Option Nat) (l : Label) : TuiDataFrameSet × Option Nat :=
  (s.1.step env l, origin env s.1 s.2 l)

end Origin

/-- An edit that is committed in the view that was opened, and whose closure is about to run after
some more steps. The two keys come with the time at which they are pressed. -/
structure Edits (env : Env) (t : TuiDataFrameSet) (idx : Nat) (opening : Event × ℚ)
    (mid : List Label) (commit : Event × ℚ) (r : Request SendModels) (after : List Label) : Prop where
  opens : t.Opens opening.1 idx
  inView : Meets (TuiDataFrameSet.step env) InView (t.step env (.key opening.1 opening.2))
    (mid ++ [.key commit.1 commit.2])
  isEdit : r.isEdit = true
  posted : Posted (run (TuiDataFrameSet.step env) t (.key opening.1 opening.2 :: mid)).handler
    ((run (TuiDataFrameSet.step env) t (.key opening.1 opening.2 :: mid)).step env
      (.key commit.1 commit.2)).handler r
  aboutTo : (run (TuiDataFrameSet.step env) t
    (.key opening.1 opening.2 :: mid ++ .key commit.1 commit.2 :: after)).handler.AboutTo r

/-- The action for which the committed text was loaded. -/
def loadedFor (env : Env) (t : TuiDataFrameSet) (o : Option Nat) (opening : Event × ℚ)
    (mid : List Label) : Option Nat :=
  (run (stepOrigin env) (t, o) (.key opening.1 opening.2 :: mid)).2

/-! ### Steps -/

section Steps

variable {env : Env} {t : TuiDataFrameSet}

theorem Effect.undisturbed {c : Option Commit} {t' : TuiDataFrameSet} (he : Effect env t c t') :
    Undisturbed t.handler t'.handler := by
  have hcommitted : Undisturbed t.handler (t.committed c) := undisturbed_world _ _
  rcases he with he | ⟨r, -, he⟩
  · rw [he]
    exact hcommitted
  · rw [he]
    exact hcommitted.trans (undisturbed_request env.trig _ r)

variable (env) in
theorem hosts : Hosts env.trig (TuiDataFrameSet.step env) (fun t => t.handler) io where
  ui t l hl := by
    rcases step_effect env t l with ⟨_, _, _, he⟩ |
      ⟨-, ⟨_, _, he⟩ | ⟨timer, rfl, -⟩ | ⟨tick, rfl, -⟩⟩
    · exact he.undisturbed
    · rw [he]
      exact Undisturbed.refl _
    · cases hl
    · cases hl
  io t l x hl := by
    cases l with
    | key event now => cases hl
    | frame frame => cases hl
    | expire timer =>
      cases hl
      rfl
    | run tick =>
      cases hl
      rfl

theorem actionsCursor_commitActionsEdit :
    (t.commitActionsEdit env).actionsCursor = t.actionsCursor := by
  unfold commitActionsEdit commitPayload
  repeat' split
  all_goals rfl

theorem actionsCursor_actionsEdit (event : Event) :
    (t.actionsEdit env event).actionsCursor = t.actionsCursor := by
  cases event with
  | Return => exact actionsCursor_commitActionsEdit
  | ArrowLeft => exact actionsCursor_commitActionsEdit
  | Character c =>
    rw [actionsEdit]
    split <;> rfl
  | _ => rfl

theorem actionsCursor_actionSignals (event : Event) :
    (t.actionSignals env event).actionsCursor = t.actionsCursor := by
  unfold actionSignals
  dsimp only
  repeat' split
  all_goals rfl

theorem actionsCursor_shortcut {event : Event} {t' : TuiDataFrameSet}
    (h : t.shortcut event = some t') : t'.actionsCursor = t.actionsCursor := by
  unfold shortcut at h
  repeat' split at h
  all_goals cases h
  all_goals rfl

/-- Away from the editor, no other mode has the keys of the actions tab. -/
theorem onEvent_actionsTab (hnav : t.navView.Ok) (htab : t.mainTab = 2)
    (hclosed : t.actionsEditing = false) (event : Event) (now : ℚ) :
    t.onEvent env event now = (t.shortcut event).getD (t.view env event) := by
  obtain ⟨hperiodic, hsending, hsearching⟩ := hnav.on_actionsTab htab
  have hperiodic : t.periodicStep = .None := by simpa [navView] using hperiodic
  have hsending : t.sendEditing = false := hsending
  have hsearching : t.traceSearching = false := hsearching
  simp [onEvent, hclosed, hperiodic, hsending, hsearching]

/-- In the view the cursor does not move. -/
theorem actionsCursor_step (hnav : t.navView.Ok) {l : Label} (hview : t.InView l) :
    (t.step env l).actionsCursor = t.actionsCursor := by
  obtain ⟨htab, hlevel⟩ := hview
  cases l with
  | key event now =>
    rw [TuiDataFrameSet.step]
    split
    · rfl
    · cases hediting : t.actionsEditing with
      | true =>
        rw [onEvent, if_pos hediting]
        exact actionsCursor_actionsEdit event
      | false =>
        rw [onEvent_actionsTab hnav htab hediting]
        cases hs : t.shortcut event with
        | none =>
          rw [Option.getD_none, view_second hlevel (htab ▸ t.two_lt_playbackTabIdx),
            if_pos htab]
          exact actionsCursor_actionSignals event
        | some t' => exact actionsCursor_shortcut hs
  | frame frame => rfl
  | expire timer => rfl
  | run tick => rfl

variable (env) in
/-- Neither does it when the view is opened. -/
theorem Opens.actionsCursor_step (hnav : t.navView.Ok) {event : Event} {idx : Nat}
    (h : t.Opens event idx) (now : ℚ) : (t.step env (.key event now)).actionsCursor = idx := by
  obtain ⟨⟨hexited, hterm⟩, hclosed, htab, hlevel, hkey, hcursor, hlt⟩ := h
  have hshortcut : t.shortcut event = none := by
    rcases hkey with rfl | rfl <;> rfl
  rw [← hcursor, TuiDataFrameSet.step, if_neg (by simp [hexited, hterm]),
    onEvent_actionsTab hnav htab hclosed, hshortcut, Option.getD_none]
  rcases hlevel with hlevel | hlevel
  · rw [view_first hlevel (htab ▸ t.two_lt_playbackTabIdx), if_pos htab]
    rcases hkey with rfl | rfl
    · unfold actionList
      dsimp only
      split <;> rfl
    · unfold actionList
      dsimp only
      split <;> rfl
  · rw [view_second hlevel (htab ▸ t.two_lt_playbackTabIdx), if_pos htab]
    exact actionsCursor_actionSignals event

/-- An edit is posted by the editor, for the action under the cursor. -/
theorem editing_of_posted {event : Event} {now : ℚ} {r : Request SendModels}
    (hedit : r.isEdit = true)
    (hposted : Posted t.handler (t.step env (.key event now)).handler r) :
    t.actionsEditing = true ∧ r.index = some t.actionsCursor := by
  obtain ⟨rs, hclosures, hr⟩ := hposted
  rcases posts_key env t event now with hquiet | ⟨r', hasks, hadded⟩
  · rw [hquiet] at hclosures
    have hnil : rs = [] := by simpa using hclosures
    rw [hnil] at hr
    cases hr
  · rw [hadded, List.append_cancel_left_eq] at hclosures
    rw [← hclosures, List.mem_singleton] at hr
    subst hr
    cases hasks with
    | constant _ => cases hedit
    | sin _ _ _ => cases hedit
    | edit hediting _ hindex => exact ⟨hediting, (Request.index_allocate _ _).trans hindex⟩
    | entry hnot _ =>
      rw [Request.isEdit_allocate, hnot] at hedit
      cases hedit

variable (env) in
/-- When the editor is opened, its text is the cursor's. -/
theorem origin_eq {o : Option Nat} {ptr : Nat} (ho : t.actionsEditing = true → o = some ptr)
    (hptr : t.handler.ptrs[t.actionsCursor]? = some ptr) {l : Label}
    (hediting : (t.step env l).actionsEditing = true) : origin env t o l = some ptr := by
  unfold origin
  cases hbefore : t.actionsEditing with
  | false =>
    rw [if_pos ⟨rfl, hediting⟩]
    exact hptr
  | true =>
    rw [if_neg (by simp)]
    exact ho hbefore

end Steps

/-! ### Sessions -/

section Session

variable {env : Env} {cfgs : List InterfaceConfig} {t : TuiDataFrameSet} {idx : Nat}

/-- The states of a TUI: its handler is sound, and its navigation state consistent. -/
def Running (env : Env) (cfgs : List InterfaceConfig) (t : TuiDataFrameSet) : Prop :=
  ∃ t₀ before, t₀.Started env cfgs ∧ t = Runs.run (TuiDataFrameSet.step env) t₀ before

theorem Running.run (h : t.Running env cfgs) (ls : List Label) :
    (Runs.run (TuiDataFrameSet.step env) t ls).Running env cfgs := by
  obtain ⟨t₀, before, hstart, rfl⟩ := h
  exact ⟨t₀, before ++ ls, hstart, (run_append _ _ _ _).symm⟩

theorem Running.step (h : t.Running env cfgs) (l : Label) : (t.step env l).Running env cfgs :=
  h.run [l]

theorem Running.nav (h : t.Running env cfgs) : t.navView.Ok := by
  obtain ⟨t₀, before, hstart, rfl⟩ := h
  exact hstart.ok_run before

theorem Running.sound (h : t.Running env cfgs) : t.Sound env cfgs := by
  obtain ⟨t₀, before, hstart, rfl⟩ := h
  exact hstart.sound.run before

theorem actionsCursor_run (h : t.Running env cfgs) {ls : List Label}
    (hview : Meets (TuiDataFrameSet.step env) InView t ls) :
    (Runs.run (TuiDataFrameSet.step env) t ls).actionsCursor = t.actionsCursor := by
  induction ls generalizing t with
  | nil => rfl
  | cons l ls ih => rw [run_cons, ih (h.step l) hview.2, actionsCursor_step h.nav hview.1]

/-- As long as the action is at the cursor, the editor's text was loaded for it. -/
theorem origin_run (h : t.Running env cfgs) {ptr : Nat} {o : Option Nat}
    (ho : t.actionsEditing = true → o = some ptr) (hptr : t.handler.ptrs[idx]? = some ptr)
    (hcursor : t.actionsCursor = idx) {ls : List Label}
    (hview : Meets (TuiDataFrameSet.step env) InView t ls)
    (hkeep : Meets (TuiDataFrameSet.step env) (HostKeepsUpTo (fun t => t.handler) io idx) t ls)
    (hediting : (Runs.run (TuiDataFrameSet.step env) t ls).actionsEditing = true) :
    (Runs.run (stepOrigin env) (t, o) ls).2 = some ptr := by
  induction ls generalizing t o with
  | nil => exact ho hediting
  | cons l ls ih =>
    have hstays := ((hosts env).governs idx).stays t l ptr h.sound.identities hkeep.1 hptr
    have horigin : (t.step env l).actionsEditing = true → origin env t o l = some ptr :=
      origin_eq env ho (hcursor.symm ▸ hptr)
    exact ih (h.step l) horigin hstays ((actionsCursor_step h.nav hview.1).trans hcursor) hview.2
      hkeep.2 hediting

variable {opening commit : Event × ℚ} {mid after : List Label} {r : Request SendModels}

/-- The commit is for the position that was opened. -/
theorem Edits.editing (h : t.Running env cfgs) (he : t.Edits env idx opening mid commit r after) :
    (Runs.run (TuiDataFrameSet.step env) t (.key opening.1 opening.2 :: mid)).actionsEditing = true ∧
      r.index = some idx := by
  obtain ⟨hediting, hindex⟩ := editing_of_posted he.isEdit he.posted
  have hcursor := he.opens.actionsCursor_step env h.nav opening.2
  refine ⟨hediting, ?_⟩
  rw [hindex, run_cons, actionsCursor_run (h.step _) (meets_append.mp he.inView).1, hcursor]

/-- The text that is committed was loaded for the action, as long as it is at its position. -/
theorem Edits.loadedFor_eq (h : t.Running env cfgs)
    (he : t.Edits env idx opening mid commit r after) {ptr : Nat}
    (hptr : t.handler.ptrs[idx]? = some ptr)
    (hkeep : Meets (TuiDataFrameSet.step env) (HostKeepsUpTo (fun t => t.handler) io idx) t
      (.key opening.1 opening.2 :: mid)) (o : Option Nat) :
    loadedFor env t o opening mid = some ptr := by
  have hcursor := he.opens.actionsCursor_step env h.nav opening.2
  have hstays := ((hosts env).governs idx).stays t _ ptr h.sound.identities hkeep.1 hptr
  have hclosed : t.actionsEditing = true → o = some ptr := by
    intro hediting
    rw [he.opens.closed] at hediting
    cases hediting
  have horigin : (t.step env (.key opening.1 opening.2)).actionsEditing = true →
      origin env t o (.key opening.1 opening.2) = some ptr :=
    origin_eq env hclosed (he.opens.cursor.symm ▸ hptr)
  exact origin_run (h.step _) horigin hstays hcursor (meets_append.mp he.inView).1 hkeep.2
    (he.editing h).1

/-- An edit that is opened and committed on the actions tab. -/
theorem Running.edit_delivered_iff (h : t.Running env cfgs)
    (he : t.Edits env idx opening mid commit r after) :
    ∃ a, t.handler.actions[idx]? = some a ∧ r.index = some idx ∧
      ∀ (h' : ActionHandler SendModels) (o : Option Nat),
        h' = (Runs.run (TuiDataFrameSet.step env) t
          (.key opening.1 opening.2 :: mid ++ .key commit.1 commit.2 :: after)).handler →
        (∀ tick q b, h'.find q = some b → (ActionHandler.step env.trig h' (.run tick)).find q =
          if h'.ptrs[idx]? = some q then r.effect tick.now b else some b) ∧
        (h'.Delivered idx a.ptr (loadedFor env t o opening mid) ↔
          Meets (TuiDataFrameSet.step env) (HostKeepsUpTo (fun t => t.handler) io idx) t
              (.key opening.1 opening.2 :: mid ++ .key commit.1 commit.2 :: after) ∨
            (a.ptr ∉ h'.ptrs ∧ h'.actions.length ≤ idx)) := by
  obtain ⟨a, ha, -⟩ :=
    h.sound.synced.exists_action (List.getElem?_eq_getElem he.opens.lt)
  have hindex := (he.editing h).2
  refine ⟨a, ha, hindex, ?_⟩
  intro h' o hh'
  have hid : Identities h' := hh' ▸ (h.run _).sound.identities
  constructor
  · intro tick q b hfind
    obtain ⟨halive, rest, hready⟩ := he.aboutTo
    rw [← hh'] at halive hready
    exact find_step_posted env.trig tick hid halive hready hindex hfind
  · refine ((hosts env).governs idx).delivered_iff h.sound.identities (getElem?_ptrs ha) hh' ?_
    intro hmeets
    exact he.loadedFor_eq h (getElem?_ptrs ha) (meets_append.mp hmeets).1 o

end Session

end TuiDataFrameSet

end Caneo
