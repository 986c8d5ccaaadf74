import Caneo.EditTargets

/-!
# Edit sessions of the GUI

A click on an entry of the actions window opens it (`open_edit`), and the window's fields are loaded.
In every later frame `render_edit_window` looks up the entry at the position that was opened, loads the
values again if there are not as many as signals, and its buttons post requests for this position.

`Origin` adds to a state for which action each group of fields was loaded last.
-/

namespace Caneo

open BitField EventLoop Runs Containers ActionHandler

namespace Gui

/-! ### What is loaded -/

/-- The actions for which the fields of a sin action, and the values of any other, were loaded. -/
structure Origin where
  sin : Option Nat := none
  values : Option Nat := none

/-- The fields that an edit takes. -/
def Origin.of (o : Origin) (r : Request SendModels) : Option Nat :=
  if r.editsSin then o.sin else o.values

/-- `open_edit` loads the fields of the entry's type. -/
def Origin.opened (g : Gui) (o : Origin) (info : ActionInfo) : Origin :=
  if info.typeName = "Sin" then { o with sin := g.handler.ptrs[info.idx]? }
  else { o with values := g.handler.ptrs[info.idx]? }

/-- `render_edit_window` loads the values again if their number does not fit. -/
def Origin.rendered (g : Gui) (input : ActionsWindow.Input) (actions : List ActionInfo)
    (o : Origin) : Origin :=
  if g.actionsWindow.editOpen then
    match actions.find? fun a => a.idx = g.actionsWindow.editActionIdx with
    | none => o
    | some info =>
      if input.collapsed || info.typeName = "Sin" then o
      else match g.messageOf info with
        | none => o
        | some (_, _, msg) =>
          if g.actionsWindow.editValues.length = msg.signals.length then o
          else { o with values := g.handler.ptrs[info.idx]? }
  else o

section Frame

variable (env : Env)

/-- The entries of the list, which are drawn before the edit window. -/
def renderList (g : Gui) (input : ActionsWindow.Input) : Gui :=
  ((g.onEntry g.snapshot input.select openEdit).onEntry g.snapshot input.toggle
    (toggleEntry env)).onEntry g.snapshot input.delete (removeEntry env)

theorem renderActions_eq (g : Gui) (input : ActionsWindow.Input) :
    g.renderActions env input = (g.renderList env input).renderActionEdit env input g.snapshot := rfl

/-- The entry that a frame opens. -/
def selected (g : Gui) (input : ActionsWindow.Input) : Option ActionInfo :=
  input.select.bind fun n => g.snapshot[n]?

def Origin.frame (g : Gui) (input : ActionsWindow.Input) (o : Origin) : Origin :=
  Origin.rendered (g.renderList env input) input g.snapshot
    ((g.selected input).elim o (Origin.opened g o))

/-- What a step does to the origin. -/
def Origin.step (g : Gui) (o : Origin) : Label → Origin
  | .actions input => if g.handler.terminated then o else Origin.frame env g input o
  | .send .. | .expire _ | .run _ => o

/-- A step of the GUI, with the origin. -/
def stepOrigin (s : Gui × Origin) (l : Label) : Gui × Origin := (s.1.step env l, Origin.step env s.1 s.2 l)

end Frame

/-! ### Sessions -/

/-- The frame opens the entry at `idx`. -/
def Opens (g : Gui) (idx : Nat) : Label → Prop
  | .actions input => g.handler.terminated = false ∧ input.select = some idx ∧ idx < g.snapshot.length
  | .send .. | .expire _ | .run _ => False

/-- The step opens no entry. -/
def OpensNone : Label → Prop
  | .actions input => input.select = none
  | .send .. | .expire _ | .run _ => True

/-- The first step opens the entry at `idx`, and no other step opens one. -/
def Session (g : Gui) (idx : Nat) : List Label → Prop
  | [] => False
  | l :: ls => g.Opens idx l ∧ ∀ l' ∈ ls, OpensNone l'

/-- The io thread's steps. -/
def io : Label → Option (ActionHandler.Label SendModels)
  | .expire timer => some (.expire timer)
  | .run tick => some (.run tick)
  | .send .. | .actions _ => none

/-- An edit that is applied in the last frame of a session, and whose closure is about to run after
some more steps. -/
structure Edits (env : Env) (g : Gui) (idx : Nat) (earlier : List Label)
    (last : ActionsWindow.Input) (r : Request SendModels) (after : List Label) : Prop where
  session : g.Session idx (earlier ++ [.actions last])
  isEdit : r.isEdit = true
  posted : Posted (run (Gui.step env) g earlier).handler
    ((run (Gui.step env) g earlier).step env (.actions last)).handler r
  aboutTo : (run (Gui.step env) g (earlier ++ .actions last :: after)).handler.AboutTo r

/-- The action for which the fields that the edit takes were loaded. -/
def loadedFor (env : Env) (g : Gui) (o : Origin) (earlier : List Label) (last : ActionsWindow.Input)
    (r : Request SendModels) : Option Nat :=
  (run (stepOrigin env) (g, o) (earlier ++ [.actions last])).2.of r

/-! ### The handler -/

section Hosts

variable {env : Env} {g : Gui}

theorem keptByFrames_undisturbed (env : Env) (h₀ : ActionHandler SendModels) :
    KeptByFrames env (Undisturbed h₀) where
  setValues h _ _ _ hu := hu.trans (undisturbed_world h _)
  request h r _ hu := hu.trans (undisturbed_request env.trig h r)

theorem undisturbed_renderList (input : ActionsWindow.Input) :
    Undisturbed g.handler (g.renderList env input).handler := by
  have hI := (keptByFrames_undisturbed env g.handler).keptByAsks
  apply KeptByAsks.onEntry _ _ _ fun _ h => hI.removeEntry h
  apply KeptByAsks.onEntry _ _ _ fun _ h => hI.toggleEntry h
  exact KeptByAsks.onEntry (Undisturbed.refl _) _ _ fun _ h => KeptByAsks.openEdit h

variable (env) in
theorem hosts : Hosts env.trig (Gui.step env) (fun g => g.handler) io where
  ui g l hl := by
    have hI := (keptByFrames_undisturbed env g.handler).keptByAsks
    cases l with
    | send input now =>
      rw [Gui.step]
      split
      · exact Undisturbed.refl _
      · exact hI.renderSend (Undisturbed.refl _) input now
    | actions input =>
      rw [Gui.step]
      split
      · exact Undisturbed.refl _
      · exact hI.renderActions (Undisturbed.refl _) input
    | expire timer => cases hl
    | run tick => cases hl
  io g l x hl := by
    cases l with
    | send input now => cases hl
    | actions input => cases hl
    | expire timer =>
      cases hl
      rfl
    | run tick =>
      cases hl
      rfl

end Hosts

/-! ### The position -/

section Position

variable {env : Env} {g : Gui}

theorem editActionIdx_openEdit (info : ActionInfo) :
    (g.openEdit info).actionsWindow.editActionIdx = info.idx := by
  unfold openEdit
  dsimp only
  split <;> rfl

theorem editActionIdx_onEntry {actions : List ActionInfo} {clicked : Option Nat}
    {f : Gui → ActionInfo → Gui}
    (hf : ∀ (g : Gui) info,
      (f g info).actionsWindow.editActionIdx = g.actionsWindow.editActionIdx) :
    (g.onEntry actions clicked f).actionsWindow.editActionIdx = g.actionsWindow.editActionIdx := by
  unfold onEntry
  split
  · rfl
  · exact hf g _

/-- Only `open_edit` changes the position. -/
theorem editActionIdx_renderList (input : ActionsWindow.Input) :
    (g.renderList env input).actionsWindow.editActionIdx =
      ((g.selected input).elim g.actionsWindow.editActionIdx fun info => info.idx) := by
  have htoggle : ∀ (g : Gui) info,
      (g.toggleEntry env info).actionsWindow.editActionIdx = g.actionsWindow.editActionIdx := by
    intro g info
    unfold toggleEntry
    split <;> rfl
  have hremove : ∀ (g : Gui) info,
      (g.removeEntry env info).actionsWindow.editActionIdx = g.actionsWindow.editActionIdx :=
    fun _ _ => rfl
  rw [renderList, editActionIdx_onEntry hremove, editActionIdx_onEntry htoggle, onEntry, selected]
  cases input.select.bind fun n => g.snapshot[n]? with
  | none => rfl
  | some info => exact editActionIdx_openEdit info

theorem editActionIdx_renderActionEdit (input : ActionsWindow.Input) (actions : List ActionInfo) :
    (g.renderActionEdit env input actions).actionsWindow.editActionIdx =
      g.actionsWindow.editActionIdx := by
  unfold renderActionEdit renderSinEdit renderPayloadEdit
  dsimp only
  repeat' split
  all_goals rfl

theorem actionsWindow_renderSend (input : SendWindow.Input) (now : ℚ) :
    (g.renderSend env input now).actionsWindow = g.actionsWindow := by
  have hpopup : ∀ i j, (g.openPopup i j).actionsWindow = g.actionsWindow := by
    intro i j
    unfold openPopup
    split <;> rfl
  have hsin : ∀ (g : Gui) iface i mi msg,
      (g.sinSection env input now iface i mi msg).actionsWindow = g.actionsWindow := by
    intro g iface i mi msg
    unfold sinSection startSin
    dsimp only
    repeat' split
    all_goals rfl
  have hedit : ∀ g : Gui, (g.renderSendEdit env input now).actionsWindow = g.actionsWindow := by
    intro g
    unfold renderSendEdit
    split
    · rfl
    · dsimp only
      split
      · rfl
      · repeat' split
        all_goals first | exact hsin _ _ _ _ _ | rfl
  unfold renderSend
  dsimp only
  rw [hedit]
  split
  · rfl
  · exact hpopup _ _

/-- A step that opens nothing leaves the position alone. -/
theorem editActionIdx_step {l : Label} (hl : OpensNone l) :
    (g.step env l).actionsWindow.editActionIdx = g.actionsWindow.editActionIdx := by
  cases l with
  | send input now =>
    rw [Gui.step]
    split
    · rfl
    · rw [actionsWindow_renderSend]
  | actions input =>
    rw [Gui.step]
    split
    · rfl
    · have hnone : input.select = none := hl
      rw [renderActions_eq, editActionIdx_renderActionEdit, editActionIdx_renderList, selected,
        hnone]
      rfl
  | expire timer => rfl
  | run tick => rfl

theorem editActionIdx_run {ls : List Label} (hls : ∀ l ∈ ls, OpensNone l) :
    (run (Gui.step env) g ls).actionsWindow.editActionIdx = g.actionsWindow.editActionIdx := by
  induction ls generalizing g with
  | nil => rfl
  | cons l ls ih =>
    rw [run_cons, ih fun l' hl' => hls l' (List.mem_cons_of_mem _ hl'),
      editActionIdx_step (hls l List.mem_cons_self)]

end Position

/-! ### What the edit window posts -/

/-- The edits that are on their way. -/
def edits (g : Gui) : List (Request SendModels) := g.handler.loop.closures.filter Request.isEdit

section Posts

variable {env : Env} {g : Gui}

variable (env) in
theorem edits_post (halive : g.handler.terminated = false) (r : Request SendModels) :
    (g.post env r).edits = g.edits ++ [r].filter Request.isEdit ∧
      (g.post env r).handler.terminated = false := by
  have hallocate : [(r.allocate g.handler.nextPtr).1].filter Request.isEdit =
      [r].filter Request.isEdit := by
    cases r <;> rfl
  unfold edits post ActionHandler.step
  dsimp only
  rw [if_neg (by simp [halive])]
  refine ⟨?_, halive⟩
  rw [Loop.closures_post, List.filter_append, hallocate]

theorem edits_onEntry (actions : List ActionInfo) (clicked : Option Nat)
    {f : Gui → ActionInfo → Gui}
    (hf : ∀ g : Gui, g.handler.terminated = false → ∀ info,
      (f g info).edits = g.edits ∧ (f g info).handler.terminated = false)
    (halive : g.handler.terminated = false) :
    (g.onEntry actions clicked f).edits = g.edits ∧
      (g.onEntry actions clicked f).handler.terminated = false := by
  unfold onEntry
  split
  · exact ⟨rfl, halive⟩
  · exact hf g halive _

variable (env) in
/-- The list posts no edit. -/
theorem edits_renderList (halive : g.handler.terminated = false) (input : ActionsWindow.Input) :
    (g.renderList env input).edits = g.edits ∧
      (g.renderList env input).handler.terminated = false := by
  have hopen : ∀ g : Gui, g.handler.terminated = false → ∀ info,
      (g.openEdit info).edits = g.edits ∧ (g.openEdit info).handler.terminated = false := by
    intro g halive info
    unfold openEdit
    dsimp only
    split <;> exact ⟨rfl, halive⟩
  have htoggle : ∀ g : Gui, g.handler.terminated = false → ∀ info,
      (g.toggleEntry env info).edits = g.edits ∧
        (g.toggleEntry env info).handler.terminated = false := by
    intro g halive info
    unfold toggleEntry
    split
    · obtain ⟨hedits, halive'⟩ := edits_post env halive (.togglePause info.idx)
      exact ⟨hedits.trans (List.append_nil _), halive'⟩
    · exact ⟨rfl, halive⟩
  have hremove : ∀ g : Gui, g.handler.terminated = false → ∀ info,
      (g.removeEntry env info).edits = g.edits ∧
        (g.removeEntry env info).handler.terminated = false := by
    intro g halive info
    have hclosed : ∀ w, (g.withActionsWindow w).handler.terminated = false := fun _ => halive
    obtain ⟨hedits, halive'⟩ := edits_post env (hclosed _) (.removeAction info.idx)
    exact ⟨hedits.trans (List.append_nil _), halive'⟩
  obtain ⟨hedits₁, halive₁⟩ := edits_onEntry g.snapshot input.select hopen halive
  obtain ⟨hedits₂, halive₂⟩ := edits_onEntry g.snapshot input.toggle htoggle halive₁
  obtain ⟨hedits₃, halive₃⟩ := edits_onEntry g.snapshot input.delete hremove halive₂
  exact ⟨hedits₃.trans (hedits₂.trans hedits₁), halive₃⟩

/-- An edit of the entry that the edit window shows. -/
def EditOf (g : Gui) (actions : List ActionInfo) (r : Request SendModels) : Prop :=
  r.index = some g.actionsWindow.editActionIdx ∧
    ∃ info ∈ actions, info.idx = g.actionsWindow.editActionIdx ∧
      r.editsSin = decide (info.typeName = "Sin")

/-- On the way from `g` to `g'`, only edits of the position were posted, with fields of this kind. -/
def PostsEdits (g g' : Gui) (sin : Bool) : Prop :=
  g'.handler.terminated = false ∧ ∃ es, g'.edits = g.edits ++ es ∧
    ∀ r ∈ es, r.index = some g.actionsWindow.editActionIdx ∧ r.editsSin = sin

/-- Setting the window's fields or the model's values posts nothing. -/
theorem PostsEdits.of_edits_eq (halive : g.handler.terminated = false) {g' : Gui}
    (hterm : g'.handler.terminated = g.handler.terminated) (hedits : g'.edits = g.edits)
    (sin : Bool) : g.PostsEdits g' sin :=
  ⟨hterm.trans halive, [], by rw [hedits, List.append_nil], fun r hr => by cases hr⟩

theorem PostsEdits.post {g' : Gui} {sin : Bool} (h : g.PostsEdits g' sin) {r : Request SendModels}
    (hedit : r.isEdit = true) (hindex : r.index = some g.actionsWindow.editActionIdx)
    (hsin : r.editsSin = sin) : g.PostsEdits (g'.post env r) sin := by
  obtain ⟨halive', es, hes, hall⟩ := h
  obtain ⟨hedits, hposted⟩ := edits_post env halive' r
  rw [List.filter_cons_of_pos hedit, List.filter_nil, hes, List.append_assoc] at hedits
  refine ⟨hposted, _, hedits, ?_⟩
  intro r' hr'
  rcases List.mem_append.mp hr' with hr' | hr'
  · exact hall r' hr'
  · rw [List.mem_singleton.mp hr']
    exact ⟨hindex, hsin⟩

variable (env) in
/-- "Apply" edits the three parameters. -/
theorem postsEdits_renderSinEdit (halive : g.handler.terminated = false)
    (input : ActionsWindow.Input) : g.PostsEdits (g.renderSinEdit env input) true := by
  unfold renderSinEdit
  dsimp only
  split
  · apply PostsEdits.post _ rfl rfl rfl
    apply PostsEdits.post _ rfl rfl rfl
    apply PostsEdits.post _ rfl rfl rfl
    exact PostsEdits.of_edits_eq halive rfl rfl true
  · exact PostsEdits.of_edits_eq halive rfl rfl true

variable (env) in
/-- "Update Payload" edits the payload. -/
theorem postsEdits_renderPayloadEdit (halive : g.handler.terminated = false)
    (input : ActionsWindow.Input) (info : ActionInfo) :
    g.PostsEdits (g.renderPayloadEdit env input info) false := by
  unfold renderPayloadEdit
  split
  · exact PostsEdits.of_edits_eq halive rfl rfl false
  · dsimp only
    split
    · apply PostsEdits.post _ rfl rfl rfl
      exact PostsEdits.of_edits_eq halive rfl rfl false
    · exact PostsEdits.of_edits_eq halive rfl rfl false

variable (env) in
/-- The edit window posts edits of its entry. -/
theorem edits_renderActionEdit (halive : g.handler.terminated = false)
    (input : ActionsWindow.Input) (actions : List ActionInfo) :
    ∃ es, (g.renderActionEdit env input actions).edits = g.edits ++ es ∧
      ∀ r ∈ es, g.EditOf actions r := by
  have hquiet : ∀ g' : Gui, g'.edits = g.edits →
      ∃ es, g'.edits = g.edits ++ es ∧ ∀ r ∈ es, g.EditOf actions r := by
    intro g' hg'
    exact ⟨[], by rw [hg', List.append_nil], fun r hr => by cases hr⟩
  unfold renderActionEdit
  split
  · split
    · exact hquiet _ rfl
    · next info hfind =>
      have hmem : info ∈ actions := List.mem_of_find?_eq_some hfind
      have hidx : info.idx = g.actionsWindow.editActionIdx := by simpa using List.find?_some hfind
      have hwindow : ∀ w, (g.withActionsWindow w).handler.terminated = false := fun _ => halive
      dsimp only
      split
      · exact hquiet _ rfl
      · split
        · next hsin =>
          obtain ⟨-, es, hes, hall⟩ := postsEdits_renderSinEdit env (hwindow _) input
          refine ⟨es, hes, fun r hr => ⟨(hall r hr).1, info, hmem, hidx, ?_⟩⟩
          rw [(hall r hr).2, decide_eq_true hsin]
        · next hsin =>
          obtain ⟨-, es, hes, hall⟩ := postsEdits_renderPayloadEdit env (hwindow _) input info
          refine ⟨es, hes, fun r hr => ⟨(hall r hr).1, info, hmem, hidx, ?_⟩⟩
          rw [(hall r hr).2, decide_eq_false hsin]
  · exact hquiet _ rfl

/-- An edit that a frame posts is one of the entry that is opened then. -/
theorem editOf_posted {input : ActionsWindow.Input} {r : Request SendModels}
    (hedit : r.isEdit = true)
    (hposted : Posted g.handler (g.step env (.actions input)).handler r) :
    g.handler.terminated = false ∧ (g.renderList env input).EditOf g.snapshot r := by
  obtain ⟨rs, hclosures, hr⟩ := hposted
  have hedits : (g.step env (.actions input)).edits = g.edits ++ rs.filter Request.isEdit := by
    rw [edits, hclosures, List.filter_append]
    rfl
  have hmem : r ∈ rs.filter Request.isEdit := List.mem_filter.mpr ⟨hr, hedit⟩
  rw [Gui.step] at hedits
  split at hedits
  · have hnil : rs.filter Request.isEdit = [] := by simpa using hedits
    rw [hnil] at hmem
    cases hmem
  · next hterm =>
    have halive : g.handler.terminated = false := by simpa using hterm
    obtain ⟨hlist, halive'⟩ := edits_renderList env halive input
    obtain ⟨es, hes, hall⟩ := edits_renderActionEdit env halive' input g.snapshot
    rw [renderActions_eq, hes, hlist, List.append_cancel_left_eq] at hedits
    exact ⟨halive, hall r (hedits ▸ hmem)⟩

end Posts

/-! ### What the fields were loaded for -/

/-- The fields of an action of this type were loaded for `ptr`. -/
def Origin.Loaded (o : Origin) (ptr : Nat) (type : String) : Prop :=
  if type = "Sin" then o.sin = some ptr else o.values = some ptr

section Loaded

variable {env : Env} {g : Gui} {o : Origin} {idx ptr : Nat} {type : String}

/-- The entry of an action. -/
theorem ofAction_of_snapshot (hsynced : Synced g.handler)
    (hstands : g.handler.StandsAt idx ptr type) {info : ActionInfo}
    (hinfo : g.snapshot[idx]? = some info) : info.idx = idx ∧ info.typeName = type := by
  obtain ⟨a, ha, -, rfl⟩ := hstands
  obtain ⟨b, hb, rfl⟩ := Synced.exists_action hsynced hinfo
  obtain rfl : a = b := Option.some.inj (ha.symm.trans hb)
  exact ⟨rfl, rfl⟩

/-- An entry's position is its index. -/
theorem getElem?_of_mem_snapshot (hsynced : Synced g.handler) {info : ActionInfo}
    (hinfo : info ∈ g.snapshot) : g.snapshot[info.idx]? = some info := by
  obtain ⟨i, hi⟩ := List.mem_iff_getElem?.mp hinfo
  obtain ⟨a, -, rfl⟩ := Synced.exists_action hsynced hi
  exact hi

theorem Origin.loaded_opened {info : ActionInfo} (hptr : g.handler.ptrs[info.idx]? = some ptr) :
    (Origin.opened g o info).Loaded ptr info.typeName := by
  unfold Origin.opened Origin.Loaded
  by_cases hsin : info.typeName = "Sin"
  · rw [if_pos hsin, if_pos hsin]
    exact hptr
  · rw [if_neg hsin, if_neg hsin]
    exact hptr

/-- What is loaded again is loaded for the entry at the position. -/
theorem Origin.Loaded.rendered (h : o.Loaded ptr type)
    (hidx : g.actionsWindow.editActionIdx = idx) (hptr : g.handler.ptrs[idx]? = some ptr)
    (input : ActionsWindow.Input) (actions : List ActionInfo) :
    (Origin.rendered g input actions o).Loaded ptr type := by
  unfold Origin.rendered
  split
  · split
    · exact h
    · next info hfind =>
      have hinfo : info.idx = idx := by
        have hfound : info.idx = g.actionsWindow.editActionIdx := by simpa using List.find?_some hfind
        exact hfound.trans hidx
      split
      · exact h
      · split
        · exact h
        · split
          · exact h
          · unfold Origin.Loaded at h ⊢
            by_cases hsin : type = "Sin"
            · rw [if_pos hsin] at h ⊢
              exact h
            · rw [if_neg hsin, hinfo]
              exact hptr
  · exact h

variable (env) in
/-- The frame that opens the entry loads the fields for its action. -/
theorem Origin.loaded_step_opens {l : Label} (hsynced : Synced g.handler)
    (hstands : g.handler.StandsAt idx ptr type) (hl : g.Opens idx l) :
    (Origin.step env g o l).Loaded ptr type ∧
      (g.step env l).actionsWindow.editActionIdx = idx := by
  cases l with
  | send input now => exact hl.elim
  | expire timer => exact hl.elim
  | run tick => exact hl.elim
  | actions input =>
    obtain ⟨halive, hselect, hlt⟩ := hl
    obtain ⟨info, hinfo⟩ : ∃ info, g.snapshot[idx]? = some info := ⟨_, List.getElem?_eq_getElem hlt⟩
    obtain ⟨hidx, rfl⟩ := ofAction_of_snapshot hsynced hstands hinfo
    have hselected : g.selected input = some info := by
      rw [selected, hselect]
      exact hinfo
    have hlist : (g.renderList env input).actionsWindow.editActionIdx = idx := by
      rw [editActionIdx_renderList, hselected]
      exact hidx
    have hptrs : (g.renderList env input).handler.ptrs[idx]? = some ptr := by
      rw [(undisturbed_renderList input).ptrs]
      exact hstands.ptrs
    constructor
    · rw [Origin.step, if_neg (by simp [halive]), Origin.frame, hselected]
      exact (Origin.loaded_opened (hidx ▸ hstands.ptrs)).rendered hlist hptrs input _
    · rw [Gui.step, if_neg (by simp [halive]), renderActions_eq, editActionIdx_renderActionEdit]
      exact hlist

variable (env) in
/-- The others keep them, as long as the action is at the position. -/
theorem Origin.Loaded.step (h : o.Loaded ptr type) (hptr : g.handler.ptrs[idx]? = some ptr)
    (hidx : g.actionsWindow.editActionIdx = idx) {l : Label} (hl : OpensNone l) :
    (Origin.step env g o l).Loaded ptr type := by
  cases l with
  | send input now => exact h
  | expire timer => exact h
  | run tick => exact h
  | actions input =>
    rw [Origin.step]
    split
    · exact h
    · have hnone : g.selected input = none := by
        rw [selected, show input.select = none from hl]
        rfl
      have hlist : (g.renderList env input).actionsWindow.editActionIdx = idx := by
        rw [editActionIdx_renderList, hnone]
        exact hidx
      have hptrs : (g.renderList env input).handler.ptrs[idx]? = some ptr := by
        rw [(undisturbed_renderList input).ptrs]
        exact hptr
      rw [Origin.frame, hnone]
      exact h.rendered hlist hptrs input _

theorem Origin.Loaded.run (h : o.Loaded ptr type) (hid : Identities g.handler)
    (hptr : g.handler.ptrs[idx]? = some ptr) (hidx : g.actionsWindow.editActionIdx = idx)
    {ls : List Label} (hls : ∀ l ∈ ls, OpensNone l)
    (hmeets : Meets (Gui.step env) (HostKeepsUpTo (fun g => g.handler) io idx) g ls) :
    (Runs.run (stepOrigin env) (g, o) ls).2.Loaded ptr type := by
  induction ls generalizing g o with
  | nil => exact h
  | cons l ls ih =>
    have hg := (hosts env).governs idx
    have hl : OpensNone l := hls l List.mem_cons_self
    refine ih (h.step env hptr hidx hl) (hg.identities g l hid) (hg.stays g l ptr hid hmeets.1 hptr)
      ?_ (fun l' hl' => hls l' (List.mem_cons_of_mem _ hl')) hmeets.2
    rw [editActionIdx_step hl, hidx]

theorem standsAt_run (hid : Identities g.handler) (hstands : g.handler.StandsAt idx ptr type)
    {ls : List Label}
    (hmeets : Meets (Gui.step env) (HostKeepsUpTo (fun g => g.handler) io idx) g ls) :
    (Runs.run (Gui.step env) g ls).handler.StandsAt idx ptr type := by
  have hg := (hosts env).governs idx
  have hboth : Identities (Runs.run (Gui.step env) g ls).handler ∧
      (Runs.run (Gui.step env) g ls).handler.StandsAt idx ptr type :=
    hmeets.invariant (P := fun g => Identities g.handler ∧ g.handler.StandsAt idx ptr type)
      (fun g l ⟨hid, hs⟩ hl =>
        ⟨hg.identities g l hid, (hosts env).standsAt_step hid hs hl⟩) ⟨hid, hstands⟩
  exact hboth.2

end Loaded

/-! ### Sessions -/

section Session

variable {env : Env} {cfgs : List InterfaceConfig} {g : Gui} {idx : Nat} {earlier : List Label}
  {last : ActionsWindow.Input} {r : Request SendModels} {after : List Label}

theorem Session.lt {ls : List Label} (h : g.Session idx ls) : idx < g.snapshot.length := by
  cases ls with
  | nil => exact h.elim
  | cons l ls =>
    cases l with
    | actions input => exact h.1.2.2
    | send input now => exact h.1.elim
    | expire timer => exact h.1.elim
    | run tick => exact h.1.elim

/-- In a session, from the first frame on, the window is about the action that was opened. -/
theorem Session.editActionIdx {ls : List Label} {l : Label} (hsound : g.Sound env cfgs)
    (h : g.Session idx (l :: ls)) :
    (run (Gui.step env) g (l :: ls)).actionsWindow.editActionIdx = idx := by
  obtain ⟨a, ha, -⟩ := hsound.synced.exists_action (List.getElem?_eq_getElem h.lt)
  obtain ⟨hopens, hnone⟩ := h
  have hfirst := (Origin.loaded_step_opens env (o := {}) hsound.synced ⟨a, ha, rfl, rfl⟩ hopens).2
  rw [run_cons, editActionIdx_run hnone, hfirst]

/-- The edit is posted for the position that was opened. -/
theorem Edits.editOf (hsound : g.Sound env cfgs) (he : g.Edits env idx earlier last r after) :
    r.index = some idx ∧ ∃ info ∈ (run (Gui.step env) g earlier).snapshot,
      info.idx = idx ∧ r.editsSin = decide (info.typeName = "Sin") := by
  have hsound' : (run (Gui.step env) g earlier).Sound env cfgs := hsound.run earlier
  obtain ⟨-, hindex, info, hmem, hinfo, hsin⟩ := editOf_posted he.isEdit he.posted
  have hidx : ((run (Gui.step env) g earlier).renderList env last).actionsWindow.editActionIdx =
      idx := by
    rw [editActionIdx_renderList]
    have hsession := he.session
    cases earlier with
    | nil =>
      obtain ⟨⟨-, hselect, hlt⟩, -⟩ := hsession
      have hget : g.snapshot[idx]? = some g.snapshot[idx] := List.getElem?_eq_getElem hlt
      obtain ⟨a, -, hentry⟩ := hsound.synced.exists_action hget
      have hselected : g.selected last = some g.snapshot[idx] := by
        rw [selected, hselect]
        exact hget
      rw [run_nil, hselected, hentry]
      rfl
    | cons l ls =>
      have hnone : OpensNone (.actions last) :=
        hsession.2 _ (List.mem_append_right _ (List.mem_singleton_self _))
      have hselected : (run (Gui.step env) g (l :: ls)).selected last = none := by
        rw [selected, show last.select = none from hnone]
        rfl
      have hfirst : g.Session idx (l :: ls) :=
        ⟨hsession.1, fun l' hl' => hsession.2 l' (List.mem_append_left _ hl')⟩
      rw [hselected]
      exact hfirst.editActionIdx hsound
  exact ⟨hindex.trans (congrArg some hidx), info, hmem, hinfo.trans hidx, hsin⟩

/-- As long as the action is at its position, the fields that the edit takes were loaded for it. -/
theorem Edits.loadedFor_eq (hsound : g.Sound env cfgs) (he : g.Edits env idx earlier last r after)
    {ptr : Nat} {type : String} (hstands : g.handler.StandsAt idx ptr type)
    (hmeets : Meets (Gui.step env) (HostKeepsUpTo (fun g => g.handler) io idx) g
      (earlier ++ [.actions last])) (o : Origin) :
    loadedFor env g o earlier last r = some ptr := by
  obtain ⟨-, info, hmem, hinfo, hsin⟩ := he.editOf hsound
  have hid : Identities g.handler := hsound.identities
  -- the entry that the last frame shows is that of the action
  have htype : info.typeName = type := by
    have hstands' := standsAt_run hid hstands (meets_append.mp hmeets).1
    have hsynced' := (hsound.run earlier).synced
    have hget := getElem?_of_mem_snapshot hsynced' hmem
    rw [hinfo] at hget
    exact (ofAction_of_snapshot hsynced' hstands' hget).2
  have hloaded : (run (stepOrigin env) (g, o) (earlier ++ [.actions last])).2.Loaded ptr type := by
    have hsession := he.session
    generalize earlier ++ [Label.actions last] = ls at hsession hmeets ⊢
    cases ls with
    | nil => exact hsession.elim
    | cons l ls =>
      obtain ⟨hopens, hnone⟩ := hsession
      obtain ⟨hfirst, hidx⟩ := Origin.loaded_step_opens env (o := o) hsound.synced hstands hopens
      have hg := (hosts env).governs idx
      exact hfirst.run (hg.identities g l hid) (hg.stays g l ptr hid hmeets.1 hstands.ptrs) hidx
        hnone hmeets.2
  rw [loadedFor, Origin.of, hsin, htype]
  unfold Origin.Loaded at hloaded
  by_cases htypeSin : type = "Sin"
  · rw [if_pos htypeSin] at hloaded
    rw [if_pos (by simp [htypeSin])]
    exact hloaded
  · rw [if_neg htypeSin] at hloaded
    rw [if_neg (by simp [htypeSin])]
    exact hloaded

/-- An edit that is opened and applied in the actions window. -/
theorem Sound.edit_delivered_iff (hsound : g.Sound env cfgs)
    (he : g.Edits env idx earlier last r after) :
    ∃ a, g.handler.actions[idx]? = some a ∧ r.index = some idx ∧
      ∀ (h : ActionHandler SendModels) (o : Origin),
        h = (Runs.run (Gui.step env) g (earlier ++ .actions last :: after)).handler →
        (∀ tick q b, h.find q = some b → (ActionHandler.step env.trig h (.run tick)).find q =
          if h.ptrs[idx]? = some q then r.effect tick.now b else some b) ∧
        (h.Delivered idx a.ptr (loadedFor env g o earlier last r) ↔
          Meets (Gui.step env) (HostKeepsUpTo (fun g => g.handler) io idx) g
              (earlier ++ .actions last :: after) ∨
            (a.ptr ∉ h.ptrs ∧ h.actions.length ≤ idx)) := by
  obtain ⟨a, ha, -⟩ := hsound.synced.exists_action (List.getElem?_eq_getElem he.session.lt)
  have hindex := (he.editOf hsound).1
  refine ⟨a, ha, hindex, ?_⟩
  intro h o hh
  have hid : Identities h := hh ▸ (hsound.run _).identities
  constructor
  · intro tick q b hfind
    obtain ⟨halive, rest, hready⟩ := he.aboutTo
    rw [← hh] at halive hready
    exact find_step_posted env.trig tick hid halive hready hindex hfind
  · refine ((hosts env).governs idx).delivered_iff hsound.identities (getElem?_ptrs ha) hh ?_
    intro hmeets
    have hsplit : earlier ++ Label.actions last :: after =
        (earlier ++ [.actions last]) ++ after := by simp
    rw [hsplit] at hmeets
    exact he.loadedFor_eq hsound ⟨a, ha, rfl, rfl⟩ (meets_append.mp hmeets).1 o

end Session

end Gui

end Caneo
