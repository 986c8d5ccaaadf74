import Caneo.GuiEdits
import Caneo.TuiEdits

/-!
# Editing an action

An edit reaches the action that was opened exactly as long as no action up to its position has been
erased since (or, once it is gone, as long as nothing has taken its index). So the removal of an action
further up, or a single action that is done, sends the edit to the neighbour.
-/

namespace Caneo

open BitField EventLoop Runs Containers ActionHandler

/-- An edit of the TUI or the GUI is delivered to the action that was opened, with what was loaded for
it, or dropped if this action is gone: exactly if no action up to its position is erased on the way, or
the action is gone and its index free. An edit of a sin parameter that goes astray to an action of
another kind changes nothing there, and is not delivered either. -/
theorem edits_delivered_iff (env : Env) (cfgs : List InterfaceConfig) :
    (∀ (t₀ : TuiDataFrameSet) (before : List TuiDataFrameSet.Label) (t : TuiDataFrameSet) (idx : Nat)
        (opening commit : Event × ℚ) (mid after : List TuiDataFrameSet.Label)
        (r : Request SendModels),
      t₀.Started env cfgs → t = run (TuiDataFrameSet.step env) t₀ before →
      t.Edits env idx opening mid commit r after →
      ∃ a, t.handler.actions[idx]? = some a ∧ r.index = some idx ∧
        ∀ (h : ActionHandler SendModels) (o : Option Nat),
          h = (run (TuiDataFrameSet.step env) t
            (.key opening.1 opening.2 :: mid ++ .key commit.1 commit.2 :: after)).handler →
          (∀ tick q b, h.find q = some b → (ActionHandler.step env.trig h (.run tick)).find q =
            if h.ptrs[idx]? = some q then r.effect tick.now b else some b) ∧
          (h.Delivered idx a.ptr (t.loadedFor env o opening mid) ↔
            Meets (TuiDataFrameSet.step env)
                (HostKeepsUpTo (fun t => t.handler) TuiDataFrameSet.io idx) t
                (.key opening.1 opening.2 :: mid ++ .key commit.1 commit.2 :: after) ∨
              (a.ptr ∉ h.ptrs ∧ h.actions.length ≤ idx))) ∧
    (∀ (g₀ : Gui) (now : ℚ) (before : List Gui.Label) (g : Gui) (idx : Nat)
        (earlier : List Gui.Label) (last : ActionsWindow.Input) (r : Request SendModels)
        (after : List Gui.Label),
      Gui.runGui env now cfgs = .ok g₀ → g = run (Gui.step env) g₀ before →
      g.Edits env idx earlier last r after →
      ∃ a, g.handler.actions[idx]? = some a ∧ r.index = some idx ∧
        ∀ (h : ActionHandler SendModels) (o : Gui.Origin),
          h = (run (Gui.step env) g (earlier ++ .actions last :: after)).handler →
          (∀ tick q b, h.find q = some b → (ActionHandler.step env.trig h (.run tick)).find q =
            if h.ptrs[idx]? = some q then r.effect tick.now b else some b) ∧
          (h.Delivered idx a.ptr (g.loadedFor env o earlier last r) ↔
            Meets (Gui.step env) (HostKeepsUpTo (fun g => g.handler) Gui.io idx) g
                (earlier ++ .actions last :: after) ∨
              (a.ptr ∉ h.ptrs ∧ h.actions.length ≤ idx))) := by
  constructor
  · intro t₀ before t idx opening commit mid after r hstart ht hedits
    have hrunning : t.Running env cfgs := ⟨t₀, before, hstart, ht⟩
    exact hrunning.edit_delivered_iff hedits
  · intro g₀ now before g idx earlier last r after hgui ht hedits
    have hsound : g.Sound env cfgs := ht ▸ (Gui.sound_runGui hgui).run before
    exact hsound.edit_delivered_iff hedits

/-! ### Three actions of the steering controller

A single action and two periodic ones; the first periodic one is opened, and its editor gets a 5. -/

/-- A closure that is posted to an empty queue. -/
theorem ActionHandler.posted_aboutTo {h h' : ActionHandler SendModels} {r : Request SendModels}
    (hterm : h'.terminated = false) (hempty : h.loop.ready.length = 0)
    (hready : h'.loop.ready = h.loop.ready ++ [.posted r]) : Posted h h' r ∧ h'.AboutTo r := by
  have hnil : h.loop.ready = [] := List.length_eq_zero_iff.mp hempty
  rw [hnil] at hready
  have hclosures : h'.loop.closures = h.loop.closures ++ [r] := by
    simp [Loop.closures, hready, hnil]
  exact ⟨⟨[r], hclosures, List.mem_singleton_self r⟩, hterm, [], hready⟩

namespace TuiDataFrameSet

/-- The editor of a payload's value has a number in it, and the queue is empty. -/
def Typed (env : Env) (t : TuiDataFrameSet) : Prop :=
  (t.exited = false ∧ t.handler.terminated = false) ∧ t.actionsEditing = true ∧
    (t.actionsEditBuf.isEmpty = false ∧ (env.stod t.actionsEditBuf).isSome = true) ∧
    t.handler.loop.ready.length = 0 ∧
    ∃ info ∈ t.snapshot[t.actionsCursor]?, info.typeName ≠ "Sin" ∧
      ∃ p ∈ t.messageOf info, 0 < p.2.2.signals.length

instance (env : Env) (t : TuiDataFrameSet) : Decidable (t.Typed env) :=
  inferInstanceAs (Decidable (_ ∧ _ ∧ _ ∧ _ ∧ ∃ info ∈ t.snapshot[t.actionsCursor]?, _))

/-- Return commits the number. -/
theorem Typed.posted {env : Env} {t : TuiDataFrameSet} (ht : t.Typed env) :
    ∃ r : Request SendModels, r.isEdit = true ∧
      ((t.step env (.key .Return 0)).handler.terminated = false →
        Posted t.handler (t.step env (.key .Return 0)).handler r ∧
          (t.step env (.key .Return 0)).handler.AboutTo r) := by
  obtain ⟨halive, hediting, ⟨htyped, hvalue⟩, hempty, info, hinfo, hconstant, p, hp, hlen⟩ := ht
  obtain ⟨v, hv⟩ := Option.isSome_iff_exists.mp hvalue
  have hclamp : clampCursor t.actionsSigCursor p.2.2.signals.length =
      some (min t.actionsSigCursor (p.2.2.signals.length - 1)) := by
    rw [clampCursor, if_neg (by omega)]
  have hcommits : t.Commits env .Return info p.2.2
      (min t.actionsSigCursor (p.2.2.signals.length - 1)) v := by
    refine ⟨halive, hediting, Or.inl rfl, hinfo, hconstant, ?_, hclamp, htyped, hv⟩
    rw [Option.mem_def.mp hp]
    rfl
  exact ⟨_, rfl, fun hterm => ActionHandler.posted_aboutTo hterm hempty (hcommits.ready_step 0)⟩

end TuiDataFrameSet

namespace Gui

/-- The frame presses the button of a payload's edit window, and the queue is empty. -/
def Pressed (g : Gui) (input : ActionsWindow.Input) : Prop :=
  g.handler.terminated = false ∧
    (input.select = none ∧ input.toggle = none ∧ input.delete = none) ∧
    (g.actionsWindow.editOpen = true ∧ input.collapsed = false) ∧ input.button = true ∧
    g.handler.loop.ready.length = 0 ∧
    ∃ info ∈ g.snapshot.find? (fun a => a.idx = g.actionsWindow.editActionIdx),
      info.typeName ≠ "Sin" ∧ (g.messageOf info).isSome = true

instance (g : Gui) (input : ActionsWindow.Input) : Decidable (g.Pressed input) :=
  inferInstanceAs (Decidable (_ ∧ _ ∧ _ ∧ _ ∧ _ ∧ ∃ info ∈ _, _))

/-- The button commits the fields. -/
theorem Pressed.posted {env : Env} {g : Gui} {input : ActionsWindow.Input} (hg : g.Pressed input) :
    ∃ r : Request SendModels, r.isEdit = true ∧
      ((g.step env (.actions input)).handler.terminated = false →
        Posted g.handler (g.step env (.actions input)).handler r ∧
          (g.step env (.actions input)).handler.AboutTo r) := by
  obtain ⟨halive, honly, hshown, hbutton, hempty, info, hinfo, hconstant, hmessage⟩ := hg
  obtain ⟨p, hp⟩ := Option.isSome_iff_exists.mp hmessage
  have hpresses : g.Presses input info p.2.2
      (changeField input.field (shownValues g.actionsWindow p.2.2)) := by
    refine ⟨halive, honly, hshown, hinfo, hconstant, ?_, rfl, hbutton⟩
    rw [hp]
    rfl
  exact ⟨_, rfl, fun hterm => ActionHandler.posted_aboutTo hterm hempty hpresses.ready_step⟩

end Gui

/-- The actions, on the actions tab. -/
def threeStarted : List TuiDataFrameSet.Label :=
  keys [.Character 's', .ArrowDown, .Return, .Character '1',
    .Character '2', .Character '1', .Return, .Return,
    .Character '2', .Character '1', .Return, .Return] ++
  [.run (ActionHandler.tickAt 0), .run (ActionHandler.tickAt 0), .run (ActionHandler.tickAt 0)] ++
  keys [.Character 'a', .ArrowDown]

def elmoThree : TuiDataFrameSet := run (TuiDataFrameSet.step elmoEnv) plainTui threeStarted

def typeFive : List TuiDataFrameSet.Label := keys [.Return, .Backspace, .Character '5']

/-- The single action sends its frame and is erased. -/
def singleDone : List TuiDataFrameSet.Label := [.expire 0, .run (ActionHandler.tickAt 0)]

/-- The same actions, from the windows of the GUI. -/
def threeSent : List Gui.Label :=
  [.send { select := some (0, 0), sendOnce := true } 0, .send { sendPeriodic := true } 0,
    .send { sendPeriodic := true } 0, .run (ActionHandler.tickAt 0), .run (ActionHandler.tickAt 0),
    .run (ActionHandler.tickAt 0)]

def elmoSent : Gui := run (Gui.step elmoEnv) plainGui threeSent

def singleSent : List Gui.Label := [.expire 0, .run (ActionHandler.tickAt 0)]

/-- The keys are an edit, whether or not the single action is done on the way. -/
theorem elmoThree_edits (mid : List TuiDataFrameSet.Label)
    (hview : Meets (TuiDataFrameSet.step elmoEnv) TuiDataFrameSet.InView
      (elmoThree.step elmoEnv (.key .ArrowRight 0)) (mid ++ [.key .Return 0]))
    (htyped : (run (TuiDataFrameSet.step elmoEnv) elmoThree (.key .ArrowRight 0 :: mid)).Typed elmoEnv)
    (halive : (run (TuiDataFrameSet.step elmoEnv) elmoThree
      (.key .ArrowRight 0 :: mid ++ [.key .Return 0])).handler.terminated = false) :
    ∃ r, elmoThree.Edits elmoEnv 1 (.ArrowRight, 0) mid (.Return, 0) r [] := by
  rw [run_append] at halive
  obtain ⟨r, hedit, hposted⟩ := htyped.posted
  obtain ⟨hposted, habout⟩ := hposted halive
  refine ⟨r, ⟨by decide +kernel, by decide +kernel, by decide +kernel, by decide +kernel, Or.inl rfl,
    by decide +kernel, by decide +kernel⟩, hview, hedit, hposted, ?_⟩
  rw [run_append]
  exact habout

/-- So are the frames of the GUI. -/
theorem elmoSent_edits (mid : List Gui.Label) (hmid : ∀ l ∈ mid, Gui.OpensNone l)
    (hpressed : (run (Gui.step elmoEnv) elmoSent (.actions { select := some 1 } :: mid)).Pressed
      { button := true })
    (halive : (run (Gui.step elmoEnv) elmoSent
      (.actions { select := some 1 } :: mid ++ [.actions { button := true }])).handler.terminated =
        false) :
    ∃ r, elmoSent.Edits elmoEnv 1 (.actions { select := some 1 } :: mid) { button := true } r [] := by
  rw [run_append] at halive
  obtain ⟨r, hedit, hposted⟩ := hpressed.posted
  obtain ⟨hposted, habout⟩ := hposted halive
  have hnone : ∀ l ∈ mid ++ [.actions { button := true }], Gui.OpensNone l := by
    intro l hl
    rcases List.mem_append.mp hl with hl | hl
    · exact hmid l hl
    · rw [List.mem_singleton.mp hl]
      rfl
  refine ⟨r, ⟨⟨by decide +kernel, rfl, by decide +kernel⟩, hnone⟩, hedit, hposted, ?_⟩
  rw [run_append]
  exact habout

/-- Without the single action being done, the edits are delivered. -/
theorem edits_delivered_elmo :
    (∃ r, elmoThree.Edits elmoEnv 1 (.ArrowRight, 0) typeFive (.Return, 0) r [] ∧
      (run (TuiDataFrameSet.step elmoEnv) elmoThree
        (.key .ArrowRight 0 :: typeFive ++ [.key .Return 0])).handler.Delivered 1 1
          (elmoThree.loadedFor elmoEnv none (.ArrowRight, 0) typeFive)) ∧
    (∃ r, elmoSent.Edits elmoEnv 1 [.actions { select := some 1 }] { button := true } r [] ∧
      (run (Gui.step elmoEnv) elmoSent
        [.actions { select := some 1 }, .actions { button := true }]).handler.Delivered 1 1
          (elmoSent.loadedFor elmoEnv {} [.actions { select := some 1 }] { button := true } r)) := by
  constructor
  · obtain ⟨r, hedits⟩ := elmoThree_edits typeFive (by decide +kernel) (by decide +kernel)
      (by decide +kernel)
    obtain ⟨a, ha, -, hall⟩ := (edits_delivered_iff elmoEnv (elmoInterfaces "")).1 plainTui
      threeStarted elmoThree 1 _ _ _ _ r (Or.inl ⟨0, false, runTui_plainTui⟩) rfl hedits
    rw [ptr_of_actions ha 1 (by decide +kernel)] at hall
    exact ⟨r, hedits, (hall _ none rfl).2.mpr (Or.inl (by decide +kernel))⟩
  · obtain ⟨r, hedits⟩ := elmoSent_edits [] (fun l hl => by cases hl) (by decide +kernel)
      (by decide +kernel)
    obtain ⟨a, ha, -, hall⟩ := (edits_delivered_iff elmoEnv (elmoInterfaces "")).2 plainGui 0
      threeSent elmoSent 1 _ _ r _ runGui_plainGui rfl hedits
    rw [ptr_of_actions ha 1 (by decide +kernel)] at hall
    exact ⟨r, hedits, (hall _ {} rfl).2.mpr (Or.inl (by decide +kernel))⟩

theorem ActionHandler.not_delivered {W : Type} {h : ActionHandler W} {idx ptr : Nat}
    (hmem : ptr ∈ h.ptrs) (hne : h.ptrs[idx]? ≠ some ptr) (loadedFor : Option Nat) :
    ¬ h.Delivered idx ptr loadedFor := by
  intro hdelivered
  rw [Delivered, if_pos hmem] at hdelivered
  exact hne hdelivered.1

/-- If it is done in the meantime, the edits reach the second periodic action, though the first is
still there. -/
theorem edits_go_astray :
    plainTui.Started elmoEnv (elmoInterfaces "") ∧
    elmoThree = run (TuiDataFrameSet.step elmoEnv) plainTui threeStarted ∧
    elmoThree.handler.ptrs = [0, 1, 2] ∧
    (∃ r, elmoThree.Edits elmoEnv 1 (.ArrowRight, 0) (typeFive ++ singleDone) (.Return, 0) r [] ∧
      ¬ (run (TuiDataFrameSet.step elmoEnv) elmoThree
        (.key .ArrowRight 0 :: (typeFive ++ singleDone) ++ [.key .Return 0])).handler.Delivered 1 1
          (elmoThree.loadedFor elmoEnv none (.ArrowRight, 0) (typeFive ++ singleDone))) ∧
    Gui.runGui elmoEnv 0 (elmoInterfaces "") = .ok plainGui ∧
    elmoSent = run (Gui.step elmoEnv) plainGui threeSent ∧
    elmoSent.handler.ptrs = [0, 1, 2] ∧
    (∃ r, elmoSent.Edits elmoEnv 1 (.actions { select := some 1 } :: singleSent) { button := true }
        r [] ∧
      ¬ (run (Gui.step elmoEnv) elmoSent
        (.actions { select := some 1 } :: singleSent ++ [.actions { button := true }])).handler.Delivered
          1 1 (elmoSent.loadedFor elmoEnv {} (.actions { select := some 1 } :: singleSent)
            { button := true } r)) := by
  refine ⟨Or.inl ⟨0, false, runTui_plainTui⟩, rfl, by decide +kernel, ?_, runGui_plainGui, rfl,
    by decide +kernel, ?_⟩
  · obtain ⟨r, hedits⟩ := elmoThree_edits (typeFive ++ singleDone) (by decide +kernel)
      (by decide +kernel) (by decide +kernel)
    exact ⟨r, hedits, ActionHandler.not_delivered (by decide +kernel) (by decide +kernel) _⟩
  · have hnone : ∀ l ∈ singleSent, Gui.OpensNone l := by
      intro l hl
      simp only [singleSent, List.mem_cons, List.not_mem_nil, or_false] at hl
      rcases hl with rfl | rfl
      · trivial
      · trivial
    obtain ⟨r, hedits⟩ := elmoSent_edits singleSent hnone (by decide +kernel)
      (by decide +kernel)
    exact ⟨r, hedits, ActionHandler.not_delivered (by decide +kernel) (by decide +kernel) _⟩

end Caneo
