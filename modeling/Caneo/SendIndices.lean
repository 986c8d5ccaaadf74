import Caneo.Gui
import Caneo.Navigation

/-!
# The indices of the send window

`SendWindow::render_edit_window` indexes the signals of the shown message, and the values that
`open_popup` made for them. The values always fit the message (`Fits`). The signal chosen for a sin
action is kept when another message is opened, and only one of its two uses cuts it to the message's
signals, to -1 if there are none; so the indices are in bounds exactly if the chosen signal is one of
the message's whenever the sin section is open (`indices_in_bounds_iff`).
-/

namespace Caneo

open EventLoop Runs

namespace SendModels

/-- How many signals a message has can be told from the shape. -/
theorem length_signals_eq (models : SendModels) (i mi : Nat) :
    (models.message i mi).map (·.signals.length) = (models.shape[i]?).bind fun p => p.2[mi]? := by
  simp only [message, model, shape, List.getElem?_map]
  rcases models[i]? with _ | p
  · rfl
  · simp

theorem shape_setValues (models : SendModels) (i mi : Nat) (values : List ℚ) :
    (models.setValues i mi values).shape = models.shape := by
  rw [setValues]
  generalize values.zipIdx = l
  induction l generalizing models with
  | nil => rfl
  | cons vk l ih => exact (ih _).trans (shape_setValue _ _ _ _ _)

end SendModels

/-- An index that is used, and how many elements there are. -/
structure IndexUse where
  index : Int
  size : Nat
deriving DecidableEq

namespace IndexUse

def InBounds (u : IndexUse) : Prop := 0 ≤ u.index ∧ u.index < u.size

/-- `for (int k = 0; k < count; ++k)`, with the index `k`. -/
def all (count size : Nat) : List IndexUse := (List.range count).map fun k : Nat => ⟨k, size⟩

theorem inBounds_all {count size : Nat} (h : count ≤ size) : ∀ u ∈ all count size, u.InBounds := by
  intro u hu
  obtain ⟨k, hk, rfl⟩ := List.mem_map.mp hu
  rw [List.mem_range] at hk
  exact ⟨Int.natCast_nonneg k, Int.ofNat_lt.mpr (hk.trans_le h)⟩

end IndexUse

namespace Gui

open IndexUse

/-! ### What a frame uses -/

/-- The sin section: the preview of the combo box, its entries, the signal whose range bounds the
fields, and the values for the button. -/
def sinUses (w : SendWindow) (input : SendWindow.Input) (msg : SendMessage) : List IndexUse :=
  let n := msg.signals.length
  (if n = 0 then [] else [⟨w.sinSigIdx, n⟩]) ++ all n n ++
    [⟨min (sinFields w input msg).sinSigIdx ((n : Int) - 1), n⟩] ++
    (if input.startSin then all n w.editingValues.length else [])

/-- `render_edit_window`: the table, the two buttons, and the sin section. -/
def editUses (w : SendWindow) (input : SendWindow.Input) (msg : SendMessage) : List IndexUse :=
  let n := msg.signals.length
  all n n ++ all n w.editingValues.length ++
    (if input.sendOnce then all n w.editingValues.length else []) ++
    (if input.sendPeriodic then all n w.editingValues.length else []) ++
    (if input.sinHeader then sinUses w input msg else [])

/-- The message list is drawn before the edit window. -/
def listed (g : Gui) (input : SendWindow.Input) : Gui :=
  match input.select with
  | none => g
  | some (i, j) => g.openPopup i j

def indexUses (g : Gui) : Label → List IndexUse
  | .send input _ =>
    if g.handler.terminated then []
    else match (g.listed input).popup with
      | none => []
      | some (_, _, _, msg) =>
        if input.collapsed then [] else editUses (g.listed input).sendWindow input msg
  | .actions _ | .expire _ | .run _ => []

/-- When the sin section is open, the chosen signal is one of the message's. -/
def SinIndexFits (g : Gui) (l : Label) : Prop :=
  ∀ input now iface i mi msg, l = .send input now → g.handler.terminated = false →
    (g.listed input).popup = some (iface, i, mi, msg) → input.collapsed = false →
      input.sinHeader = true → g.sendWindow.sinSigIdx < msg.signals.length

theorem renderSend_eq (env : Env) (g : Gui) (input : SendWindow.Input) (now : ℚ) :
    g.renderSend env input now = (g.listed input).renderSendEdit env input now := rfl

theorem sinUses_inBounds_iff {w : SendWindow} {msg : SendMessage}
    (hfit : w.editingValues.length = msg.signals.length) (input : SendWindow.Input) :
    (∀ u ∈ sinUses w input msg, u.InBounds) ↔ w.sinSigIdx < msg.signals.length := by
  simp only [sinUses, List.forall_mem_append, List.forall_mem_singleton]
  constructor
  · rintro ⟨⟨⟨hpreview, -⟩, hrange⟩, -⟩
    split at hpreview
    · next hnone =>
      -- the index is cut to -1
      have := hrange.1
      simp only [hnone] at this
      omega
    · rw [List.forall_mem_singleton] at hpreview
      exact Int.ofNat_lt.mp hpreview.2
  · intro hfits
    refine ⟨⟨⟨?_, inBounds_all (le_refl _)⟩, ?_⟩, ?_⟩
    · rw [if_neg (by omega), List.forall_mem_singleton]
      exact ⟨Int.natCast_nonneg _, Int.ofNat_lt.mpr hfits⟩
    · constructor
      · exact le_min (Int.natCast_nonneg _) (by omega)
      · exact lt_of_le_of_lt (min_le_right _ _) (sub_one_lt _)
    · split
      · exact inBounds_all hfit.ge
      · simp

theorem editUses_inBounds_iff {w : SendWindow} {msg : SendMessage}
    (hfit : w.editingValues.length = msg.signals.length) (input : SendWindow.Input) :
    (∀ u ∈ editUses w input msg, u.InBounds) ↔
      (input.sinHeader = true → w.sinSigIdx < msg.signals.length) := by
  have hall : ∀ b : Bool, ∀ u ∈ (if b then all msg.signals.length w.editingValues.length else []),
      u.InBounds := by
    intro b
    split
    · exact inBounds_all hfit.ge
    · simp
  simp only [editUses, List.forall_mem_append]
  constructor
  · rintro ⟨-, hsin⟩ hheader
    rw [if_pos hheader] at hsin
    exact (sinUses_inBounds_iff hfit input).mp hsin
  · intro h
    refine ⟨⟨⟨⟨inBounds_all (le_refl _), inBounds_all hfit.ge⟩, hall _⟩, hall _⟩, ?_⟩
    split
    · next hheader => exact (sinUses_inBounds_iff hfit input).mpr (h hheader)
    · simp

/-! ### The values fit the message -/

section Fits

variable {env : Env} {g : Gui}

/-- There is a value for each signal of the message that was opened last. -/
def Fits (g : Gui) : Prop :=
  ∀ i mi msg, g.sendWindow.popupIface = some i → g.sendWindow.popupMsg = some mi →
    g.ifaces.message i mi = some msg → g.sendWindow.editingValues.length = msg.signals.length

/-- The opened message and the number of values. -/
def editView (g : Gui) : Option Nat × Option Nat × Nat :=
  (g.sendWindow.popupIface, g.sendWindow.popupMsg, g.sendWindow.editingValues.length)

theorem Fits.of_view {g' : Gui} (h : g.Fits) (hview : g'.editView = g.editView)
    (hshape : g'.ifaces.shape = g.ifaces.shape) : g'.Fits := by
  simp only [editView, Prod.mk.injEq] at hview
  obtain ⟨hiface, hmsg, hlength⟩ := hview
  intro i mi msg' hi hmi hmessage
  have hcount := g'.ifaces.length_signals_eq i mi
  rw [hshape, ← g.ifaces.length_signals_eq, hmessage] at hcount
  obtain ⟨msg, hmsg', hsame⟩ := Option.map_eq_some_iff.mp hcount.symm
  rw [hlength, h i mi msg (hiface ▸ hi) (hmsg ▸ hmi) hmsg', hsame]

theorem Fits.listed (h : g.Fits) (input : SendWindow.Input) : (g.listed input).Fits := by
  rw [Gui.listed]
  split
  · exact h
  · next i j _ =>
    rw [openPopup]
    split
    · exact h
    · next msg hmsg =>
      rintro i' mi' msg' ⟨⟩ ⟨⟩ hmsg'
      rw [show msg' = msg from Option.some.inj (hmsg'.symm.trans hmsg)]
      exact List.length_map _

theorem Fits.popup (h : g.Fits) {iface : String} {i mi : Nat} {msg : SendMessage}
    (hpopup : g.popup = some (iface, i, mi, msg)) :
    g.sendWindow.editingValues.length = msg.signals.length := by
  simp only [Gui.popup, Option.bind_eq_bind, Option.pure_def, Option.bind_eq_some_iff,
    Option.some.injEq, Prod.mk.injEq] at hpopup
  obtain ⟨-, -, i', hi, p, hp, mi', hmi, sm, hsm, -, rfl, rfl, rfl⟩ := hpopup
  refine h i' mi' sm hi hmi ?_
  rw [SendModels.message, SendModels.model, hp]
  exact hsm

theorem editView_sinSection (input : SendWindow.Input) (now : ℚ) (iface : String) (i mi : Nat)
    (msg : SendMessage) : (g.sinSection env input now iface i mi msg).editView = g.editView := by
  simp only [sinSection, startSin]
  repeat' split
  all_goals rfl

theorem editView_renderSendEdit (input : SendWindow.Input) (now : ℚ) :
    (g.renderSendEdit env input now).editView = g.editView := by
  unfold renderSendEdit
  split
  · rfl
  · dsimp only
    repeat' split
    all_goals
      try rw [editView_sinSection]
      simp [editView, withSendWindow, sendOnce, sendPeriodic, post, setValues, length_changeField]

theorem sendWindow_onEntry (actions : List ActionInfo) (clicked : Option Nat)
    {f : Gui → ActionInfo → Gui} (hf : ∀ g info, (f g info).sendWindow = g.sendWindow) :
    (g.onEntry actions clicked f).sendWindow = g.sendWindow := by
  rw [onEntry]
  split
  · rfl
  · exact hf _ _

theorem sendWindow_renderActionEdit (input : ActionsWindow.Input) (actions : List ActionInfo) :
    (g.renderActionEdit env input actions).sendWindow = g.sendWindow := by
  simp only [renderActionEdit, renderSinEdit, renderPayloadEdit]
  repeat' split
  all_goals rfl

theorem sendWindow_renderActions (input : ActionsWindow.Input) :
    (g.renderActions env input).sendWindow = g.sendWindow := by
  rw [renderActions]
  refine (sendWindow_renderActionEdit input _).trans ?_
  refine (sendWindow_onEntry (f := removeEntry env) _ _ fun _ _ => rfl).trans ?_
  refine (sendWindow_onEntry (f := toggleEntry env) _ _ fun g info => ?_).trans ?_
  · rw [toggleEntry]
    split <;> rfl
  · refine sendWindow_onEntry _ _ fun g info => ?_
    rw [openEdit]
    dsimp only
    split <;> rfl

/-! ### Steps -/

/-- The models have the shape `s`, and keep it. -/
def Shaped (env : Env) (s : List (String × List Nat)) (g : Gui) : Prop :=
  g.handler.Reached env.trig fun models => models.shape = s

theorem keptByFrames_shaped (env : Env) (s : List (String × List Nat)) :
    KeptByFrames env fun h => h.Reached env.trig fun models => models.shape = s where
  setValues _ i mi values h :=
    h.change ((SendModels.shape_setValues _ i mi values).trans h.worldKept.world)
  request _ _ hkeeps h := h.request fun a ha => hkeeps a ha _

theorem Shaped.step {s : List (String × List Nat)} (h : g.Shaped env s) (l : Label) :
    (g.step env l).Shaped env s :=
  (keptByFrames_shaped env s).keptByAsks.step (fun _ timer h => h.expire timer)
    (fun _ tick h => h.run tick) h l

theorem Fits.step {s : List (String × List Nat)} (hshaped : g.Shaped env s) (h : g.Fits)
    (l : Label) : (g.step env l).Fits := by
  have hshape : (g.step env l).ifaces.shape = g.ifaces.shape :=
    (hshaped.step l).worldKept.world.trans hshaped.worldKept.world.symm
  rcases l with ⟨input, now⟩ | input | timer | tick
  · rw [Gui.step] at hshape ⊢
    split
    · exact h
    · next halive =>
      rw [if_neg halive] at hshape
      rw [renderSend_eq] at hshape ⊢
      refine (h.listed input).of_view (editView_renderSendEdit input now) ?_
      rw [hshape, Gui.listed]
      split
      · rfl
      · rw [openPopup]
        split <;> rfl
  · refine h.of_view ?_ hshape
    rw [Gui.step]
    split
    · rfl
    · rw [editView, sendWindow_renderActions, editView]
  · exact h.of_view rfl hshape
  · exact h.of_view rfl hshape

/-! ### The property -/

theorem sinSigIdx_listed (input : SendWindow.Input) :
    (g.listed input).sendWindow.sinSigIdx = g.sendWindow.sinSigIdx := by
  rw [listed]
  split
  · rfl
  · rw [openPopup]
    split <;> rfl

theorem indexUses_inBounds_iff (h : g.Fits) (l : Label) :
    (∀ u ∈ g.indexUses l, u.InBounds) ↔ g.SinIndexFits l := by
  rcases l with ⟨input, now⟩ | _ | _ | _
  · by_cases hterminated : g.handler.terminated = true
    · refine iff_of_true (by simp [indexUses, hterminated]) ?_
      rintro _ _ _ _ _ _ ⟨⟩ halive
      exact absurd halive (by simp [hterminated])
    · rcases hpopup : (g.listed input).popup with _ | ⟨iface, i, mi, msg⟩
      · refine iff_of_true (by simp [indexUses, hpopup]) ?_
        rintro _ _ _ _ _ _ ⟨⟩ - hopen
        exact absurd (hpopup.symm.trans hopen) (by simp)
      · by_cases hcollapsed : input.collapsed = true
        · refine iff_of_true (by simp [indexUses, hpopup, hcollapsed]) ?_
          rintro _ _ _ _ _ _ ⟨⟩ - - hshown
          exact absurd hshown (by simp [hcollapsed])
        · have huses : g.indexUses (.send input now) =
              editUses (g.listed input).sendWindow input msg := by
            simp [indexUses, hterminated, hpopup, hcollapsed]
          rw [huses, editUses_inBounds_iff ((h.listed input).popup hpopup), sinSigIdx_listed]
          constructor
          · rintro hfits _ _ _ _ _ _ ⟨⟩ - hopen - hheader
            obtain ⟨⟩ := hpopup.symm.trans hopen
            exact hfits hheader
          · intro hfits hheader
            exact hfits input now iface i mi msg rfl (by simpa using hterminated) hpopup
              (by simpa using hcollapsed) hheader
  all_goals
    refine iff_of_true (by simp [indexUses]) ?_
    rintro _ _ _ _ _ _ ⟨⟩

end Fits

/-- Through any run of the GUI, all indices are in bounds exactly if the sin section is open only
for messages that have the chosen signal. -/
theorem indices_in_bounds_iff (env : Env) (now : ℚ) (cfgs : List InterfaceConfig) (g₀ : Gui)
    (hstart : runGui env now cfgs = .ok g₀) (ls : List Label) :
    Meets (step env) (fun g l => ∀ u ∈ g.indexUses l, u.InBounds) g₀ ls ↔
      Meets (step env) SinIndexFits g₀ ls := by
  obtain ⟨handler, models, hload, hmodels, rfl⟩ := exists_of_runGui hstart
  have hinit : (ActionHandler.init (env.sendModels cfgs)).Reached env.trig
      fun m => m.shape = models.shape := .init (by rw [env.sendModels_eq, env.ifaces_eq hmodels])
  have hshaped : Gui.Shaped env models.shape { handler := { handler with world := models } } :=
    (env.reached_loadPresets hinit hload).change rfl
  exact meets_iff_meets (I := fun g : Gui => g.Shaped env models.shape ∧ g.Fits)
    (fun _ l h => ⟨h.1.step l, h.2.step h.1 l⟩) (fun _ l h => indexUses_inBounds_iff h.2 l)
    ⟨hshaped, fun _ _ _ hnone => by cases hnone⟩ ls

/-! ### Messages with four signals and with one -/

/-- The steering controller's message, and one with its first signal only. -/
def twoMessages : INetwork :=
  ⟨[SS_ELMO_CONFIG,
    { SS_ELMO_CONFIG with
      id := 1027, name := "SS_ELMO_VALID", signals := SS_ELMO_CONFIG.signals.take 1 }]⟩

def twoMessagesEnv : Env :=
  { elmoEnv with
    dbcFiles := fun path => if path = "vcan0.dbc" then .network twoMessages else .missing }

def twoMessagesGui : Gui where
  handler := ActionHandler.init (twoMessagesEnv.sendModels (elmoInterfaces ""))

theorem runGui_twoMessagesGui :
    runGui twoMessagesEnv 0 (elmoInterfaces "") = .ok twoMessagesGui := rfl

/-- The fourth signal of the first message is chosen for a sin action. -/
def chooseFourth : Label := .send { select := some (0, 0), sinHeader := true, sinSignal := some 3 } 0

/-- Then the other message is opened; the sin section is still open. -/
def openOther : Label := .send { select := some (0, 1), sinHeader := true } 0

theorem indices_out_of_bounds :
    ¬∀ env now cfgs g₀, runGui env now cfgs = .ok g₀ → ∀ ls,
      Meets (step env) (fun g l => ∀ u ∈ g.indexUses l, u.InBounds) g₀ ls := by
  intro h
  obtain ⟨-, hother, -⟩ := h twoMessagesEnv 0 (elmoInterfaces "") twoMessagesGui
    runGui_twoMessagesGui [chooseFourth, openOther]
  have hpreview : (⟨3, 1⟩ : IndexUse) ∈
      (twoMessagesGui.step twoMessagesEnv chooseFourth).indexUses openOther := by
    decide +kernel
  exact absurd (hother _ hpreview).2 (by decide)

theorem indices_in_bounds_chooseFourth :
    Meets (step twoMessagesEnv) (fun g l => ∀ u ∈ g.indexUses l, u.InBounds) twoMessagesGui
      [chooseFourth] := by
  refine (indices_in_bounds_iff twoMessagesEnv 0 (elmoInterfaces "") twoMessagesGui
    runGui_twoMessagesGui _).mpr ⟨?_, trivial⟩
  rintro input now iface i mi msg ⟨⟩ - hopen - -
  have hcount : (twoMessagesGui.listed { select := some (0, 0) }).popup.map
      (fun p => p.2.2.2.signals.length) = some 4 := by
    decide +kernel
  rw [show twoMessagesGui.listed { select := some (0, 0) } = twoMessagesGui.listed
    { select := some (0, 0), sinHeader := true, sinSignal := some 3 } from rfl, hopen] at hcount
  have hlength : msg.signals.length = 4 := Option.some.inj hcount
  rw [hlength]
  decide

end Gui

end Caneo
