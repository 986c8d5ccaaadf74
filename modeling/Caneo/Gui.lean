import Caneo.FrontEnd

/-!
# The GUI's send and actions windows

`SendWindow` and `ActionsWindow` (`src/gui`). Both are drawn anew in every frame, and a widget
reports what the user does with it while it is drawn. What the user does during one frame is the
`Input` of a window; the frame then runs through the widgets in the order of the source. What is
only drawn is left out.

The send models (`ifaces_`, owned by the send window, used by both) are the world of the action
handler, as in the TUI. Here no encode function changes them.
-/

namespace Caneo

open BitField EventLoop Runs Containers

structure SendWindow where
  popupOpen : Bool := false
  popupIface : Option Nat := none
  popupMsg : Option Nat := none
  editingValues : List ℚ := []
  periodBuf : String := "100"
  sinSigIdx : Nat := 0
  sinAmplitude : ℚ := 1
  sinOffset : ℚ := 0
  sinPeriodMs : Int := 1000
  sinIntervalMs : Int := 10

/-- A click on a message, the close button and the collapsed state of the edit window, a new value
in a field, and the buttons. `sinHeader` says whether the header of the sin section is open. -/
structure SendWindow.Input where
  select : Option (Nat × Nat) := none
  close : Bool := false
  collapsed : Bool := false
  field : Option (Nat × ℚ) := none
  sendOnce : Bool := false
  sendPeriodic : Bool := false
  periodBuf : Option String := none
  sinHeader : Bool := false
  sinSignal : Option Nat := none
  sinAmplitude : Option ℚ := none
  sinOffset : Option ℚ := none
  sinPeriodMs : Option Int := none
  sinIntervalMs : Option Int := none
  startSin : Bool := false

structure ActionsWindow where
  editOpen : Bool := false
  editActionIdx : Nat := 0
  editValues : List ℚ := []
  editAmplitude : ℚ := 0
  editOffset : ℚ := 0
  editSinPeriod : BitVec 32 := 1000

/-- A click on an entry or on one of its buttons, and the widgets of the edit window; `button` is
"Apply" or "Update Payload". -/
structure ActionsWindow.Input where
  select : Option Nat := none
  toggle : Option Nat := none
  delete : Option Nat := none
  close : Bool := false
  collapsed : Bool := false
  amplitude : Option ℚ := none
  offset : Option ℚ := none
  sinPeriod : Option (BitVec 32) := none
  field : Option (Nat × ℚ) := none
  button : Bool := false

structure Gui where
  handler : ActionHandler SendModels
  sendWindow : SendWindow := {}
  actionsWindow : ActionsWindow := {}

inductive Gui.Label where
  | send (input : SendWindow.Input) (now : ℚ)
  | actions (input : ActionsWindow.Input)
  | expire (timer : Nat)
  | run (tick : Tick)

/-- `std::max(1, n)` of an `int`. -/
def atLeastOne (n : BitVec 32) : BitVec 32 := if 1 < n.toInt then n else 1

theorem toInt_atLeastOne (n : BitVec 32) :
    1 ≤ (atLeastOne n).toInt ∧ (atLeastOne n).toInt < 2 ^ 63 := by
  have hhigh := BitVec.two_mul_toInt_lt (x := n)
  unfold atLeastOne
  split
  · omega
  · decide

/-- A field of the values that the user may have changed. -/
def changeField (field : Option (Nat × ℚ)) (values : List ℚ) : List ℚ :=
  match field with
  | none => values
  | some (k, v) => values.set k v

namespace Gui

def ifaces (g : Gui) : SendModels := g.handler.world

def snapshot (g : Gui) : List ActionInfo := g.handler.snapshot

def withSendWindow (g : Gui) (w : SendWindow) : Gui := { g with sendWindow := w }

def withActionsWindow (g : Gui) (w : ActionsWindow) : Gui := { g with actionsWindow := w }

/-- Set the values of a message. The callers have a value for each signal. -/
def setValues (g : Gui) (i mi : Nat) (values : List ℚ) : Gui :=
  { g with handler := { g.handler with world := g.ifaces.setValues i mi values } }

section Frame

variable (env : Env)

def post (g : Gui) (r : Request SendModels) : Gui :=
  { g with handler := ActionHandler.step env.trig g.handler (.request r) }

/-! ### The send window -/

def openPopup (g : Gui) (i j : Nat) : Gui :=
  match g.ifaces.message i j with
  | none => g
  | some msg =>
    g.withSendWindow { g.sendWindow with
      popupOpen := true, popupIface := some i, popupMsg := some j,
      editingValues := msg.signals.map (·.value) }

/-- The message whose edit window is open: the name of its interface, its positions, and itself. -/
def popup (g : Gui) : Option (String × Nat × Nat × SendMessage) := do
  guard g.sendWindow.popupOpen
  let i ← g.sendWindow.popupIface
  let iface ← g.ifaces[i]?
  let mi ← g.sendWindow.popupMsg
  let msg ← iface.2.messages[mi]?
  return (iface.1, i, mi, msg)

def sendOnce (g : Gui) (iface : String) (i mi : Nat) (msg : SendMessage) : Gui :=
  let set := g.setValues i mi g.sendWindow.editingValues
  set.post env (.addAction (Action.newSingle iface msg.id msg.name (set.ifaces.encode env.casts i mi)))

def sendPeriodic (g : Gui) (iface : String) (i mi : Nat) (msg : SendMessage) : Gui :=
  let periodMs := max 1 (env.atoi g.sendWindow.periodBuf)
  let set := g.setValues i mi g.sendWindow.editingValues
  set.post env (.addAction (Action.newPeriodic iface msg.id msg.name
    (set.ifaces.encode env.casts i mi) periodMs))

/-- The sin section's fields. -/
def sinFields (w : SendWindow) (input : SendWindow.Input) (msg : SendMessage) : SendWindow :=
  { w with
    sinSigIdx := (input.sinSignal.filter fun k => k < msg.signals.length).getD w.sinSigIdx
    sinAmplitude := input.sinAmplitude.getD w.sinAmplitude
    sinOffset := input.sinOffset.getD w.sinOffset
    sinPeriodMs := max 1 (input.sinPeriodMs.getD w.sinPeriodMs)
    sinIntervalMs := max 1 (input.sinIntervalMs.getD w.sinIntervalMs) }

/-- The encode function is that of a preset: it encodes the value into the base payload. -/
def startSin (g : Gui) (now : ℚ) (iface : String) (i mi : Nat) (msg : SendMessage) : Gui :=
  match (clampCursor g.sendWindow.sinSigIdx msg.signals.length).bind fun k => msg.signals[k]? with
  | none => g
  | some ssig =>
    let set := g.setValues i mi g.sendWindow.editingValues
    let base := set.ifaces.encode env.casts i mi
    set.post env (.addAction (Action.newSin now iface msg.id msg.name g.sendWindow.sinIntervalMs
      (fun v w => (Preset.encodeFn base ssig.sig ssig.minVal ssig.maxVal v, w))
      g.sendWindow.sinAmplitude g.sendWindow.sinPeriodMs g.sendWindow.sinOffset))

def sinSection (g : Gui) (input : SendWindow.Input) (now : ℚ) (iface : String) (i mi : Nat)
    (msg : SendMessage) : Gui :=
  let g := g.withSendWindow (sinFields g.sendWindow input msg)
  if input.startSin then g.startSin env now iface i mi msg else g

/-- `render_edit_window` of the send window. -/
def renderSendEdit (g : Gui) (input : SendWindow.Input) (now : ℚ) : Gui :=
  match g.popup with
  | none => g
  | some (iface, i, mi, msg) =>
    let g := g.withSendWindow { g.sendWindow with popupOpen := !input.close }
    if input.collapsed then g
    else
      let g := g.withSendWindow { g.sendWindow with
        editingValues := changeField input.field g.sendWindow.editingValues }
      let g := if input.sendOnce then g.sendOnce env iface i mi msg else g
      let g := if input.sendPeriodic then g.sendPeriodic env iface i mi msg else g
      let g := g.withSendWindow { g.sendWindow with
        periodBuf := input.periodBuf.getD g.sendWindow.periodBuf }
      if input.sinHeader then g.sinSection env input now iface i mi msg else g

def renderSend (g : Gui) (input : SendWindow.Input) (now : ℚ) : Gui :=
  let g :=
    match input.select with
    | none => g
    | some (i, j) => g.openPopup i j
  g.renderSendEdit env input now

/-! ### The actions window -/

/-- `find_model` and `find_msg_idx`: the model of an entry's interface and the first message with
its id, by their positions, and the message. -/
def messageOf (g : Gui) (info : ActionInfo) : Option (Nat × Nat × SendMessage) :=
  g.ifaces.messageOf info.interface info.msgId

/-- The values of the shared model, with which the edit window of an action is filled. -/
def loadValues (msg : SendMessage) : List ℚ := msg.signals.map (·.value)

def openEdit (g : Gui) (info : ActionInfo) : Gui :=
  let w := { g.actionsWindow with editActionIdx := info.idx, editOpen := true }
  if info.typeName = "Sin" then
    g.withActionsWindow { w with
      editAmplitude := info.sinAmplitude, editOffset := info.sinOffset,
      editSinPeriod := BitVec.ofInt 32 info.sinPeriodMs }
  else
    g.withActionsWindow { w with
      editValues := ((g.messageOf info).map fun p => loadValues p.2.2).getD [] }

/-- The fields of a sin action, and "Apply". -/
def renderSinEdit (g : Gui) (input : ActionsWindow.Input) : Gui :=
  let w := g.actionsWindow
  let w := { w with
    editAmplitude := input.amplitude.getD w.editAmplitude
    editOffset := input.offset.getD w.editOffset
    editSinPeriod := atLeastOne (input.sinPeriod.getD w.editSinPeriod) }
  let g := g.withActionsWindow w
  if input.button then
    ((g.post env (.updateSinParam w.editActionIdx 0 w.editAmplitude)).post env
      (.updateSinParam w.editActionIdx 2 w.editOffset)).post env
      (.updateSinParam w.editActionIdx 1 w.editSinPeriod.toInt)
  else g

/-- "Update Payload". -/
def updatePayload (g : Gui) (i mi : Nat) : Gui :=
  let set := g.setValues i mi g.actionsWindow.editValues
  set.post env (.updatePayload g.actionsWindow.editActionIdx (set.ifaces.encode env.casts i mi))

/-- The values that the edit window shows for a message: loaded again if there are not as many as
signals. -/
def shownValues (w : ActionsWindow) (msg : SendMessage) : List ℚ :=
  if w.editValues.length = msg.signals.length then w.editValues else loadValues msg

/-- The fields of any other action, and "Update Payload". -/
def renderPayloadEdit (g : Gui) (input : ActionsWindow.Input) (info : ActionInfo) : Gui :=
  match g.messageOf info with
  | none => g
  | some (i, mi, msg) =>
    let g := g.withActionsWindow { g.actionsWindow with
      editValues := changeField input.field (shownValues g.actionsWindow msg) }
    if input.button then g.updatePayload env i mi else g

/-- `render_edit_window` of the actions window. -/
def renderActionEdit (g : Gui) (input : ActionsWindow.Input) (actions : List ActionInfo) : Gui :=
  if g.actionsWindow.editOpen then
    match actions.find? fun a => a.idx = g.actionsWindow.editActionIdx with
    | none => g.withActionsWindow { g.actionsWindow with editOpen := false }
    | some info =>
      let g := g.withActionsWindow { g.actionsWindow with editOpen := !input.close }
      if input.collapsed then g
      else if info.typeName = "Sin" then g.renderSinEdit env input
      else g.renderPayloadEdit env input info
  else g

def toggleEntry (g : Gui) (info : ActionInfo) : Gui :=
  if info.isPeriodic then g.post env (.togglePause info.idx) else g

def removeEntry (g : Gui) (info : ActionInfo) : Gui :=
  let w := g.actionsWindow
  (g.withActionsWindow { w with editOpen := w.editOpen && w.editActionIdx != info.idx }).post env
    (.removeAction info.idx)

/-- What a click on an entry of the list does, if it was on one. -/
def onEntry (g : Gui) (actions : List ActionInfo) (clicked : Option Nat)
    (f : Gui → ActionInfo → Gui) : Gui :=
  match clicked.bind fun n => actions[n]? with
  | none => g
  | some info => f g info

def renderActions (g : Gui) (input : ActionsWindow.Input) : Gui :=
  let actions := g.snapshot
  let g := g.onEntry actions input.select openEdit
  let g := g.onEntry actions input.toggle (toggleEntry env)
  let g := g.onEntry actions input.delete (removeEntry env)
  g.renderActionEdit env input actions

/-! ### Steps -/

def step (g : Gui) : Label → Gui
  | .send input now => if g.handler.terminated then g else g.renderSend env input now
  | .actions input => if g.handler.terminated then g else g.renderActions env input
  | .expire timer =>
    { g with handler := ActionHandler.step env.trig g.handler (.expire timer) }
  | .run tick => { g with handler := ActionHandler.step env.trig g.handler (.run tick) }

end Frame

/-- `run_gui`, up to the main loop. While the presets are loaded there are no send models yet, and
nothing looks at the world. -/
def runGui (env : Env) (now : ℚ) (cfgs : List InterfaceConfig) : Except String Gui := do
  let handler ← env.loadPresets now (ActionHandler.init (env.sendModels cfgs)) cfgs
  let models ← env.ifaces cfgs
  return { handler := { handler with world := models } }

/-! ### What frames request -/

/-- The requests of the windows, with the models as they are when it is posted. A period and an
interval are at least 1, and a sin action encodes into a payload of the message that it is for. -/
inductive Asks (env : Env) (models : SendModels) : Request SendModels → Prop where
  | single (iface : String) (msgId : BitVec 64) (msgName : String) (payload : Bytes) :
      Asks env models (.addAction (Action.newSingle iface msgId msgName payload))
  | periodic (iface : String) (msgId : BitVec 64) (msgName : String) (payload : Bytes)
      {period : Int} : 1 ≤ period →
      Asks env models (.addAction (Action.newPeriodic iface msgId msgName payload period))
  | sin (now : ℚ) (iface : String) (msgId : BitVec 64) (msgName : String) (amplitude offset : ℚ)
      {interval sinPeriod : Int} {i mi k : Nat} {sm : SendMessage} {ss : SendSignal} :
      models.message i mi = some sm → sm.signals[k]? = some ss → 1 ≤ interval → 1 ≤ sinPeriod →
      Asks env models (.addAction (Action.newSin now iface msgId msgName interval
        (fun v w => (Preset.encodeFn (sm.encode env.casts) ss.sig ss.minVal ss.maxVal v, w))
        amplitude sinPeriod offset))
  | updateSinParam (idx : Nat) {param : Int} {value : ℚ} :
      (param = 1 → 1 ≤ value ∧ value < 2 ^ 63) →
      Asks env models (.updateSinParam idx param value)
  | updatePayload (idx : Nat) (payload : Bytes) : Asks env models (.updatePayload idx payload)
  | togglePause (idx : Nat) : Asks env models (.togglePause idx)
  | removeAction (idx : Nat) : Asks env models (.removeAction idx)

/-- The actions that are added leave the world alone. -/
theorem Asks.keeps {env : Env} {models : SendModels} {r : Request SendModels}
    (h : Asks env models r) : ∀ a, r.action = some a → ∀ P, a.Keeps P := by
  cases h with
  | single =>
    rintro a ⟨⟩ P
    exact Action.keeps_newSingle P _ _ _ _
  | periodic =>
    rintro a ⟨⟩ P
    exact Action.keeps_newPeriodic P _ _ _ _ _
  | sin =>
    rintro a ⟨⟩ P
    exact Action.keeps_newSin fun _ _ hmodels => hmodels
  | updateSinParam | updatePayload | togglePause | removeAction =>
    rintro a ⟨⟩

/-- The message at these positions has the signals of `msg`, perhaps with other values. -/
def Shows (g : Gui) (i mi : Nat) (msg : SendMessage) : Prop :=
  ∃ sm, g.ifaces.message i mi = some sm ∧ SameSignals msg.signals sm.signals

section Shows

variable {env : Env} {g : Gui} {i mi : Nat} {msg : SendMessage}

theorem Shows.setValues (h : g.Shows i mi msg) (values : List ℚ) :
    (g.setValues i mi values).Shows i mi msg := by
  obtain ⟨sm, hsm, hsame⟩ := h
  have hset : (g.setValues i mi values).ifaces.message i mi =
      some (values.zipIdx.foldl (fun sm vk => sm.setValue vk.2 vk.1) sm) := by
    rw [Gui.ifaces, Gui.setValues, SendModels.setValues, SendModels.message_foldl_setValue, hsm]
    rfl
  refine ⟨_, hset, ?_⟩
  clear hset hsm
  generalize values.zipIdx = l
  induction l generalizing sm with
  | nil => exact hsame
  | cons vk l ih => exact ih _ (hsame.trans (SameSignals.modify _ _ _))

theorem Shows.post (h : g.Shows i mi msg) (r : Request SendModels) :
    (g.post env r).Shows i mi msg := by
  unfold Gui.post Gui.Shows Gui.ifaces ActionHandler.step
  dsimp only
  split
  · exact h
  · exact h

theorem shows_of_popup {iface : String} (h : g.popup = some (iface, i, mi, msg)) :
    g.Shows i mi msg := by
  simp only [Gui.popup, Option.bind_eq_bind, Option.pure_def, Option.bind_eq_some_iff,
    Option.some.injEq, Prod.mk.injEq] at h
  obtain ⟨-, -, i', -, p, hp, mi', -, sm, hsm, -, rfl, rfl, rfl⟩ := h
  refine ⟨sm, ?_, SameSignals.refl _⟩
  rw [SendModels.message, SendModels.model, hp]
  exact hsm

end Shows

/-! ### What frames keep -/

/-- A property of the handler that the UI thread keeps: it sets values and posts the requests of
the windows. -/
structure KeptByAsks (env : Env) (I : ActionHandler SendModels → Prop) : Prop where
  setValues : ∀ h i mi values, I h → I { h with world := h.world.setValues i mi values }
  request : ∀ h r, Asks env h.world r → I h → I (ActionHandler.step env.trig h (.request r))

/-- A property of the handler that the UI thread keeps: it sets values and posts requests, and the
actions that it adds leave the world alone. -/
structure KeptByFrames (env : Env) (I : ActionHandler SendModels → Prop) : Prop where
  setValues : ∀ h i mi values, I h → I { h with world := h.world.setValues i mi values }
  request : ∀ h r, (∀ a, r.action = some a → ∀ P, a.Keeps P) → I h →
    I (ActionHandler.step env.trig h (.request r))

section Kept

variable {env : Env} {I : ActionHandler SendModels → Prop} {g : Gui}

theorem KeptByFrames.keptByAsks (hI : KeptByFrames env I) : KeptByAsks env I where
  setValues := hI.setValues
  request h r hasks := hI.request h r hasks.keeps

namespace KeptByAsks

theorem withSendWindow (h : I g.handler) (w : SendWindow) : I (g.withSendWindow w).handler := h

theorem withActionsWindow (h : I g.handler) (w : ActionsWindow) :
    I (g.withActionsWindow w).handler := h

theorem set (hI : KeptByAsks env I) (h : I g.handler) (i mi : Nat) (values : List ℚ) :
    I (g.setValues i mi values).handler := hI.setValues _ i mi values h

theorem post (hI : KeptByAsks env I) (h : I g.handler) {r : Request SendModels}
    (hasks : Asks env g.ifaces r) : I (g.post env r).handler :=
  hI.request _ r hasks h

theorem openPopup (h : I g.handler) (i j : Nat) : I (g.openPopup i j).handler := by
  unfold Gui.openPopup
  split <;> exact h

theorem sendOnce (hI : KeptByAsks env I) (h : I g.handler) (iface : String) (i mi : Nat)
    (msg : SendMessage) : I (g.sendOnce env iface i mi msg).handler :=
  hI.post (hI.set h i mi _) (.single _ _ _ _)

theorem sendPeriodic (hI : KeptByAsks env I) (h : I g.handler) (iface : String) (i mi : Nat)
    (msg : SendMessage) : I (g.sendPeriodic env iface i mi msg).handler :=
  hI.post (hI.set h i mi _) (.periodic _ _ _ _ (le_max_left _ _))

theorem startSin (hI : KeptByAsks env I) (h : I g.handler) (now : ℚ) (iface : String) {i mi : Nat}
    {msg : SendMessage} (hshows : g.Shows i mi msg) (hperiod : 1 ≤ g.sendWindow.sinPeriodMs)
    (hinterval : 1 ≤ g.sendWindow.sinIntervalMs) :
    I (g.startSin env now iface i mi msg).handler := by
  unfold Gui.startSin
  split
  · exact h
  · next ssig hssig =>
    obtain ⟨k, -, hk⟩ := Option.bind_eq_some_iff.mp hssig
    obtain ⟨sm, hsm, hsame⟩ := hshows.setValues g.sendWindow.editingValues
    obtain ⟨ss, hss, he⟩ := hsame.getElem? hk
    have hencode : (g.setValues i mi g.sendWindow.editingValues).ifaces.encode env.casts i mi =
        sm.encode env.casts := by
      rw [SendModels.encode, hsm]
      rfl
    have hasks : Asks env (g.setValues i mi g.sendWindow.editingValues).ifaces _ :=
      .sin now iface msg.id msg.name g.sendWindow.sinAmplitude g.sendWindow.sinOffset hsm hss
        hinterval hperiod
    rw [he] at hasks
    dsimp only
    rw [hencode]
    exact hI.post (hI.set h i mi _) hasks

theorem sinSection (hI : KeptByAsks env I) (h : I g.handler) (input : SendWindow.Input) (now : ℚ)
    (iface : String) {i mi : Nat} {msg : SendMessage} (hshows : g.Shows i mi msg) :
    I (g.sinSection env input now iface i mi msg).handler := by
  unfold Gui.sinSection
  dsimp only
  split
  · apply hI.startSin (withSendWindow h _) now iface
    · exact hshows
    · exact le_max_left _ _
    · exact le_max_left _ _
  · exact h

theorem renderSendEdit (hI : KeptByAsks env I) (h : I g.handler) (input : SendWindow.Input)
    (now : ℚ) : I (g.renderSendEdit env input now).handler := by
  unfold Gui.renderSendEdit
  split
  · exact h
  · dsimp only
    split
    · exact h
    · next iface i mi msg hpopup _ =>
      -- the two buttons and the sin section, each of which keeps the property
      have honce : ∀ g' : Gui, I g'.handler ∧ g'.Shows i mi msg →
          I (if input.sendOnce then g'.sendOnce env iface i mi msg else g').handler ∧
            (if input.sendOnce then g'.sendOnce env iface i mi msg else g').Shows i mi msg := by
        rintro g' ⟨h', hshows⟩
        split
        · exact ⟨hI.sendOnce h' iface i mi msg, (hshows.setValues _).post _⟩
        · exact ⟨h', hshows⟩
      have hperiodic : ∀ g' : Gui, I g'.handler ∧ g'.Shows i mi msg →
          I (if input.sendPeriodic then g'.sendPeriodic env iface i mi msg else g').handler ∧
            (if input.sendPeriodic then g'.sendPeriodic env iface i mi msg
              else g').Shows i mi msg := by
        rintro g' ⟨h', hshows⟩
        split
        · exact ⟨hI.sendPeriodic h' iface i mi msg, (hshows.setValues _).post _⟩
        · exact ⟨h', hshows⟩
      have hsin : ∀ g' : Gui, I g'.handler ∧ g'.Shows i mi msg →
          I (if input.sinHeader then g'.sinSection env input now iface i mi msg
            else g').handler := by
        rintro g' ⟨h', hshows⟩
        split
        · exact hI.sinSection h' input now iface hshows
        · exact h'
      apply hsin
      apply hperiodic
      apply honce
      have hshows : g.Shows i mi msg := shows_of_popup hpopup
      exact ⟨h, hshows⟩

theorem renderSend (hI : KeptByAsks env I) (h : I g.handler) (input : SendWindow.Input) (now : ℚ) :
    I (g.renderSend env input now).handler := by
  unfold Gui.renderSend
  dsimp only
  split
  · exact hI.renderSendEdit h input now
  · exact hI.renderSendEdit (openPopup h _ _) input now

theorem openEdit (h : I g.handler) (info : ActionInfo) : I (g.openEdit info).handler := by
  unfold Gui.openEdit
  dsimp only
  split <;> exact h

theorem renderSinEdit (hI : KeptByAsks env I) (h : I g.handler) (input : ActionsWindow.Input) :
    I (g.renderSinEdit env input).handler := by
  unfold Gui.renderSinEdit
  dsimp only
  split
  · apply hI.post
    · apply hI.post
      · exact hI.post (withActionsWindow h _) (.updateSinParam _ (by simp))
      · exact .updateSinParam _ (by simp)
    · apply Asks.updateSinParam
      intro _
      exact_mod_cast toInt_atLeastOne _
  · exact h

theorem renderPayloadEdit (hI : KeptByAsks env I) (h : I g.handler) (input : ActionsWindow.Input)
    (info : ActionInfo) : I (g.renderPayloadEdit env input info).handler := by
  unfold Gui.renderPayloadEdit
  split
  · exact h
  · dsimp only
    split
    · exact hI.post (hI.set (withActionsWindow h _) _ _ _) (.updatePayload _ _)
    · exact h

theorem renderActionEdit (hI : KeptByAsks env I) (h : I g.handler) (input : ActionsWindow.Input)
    (actions : List ActionInfo) : I (g.renderActionEdit env input actions).handler := by
  unfold Gui.renderActionEdit
  split
  · split
    · exact h
    · dsimp only
      split
      · exact h
      · split
        · exact hI.renderSinEdit (withActionsWindow h _) input
        · exact hI.renderPayloadEdit (withActionsWindow h _) input _
  · exact h

theorem toggleEntry (hI : KeptByAsks env I) (h : I g.handler) (info : ActionInfo) :
    I (g.toggleEntry env info).handler := by
  unfold Gui.toggleEntry
  split
  · exact hI.post h (.togglePause _)
  · exact h

theorem removeEntry (hI : KeptByAsks env I) (h : I g.handler) (info : ActionInfo) :
    I (g.removeEntry env info).handler :=
  hI.post (withActionsWindow h _) (.removeAction _)

theorem onEntry (h : I g.handler) (actions : List ActionInfo) (clicked : Option Nat)
    {f : Gui → ActionInfo → Gui} (hf : ∀ g : Gui, I g.handler → ∀ info, I (f g info).handler) :
    I (g.onEntry actions clicked f).handler := by
  unfold Gui.onEntry
  split
  · exact h
  · exact hf g h _

theorem renderActions (hI : KeptByAsks env I) (h : I g.handler) (input : ActionsWindow.Input) :
    I (g.renderActions env input).handler := by
  apply hI.renderActionEdit
  apply onEntry _ _ _ fun _ h => hI.removeEntry h
  apply onEntry _ _ _ fun _ h => hI.toggleEntry h
  exact onEntry h _ _ fun _ h => openEdit h

end KeptByAsks

/-- The other steps are the handler's own. -/
theorem KeptByAsks.step (hI : KeptByAsks env I)
    (hexpire : ∀ h timer, I h → I (ActionHandler.step env.trig h (.expire timer)))
    (hrun : ∀ h tick, I h → I (ActionHandler.step env.trig h (.run tick))) (h : I g.handler)
    (l : Label) : I (g.step env l).handler := by
  cases l with
  | send input now =>
    rw [Gui.step]
    split
    · exact h
    · exact hI.renderSend h input now
  | actions input =>
    rw [Gui.step]
    split
    · exact h
    · exact hI.renderActions h input
  | expire timer => exact hexpire _ timer h
  | run tick => exact hrun _ tick h

end Kept

/-! ### The states of the handler -/

/-- The handler of a GUI that shows the interfaces `cfgs`. -/
def Sound (env : Env) (cfgs : List InterfaceConfig) (g : Gui) : Prop :=
  g.handler.Reached env.trig (env.Presents cfgs)

section Sound

variable {env : Env} {cfgs : List InterfaceConfig} {g : Gui}

theorem keptByFrames_reached (env : Env) (cfgs : List InterfaceConfig) :
    KeptByFrames env fun h => h.Reached env.trig (env.Presents cfgs) where
  setValues _ i mi values h := h.change (SendModels.Present.setValues h.worldKept.world i mi values)
  request _ _ hkeeps h := h.request fun a ha => hkeeps a ha _

theorem Sound.step (h : g.Sound env cfgs) (l : Label) : (g.step env l).Sound env cfgs :=
  (keptByFrames_reached env cfgs).keptByAsks.step (fun _ timer h => h.expire timer) (fun _ tick h => h.run tick)
    h l

theorem Sound.run (h : g.Sound env cfgs) (ls : List Label) :
    (Runs.run (Gui.step env) g ls).Sound env cfgs :=
  run_invariant (P := fun g : Gui => g.Sound env cfgs) (fun _ l h => h.step l) h ls

end Sound

theorem exists_of_runGui {env : Env} {now : ℚ} {cfgs : List InterfaceConfig} {g : Gui}
    (h : runGui env now cfgs = .ok g) :
    ∃ handler models,
      env.loadPresets now (ActionHandler.init (env.sendModels cfgs)) cfgs = .ok handler ∧
      env.ifaces cfgs = .ok models ∧ g = { handler := { handler with world := models } } := by
  obtain ⟨handler, hload, hrest⟩ := YAML.exists_of_bind_eq_ok h
  obtain ⟨models, hmodels, hreturn⟩ := YAML.exists_of_bind_eq_ok hrest
  cases hreturn
  exact ⟨handler, models, hload, hmodels, rfl⟩

theorem sound_runGui {env : Env} {now : ℚ} {cfgs : List InterfaceConfig} {g : Gui}
    (h : runGui env now cfgs = .ok g) : g.Sound env cfgs := by
  obtain ⟨handler, models, hload, hmodels, rfl⟩ := exists_of_runGui h
  have hstart : env.Presents cfgs (SendModels.ofNetworks env.srt (env.networks cfgs)) :=
    SendModels.present_ofNetworks _ _
  have hinit : (ActionHandler.init (env.sendModels cfgs)).Reached env.trig (env.Presents cfgs) := by
    refine .init ?_
    rwa [env.sendModels_eq]
  refine (env.reached_loadPresets hinit hload).change ?_
  rwa [env.ifaces_eq hmodels]

end Gui

end Caneo
