import Caneo.Gui
import Caneo.PresetIsolation
import Caneo.Tui

/-!
# Editing the payload of an action

The payload of an action is bytes; the values it encodes are not kept with the action. Both front
ends edit one signal of an action by encoding a whole message again, and take the values of the other
signals from elsewhere: the TUI from the send model that all actions of the interface share, the GUI
from `edit_values_`, which it loads from that model. (For a sin action both start from the
parameters of the action itself.)

An edit is to give the action a payload that encodes its own values with the new one in `k`. After
any history, with any handlers between the key and the posted closure, it does so exactly if the
values it encodes for the other signals have the same bits as the action's own, and the entry is
still at its index when the closure runs (`payload_edit_iff`).
-/

namespace Caneo

open BitField EventLoop Runs Containers

/-! ### Edits -/

/-- The payload of the object `ptr` encodes the assignment `vals` to the signals of `sm`. -/
def ActionHandler.Encodes {W : Type} (casts : BitCasts) (sm : SendMessage) (h : ActionHandler W)
    (ptr : Nat) (vals : Nat → ℚ) : Prop :=
  (h.find ptr).map (·.payload) = some ((sm.withValues vals).encode casts)

/-- The closure of the request is the next handler. -/
def ActionHandler.AboutTo {W : Type} (h : ActionHandler W) (r : Request W) : Prop :=
  h.terminated = false ∧ ∃ rest, h.loop.ready = .posted r :: rest

/-- When an edit of signal `k` that encodes `enc` runs for the index `idx`, it is as good as one that
starts from the action's own values `vals`. -/
def KeepsOthers {W : Type} (casts : BitCasts) (sm : SendMessage) (h : ActionHandler W)
    (idx ptr k : Nat) (enc vals : Nat → ℚ) : Prop :=
  if h.ptrs[idx]? = some ptr then ∀ j ≠ k, sm.SameBits casts j (enc j) (vals j)
  else sm.SameBits casts k (vals k) (enc k)

/-- The same for an edit without a new value. -/
def KeepsAll {W : Type} (casts : BitCasts) (sm : SendMessage) (h : ActionHandler W) (idx ptr : Nat)
    (enc vals : Nat → ℚ) : Prop :=
  h.ptrs[idx]? = some ptr → ∀ j, sm.SameBits casts j (enc j) (vals j)

theorem ActionHandler.ready_step_updatePayload {W : Type} (trig : Trig) {h : ActionHandler W}
    (halive : h.terminated = false) (idx : Nat) (payload : Bytes) :
    (h.step trig (.request (.updatePayload idx payload))).loop.ready =
      h.loop.ready ++ [.posted (.updatePayload idx payload)] := by
  rw [ActionHandler.step, halive]
  rfl

section Edit

variable {W : Type} {casts : BitCasts} {sm : SendMessage} {h : ActionHandler W} {idx ptr : Nat}
  {enc vals : Nat → ℚ}

/-- The payload after the closure encodes `new` exactly if what was encoded, or what was there when
the closure reaches another action, does. -/
theorem encodes_after_iff (hba : sm.BitAccess) (hid : h.Identities) (trig : Trig) (tick : Tick)
    (hnext : h.AboutTo (.updatePayload idx ((sm.withValues enc).encode casts)))
    (hvals : h.Encodes casts sm ptr vals) (new : Nat → ℚ) :
    (h.step trig (.run tick)).Encodes casts sm ptr new ↔
      if h.ptrs[idx]? = some ptr then ∀ j, sm.SameBits casts j (enc j) (new j)
      else ∀ j, sm.SameBits casts j (vals j) (new j) := by
  obtain ⟨halive, rest, hready⟩ := hnext
  obtain ⟨a, hfind, hpayload⟩ := Option.map_eq_some_iff.mp hvals
  have hafter := ActionHandler.find_step_posted trig tick hid halive hready rfl hfind
  rw [ActionHandler.Encodes, hafter]
  by_cases haddr : h.ptrs[idx]? = some ptr
  · rw [if_pos haddr, if_pos haddr, ← SendMessage.encode_withValues_iff hba]
    exact Option.some_inj
  · rw [if_neg haddr, if_neg haddr, ← SendMessage.encode_withValues_iff hba, ← hpayload]
    exact Option.some_inj

theorem forall_sameBits_update_iff (k : Nat) (v₁ v₂ : Nat → ℚ) (v : ℚ) :
    (∀ j, sm.SameBits casts j (v₁ j) (Function.update v₂ k v j)) ↔
      sm.SameBits casts k (v₁ k) v ∧ ∀ j ≠ k, sm.SameBits casts j (v₁ j) (v₂ j) := by
  constructor
  · intro hall
    refine ⟨?_, ?_⟩
    · have hk := hall k
      rwa [Function.update_self] at hk
    · intro j hj
      have hj' := hall j
      rwa [Function.update_of_ne hj] at hj'
  · rintro ⟨hk, hothers⟩ j
    by_cases hj : j = k
    · subst hj
      rwa [Function.update_self]
    · rw [Function.update_of_ne hj]
      exact hothers j hj

theorem encodes_update_iff (hba : sm.BitAccess) (hid : h.Identities) (trig : Trig) (tick : Tick)
    (hnext : h.AboutTo (.updatePayload idx ((sm.withValues enc).encode casts)))
    (hvals : h.Encodes casts sm ptr vals) (k : Nat) :
    (h.step trig (.run tick)).Encodes casts sm ptr (Function.update vals k (enc k)) ↔
      KeepsOthers casts sm h idx ptr k enc vals := by
  rw [encodes_after_iff hba hid trig tick hnext hvals, KeepsOthers,
    forall_sameBits_update_iff, forall_sameBits_update_iff]
  by_cases haddr : h.ptrs[idx]? = some ptr
  · rw [if_pos haddr, if_pos haddr]
    exact and_iff_right (SendMessage.SameBits.refl casts sm k _)
  · rw [if_neg haddr, if_neg haddr]
    exact and_iff_left fun j _ => SendMessage.SameBits.refl casts sm j _

theorem encodes_same_iff (hba : sm.BitAccess) (hid : h.Identities) (trig : Trig) (tick : Tick)
    (hnext : h.AboutTo (.updatePayload idx ((sm.withValues enc).encode casts)))
    (hvals : h.Encodes casts sm ptr vals) :
    (h.step trig (.run tick)).Encodes casts sm ptr vals ↔
      KeepsAll casts sm h idx ptr enc vals := by
  rw [encodes_after_iff hba hid trig tick hnext hvals, KeepsAll]
  by_cases haddr : h.ptrs[idx]? = some ptr
  · rw [if_pos haddr]
    exact ⟨fun hall _ => hall, fun hall => hall haddr⟩
  · rw [if_neg haddr]
    exact ⟨fun _ hpos => absurd hpos haddr, fun _ j => SendMessage.SameBits.refl casts sm j _⟩

end Edit

/-! ### The TUI's actions tab -/

namespace TuiDataFrameSet

/-- A key that commits the value `v` for signal `k` of the message `sm` to the action of the entry
`info`. -/
structure Commits (env : Env) (t : TuiDataFrameSet) (event : Event) (info : ActionInfo)
    (sm : SendMessage) (k : Nat) (v : ℚ) : Prop where
  alive : t.exited = false ∧ t.handler.terminated = false
  editing : t.actionsEditing = true
  key : event = .Return ∨ event = .ArrowLeft
  entry : t.snapshot[t.actionsCursor]? = some info
  constant : info.typeName ≠ "Sin"
  message : (t.messageOf info).map (·.2.2) = some sm
  signal : clampCursor t.actionsSigCursor sm.signals.length = some k
  typed : t.actionsEditBuf.isEmpty = false
  value : env.stod t.actionsEditBuf = some v

variable {env : Env} {t : TuiDataFrameSet} {event : Event} {info : ActionInfo} {sm : SendMessage}
  {k : Nat} {v : ℚ}

/-- The commit posts the payload that encodes `v` and the shared model's other values. -/
theorem Commits.ready_step (hc : t.Commits env event info sm k v) (now : ℚ) :
    (t.step env (.key event now)).handler.loop.ready = t.handler.loop.ready ++
      [.posted (.updatePayload t.actionsCursor
        ((sm.withValues (Function.update sm.values k v)).encode env.casts))] := by
  obtain ⟨i, mi, hmessage, hsm⟩ := SendModels.exists_of_messageOf hc.message
  have hmessage' : t.messageOf info = some (i, mi, sm) := hmessage
  have halive : (t.exited || t.handler.terminated) = false := by
    rw [hc.alive.1, hc.alive.2]
    rfl
  have hstep : (t.step env (.key event now)).handler = (t.commitActionsEdit env).handler := by
    rw [step, halive, onEvent, hc.editing]
    rcases hc.key with rfl | rfl <;> rfl
  have hcommit : t.commitActionsEdit env = (t.setValue i mi k v).post env
      (.updatePayload t.actionsCursor ((t.setValue i mi k v).models.encode env.casts i mi)) := by
    simp only [commitActionsEdit, hc.entry, hc.typed, hc.constant, commitPayload, hmessage',
      hc.signal, hc.value, if_false, Bool.false_eq_true]
  have hset : (t.setValue i mi k v).models.message i mi = some (sm.setValue k v) := by
    refine (SendModels.message_setValue t.models i mi k v).trans ?_
    rw [hsm]
    rfl
  have hencode : (t.setValue i mi k v).models.encode env.casts i mi =
      (sm.withValues (Function.update sm.values k v)).encode env.casts := by
    rw [SendModels.encode, hset, ← SendMessage.setValue_withValues, SendMessage.withValues_values]
    rfl
  rw [hstep, hcommit, hencode]
  exact ActionHandler.ready_step_updatePayload env.trig (h := (t.setValue i mi k v).handler)
    hc.alive.2 _ _

/-- The states in which the TUI starts. -/
def Started (env : Env) (cfgs : List InterfaceConfig) (t : TuiDataFrameSet) : Prop :=
  (∃ now modelTabEnabled, runTui env now modelTabEnabled cfgs = .ok t) ∨
    ∃ messages, t = runPlayback env messages cfgs

theorem Started.sound {cfgs : List InterfaceConfig} (h : t.Started env cfgs) :
    t.Sound env cfgs := by
  rcases h with ⟨now, modelTabEnabled, h⟩ | ⟨messages, rfl⟩
  · exact sound_runTui h
  · exact sound_runPlayback env messages cfgs

end TuiDataFrameSet

/-- A commit in the TUI. -/
theorem tui_edit_iff {env : Env} (hdbc : env.BitAccess) {cfgs : List InterfaceConfig}
    {t : TuiDataFrameSet} (hsound : t.Sound env cfgs) {event : Event} {info : ActionInfo}
    {sm : SendMessage} {k : Nat} {v : ℚ} (hc : t.Commits env event info sm k v) :
    ∃ a, t.handler.actions[t.actionsCursor]? = some a ∧
      info = ActionInfo.ofAction t.actionsCursor a ∧
      ∀ (now : ℚ) (mid : List TuiDataFrameSet.Label) (t' : TuiDataFrameSet) (tick : Tick)
        (vals : Nat → ℚ),
        t' = run (TuiDataFrameSet.step env) (t.step env (.key event now)) mid →
        t'.handler.AboutTo (.updatePayload t.actionsCursor
          ((sm.withValues (Function.update sm.values k v)).encode env.casts)) →
        t'.handler.Encodes env.casts sm a.ptr vals →
        ((t'.step env (.run tick)).handler.Encodes env.casts sm a.ptr (Function.update vals k v) ↔
          KeepsOthers env.casts sm t'.handler t.actionsCursor a.ptr k
            (Function.update sm.values k v) vals) := by
  obtain ⟨a, ha, hinfo⟩ := hsound.synced.exists_action hc.entry
  refine ⟨a, ha, hinfo, ?_⟩
  intro now mid t' tick vals ht' hnext hvals
  obtain ⟨i, mi, -, hsm⟩ := SendModels.exists_of_messageOf hc.message
  have hba : sm.BitAccess := hsound.worldKept.world.bitAccess hdbc hsm
  have hsound' : t'.Sound env cfgs := ht' ▸ (hsound.step _).run mid
  have hiff := encodes_update_iff hba hsound'.identities env.trig tick hnext hvals k
  rwa [Function.update_self] at hiff

/-! ### The GUI's actions window -/

namespace Gui

/-- A frame in which the user presses "Update Payload" in the edit window of the entry `info`, whose
fields then show `fields`. -/
structure Presses (g : Gui) (input : ActionsWindow.Input) (info : ActionInfo) (sm : SendMessage)
    (fields : List ℚ) : Prop where
  alive : g.handler.terminated = false
  only : input.select = none ∧ input.toggle = none ∧ input.delete = none
  shown : g.actionsWindow.editOpen = true ∧ input.collapsed = false
  entry : g.snapshot.find? (fun a => a.idx = g.actionsWindow.editActionIdx) = some info
  constant : info.typeName ≠ "Sin"
  message : (g.messageOf info).map (·.2.2) = some sm
  fields_eq : fields = changeField input.field (shownValues g.actionsWindow sm)
  button : input.button = true

variable {env : Env} {g : Gui} {input : ActionsWindow.Input} {info : ActionInfo}
  {sm : SendMessage} {fields : List ℚ}

theorem getD_loadValues (sm : SendMessage) (j : Nat) : (loadValues sm).getD j 0 = sm.values j := by
  rw [loadValues, List.getD_eq_getElem?_getD, List.getElem?_map]
  rfl

theorem length_changeField (field : Option (Nat × ℚ)) (values : List ℚ) :
    (changeField field values).length = values.length := by
  cases field with
  | none => rfl
  | some kv => exact List.length_set

theorem length_shownValues (w : ActionsWindow) (sm : SendMessage) :
    (shownValues w sm).length = sm.signals.length := by
  unfold shownValues
  split
  · assumption
  · exact List.length_map _

/-- The press posts the payload that encodes the fields. -/
theorem Presses.ready_step (hp : g.Presses input info sm fields) :
    (g.step env (.actions input)).handler.loop.ready = g.handler.loop.ready ++
      [.posted (.updatePayload g.actionsWindow.editActionIdx
        ((sm.withValues fun j => fields.getD j 0).encode env.casts))] := by
  obtain ⟨i, mi, hmessage, hsm⟩ := SendModels.exists_of_messageOf hp.message
  obtain ⟨hselect, htoggle, hdelete⟩ := hp.only
  have hlength : fields.length = sm.signals.length := by
    rw [hp.fields_eq, length_changeField, length_shownValues]
  have hencode : (g.ifaces.setValues i mi fields).encode env.casts i mi =
      (sm.withValues fun j => fields.getD j 0).encode env.casts := by
    rw [SendModels.encode, SendModels.message_setValues hsm hlength]
    rfl
  have hmessage' : ∀ w, (g.withActionsWindow w).messageOf info = some (i, mi, sm) :=
    fun _ => hmessage
  have hrender : g.renderActions env input = g.renderActionEdit env input g.snapshot := by
    simp only [renderActions, onEntry, hselect, htoggle, hdelete, Option.bind_none]
  -- the window as it is when the button is reached
  obtain ⟨w, hw, hupdate⟩ : ∃ w : ActionsWindow, w.editValues = fields ∧
      g.step env (.actions input) = (g.withActionsWindow
        { w with editActionIdx := g.actionsWindow.editActionIdx }).updatePayload env i mi := by
    refine ⟨{ g.actionsWindow with editOpen := !input.close, editValues := fields }, rfl, ?_⟩
    rw [step, hp.alive, hrender, renderActionEdit, hp.shown.1, hp.entry]
    simp only [if_true, if_false, Bool.false_eq_true, hp.shown.2, hp.constant, renderPayloadEdit,
      hmessage', hp.button]
    rw [hp.fields_eq]
    rfl
  have hencode : (g.ifaces.setValues i mi w.editValues).encode env.casts i mi =
      (sm.withValues fun j => fields.getD j 0).encode env.casts := by
    rw [hw, SendModels.encode, SendModels.message_setValues hsm hlength]
    rfl
  rw [hupdate, ← hencode]
  exact ActionHandler.ready_step_updatePayload env.trig
    (h := (g.setValues i mi w.editValues).handler) hp.alive _ _

end Gui

/-- The button in the GUI. -/
theorem gui_edit_iff {env : Env} (hdbc : env.BitAccess) {cfgs : List InterfaceConfig}
    {g : Gui} (hsound : g.Sound env cfgs) {input : ActionsWindow.Input} {info : ActionInfo}
    {sm : SendMessage} {fields : List ℚ} (hp : g.Presses input info sm fields) :
    ∃ a, g.handler.actions[g.actionsWindow.editActionIdx]? = some a ∧
      info = ActionInfo.ofAction g.actionsWindow.editActionIdx a ∧
      ∀ (mid : List Gui.Label) (g' : Gui) (tick : Tick) (vals : Nat → ℚ),
        g' = run (Gui.step env) (g.step env (.actions input)) mid →
        g'.handler.AboutTo (.updatePayload g.actionsWindow.editActionIdx
          ((sm.withValues fun j => fields.getD j 0).encode env.casts)) →
        g'.handler.Encodes env.casts sm a.ptr vals →
        (∀ k, (g'.step env (.run tick)).handler.Encodes env.casts sm a.ptr
            (Function.update vals k (fields.getD k 0)) ↔
          KeepsOthers env.casts sm g'.handler g.actionsWindow.editActionIdx a.ptr k
            (fun j => fields.getD j 0) vals) ∧
        ((g'.step env (.run tick)).handler.Encodes env.casts sm a.ptr vals ↔
          KeepsAll env.casts sm g'.handler g.actionsWindow.editActionIdx a.ptr
            (fun j => fields.getD j 0) vals) := by
  have hidx : info.idx = g.actionsWindow.editActionIdx := by
    simpa using List.find?_some hp.entry
  obtain ⟨n, hn⟩ := List.mem_iff_getElem?.mp (List.mem_of_find?_eq_some hp.entry)
  obtain ⟨a, ha, hinfo⟩ := hsound.synced.exists_action hn
  obtain rfl : n = g.actionsWindow.editActionIdx := by
    rw [← hidx, hinfo]
    rfl
  refine ⟨a, ha, hinfo, ?_⟩
  intro mid g' tick vals hg' hnext hvals
  obtain ⟨i, mi, -, hsm⟩ := SendModels.exists_of_messageOf hp.message
  have hba : sm.BitAccess := hsound.worldKept.world.bitAccess hdbc hsm
  have hsound' : g'.Sound env cfgs := hg' ▸ (hsound.step _).run mid
  exact ⟨fun k => encodes_update_iff hba hsound'.identities env.trig tick hnext hvals k,
    encodes_same_iff hba hsound'.identities env.trig tick hnext hvals⟩

/-! ### Both front ends -/

/-- **Editing one signal of an action.** After any history of a front end, let a value be committed
to the action of an entry, through the TUI's actions tab or the GUI's "Update Payload", and let
anything happen until the posted closure is about to run. If the payload of the action then encodes
the values `vals`, the closure leaves it encoding `vals` with the new value in `k` if and only if
the other values that the edit encoded have the bits of the action's own (and the entry is still at
its index). "Update Payload" leaves the payload as it was if and only if all of them have. -/
theorem payload_edit_iff (env : Env) (hdbc : env.BitAccess) (cfgs : List InterfaceConfig) :
    (∀ (t₀ : TuiDataFrameSet), t₀.Started env cfgs →
      ∀ (before : List TuiDataFrameSet.Label) (event : Event) (now : ℚ) (info : ActionInfo)
        (sm : SendMessage) (k : Nat) (v : ℚ),
      let t := run (TuiDataFrameSet.step env) t₀ before
      let enc := Function.update sm.values k v
      let edit := Request.updatePayload t.actionsCursor ((sm.withValues enc).encode env.casts)
      let committed := t.step env (.key event now)
      t.Commits env event info sm k v →
      committed.handler.loop.ready = t.handler.loop.ready ++ [.posted edit] ∧
      ∃ a, t.handler.actions[t.actionsCursor]? = some a ∧
        info = ActionInfo.ofAction t.actionsCursor a ∧
        ∀ (mid : List TuiDataFrameSet.Label) (tick : Tick) (vals : Nat → ℚ),
        let t' := run (TuiDataFrameSet.step env) committed mid
        t'.handler.AboutTo edit → t'.handler.Encodes env.casts sm a.ptr vals →
        ((t'.step env (.run tick)).handler.Encodes env.casts sm a.ptr (Function.update vals k v) ↔
          KeepsOthers env.casts sm t'.handler t.actionsCursor a.ptr k enc vals)) ∧
    (∀ (g₀ : Gui) (now : ℚ), Gui.runGui env now cfgs = .ok g₀ →
      ∀ (before : List Gui.Label) (input : ActionsWindow.Input) (info : ActionInfo)
        (sm : SendMessage) (fields : List ℚ),
      let g := run (Gui.step env) g₀ before
      let enc := fun j => fields.getD j 0
      let idx := g.actionsWindow.editActionIdx
      let edit := Request.updatePayload idx ((sm.withValues enc).encode env.casts)
      let pressed := g.step env (.actions input)
      g.Presses input info sm fields →
      pressed.handler.loop.ready = g.handler.loop.ready ++ [.posted edit] ∧
      ∃ a, g.handler.actions[idx]? = some a ∧ info = ActionInfo.ofAction idx a ∧
        ∀ (mid : List Gui.Label) (tick : Tick) (vals : Nat → ℚ),
        let g' := run (Gui.step env) pressed mid
        g'.handler.AboutTo edit → g'.handler.Encodes env.casts sm a.ptr vals →
        (∀ k, (g'.step env (.run tick)).handler.Encodes env.casts sm a.ptr
            (Function.update vals k (enc k)) ↔
          KeepsOthers env.casts sm g'.handler idx a.ptr k enc vals) ∧
        ((g'.step env (.run tick)).handler.Encodes env.casts sm a.ptr vals ↔
          KeepsAll env.casts sm g'.handler idx a.ptr enc vals)) := by
  constructor
  · intro t₀ hstart before event now info sm k v t enc edit committed hc
    refine ⟨hc.ready_step now, ?_⟩
    obtain ⟨a, ha, hinfo, hall⟩ := tui_edit_iff hdbc (hstart.sound.run before) hc
    refine ⟨a, ha, hinfo, ?_⟩
    intro mid tick vals t' hnext hvals
    exact hall now mid t' tick vals rfl hnext hvals
  · intro g₀ now hstart before input info sm fields g enc idx edit pressed hp
    refine ⟨hp.ready_step, ?_⟩
    obtain ⟨a, ha, hinfo, hall⟩ := gui_edit_iff hdbc ((Gui.sound_runGui hstart).run before) hp
    refine ⟨a, ha, hinfo, ?_⟩
    intro mid tick vals g' hnext hvals
    exact hall mid g' tick vals rfl hnext hvals

/-! ### The steering controller's action

The interface `vcan0`, with and without its preset file. -/

def elmoEnv : Env where
  casts := .zero
  trig := ActionHandler.flatTrig
  srt := .insertion
  conv := .decimal
  dbcFiles path := if path = "vcan0.dbc" then .network elmoNetwork else .missing
  yamlFiles path :=
    if path = "ss_elmo_actions.yaml" then .ok (.sequence [elmoConfigEntry])
    else .error "bad file"
  stod := YAML.Conversions.decimal.asDouble
  stol := YAML.Conversions.decimal.asInt
  atoi text := (YAML.Conversions.decimal.asInt text).getD 0
  formatG v := toString v.num

def elmoInterfaces (actionsFile : String) : List InterfaceConfig :=
  [⟨"vcan0", "vcan0.dbc", actionsFile⟩]

def keys (events : List Event) : List TuiDataFrameSet.Label :=
  events.map fun event => .key event 0

theorem elmoEnv_bitAccess : elmoEnv.BitAccess := by
  intro path network hnetwork
  simp only [elmoEnv] at hnetwork
  split at hnetwork
  · cases hnetwork
    exact elmo_bitAccess
  · cases hnetwork

/-- The TUI without presets. -/
def plainTui : TuiDataFrameSet where
  interfaces := ["vcan0"]
  handler := ActionHandler.init (elmoEnv.sendModels (elmoInterfaces ""))

theorem runTui_plainTui : TuiDataFrameSet.runTui elmoEnv 0 false (elmoInterfaces "") = .ok plainTui :=
  rfl

/-- On the send tab the user sets `SS_ELMO_STATUS_LWS_MAX` to 7 and creates a single action; on the
actions tab the editor of `SS_ELMO_STATUS_LWS_MIN` is opened and 5 typed. -/
def typedFive : List TuiDataFrameSet.Label :=
  keys [.Character 's', .ArrowDown, .Return, .Return, .Backspace, .Character '7', .Return,
    .Character '1'] ++
  [.run (ActionHandler.tickAt 0)] ++
  keys [.Character 'a', .Return, .ArrowDown, .Return, .Backspace, .Character '5']

def elmoTyped : TuiDataFrameSet := run (TuiDataFrameSet.step elmoEnv) plainTui typedFive

def plainGui : Gui where
  handler := ActionHandler.init (elmoEnv.sendModels (elmoInterfaces ""))

theorem runGui_plainGui : Gui.runGui elmoEnv 0 (elmoInterfaces "") = .ok plainGui := rfl

/-- The same in the GUI, up to the frame in which the field is changed and the button pressed. -/
def openedEdit : List Gui.Label :=
  [.send { select := some (0, 0), field := some (0, 7), sendOnce := true } 0,
    .run (ActionHandler.tickAt 0), .actions { select := some 0 }]

def elmoOpened : Gui := run (Gui.step elmoEnv) plainGui openedEdit

def pressFive : ActionsWindow.Input where
  field := some (1, 5)
  button := true

def elmoSingle : ActionInfo where
  idx := 0
  msgId := 1026
  msgName := "SS_ELMO_CONFIG"
  typeName := "Single"
  interface := "vcan0"
  isPeriodic := false
  paused := false
  sinAmplitude := 0
  sinPeriodMs := 0
  sinOffset := 0
  period := 0
  lastSent := 0
  everSent := false

theorem encodes_values_of_payload {W : Type} {casts : BitCasts} {h : ActionHandler W} {ptr : Nat}
    {message : Option (Nat × Nat × SendMessage)} {p : Nat × Nat × SendMessage}
    (hp : message = some p)
    (hpayload : (h.find ptr).map (·.payload) = message.map fun p => p.2.2.encode casts) :
    h.Encodes casts p.2.2 ptr p.2.2.values := by
  rw [ActionHandler.Encodes, hpayload, hp, SendMessage.withValues_values]
  rfl

theorem ptr_of_actions {h : ActionHandler SendModels} {idx : Nat} {a : Action SendModels}
    (ha : h.actions[idx]? = some a) (ptr : Nat) (hptr : h.actions[idx]?.map (·.ptr) = some ptr) :
    a.ptr = ptr := by
  rw [ha] at hptr
  exact Option.some.inj hptr

/-- In the TUI, Return commits the 5 that was typed. -/
theorem elmoTyped_commits {p : Nat × Nat × SendMessage}
    (hp : elmoTyped.messageOf elmoSingle = some p) :
    elmoTyped.Commits elmoEnv .Return elmoSingle p.2.2 1 5 where
  alive := by decide +kernel
  editing := by decide +kernel
  key := Or.inl rfl
  entry := by decide +kernel
  constant := by decide
  message := by
    rw [hp]
    rfl
  signal := by
    have hlength : (elmoTyped.messageOf elmoSingle).map (fun p => p.2.2.signals.length) = some 4 := by
      decide +kernel
    rw [hp, Option.map_some, Option.some.injEq] at hlength
    rw [hlength]
    decide +kernel
  typed := by decide +kernel
  value := by decide +kernel

/-- In the GUI the fields still show the values the message was opened with. -/
theorem elmoOpened_editValues {p : Nat × Nat × SendMessage}
    (hp : elmoOpened.messageOf elmoSingle = some p) :
    Gui.loadValues p.2.2 = elmoOpened.actionsWindow.editValues := by
  have hvalues : (elmoOpened.messageOf elmoSingle).map (fun p => Gui.loadValues p.2.2) =
      some elmoOpened.actionsWindow.editValues := by decide +kernel
  rw [hp] at hvalues
  exact Option.some.inj hvalues

/-- The button commits them, with the 5 in the second field. -/
theorem elmoOpened_presses {p : Nat × Nat × SendMessage}
    (hp : elmoOpened.messageOf elmoSingle = some p) :
    elmoOpened.Presses pressFive elmoSingle p.2.2 [7, 5, 0, 0] where
  alive := by decide +kernel
  only := ⟨rfl, rfl, rfl⟩
  shown := by decide +kernel
  entry := by decide +kernel
  constant := by decide
  message := by
    rw [hp]
    rfl
  fields_eq := by
    have hshown : Gui.shownValues elmoOpened.actionsWindow p.2.2 = [7, 0, 0, 0] := by
      rw [Gui.shownValues, elmoOpened_editValues hp, ite_self]
      decide +kernel
    rw [hshown]
    rfl
  button := rfl

/-- An action that was created from the shared model keeps its other values, as long as the model
does. -/
theorem payload_edit_elmo :
    (∃ sm, (elmoTyped.messageOf elmoSingle).map (·.2.2) = some sm ∧
      elmoTyped.handler.Encodes .zero sm 0 sm.values ∧
      ((elmoTyped.step elmoEnv (.key .Return 0)).step elmoEnv
        (.run (ActionHandler.tickAt 0))).handler.Encodes .zero sm 0
          (Function.update sm.values 1 5)) ∧
    (∃ sm, (elmoOpened.messageOf elmoSingle).map (·.2.2) = some sm ∧
      elmoOpened.handler.Encodes .zero sm 0 sm.values ∧
      ((elmoOpened.step elmoEnv (.actions pressFive)).step elmoEnv
        (.run (ActionHandler.tickAt 0))).handler.Encodes .zero sm 0
          (Function.update sm.values 1 5)) := by
  constructor
  · have hsome : (elmoTyped.messageOf elmoSingle).isSome = true := by decide +kernel
    obtain ⟨p, hp⟩ := Option.isSome_iff_exists.mp hsome
    have hbefore : elmoTyped.handler.Encodes .zero p.2.2 0 p.2.2.values :=
      encodes_values_of_payload hp (by decide +kernel)
    have hcommitted : (elmoTyped.step elmoEnv (.key .Return 0)).handler.Encodes .zero p.2.2 0
        p.2.2.values := encodes_values_of_payload hp (by decide +kernel)
    obtain ⟨hready, a, ha, -, hall⟩ := (payload_edit_iff elmoEnv elmoEnv_bitAccess
      (elmoInterfaces "")).1 plainTui (Or.inl ⟨0, false, runTui_plainTui⟩) typedFive .Return 0
      elmoSingle p.2.2 1 5 (elmoTyped_commits hp)
    rw [ptr_of_actions ha 0 (by decide +kernel)] at hall
    have hnil : elmoTyped.handler.loop.ready = [] :=
      List.length_eq_zero_iff.mp (by decide +kernel)
    have hnext := hready.trans (congrArg (· ++ _) hnil)
    refine ⟨p.2.2, (elmoTyped_commits hp).message, hbefore, ?_⟩
    refine (hall [] (ActionHandler.tickAt 0) p.2.2.values ⟨by decide +kernel, [], hnext⟩
      hcommitted).mpr ?_
    rw [KeepsOthers, if_pos (by decide +kernel)]
    intro j hj
    rw [Function.update_of_ne hj]
    exact SendMessage.SameBits.refl _ _ _ _
  · have hsome : (elmoOpened.messageOf elmoSingle).isSome = true := by decide +kernel
    obtain ⟨p, hp⟩ := Option.isSome_iff_exists.mp hsome
    have hbefore : elmoOpened.handler.Encodes .zero p.2.2 0 p.2.2.values :=
      encodes_values_of_payload hp (by decide +kernel)
    have hpressed : (elmoOpened.step elmoEnv (.actions pressFive)).handler.Encodes .zero p.2.2 0
        p.2.2.values := encodes_values_of_payload hp (by decide +kernel)
    obtain ⟨hready, a, ha, -, hall⟩ := (payload_edit_iff elmoEnv elmoEnv_bitAccess
      (elmoInterfaces "")).2 plainGui 0 runGui_plainGui openedEdit pressFive elmoSingle p.2.2
      [7, 5, 0, 0] (elmoOpened_presses hp)
    rw [ptr_of_actions ha 0 (by decide +kernel)] at hall
    have hnil : elmoOpened.handler.loop.ready = [] :=
      List.length_eq_zero_iff.mp (by decide +kernel)
    have hnext := hready.trans (congrArg (· ++ _) hnil)
    refine ⟨p.2.2, (elmoOpened_presses hp).message, hbefore, ?_⟩
    refine ((hall [] (ActionHandler.tickAt 0) p.2.2.values ⟨by decide +kernel, [], hnext⟩
      hpressed).1 1).mpr ?_
    rw [KeepsOthers, if_pos (by decide +kernel)]
    intro j hj
    have hsame : p.2.2.values j = [7, 5, 0, 0].getD j 0 := by
      have hall : elmoOpened.actionsWindow.editValues = [7, 0, 0, 0] := by decide +kernel
      rw [← Gui.getD_loadValues, elmoOpened_editValues hp, hall]
      rcases j with _ | _ | _ | _ | j
      · rfl
      · exact absurd rfl hj
      · rfl
      · rfl
      · rfl
    rw [hsame]
    exact SendMessage.SameBits.refl _ _ _ _

def payloads (h : ActionHandler SendModels) : List Bytes := h.actions.map (·.payload)

/-- The preset's closure has run; the action is opened for editing, and in the TUI 5 is typed. -/
def presetTyped : List TuiDataFrameSet.Label :=
  [.run (ActionHandler.tickAt 0), .run (ActionHandler.tickAt 0)] ++
  keys [.Character 'a', .Return, .Return, .Backspace, .Character '5']

def presetOpened : List Gui.Label :=
  [.run (ActionHandler.tickAt 0), .run (ActionHandler.tickAt 0), .actions { select := some 0 }]

/-- After the preset of the repository is loaded, committing `SS_ELMO_STATUS_LWS_MAX` = 5 in the TUI
sends 0 for all the other limits, and "Update Payload" without a change sends 0 for all four: the
models of the front ends have never seen the preset's values. -/
theorem payload_edit_preset :
    ((elmoModel.messages[0]?).map fun sm =>
        ((sm.withValues fun j => [13000, 3000, 6000, 1].getD j 0).encode .zero,
          (sm.withValues fun j => [5, 3000, 6000, 1].getD j 0).encode .zero)) =
      some ([0xC8, 0x32, 0xB8, 0x0B, 0x70, 0x17, 0x01, 0x00],
        [0x05, 0x00, 0xB8, 0x0B, 0x70, 0x17, 0x01, 0x00]) ∧
    ((TuiDataFrameSet.runTui elmoEnv 0 false (elmoInterfaces "ss_elmo_actions.yaml")).toOption.map
        fun t₀ => (payloads (run (TuiDataFrameSet.step elmoEnv) t₀ presetTyped).handler,
          payloads (run (TuiDataFrameSet.step elmoEnv) t₀ (presetTyped ++
            [.key .Return 0, .run (ActionHandler.tickAt 0)])).handler)) =
      some ([[0xC8, 0x32, 0xB8, 0x0B, 0x70, 0x17, 0x01, 0x00]],
        [[0x05, 0x00, 0x00, 0x00, 0x00, 0x00, 0x00, 0x00]]) ∧
    ((Gui.runGui elmoEnv 0 (elmoInterfaces "ss_elmo_actions.yaml")).toOption.map
        fun g₀ => (payloads (run (Gui.step elmoEnv) g₀ presetOpened).handler,
          payloads (run (Gui.step elmoEnv) g₀ (presetOpened ++
            [.actions { button := true }, .run (ActionHandler.tickAt 0)])).handler)) =
      some ([[0xC8, 0x32, 0xB8, 0x0B, 0x70, 0x17, 0x01, 0x00]],
        [[0x00, 0x00, 0x00, 0x00, 0x00, 0x00, 0x00, 0x00]]) := by
  decide +kernel

end Caneo
