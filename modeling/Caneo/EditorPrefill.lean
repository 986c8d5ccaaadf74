import Caneo.Navigation
import Caneo.NumeralFormat

/-!
# The text that an editor is opened with

The editors of the send and the actions tab are opened with the stored value as `{:.6g}` writes it,
and the confirmation parses the text, whether anything was typed or not. So opening and confirming
keeps an integer if and only if six digits are enough for it (`prefill_kept_iff`).
-/

namespace Caneo

open EventLoop Runs Containers Numerals

/-- The environment with the conversions of the standard library. -/
def Env.withNumerals (env : Env) (r : Rounding) : Env :=
  { env with stod := Numerals.stod r, stol := Numerals.stol, formatG := Numerals.formatG 6 }

theorem Env.stod_withNumerals (env : Env) (r : Rounding) :
    (env.withNumerals r).stod = Numerals.stod r := rfl

theorem Env.stol_withNumerals (env : Env) (r : Rounding) :
    (env.withNumerals r).stol = Numerals.stol := rfl

theorem Env.formatG_withNumerals (env : Env) (r : Rounding) :
    (env.withNumerals r).formatG = Numerals.formatG 6 := rfl

/-! ### Setting a value -/

namespace SendModels

variable (models : SendModels) (i mi k : Nat) (v : ℚ)

theorem find_setValue (interface : String) :
    (models.setValue i mi k v).find interface = models.find interface := by
  have hnames : (models.setValue i mi k v).map (·.1) = models.map (·.1) := by
    apply map_modify_of_eq
    exact fun _ => rfl
  have hfind : ∀ models : SendModels, models.find interface =
      (models.map (·.1)).findIdx? fun name => name = interface := by
    intro models
    rw [List.findIdx?_map]
    rfl
  rw [hfind, hfind, hnames]

theorem model_setValue :
    (models.setValue i mi k v).model i = (models.model i).map fun model => model.setValue mi k v := by
  simp [setValue, model, Function.comp_def]

theorem findMsg_setValue (msgId : BitVec 64) :
    (models.setValue i mi k v).findMsg i msgId = models.findMsg i msgId := by
  have hids : ∀ model : SendModel, (model.setValue mi k v).messages.map (·.id) =
      model.messages.map (·.id) := by
    intro model
    apply map_modify_of_eq
    exact fun _ => rfl
  have hfind : ∀ messages : List SendMessage, (messages.findIdx? fun sm => sm.id = msgId) =
      (messages.map (·.id)).findIdx? fun id => id = msgId := by
    intro messages
    rw [List.findIdx?_map]
    rfl
  rw [findMsg, findMsg, model_setValue, Option.bind_map]
  simp only [Function.comp_def, hfind, hids]

variable {models i mi}

theorem messageOf_setValue {interface : String} {msgId : BitVec 64} {sm : SendMessage}
    (h : models.messageOf interface msgId = some (i, mi, sm)) :
    (models.setValue i mi k v).messageOf interface msgId = some (i, mi, sm.setValue k v) := by
  obtain ⟨i', hi, h⟩ := Option.bind_eq_some_iff.mp h
  obtain ⟨mi', hmi, h⟩ := Option.bind_eq_some_iff.mp h
  obtain ⟨sm', hsm, h⟩ := Option.map_eq_some_iff.mp h
  cases h
  rw [messageOf, find_setValue, hi, Option.bind_some, findMsg_setValue, hmi, Option.bind_some,
    message_setValue, hsm]
  rfl

end SendModels

namespace TuiDataFrameSet

/-! ### What the editors are for -/

/-- The signal under the cursor of the send tab. -/
def selectedSignal (t : TuiDataFrameSet) : Option SendSignal :=
  t.selectedMsg.bind fun p => p.2.2.signals[t.sendSigCursor]?

/-- The signal that the editor of the actions tab sets. -/
def actionSlot (t : TuiDataFrameSet) (info : ActionInfo) : Option (Nat × Nat × Nat) :=
  (t.messageOf info).bind fun p =>
    (clampCursor t.actionsSigCursor p.2.2.signals.length).map fun k => (p.1, p.2.1, k)

end TuiDataFrameSet

/-- The amplitude or the offset of a sin action. -/
def ActionInfo.sinValue (info : ActionInfo) : Nat → Option ℚ
  | 0 => some info.sinAmplitude
  | 2 => some info.sinOffset
  | _ => none

namespace TuiDataFrameSet

/-- No editor is open, and the program runs. -/
structure Awaits (t : TuiDataFrameSet) : Prop where
  alive : t.exited = false ∧ t.handler.terminated = false
  idle : t.navView.Idle

/-- The key opens the editor of a signal on the send tab. -/
structure OpensSend (t : TuiDataFrameSet) (opening : Event) (sig : SendSignal) : Prop where
  awaits : t.Awaits
  key : opening = .ArrowRight ∨ opening = .Return
  level : t.navLevel = 3
  signal : t.selectedSignal = some sig

/-- The key opens the editor for an action, if there is something to edit. -/
structure OpensAction (t : TuiDataFrameSet) (opening : Event) (info : ActionInfo) : Prop where
  awaits : t.Awaits
  key : opening = .ArrowRight ∨ opening = .Return
  tab : t.mainTab = 2
  level : t.navLevel = 2
  entry : t.snapshot[t.actionsCursor]? = some info

/-- The editor is opened and confirmed. -/
def confirmed (env : Env) (t : TuiDataFrameSet) (opening : Event) (now now' : ℚ) :
    TuiDataFrameSet :=
  run (step env) t [.key opening now, .key .Return now']

section Confirmed

variable {env : Env} {t : TuiDataFrameSet} {opening : Event}

theorem Awaits.closed (h : t.Awaits) : t.actionsEditing = false ∧ t.periodicStep = .None ∧
    t.sendEditing = false ∧ t.traceSearching = false := by
  simpa [NavView.Idle, navView] using h.idle

theorem Awaits.step (h : t.Awaits) (event : Event) (now : ℚ) :
    t.step env (.key event now) = (t.shortcut event).getD (t.view env event) := by
  obtain ⟨hediting, hperiodic, hsending, hsearching⟩ := h.closed
  simp [TuiDataFrameSet.step, h.alive.1, h.alive.2, onEvent, hediting, hperiodic, hsending,
    hsearching]

theorem shortcut_opening (hkey : opening = .ArrowRight ∨ opening = .Return) :
    t.shortcut opening = none := by
  rcases hkey with rfl | rfl <;> rfl

/-! ### The send tab -/

theorem OpensSend.step {sig : SendSignal} (h : t.OpensSend opening sig) (now : ℚ) :
    t.step env (.key opening now) =
      { t with sendEditBuf := env.formatG sig.value, sendEditing := true } := by
  obtain ⟨⟨i, mi, msg⟩, hsel, hsig⟩ := Option.bind_eq_some_iff.mp h.signal
  have hview : t.view env opening = t.openSignal env := by
    rw [view, h.level]
    rcases h.key with rfl | rfl <;> rfl
  rw [h.awaits.step, shortcut_opening h.key, Option.getD_none, hview, openSignal, hsel]
  dsimp only at hsig ⊢
  rw [hsig]

theorem selectedMsg_setValue {i mi : Nat} {msg : SendMessage} (h : t.selectedMsg = some (i, mi, msg))
    (k : Nat) (v : ℚ) : (t.setValue i mi k v).selectedMsg = some (i, mi, msg.setValue k v) := by
  obtain ⟨p, hsel, h⟩ := Option.bind_eq_some_iff.mp h
  obtain ⟨i', hi, hsel⟩ := Option.bind_eq_some_iff.mp hsel
  obtain ⟨model, hmodel, rfl⟩ := Option.map_eq_some_iff.mp hsel
  obtain ⟨mi', hclamp, h⟩ := Option.bind_eq_some_iff.mp h
  obtain ⟨msg', hmsg, h⟩ := Option.map_eq_some_iff.mp h
  simp only [Prod.mk.injEq] at h
  obtain ⟨rfl, rfl, rfl⟩ := h
  have hselected : (t.setValue i' mi' k v).selectedSendModel =
      some (i', (model.setValue mi' k v).messages) := by
    have hfind : (t.setValue i' mi' k v).models.find (t.setValue i' mi' k v).selectedSendIface = some i' :=
      (SendModels.find_setValue t.models i' mi' k v _).trans hi
    have hset : (t.setValue i' mi' k v).models.model i' = some (model.setValue mi' k v) := by
      refine (SendModels.model_setValue t.models i' mi' k v).trans ?_
      rw [hmodel]
      rfl
    rw [selectedSendModel, hfind, Option.bind_some, hset]
    rfl
  have hcount : (model.setValue mi' k v).messages.length = model.messages.length :=
    List.length_modify ..
  have hclamp' : clampCursor (t.setValue i' mi' k v).sendMsgCursor
      (model.setValue mi' k v).messages.length = some mi' := by
    rw [hcount]
    exact hclamp
  rw [selectedMsg, hselected, Option.bind_some, hclamp', Option.bind_some,
    SendModel.getElem?_setValue, if_pos rfl, hmsg]
  rfl

theorem step_commit_send {event : Event} (halive : t.exited = false ∧ t.handler.terminated = false)
    (hediting : t.actionsEditing = false) (hperiodic : t.periodicStep = .None)
    (hsending : t.sendEditing = true) (hkey : event = .Return ∨ event = .ArrowLeft) (now : ℚ) :
    t.step env (.key event now) =
      { t.commitSendEdit env with sendEditing := false, sendEditBuf := "" } := by
  rcases hkey with rfl | rfl <;>
    simp [TuiDataFrameSet.step, halive.1, halive.2, onEvent, hediting, hperiodic, hsending, sendEdit]

theorem commitSendEdit_eq {i mi k : Nat} {msg : SendMessage} {w : ℚ}
    (htext : t.sendEditBuf.isEmpty = false) (hparse : env.stod t.sendEditBuf = some w)
    (hsel : t.selectedMsg = some (i, mi, msg))
    (hclamp : clampCursor t.sendSigCursor msg.signals.length = some k) :
    t.commitSendEdit env = t.setValue i mi k w := by
  simp [commitSendEdit, htext, hparse, hsel, hclamp]

/-- The text is confirmed as it is. -/
theorem OpensSend.confirmed {sig : SendSignal} (h : t.OpensSend opening sig) (now now' : ℚ) {w : ℚ}
    (htext : (env.formatG sig.value).isEmpty = false)
    (hparse : env.stod (env.formatG sig.value) = some w) :
    ((t.confirmed env opening now now').selectedSignal).map (·.value) = some w := by
  obtain ⟨⟨i, mi, msg⟩, hsel, hsig⟩ := Option.bind_eq_some_iff.mp h.signal
  have hlt : t.sendSigCursor < msg.signals.length := (List.getElem?_eq_some_iff.mp hsig).1
  have hclamp : clampCursor t.sendSigCursor msg.signals.length = some t.sendSigCursor := by
    rw [clampCursor, if_neg (by omega), min_eq_left (by omega)]
  have hreturn : t.confirmed env opening now now' =
      { ({ t with sendEditBuf := env.formatG sig.value, sendEditing := true } :
          TuiDataFrameSet).setValue i mi t.sendSigCursor w with
        sendEditing := false, sendEditBuf := "" } := by
    rw [TuiDataFrameSet.confirmed, run_cons, run_cons, run_nil, h.step, step_commit_send,
      commitSendEdit_eq]
    · exact htext
    · exact hparse
    · exact hsel
    · exact hclamp
    · exact h.awaits.alive
    · exact h.awaits.closed.1
    · exact h.awaits.closed.2.1
    · rfl
    · exact Or.inl rfl
  have hsel' : (t.confirmed env opening now now').selectedMsg =
      some (i, mi, msg.setValue t.sendSigCursor w) := by
    rw [hreturn]
    exact selectedMsg_setValue hsel t.sendSigCursor w
  have hcursor : (t.confirmed env opening now now').sendSigCursor = t.sendSigCursor := by
    rw [hreturn]
    rfl
  rw [selectedSignal, hsel', Option.bind_some, hcursor, SendMessage.setValue, List.getElem?_modify,
    hsig]
  simp

/-! ### The actions tab -/

theorem OpensAction.view {info : ActionInfo} (h : t.OpensAction opening info) (now : ℚ) :
    t.step env (.key opening now) = t.actionSignals env opening := by
  rw [h.awaits.step, shortcut_opening h.key, Option.getD_none,
    view_second h.level (h.tab ▸ t.two_lt_playbackTabIdx), if_pos h.tab]

theorem OpensAction.step {info : ActionInfo} (h : t.OpensAction opening info)
    (hconstant : info.typeName ≠ "Sin") {sig : SendSignal} (hsig : t.shownSignal info = some sig)
    (now : ℚ) :
    t.step env (.key opening now) =
      { t with actionsEditBuf := env.formatG sig.value, actionsEditing := true } := by
  rw [h.view]
  rcases h.key with rfl | rfl <;> simp [actionSignals, h.entry, hconstant, hsig]

theorem OpensAction.step_sin {info : ActionInfo} (h : t.OpensAction opening info)
    (hsin : info.typeName = "Sin") (now : ℚ) :
    t.step env (.key opening now) =
      { t with actionsEditBuf := t.sinParamText env info, actionsEditing := true } := by
  rw [h.view]
  rcases h.key with rfl | rfl <;> simp [actionSignals, h.entry, hsin]

/-- The editor shows the signal that it sets. -/
theorem shownSignal_eq {info : ActionInfo} {i mi k : Nat} {msg : SendMessage}
    (hmessage : t.messageOf info = some (i, mi, msg))
    (hclamp : clampCursor t.actionsSigCursor msg.signals.length = some k) :
    t.shownSignal info = msg.signals[k]? := by
  obtain ⟨i', hi, hmessage⟩ := Option.bind_eq_some_iff.mp hmessage
  obtain ⟨mi', hmi, hmessage⟩ := Option.bind_eq_some_iff.mp hmessage
  obtain ⟨msg', hmsg, hmessage⟩ := Option.map_eq_some_iff.mp hmessage
  cases hmessage
  obtain ⟨model, hmodel, hmi⟩ := Option.bind_eq_some_iff.mp hmi
  obtain ⟨hlt, hid, hfirst⟩ := List.findIdx?_eq_some_iff_getElem.mp hmi
  rw [SendModels.message, hmodel, Option.bind_some, List.getElem?_eq_getElem hlt,
    Option.some.injEq] at hmsg
  have hsome : msg.signals.isEmpty = false := by
    rcases hsignals : msg.signals with _ | ⟨sig, signals⟩
    · rw [hsignals, List.length_nil, clampCursor, if_pos rfl] at hclamp
      cases hclamp
    · rfl
  have hfind : model.messages.find? (fun msg => msg.id = info.msgId ∧ ¬ msg.signals.isEmpty) =
      some msg := by
    rw [List.find?_eq_some_iff_getElem]
    refine ⟨?_, mi, hlt, hmsg, fun j hj => ?_⟩
    · rw [hmsg] at hid
      simpa [hsome] using hid
    · have hbefore := hfirst j hj
      simp only [decide_eq_true_eq] at hbefore
      simp [hbefore]
  simp only [shownSignal, hi, hmodel, hfind, hclamp, Option.bind_eq_bind, Option.bind_some]

theorem models_post (env : Env) (t : TuiDataFrameSet) (request : Request SendModels) :
    (t.post env request).models = t.models := by
  rw [post, models, ActionHandler.step]
  split <;> rfl

theorem shownSignal_congr {t' : TuiDataFrameSet} (hmodels : t'.models = t.models)
    (hcursor : t'.actionsSigCursor = t.actionsSigCursor) (info : ActionInfo) :
    t'.shownSignal info = t.shownSignal info := by
  rw [shownSignal, shownSignal, hmodels, hcursor]

theorem step_commit_actions {event : Event}
    (halive : t.exited = false ∧ t.handler.terminated = false) (hediting : t.actionsEditing = true)
    (hkey : event = .Return ∨ event = .ArrowLeft) (now : ℚ) :
    t.step env (.key event now) =
      { t.commitActionsEdit env with actionsEditing := false, actionsEditBuf := "" } := by
  rcases hkey with rfl | rfl <;>
    simp [TuiDataFrameSet.step, halive.1, halive.2, onEvent, hediting, actionsEdit]

theorem OpensAction.confirmed_eq {info : ActionInfo} (h : t.OpensAction opening info)
    (hconstant : info.typeName ≠ "Sin") {sig : SendSignal} (hsig : t.shownSignal info = some sig)
    (now now' : ℚ) (htext : (env.formatG sig.value).isEmpty = false) :
    t.confirmed env opening now now' =
      { ({ t with actionsEditBuf := env.formatG sig.value, actionsEditing := true } :
          TuiDataFrameSet).commitPayload env info (env.stod (env.formatG sig.value)) with
        actionsEditing := false, actionsEditBuf := "" } := by
  have hcommit : ∀ t' : TuiDataFrameSet, t'.snapshot[t'.actionsCursor]? = some info →
      t'.actionsEditBuf.isEmpty = false →
      t'.commitActionsEdit env = t'.commitPayload env info (env.stod t'.actionsEditBuf) := by
    intro t' hentry htyped
    simp [commitActionsEdit, hentry, htyped, hconstant]
  rw [TuiDataFrameSet.confirmed, run_cons, run_cons, run_nil, h.step hconstant hsig,
    step_commit_actions, hcommit]
  · exact h.entry
  · exact htext
  · exact h.awaits.alive
  · rfl
  · exact Or.inl rfl

/-- Where the message has no signals, nothing is set. -/
theorem OpensAction.confirmed_none {info : ActionInfo} (h : t.OpensAction opening info)
    (hconstant : info.typeName ≠ "Sin") {sig : SendSignal} (hsig : t.shownSignal info = some sig)
    (now now' : ℚ) (htext : (env.formatG sig.value).isEmpty = false)
    (hslot : t.actionSlot info = none) :
    (t.confirmed env opening now now').shownSignal info = some sig := by
  have hkept : ∀ (t' : TuiDataFrameSet) (v : Option ℚ), t'.actionSlot info = none →
      t'.commitPayload env info v = t' := by
    intro t' v hslot
    rw [commitPayload]
    rcases hmessage : t'.messageOf info with _ | ⟨i, mi, msg⟩
    · rfl
    · rw [actionSlot, hmessage, Option.bind_some, Option.map_eq_none_iff] at hslot
      dsimp only at hslot ⊢
      rw [hslot]
  rw [h.confirmed_eq hconstant hsig now now' htext, hkept]
  · exact hsig
  · exact hslot

theorem OpensAction.confirmed {info : ActionInfo} (h : t.OpensAction opening info)
    (hconstant : info.typeName ≠ "Sin") {sig : SendSignal} (hsig : t.shownSignal info = some sig)
    (now now' : ℚ) {w : ℚ} (htext : (env.formatG sig.value).isEmpty = false)
    (hparse : env.stod (env.formatG sig.value) = some w) (hslot : t.actionSlot info ≠ none) :
    ((t.confirmed env opening now now').shownSignal info).map (·.value) = some w := by
  obtain ⟨slot, hslot⟩ := Option.ne_none_iff_exists'.mp hslot
  obtain ⟨⟨i, mi, msg⟩, hmessage, hslot⟩ := Option.bind_eq_some_iff.mp hslot
  obtain ⟨k, hclamp, -⟩ := Option.map_eq_some_iff.mp hslot
  dsimp only at hclamp
  have hcommit : ∀ t' : TuiDataFrameSet, t'.messageOf info = some (i, mi, msg) →
      t'.actionsSigCursor = t.actionsSigCursor → ∃ request,
      t'.commitPayload env info (some w) = (t'.setValue i mi k w).post env request := by
    intro t' hmessage hcursor
    rw [commitPayload, hmessage, hcursor]
    dsimp only
    rw [hclamp]
    exact ⟨_, rfl⟩
  obtain ⟨request, hset⟩ := hcommit
    { t with actionsEditBuf := env.formatG sig.value, actionsEditing := true } hmessage rfl
  have hmessage' : (t.setValue i mi k w).messageOf info = some (i, mi, msg.setValue k w) :=
    SendModels.messageOf_setValue k w hmessage
  have hsignals : (msg.setValue k w).signals.length = msg.signals.length := List.length_modify ..
  have hclamp' : clampCursor (t.setValue i mi k w).actionsSigCursor
      (msg.setValue k w).signals.length = some k := by
    rw [hsignals]
    exact hclamp
  have hshown : (t.confirmed env opening now now').shownSignal info =
      (t.setValue i mi k w).shownSignal info := by
    rw [h.confirmed_eq hconstant hsig now now' htext, hparse, hset]
    apply shownSignal_congr
    · exact models_post env _ request
    · rfl
  rw [shownSignal_eq hmessage hclamp] at hsig
  rw [hshown, shownSignal_eq hmessage' hclamp', SendMessage.setValue, List.getElem?_modify, hsig]
  simp

/-! ### Sin parameters -/

/-- The confirmation posts the value of the text. -/
theorem OpensAction.confirmed_sin {info : ActionInfo} (h : t.OpensAction opening info)
    (hsin : info.typeName = "Sin") (now now' : ℚ) {w : ℚ}
    (htext : (t.sinParamText env info).isEmpty = false)
    (hparse : env.stod (t.sinParamText env info) = some w) :
    (t.confirmed env opening now now').handler =
      ActionHandler.step env.trig t.handler
        (.request (.updateSinParam t.actionsCursor t.actionsSigCursor w)) := by
  have hcommit : ∀ t' : TuiDataFrameSet, t'.snapshot[t'.actionsCursor]? = some info →
      t'.actionsEditBuf.isEmpty = false → env.stod t'.actionsEditBuf = some w →
      t'.commitActionsEdit env =
        t'.post env (.updateSinParam t'.actionsCursor t'.actionsSigCursor w) := by
    intro t' hentry htyped hparse
    simp [commitActionsEdit, hentry, htyped, hsin, hparse]
  rw [TuiDataFrameSet.confirmed, run_cons, run_cons, run_nil, h.step_sin hsin, step_commit_actions,
    hcommit]
  · rfl
  · exact h.entry
  · exact htext
  · exact hparse
  · exact h.awaits.alive
  · rfl
  · exact Or.inl rfl

/-- The editor has amplitude and offset under these two positions, and shows them. -/
theorem sinParamText_eq (env : Env) {info : ActionInfo} {v : ℚ}
    (hvalue : info.sinValue t.actionsSigCursor = some v) :
    (t.actionsSigCursor = 0 ∨ t.actionsSigCursor = 2) ∧ t.sinParamText env info = env.formatG v := by
  rw [sinParamText]
  generalize t.actionsSigCursor = param at hvalue ⊢
  unfold ActionInfo.sinValue at hvalue
  split at hvalue
  · cases hvalue
    exact ⟨Or.inl rfl, rfl⟩
  · cases hvalue
    exact ⟨Or.inr rfl, rfl⟩
  · cases hvalue

theorem exists_sin {a : Action SendModels} (hsin : a.typeName = "Sin") : ∃ p, a.kind = .sin p := by
  rw [Action.typeName] at hsin
  rcases hkind : a.kind with _ | period | p
  · simp [hkind] at hsin
  · simp [hkind] at hsin
  · exact ⟨p, rfl⟩

theorem sinValue_setSinParam {a : Action SendModels} (hsin : a.typeName = "Sin") {param : Nat}
    (hparam : param = 0 ∨ param = 2) (idx : Nat) (w : ℚ) :
    (ActionInfo.ofAction idx (a.setSinParam param w)).sinValue param = some w := by
  obtain ⟨p, hkind⟩ := exists_sin hsin
  rcases hparam with rfl | rfl <;>
    simp [Action.setSinParam, hkind, ActionInfo.ofAction, ActionInfo.sinValue, Action.sinParams,
      SinParams.setParam]

/-- When the closure runs, the entry gets the value. -/
theorem sinValue_step {trig : Trig} {handler : ActionHandler SendModels} {idx param : Nat} {w : ℚ}
    (hnext : handler.AboutTo (.updateSinParam idx param w)) {a : Action SendModels}
    (ha : handler.actions[idx]? = some a) (hsin : a.typeName = "Sin")
    (hparam : param = 0 ∨ param = 2) (tick : Tick) :
    ((handler.step trig (.run tick)).snapshot[idx]?).bind (·.sinValue param) = some w := by
  obtain ⟨halive, rest, hready⟩ := hnext
  obtain ⟨p, hkind⟩ := exists_sin hsin
  have hp : a.sinParams = some p := by rw [Action.sinParams, hkind]
  have hstep : (handler.step trig (.run tick)).snapshot =
      (handler.actions.map fun b => if b.ptr = a.ptr then b.setSinParam param w else b).mapIdx
        ActionInfo.ofAction := by
    simp [ActionHandler.step, halive, hready, ActionHandler.runReady, ActionHandler.runRequest,
      ActionHandler.runUpdateSinParam, ha, hp, ActionHandler.rebuildSnapshot, ActionHandler.modify]
  rw [hstep, List.getElem?_mapIdx, List.getElem?_map, ha]
  simp [sinValue_setSinParam hsin hparam]

end Confirmed

/-! ### Six digits -/

section Numerals

variable {env : Env} {r : Rounding} {t : TuiDataFrameSet} {v : ℤ}

theorem isEmpty_of_stod {text : String} {w : ℚ} (h : stod r text = some w) :
    text.isEmpty = false := by
  by_contra hempty
  rw [Bool.not_eq_false, String.isEmpty_iff] at hempty
  subst hempty
  cases h

/-- What is written for a 32-bit value and read back. -/
theorem prefill_parses (env : Env) (r : Rounding) (hv : -2 ^ 31 ≤ v ∧ v < 2 ^ 32) :
    ∃ w : ℚ, ((env.withNumerals r).formatG v).isEmpty = false ∧
      (env.withNumerals r).stod ((env.withNumerals r).formatG v) = some w ∧
      (w = v ↔ HasDigits 6 v) := by
  rw [env.stod_withNumerals, env.formatG_withNumerals]
  obtain ⟨w, hparse, hiff⟩ := stod_formatG r (p := 6) (by decide)
    (abs_le.mpr ⟨by linarith [hv.1], by linarith [hv.2]⟩ : |v| ≤ 2 ^ 52)
  exact ⟨w, isEmpty_of_stod hparse, hparse, hiff⟩

/-- Opening an editor on a 32-bit value and confirming keeps the value if and only if it has at most
six digits with zeros behind them, on the send tab, on the actions tab (where a message without
signals is not set at all) and for a sin action's amplitude and offset. -/
theorem prefill_kept_iff (env : Env) (r : Rounding) (hv : -2 ^ 31 ≤ v ∧ v < 2 ^ 32)
    (t : TuiDataFrameSet) (opening : Event) (now now' : ℚ) :
    (∀ sig, t.OpensSend opening sig → sig.value = v →
      (((t.confirmed (env.withNumerals r) opening now now').selectedSignal).map (·.value) =
          some (v : ℚ) ↔ HasDigits 6 v)) ∧
    (∀ info sig, t.OpensAction opening info → info.typeName ≠ "Sin" →
      t.shownSignal info = some sig → sig.value = v →
      (((t.confirmed (env.withNumerals r) opening now now').shownSignal info).map (·.value) =
          some (v : ℚ) ↔ HasDigits 6 v ∨ t.actionSlot info = none)) ∧
    (∀ info, t.OpensAction opening info → info.typeName = "Sin" →
      info.sinValue t.actionsSigCursor = some (v : ℚ) →
      ∃ w, (t.confirmed (env.withNumerals r) opening now now').handler =
          ActionHandler.step env.trig t.handler
            (.request (.updateSinParam t.actionsCursor t.actionsSigCursor w)) ∧
        ∀ (handler : ActionHandler SendModels) (tick : Tick) (a : Action SendModels),
          handler.AboutTo (.updateSinParam t.actionsCursor t.actionsSigCursor w) →
          handler.actions[t.actionsCursor]? = some a → a.typeName = "Sin" →
          (((handler.step env.trig (.run tick)).snapshot[t.actionsCursor]?).bind
              (·.sinValue t.actionsSigCursor) = some (v : ℚ) ↔ HasDigits 6 v)) := by
  obtain ⟨w, htext, hparse, hiff⟩ := prefill_parses env r hv
  refine ⟨?_, ?_, ?_⟩
  · intro sig h hsig
    rw [h.confirmed now now' (w := w)]
    · rw [Option.some.injEq, hiff]
    · rw [hsig]
      exact htext
    · rw [hsig]
      exact hparse
  · intro info sig h hconstant hshown hsig
    by_cases hslot : t.actionSlot info = none
    · rw [h.confirmed_none hconstant hshown now now' (by rw [hsig]; exact htext) hslot]
      exact iff_of_true (by simp [hsig]) (Or.inr hslot)
    · rw [or_iff_left hslot, h.confirmed hconstant hshown now now' (by rw [hsig]; exact htext)
        (by rw [hsig]; exact hparse) hslot, Option.some.injEq, hiff]
  · intro info h hsin hvalue
    obtain ⟨hparam, hprefill⟩ := sinParamText_eq (env.withNumerals r) hvalue
    refine ⟨w, ?_, ?_⟩
    · apply h.confirmed_sin hsin
      · rw [hprefill]
        exact htext
      · rw [hprefill]
        exact hparse
    · intro handler tick a hnext ha hsin
      rw [sinValue_step hnext ha hsin hparam, Option.some.injEq, hiff]

end Numerals

/-! ### A serial number

The signal `SerialNo` of `vcan1.dbc`, as it is when a number was typed. -/

def SFrace_Info : IMessage where
  id := 2044
  name := "SFrace_Info"
  messageSize := 8
  signals := [ISignal.ofLine
    { name := "SerialNo", startBit := 0, bitSize := 32, valueType := .Unsigned,
      minimum := 0, maximum := 0 }]

def serialEnv : Env :=
  { elmoEnv with
    dbcFiles := fun path => if path = "vcan1.dbc" then .network ⟨[SFrace_Info]⟩ else .missing }

def serialInterfaces : List InterfaceConfig := [⟨"vcan1", "vcan1.dbc", ""⟩]

def serialTui : TuiDataFrameSet where
  interfaces := ["vcan1"]
  handler := ActionHandler.init (serialEnv.sendModels serialInterfaces)

theorem started_serialTui (r : Rounding) :
    serialTui.Started (serialEnv.withNumerals r) serialInterfaces := Or.inl ⟨0, false, rfl⟩

/-- The editor is opened, the zero deleted, and a number typed and confirmed. -/
def typedSerial (digits : List Char) : List Label :=
  keys ([.Character 's', .ArrowDown, .Return, .Return, .Backspace] ++ digits.map .Character ++
    [.Return])

def serialTyped (digits : List Char) : TuiDataFrameSet :=
  run (step (serialEnv.withNumerals .unlimited)) serialTui (typedSerial digits)

theorem opensSend_serial (digits : List Char) {v : ℚ}
    (hopens : (serialTyped digits).exited = false ∧
      (serialTyped digits).handler.terminated = false ∧ (serialTyped digits).navLevel = 3 ∧
      (serialTyped digits).actionsEditing = false ∧
      (serialTyped digits).periodicStep = .None ∧
      (serialTyped digits).sendEditing = false ∧ (serialTyped digits).traceSearching = false ∧
      ((serialTyped digits).selectedSignal).map (·.value) = some v) :
    ∃ sig, (serialTyped digits).OpensSend .Return sig ∧ sig.value = v := by
  obtain ⟨hexited, hterm, hlevel, hediting, hperiodic, hsending, hsearching, hvalue⟩ := hopens
  obtain ⟨sig, hsig, rfl⟩ := Option.map_eq_some_iff.mp hvalue
  refine ⟨sig, ⟨⟨⟨hexited, hterm⟩, ?_⟩, Or.inr rfl, hlevel, hsig⟩, rfl⟩
  simp [NavView.Idle, navView, hediting, hperiodic, hsending, hsearching]

/-- 1000000 is kept: it is written as `1e+06`. -/
theorem prefill_kept_million :
    (((serialTyped ['1', '0', '0', '0', '0', '0', '0']).confirmed
      (serialEnv.withNumerals .unlimited) .Return 0 0).selectedSignal).map (·.value) =
        some 1000000 := by
  obtain ⟨sig, hopens, hvalue⟩ := opensSend_serial ['1', '0', '0', '0', '0', '0', '0']
    (v := 1000000) (by decide +kernel)
  have hkept := (prefill_kept_iff serialEnv .unlimited (v := 1000000) ⟨by decide, by decide⟩
    (serialTyped ['1', '0', '0', '0', '0', '0', '0']) .Return 0 0).1 sig hopens
    (by rw [hvalue]; norm_num)
  have hdigits : HasDigits 6 1000000 := ⟨1, 6, by decide, by decide⟩
  simpa using hkept.mpr hdigits

/-- 1234567 is not: it is written as `1.23457e+06`. -/
theorem prefill_not_kept :
    ¬∀ (env : Env) (r : Rounding) (cfgs : List InterfaceConfig) (t₀ : TuiDataFrameSet),
      t₀.Started (env.withNumerals r) cfgs → ∀ (ls : List Label) (v : ℤ),
      -2 ^ 31 ≤ v ∧ v < 2 ^ 32 → ∀ (opening : Event) (now now' : ℚ) (sig : SendSignal),
      (run (step (env.withNumerals r)) t₀ ls).OpensSend opening sig → sig.value = v →
      (((run (step (env.withNumerals r)) t₀ ls).confirmed (env.withNumerals r) opening now
        now').selectedSignal).map (·.value) = some (v : ℚ) := by
  intro h
  obtain ⟨sig, hopens, hvalue⟩ := opensSend_serial ['1', '2', '3', '4', '5', '6', '7']
    (v := 1234567) (by decide +kernel)
  have hkept := h serialEnv .unlimited serialInterfaces serialTui (started_serialTui _)
    (typedSerial ['1', '2', '3', '4', '5', '6', '7']) 1234567 ⟨by decide, by decide⟩ .Return 0 0 sig
    hopens (by rw [hvalue]; norm_num)
  have hchanged : (((serialTyped ['1', '2', '3', '4', '5', '6', '7']).confirmed
      (serialEnv.withNumerals .unlimited) .Return 0 0).selectedSignal).map (·.value) =
        some 1234570 := by decide +kernel
  rw [serialTyped] at hchanged
  rw [hchanged] at hkept
  norm_num at hkept

end TuiDataFrameSet

end Caneo
