import Caneo.KeyRequests
import Caneo.Navigation

/-!
# The signal of a sin action

On the send tab a sin action is made in the wizard, for the signal under the cursor. But the wizard
is opened by a button below the signals, or by a key that puts the cursor on this button, and while
it is active the cursor stays there (`Nav.signal`). `create_sin_action` takes the signal that is
closest to the cursor: always the message's last.

So keys can start a sin action for a signal exactly if it is the last of its message
(`canDrive_iff`), and the user cannot select any other (`not_canDrive_elmo`).
-/

namespace Caneo

open BitField EventLoop Runs Containers

/-- Encoding a value of the action sets this signal. -/
def Action.Drives (a : Action SendModels) (i mi k : Nat) : Prop :=
  ∃ f, a.encodeFn = some f ∧ ∀ v models, (f v models).2 = models.setValue i mi k v

namespace SendModels

theorem value_setValue_self {models : SendModels} {i mi k : Nat} {sm : SendMessage}
    (hsm : models.message i mi = some sm) (hk : k < sm.signals.length) (v : ℚ) :
    (models.setValue i mi k v).value i mi k = some v := by
  rw [value, message_setValue, hsm]
  simp [SendMessage.setValue, hk]

/-- Setting a value elsewhere leaves the message alone, or the signal. -/
theorem value_setValue_ne {models : SendModels} {i mi k i' mi' k' : Nat}
    (hne : ¬ (i' = i ∧ mi' = mi ∧ k' = k)) (v : ℚ) :
    (models.setValue i' mi' k' v).value i mi k = models.value i mi k := by
  by_cases hi : i' = i
  · subst hi
    by_cases hmi : mi' = mi
    · subst hmi
      have hk : k' ≠ k := fun hk => hne ⟨rfl, rfl, hk⟩
      rw [value, value, message_setValue]
      cases models.message i' mi' with
      | none => rfl
      | some sm => simp [SendMessage.setValue, hk]
    · unfold value message model setValue
      rw [List.getElem?_modify]
      cases models[i']? with
      | none => rfl
      | some p => simp [SendModel.setValue, hmi]
  · unfold value message model setValue
    rw [List.getElem?_modify]
    cases models[i]? <;> simp [hi]

/-- Setting a signal that there is to any value tells which signal it is. -/
theorem setValue_injective {models : SendModels} {i mi k i' mi' k' : Nat} {sm : SendMessage}
    (hsm : models.message i mi = some sm) (hk : k < sm.signals.length)
    (h : ∀ v, models.setValue i mi k v = models.setValue i' mi' k' v) :
    i' = i ∧ mi' = mi ∧ k' = k := by
  by_contra hne
  have hself : ∀ v, some v = models.value i mi k := by
    intro v
    rw [← value_setValue_self hsm hk v, h v, value_setValue_ne hne]
  have hdiff : some (0 : ℚ) = some 1 := (hself 0).trans (hself 1).symm
  cases hdiff

theorem signals_of_shape {models models' : SendModels} (hshape : models.shape = models'.shape)
    {i mi : Nat} {sm sm' : SendMessage} (hsm : models.message i mi = some sm)
    (hsm' : models'.message i mi = some sm') : sm.signals.length = sm'.signals.length := by
  have hcount : ∀ (ms : SendModels), (ms.message i mi).map (fun msg => msg.signals.length) =
      (ms.shape[i]?).bind fun p => p.2[mi]? := by
    intro ms
    unfold message model shape
    rw [List.getElem?_map]
    cases ms[i]? with
    | none => rfl
    | some p => simp
  have hsome := (hcount models).trans (hshape ▸ (hcount models').symm)
  rw [hsm, hsm'] at hsome
  exact Option.some.inj hsome

end SendModels

namespace TuiDataFrameSet

/-- The step posts a sin action that drives this signal. -/
def StartsSin (env : Env) (t : TuiDataFrameSet) (l : Label) (i mi k : Nat) : Prop :=
  ∃ a : Action SendModels, a.Drives i mi k ∧
    (t.step env l).handler.loop.closures = t.handler.loop.closures ++ [.addAction a]

/-- Some keys, the last of which starts such an action. -/
def CanDrive (env : Env) (t₀ : TuiDataFrameSet) (i mi k : Nat) : Prop :=
  ∃ (before : List (Event × ℚ)) (event : Event) (now : ℚ),
    (run (TuiDataFrameSet.step env) t₀ (before.map fun p => .key p.1 p.2)).StartsSin env
      (.key event now) i mi k

/-! ### Which signal a sin action drives -/

section Keys

variable {env : Env} {t : TuiDataFrameSet}

theorem message_of_selected {i : Nat} {messages : List SendMessage} {mi : Nat} {msg : SendMessage}
    (hsel : t.selectedSendModel = some (i, messages)) (hmsg : messages[mi]? = some msg) :
    t.models.message i mi = some msg := by
  obtain ⟨j, -, hj⟩ := Option.bind_eq_some_iff.mp hsel
  obtain ⟨model, hmodel, he⟩ := Option.map_eq_some_iff.mp hj
  cases he
  rw [SendModels.message, hmodel]
  exact hmsg

/-- A key that starts a sin action is one of the wizard's, and takes the signal near the cursor. -/
theorem StartsSin.sinFn {event : Event} {now : ℚ} {i mi k : Nat}
    (h : t.StartsSin env (.key event now) i mi k) :
    t.periodicStep ≠ .None ∧ ∃ f, t.sinFn env.casts = some f ∧
      ∀ v models, (f v models).2 = models.setValue i mi k v := by
  obtain ⟨a, ⟨f, hf, hdrives⟩, hposted⟩ := h
  rcases posts_key env t event now with hquiet | ⟨r, hr, hadded⟩
  · rw [hquiet] at hposted
    simp at hposted
  · rw [hadded, List.append_cancel_left_eq, List.cons.injEq] at hposted
    have haction : (r.allocate t.handler.nextPtr).1.action = some a := by
      rw [hposted.1]
      rfl
    obtain ⟨b, hb, hfn⟩ := Request.action_allocate haction
    rw [hf] at hfn
    cases hr with
    | constant hnone =>
      cases hb
      rw [hnone] at hfn
      cases hfn
    | sin hon _ hsin =>
      cases hb
      exact ⟨hon, f, hsin ▸ hfn.symm, hdrives⟩
    | edit _ hedit _ => cases r <;> cases hb <;> cases hedit
    | entry _ hnone =>
      rw [hnone] at hb
      cases hb

/-- In the wizard the cursor is on the button, so this is the last signal of the selected message. -/
theorem StartsSin.last (hnav : t.navView.Ok) {event : Event} {now : ℚ} {i mi k : Nat}
    (h : t.StartsSin env (.key event now) i mi k) :
    ∃ msg, t.models.message i mi = some msg ∧ k + 1 = msg.signals.length := by
  obtain ⟨hon, f, hf, hdrives⟩ := h.sinFn
  have hlevel : t.navLevel = 3 := hnav.periodic (decide_eq_true hon)
  obtain ⟨ns, n, hns, hn, -, -, hlast⟩ := hnav.signal hlevel
  obtain ⟨i', messages, msg, hsel, hmsg, rfl⟩ := selected_of_counts hns hn
  have hcursor : t.sendSigCursor = msg.signals.length + 1 := hlast (decide_eq_true hon)
  rw [TuiDataFrameSet.sinFn, selectedMsg_eq hsel hmsg, Option.bind_some, hcursor, clampCursor] at hf
  split at hf
  · cases hf
  · next hne =>
    dsimp only at hne
    obtain rfl : sinEncodeFn env.casts i' t.sendMsgCursor
        (min (msg.signals.length + 1) (msg.signals.length - 1)) = f := by simpa using hf
    have hsm : t.models.message i' t.sendMsgCursor = some msg := message_of_selected hsel hmsg
    obtain ⟨rfl, rfl, rfl⟩ := SendModels.setValue_injective hsm (by omega)
      (fun v => hdrives v t.models)
    exact ⟨msg, hsm, by omega⟩

end Keys

/-! ### Keys that start a sin action -/

/-- Keys lead from the one state to the other. -/
def KeysLead (env : Env) (t t' : TuiDataFrameSet) : Prop :=
  ∃ ps : List (Event × ℚ), run (TuiDataFrameSet.step env) t (ps.map fun p => .key p.1 p.2) = t'

/-- The program runs, and no input mode is active. -/
def Browsing (t : TuiDataFrameSet) : Prop :=
  (t.exited = false ∧ t.handler.terminated = false) ∧ t.navView.Idle

section KeysLead

variable {env : Env} {t t' : TuiDataFrameSet}

theorem KeysLead.trans {t'' : TuiDataFrameSet} (h : KeysLead env t t')
    (h' : KeysLead env t' t'') : KeysLead env t t'' := by
  obtain ⟨ps, rfl⟩ := h
  obtain ⟨ps', rfl⟩ := h'
  refine ⟨ps ++ ps', ?_⟩
  rw [List.map_append, run_append]

theorem KeysLead.key (event : Event) (h : t.step env (.key event 0) = t') : KeysLead env t t' :=
  ⟨[(event, 0)], h⟩

theorem Browsing.step_key (h : t.Browsing) (event : Event) (now : ℚ) :
    t.step env (.key event now) = (t.shortcut event).getD (t.view env event) := by
  obtain ⟨⟨hexited, hterm⟩, hactions, hperiodic, hsending, hsearching⟩ := h
  have hstep : t.periodicStep = .None := by
    by_contra hon
    exact absurd (decide_eq_true hon) (by simpa [navView] using hperiodic)
  have ha : t.actionsEditing = false := hactions
  have hs : t.sendEditing = false := hsending
  have hq : t.traceSearching = false := hsearching
  simp [TuiDataFrameSet.step, onEvent, hexited, hterm, ha, hstep, hs, hq]

variable (env) in
/-- The views of the send tab. -/
theorem view_sendTab (htab : t.mainTab = 1) (event : Event) :
    (t.navLevel = 1 → t.view env event = t.subTabs event) ∧
      (t.navLevel = 2 → t.view env event = t.msgList event) ∧
      (t.navLevel = 3 → t.view env event = t.sigList env event) := by
  have hbefore : t.mainTab < t.playbackTabIdx := by
    have hlt := t.two_lt_playbackTabIdx
    omega
  have hactions : ¬ t.mainTab = 2 := by omega
  refine ⟨?_, ?_, ?_⟩
  · intro hlevel
    rw [view_first hlevel hbefore, if_neg hactions]
  · intro hlevel
    rw [view_second hlevel hbefore, if_neg hactions]
  · intro hlevel
    simp [view, hlevel]

/-- To the send tab, and there to the interface. -/
theorem keysLead_subTab (h : t.Browsing) (hsub : t.subTabSend = 0) {j : Nat}
    (hj : j < t.interfaces.length) :
    KeysLead env t { t with mainTab := 1, navLevel := 1, subTabSend := j } := by
  induction j with
  | zero =>
    refine KeysLead.key (.Character 's') ?_
    rw [h.step_key, ← hsub]
    rfl
  | succ j ih =>
    refine (ih (by omega)).trans (KeysLead.key .ArrowRight ?_)
    have hbrowsing : Browsing { t with mainTab := 1, navLevel := 1, subTabSend := j } := h
    have hturn : turnTab j 1 t.interfaces.length = j + 1 := by
      rw [turnTab, if_neg (by omega), Nat.mod_eq_of_lt hj]
    rw [hbrowsing.step_key]
    refine ((view_sendTab env (t := { t with mainTab := 1, navLevel := 1, subTabSend := j }) rfl
      .ArrowRight).1 rfl).trans ?_
    simp [subTabs, subTabs.turned, hturn]

/-- From the interface to the message. -/
theorem keysLead_message (h : t.Browsing) (htab : t.mainTab = 1) (hlevel : t.navLevel = 1) {i : Nat}
    {messages : List SendMessage} (hsel : t.selectedSendModel = some (i, messages)) {mi : Nat}
    (hmi : mi < messages.length) :
    KeysLead env t { t with sendMsgCursor := mi, navLevel := 2 } := by
  induction mi with
  | zero =>
    refine KeysLead.key .ArrowDown ?_
    have hne : messages ≠ [] := List.length_pos_iff.mp hmi
    rw [h.step_key]
    refine ((view_sendTab env htab .ArrowDown).1 hlevel).trans ?_
    simp [subTabs, htab, hsel, hne]
  | succ mi ih =>
    refine (ih (by omega)).trans (KeysLead.key .ArrowDown ?_)
    have hbrowsing : Browsing { t with sendMsgCursor := mi, navLevel := 2 } := h
    have hsel' : ({ t with sendMsgCursor := mi, navLevel := 2 } : TuiDataFrameSet).selectedSendModel =
        some (i, messages) := hsel
    rw [hbrowsing.step_key]
    refine ((view_sendTab env (t := { t with sendMsgCursor := mi, navLevel := 2 }) htab
      .ArrowDown).2.1 rfl).trans ?_
    simp [msgList, hsel', hmi]

/-- From the message to the wizard. -/
theorem keysLead_wizard (h : t.Browsing) (htab : t.mainTab = 1) (hlevel : t.navLevel = 2) {i : Nat}
    {messages : List SendMessage} (hsel : t.selectedSendModel = some (i, messages))
    {msg : SendMessage} (hmsg : messages[t.sendMsgCursor]? = some msg) :
    KeysLead env t { t with
      navLevel := 3
      sendSigCursor := msg.signals.length + 1
      periodicStep := .Period
      periodicIntervalBuf := "" } := by
  have hopen : KeysLead env t { t with sendSigCursor := 0, navLevel := 3 } := by
    refine KeysLead.key .Return ?_
    have hne : messages ≠ [] := by
      rintro rfl
      simp at hmsg
    rw [h.step_key]
    refine ((view_sendTab env htab .Return).2.1 hlevel).trans ?_
    simp [msgList, hsel, hne]
  refine hopen.trans (KeysLead.key (.Character '2') ?_)
  have hbrowsing : Browsing { t with sendSigCursor := 0, navLevel := 3 } := h
  have hselected : ({ t with sendSigCursor := 0, navLevel := 3 } : TuiDataFrameSet).selectedMsg =
      some (i, t.sendMsgCursor, msg) := selectedMsg_eq hsel hmsg
  rw [hbrowsing.step_key]
  refine ((view_sendTab env (t := { t with sendSigCursor := 0, navLevel := 3 }) htab
    (.Character '2')).2.2 rfl).trans ?_
  simp [sigList, hselected]

/-- Through the wizard, with an interval of one millisecond and the defaults of the sin action. -/
theorem keysLead_sinReady (hstol : env.stol "1" = some 1) (hexited : t.exited = false)
    (hterm : t.handler.terminated = false) (hactions : t.actionsEditing = false)
    (hperiod : t.periodicStep = .Period) (hbuf : t.periodicIntervalBuf = "")
    (htype : t.periodicTypeCursor = 0) :
    KeysLead env t { t with
      periodicStep := .SinReady
      periodicIntervalBuf := "1"
      periodicIntervalMs := 1
      periodicTypeCursor := 1 } := by
  refine ⟨[(.Character '1', 0), (.Return, 0), (.ArrowRight, 0), (.Return, 0), (.Return, 0),
    (.Return, 0), (.Return, 0)], ?_⟩
  simp [TuiDataFrameSet.step, onEvent, periodicEdit, periodEdit, typeSelect, hexited, hterm,
    hactions, hperiod, hbuf, htype, hstol]

/-- The button starts a sin action for the last signal. -/
theorem startsSin_last (hexited : t.exited = false) (hterm : t.handler.terminated = false)
    (hactions : t.actionsEditing = false) (hready : t.periodicStep = .SinReady)
    (hamp : t.sinAmplitudeBuf = "") (hsp : t.sinPeriodBuf = "") (hoffset : t.sinOffsetBuf = "")
    {i : Nat} {messages : List SendMessage} (hsel : t.selectedSendModel = some (i, messages))
    {msg : SendMessage} (hmsg : messages[t.sendMsgCursor]? = some msg) {k : Nat}
    (hlast : k + 1 = msg.signals.length) (hcursor : t.sendSigCursor = msg.signals.length + 1) :
    t.StartsSin env (.key .Return 0) i t.sendMsgCursor k := by
  have hclamp : clampCursor t.sendSigCursor msg.signals.length = some k := by
    rw [clampCursor, if_neg (by omega), hcursor, min_eq_right (by omega), ← hlast]
    rfl
  have hstep : (t.step env (.key .Return 0)).handler = (t.post env (.addAction
      (Action.newSin 0 t.selectedSendIface msg.id msg.name t.periodicIntervalMs
        (sinEncodeFn env.casts i t.sendMsgCursor k) 0 1000 0))).handler := by
    simp [TuiDataFrameSet.step, onEvent, periodicEdit, hexited, hterm, hactions, hready, startSin,
      parseOr, hamp, hsp, hoffset, createSinAction, selectedMsg_eq hsel hmsg, hclamp, resetPeriodic]
  have hposted : (t.step env (.key .Return 0)).handler.loop.closures =
      t.handler.loop.closures ++ [.addAction
        { Action.newSin 0 t.selectedSendIface msg.id msg.name t.periodicIntervalMs
          (sinEncodeFn env.casts i t.sendMsgCursor k) 0 1000 0 with ptr := t.handler.nextPtr }] := by
    rw [hstep, post, ActionHandler.step]
    simp [hterm, Request.allocate]
  exact ⟨_, ⟨sinEncodeFn env.casts i t.sendMsgCursor k, rfl, fun _ _ => rfl⟩, hposted⟩

end KeysLead

/-! ### Which signals can be driven -/

section Started

variable {env : Env} {cfgs : List InterfaceConfig} {t₀ : TuiDataFrameSet}

/-- The shape of the models is that of the start. -/
theorem Started.message_run (hstart : t₀.Started env cfgs) (ls : List Label) {i mi : Nat}
    {msg msg' : SendMessage} (hmsg : t₀.models.message i mi = some msg)
    (hmsg' : (run (TuiDataFrameSet.step env) t₀ ls).models.message i mi = some msg') :
    msg'.signals.length = msg.signals.length := by
  refine SendModels.signals_of_shape ?_ hmsg' hmsg
  exact (hstart.shaped.run ls).worldKept.world.trans hstart.shaped.worldKept.world.symm

/-- No key of any run starts a sin action for another signal than the last. -/
theorem Started.last (hstart : t₀.Started env cfgs) {i mi : Nat} {msg : SendMessage}
    (hmsg : t₀.models.message i mi = some msg) {ls : List Label} {event : Event} {now : ℚ} {k : Nat}
    (h : (run (TuiDataFrameSet.step env) t₀ ls).StartsSin env (.key event now) i mi k) :
    k + 1 = msg.signals.length := by
  obtain ⟨msg', hmsg', hlast⟩ := h.last (hstart.ok_run ls)
  rw [hlast, hstart.message_run ls hmsg hmsg']

theorem exists_interface_of_mem {p : String × SendModel} (h : p ∈ env.sendModels cfgs) :
    p.1 ∈ cfgs.map (·.name) := by
  obtain ⟨cfg, hcfg, hsome⟩ := List.mem_filterMap.mp h
  split at hsome
  · cases hsome
  · obtain ⟨model, -, rfl⟩ := Option.map_eq_some_iff.mp hsome
    exact List.mem_map_of_mem hcfg

/-- The models are those of the interfaces. -/
theorem Started.exists_interface (hstart : t₀.Started env cfgs) {iface : String} {i : Nat}
    (hfind : t₀.models.find iface = some i) : ∃ j : Nat, t₀.interfaces[j]? = some iface := by
  have hmodels : t₀.models = env.sendModels cfgs := hstart.untouched.world
  rw [hmodels] at hfind
  obtain ⟨hlt, hname, -⟩ := List.findIdx?_eq_some_iff_getElem.mp hfind
  have hmem := exists_interface_of_mem (List.getElem_mem hlt)
  obtain ⟨handler, playbackCtrl, modelTabEnabled, -, -, rfl⟩ := hstart.exists_eq
  rw [show (env.sendModels cfgs)[i].1 = iface by simpa using hname] at hmem
  exact List.mem_iff_getElem?.mp hmem

/-- Keys lead to the button that starts a sin action for the last signal. -/
theorem Started.canDrive (hstol : env.stol "1" = some 1) (hstart : t₀.Started env cfgs)
    {iface : String} {i mi k : Nat} {msg : SendMessage} (hfind : t₀.models.find iface = some i)
    (hmsg : t₀.models.message i mi = some msg) (hlast : k + 1 = msg.signals.length) :
    t₀.CanDrive env i mi k := by
  obtain ⟨j, hj⟩ := hstart.exists_interface hfind
  obtain ⟨handler, playbackCtrl, modelTabEnabled, hterm, -, rfl⟩ := hstart.exists_eq
  set t₀ : TuiDataFrameSet := {
    interfaces := cfgs.map (·.name)
    handler := handler
    playbackCtrl := playbackCtrl
    modelTabEnabled := modelTabEnabled }
  have hjlt : j < t₀.interfaces.length := (List.getElem?_eq_some_iff.mp hj).1
  obtain ⟨model, hmodel, hget⟩ := Option.bind_eq_some_iff.mp hmsg
  have hmi : mi < model.messages.length := (List.getElem?_eq_some_iff.mp hget).1
  -- The states on the way.
  let onTab : TuiDataFrameSet := { t₀ with mainTab := 1, navLevel := 1, subTabSend := j }
  let onMessage : TuiDataFrameSet := { onTab with sendMsgCursor := mi, navLevel := 2 }
  let inWizard : TuiDataFrameSet :=
    { onMessage with
      navLevel := 3
      sendSigCursor := msg.signals.length + 1
      periodicStep := .Period
      periodicIntervalBuf := "" }
  let ready : TuiDataFrameSet :=
    { inWizard with
      periodicStep := .SinReady
      periodicIntervalBuf := "1"
      periodicIntervalMs := 1
      periodicTypeCursor := 1 }
  have hiface : onTab.selectedSendIface = iface := by
    have hclamp : clampCursor j t₀.interfaces.length = some j := by
      rw [clampCursor, if_neg (by omega), min_eq_left (by omega)]
    show ((clampCursor j t₀.interfaces.length).bind fun i => t₀.interfaces[i]?).getD "" = iface
    rw [hclamp, Option.bind_some, hj, Option.getD_some]
  have hsel : onTab.selectedSendModel = some (i, model.messages) := by
    rw [selectedSendModel, hiface]
    show (t₀.models.find iface).bind _ = _
    rw [hfind]
    show (t₀.models.model i).map _ = _
    rw [hmodel]
    rfl
  have hbrowsing : t₀.Browsing := ⟨⟨rfl, hterm⟩, rfl, rfl, rfl, rfl⟩
  have htab : KeysLead env t₀ onTab := keysLead_subTab hbrowsing rfl hjlt
  have hmessage : KeysLead env onTab onMessage :=
    keysLead_message (t := onTab) hbrowsing rfl rfl hsel hmi
  have hwizard : KeysLead env onMessage inWizard :=
    keysLead_wizard (t := onMessage) hbrowsing rfl rfl hsel hget
  have hready : KeysLead env inWizard ready :=
    keysLead_sinReady (t := inWizard) hstol rfl hterm rfl rfl rfl rfl
  obtain ⟨ps, hps⟩ := ((htab.trans hmessage).trans hwizard).trans hready
  refine ⟨ps, .Return, 0, ?_⟩
  rw [hps]
  exact startsSin_last (t := ready) rfl hterm rfl rfl rfl rfl rfl hsel hget hlast rfl

end Started

end TuiDataFrameSet

/-- Keys can start a sin action for a signal exactly if it is the last of its message. -/
theorem canDrive_iff {env : Env} (hstol : env.stol "1" = some 1) {cfgs : List InterfaceConfig}
    {t₀ : TuiDataFrameSet} (hstart : t₀.Started env cfgs) {iface : String} {i mi : Nat}
    {msg : SendMessage} (hfind : t₀.models.find iface = some i)
    (hmsg : t₀.models.message i mi = some msg) (k : Nat) :
    t₀.CanDrive env i mi k ↔ k + 1 = msg.signals.length := by
  constructor
  · rintro ⟨before, event, now, h⟩
    exact hstart.last hmsg h
  · exact hstart.canDrive hstol hfind hmsg

/-! ### The steering controller's message

It has four signals, and its interface is `vcan0`. -/

theorem elmo_message :
    (plainTui.models.message 0 0).map (fun msg => msg.signals.length) = some 4 := by decide +kernel

/-- The last signal can be driven. -/
theorem canDrive_elmo : plainTui.CanDrive elmoEnv 0 0 3 := by
  obtain ⟨msg, hmsg, hlen⟩ := Option.map_eq_some_iff.mp elmo_message
  have hstol : elmoEnv.stol "1" = some 1 := by decide +kernel
  have hfind : plainTui.models.find "vcan0" = some 0 := by decide +kernel
  exact (canDrive_iff hstol (Or.inl ⟨0, false, runTui_plainTui⟩) hfind hmsg 3).mpr hlen.symm

/-- The first cannot. -/
theorem not_canDrive_elmo :
    plainTui.Started elmoEnv (elmoInterfaces "") ∧
    plainTui.models.find "vcan0" = some 0 ∧
    (plainTui.models.message 0 0).map (fun msg => msg.signals.length) = some 4 ∧
    ¬ plainTui.CanDrive elmoEnv 0 0 0 := by
  have hstart : plainTui.Started elmoEnv (elmoInterfaces "") :=
    Or.inl ⟨0, false, runTui_plainTui⟩
  refine ⟨hstart, by decide +kernel, elmo_message, ?_⟩
  rintro ⟨before, event, now, h⟩
  obtain ⟨msg, hmsg, hlen⟩ := Option.map_eq_some_iff.mp elmo_message
  have hlast : 0 + 1 = msg.signals.length := hstart.last hmsg h
  omega

end Caneo
