import Caneo.SharedModels

/-!
# The navigation state of the TUI

The tabs, the levels, the cursors and the four input modes of the TUI are only consistent together,
and only because keys are the only thing that changes them: while the user navigates, the lists that
are shown may become any others. `Nav` is the consistency, and `nav_run` says that it holds after
all keys and changes.

Of a state, navigation sees what `NavView` keeps; in particular, of the selected model, how many
signals its messages have. Every key changes this view in one of a few ways (`NavView.Ok` has a lemma
for each), and the actions that it creates or edits do not matter (`navView_of_effect`).
-/

namespace Caneo

open BitField EventLoop Runs Containers

/-! ### The shape of the models -/

namespace SendModels

/-- The interfaces of the models, and how many signals their messages have. -/
def shape (models : SendModels) : List (String × List Nat) :=
  models.map fun p => (p.1, p.2.messages.map fun msg => msg.signals.length)

/-- A change of one element that `f` does not see. -/
theorem map_modify_of_eq {α β : Type} {f : α → β} {g : α → α} (h : ∀ a, f (g a) = f a) (l : List α)
    (i : Nat) : (l.modify i g).map f = l.map f := by
  induction l generalizing i with
  | nil => cases i <;> rfl
  | cons a l ih =>
    cases i with
    | zero => simp [h]
    | succ i => simp [ih]

/-- Setting a value leaves the shape alone. -/
theorem shape_setValue (models : SendModels) (i mi k : Nat) (v : ℚ) :
    (models.setValue i mi k v).shape = models.shape := by
  apply map_modify_of_eq
  intro p
  have hsignals : (p.2.setValue mi k v).messages.map (fun msg => msg.signals.length) =
      p.2.messages.map fun msg => msg.signals.length := by
    apply map_modify_of_eq
    intro sm
    exact List.length_modify ..
  rw [hsignals]

theorem shape_afterCommit (models : SendModels) (c : Option TuiDataFrameSet.Commit) :
    (TuiDataFrameSet.afterCommit models c).shape = models.shape := by
  cases c with
  | none => rfl
  | some c => exact shape_setValue _ _ _ _ _

end SendModels

namespace TuiDataFrameSet

/-! ### What the user sees -/

/-- The consistency of the navigation state. -/
structure Nav (t : TuiDataFrameSet) : Prop where
  tab : t.mainTab < t.tabCount
  level : t.navLevel ≤ 3
  /-- Only the send tab has a third level. -/
  level3 : t.navLevel = 3 → t.mainTab = 1
  /-- Only the send, the actions and the playback tab have a second. -/
  level2 : t.navLevel = 2 →
    t.mainTab = 1 ∨ t.mainTab = 2 ∨ t.playbackCtrl.isSome = true ∧ t.mainTab = t.playbackTabIdx
  /-- At most one input mode is active. -/
  one : [t.actionsEditing, decide (t.periodicStep ≠ .None), t.sendEditing,
    t.traceSearching].count true ≤ 1
  actions : t.actionsEditing = true → t.mainTab = 2 ∧ t.navLevel = 2
  periodic : t.periodicStep ≠ .None → t.mainTab = 1 ∧ t.navLevel = 3
  sending : t.sendEditing = true → t.mainTab = 1 ∧ t.navLevel = 3
  searching : t.traceSearching = true → t.mainTab = 0
  /-- The message cursor is on a message of the selected model. -/
  message : t.mainTab = 1 → t.navLevel = 2 ∨ t.navLevel = 3 →
    ∃ i messages, t.selectedSendModel = some (i, messages) ∧ t.sendMsgCursor < messages.length
  /-- The signal cursor is on one of this message's signals or on one of the two buttons below:
  in the editor on a signal, and in the wizard on the second button. -/
  signal : t.navLevel = 3 → ∃ i messages msg, t.selectedSendModel = some (i, messages) ∧
    messages[t.sendMsgCursor]? = some msg ∧ t.sendSigCursor ≤ msg.signals.length + 1 ∧
    (t.sendEditing = true → t.sendSigCursor < msg.signals.length) ∧
    (t.periodicStep ≠ .None → t.sendSigCursor = msg.signals.length + 1)

/-! ### What navigation sees -/

/-- How many signals the messages of the selected model have. -/
def selectedCounts (t : TuiDataFrameSet) : Option (List Nat) :=
  t.selectedSendModel.map fun p => p.2.map fun msg => msg.signals.length

theorem selectedCounts_eq (t : TuiDataFrameSet) :
    t.selectedCounts =
      (t.models.shape.findIdx? fun p => p.1 = t.selectedSendIface).bind fun i =>
        (t.models.shape[i]?).map (·.2) := by
  rw [selectedCounts, selectedSendModel, SendModels.find, SendModels.shape, List.findIdx?_map,
    Option.map_bind]
  congr 1
  funext i
  simp [SendModels.model, Function.comp_def]

end TuiDataFrameSet

/-- `counts` are the signal counts of the selected model's messages. -/
structure NavView where
  modelTab : Bool
  playback : Bool
  tab : Nat
  level : Nat
  counts : Option (List Nat)
  msgCursor : Nat
  sigCursor : Nat
  actions : Bool
  periodic : Bool
  sending : Bool
  searching : Bool

namespace NavView

def tabCount (v : NavView) : Nat :=
  3 + (if v.modelTab then 1 else 0) + (if v.playback then 1 else 0)

def playbackTab (v : NavView) : Nat := if v.modelTab then 4 else 3

/-- No input mode is active. -/
def Idle (v : NavView) : Prop :=
  v.actions = false ∧ v.periodic = false ∧ v.sending = false ∧ v.searching = false

theorem Idle.not_actions {v : NavView} (h : v.Idle) : ¬ v.actions = true := by simp [h.1]

theorem Idle.not_periodic {v : NavView} (h : v.Idle) : ¬ v.periodic = true := by simp [h.2.1]

theorem Idle.not_sending {v : NavView} (h : v.Idle) : ¬ v.sending = true := by simp [h.2.2.1]

theorem Idle.not_searching {v : NavView} (h : v.Idle) : ¬ v.searching = true := by simp [h.2.2.2]

/-- The invariant: what `Nav` says of the view. -/
structure Ok (v : NavView) : Prop where
  tab : v.tab < v.tabCount
  level : v.level ≤ 3
  level3 : v.level = 3 → v.tab = 1
  level2 : v.level = 2 → v.tab = 1 ∨ v.tab = 2 ∨ v.playback = true ∧ v.tab = v.playbackTab
  actions : v.actions = true → v.tab = 2 ∧ v.level = 2
  periodic : v.periodic = true → v.level = 3
  sending : v.sending = true → v.level = 3
  searching : v.searching = true → v.tab = 0
  message : v.tab = 1 → v.level = 2 ∨ v.level = 3 → ∃ ns, v.counts = some ns ∧
    v.msgCursor < ns.length
  signal : v.level = 3 → ∃ ns n, v.counts = some ns ∧ ns[v.msgCursor]? = some n ∧
    v.sigCursor ≤ n + 1 ∧ (v.sending = true → v.sigCursor < n) ∧
    (v.periodic = true → v.sigCursor = n + 1)

/-! ### How keys change the view -/

/-- Below the second level nothing is selected. -/
theorem Idle.ok_low {v : NavView} (hidle : v.Idle) (htab : v.tab < v.tabCount)
    (hlevel : v.level ≤ 1) : v.Ok where
  tab := htab
  level := by omega
  level3 h := by omega
  level2 h := by omega
  actions h := (hidle.not_actions h).elim
  periodic h := (hidle.not_periodic h).elim
  sending h := (hidle.not_sending h).elim
  searching h := (hidle.not_searching h).elim
  message _ h := by omega
  signal h := by omega

/-- On the second level there are the messages of the send tab, and two other tabs. -/
theorem Idle.ok_second {v : NavView} (hidle : v.Idle) (htab : v.tab < v.tabCount)
    (hlevel : v.level = 2)
    (hview : v.tab = 2 ∨ v.playback = true ∧ v.tab = v.playbackTab ∨
      v.tab = 1 ∧ ∃ ns, v.counts = some ns ∧ v.msgCursor < ns.length) : v.Ok where
  tab := htab
  level := by omega
  level3 h := by omega
  level2 _ := by
    rcases hview with h | h | ⟨h, -⟩
    · exact Or.inr (Or.inl h)
    · exact Or.inr (Or.inr h)
    · exact Or.inl h
  actions h := (hidle.not_actions h).elim
  periodic h := (hidle.not_periodic h).elim
  sending h := (hidle.not_sending h).elim
  searching h := (hidle.not_searching h).elim
  message h1 _ := by
    rcases hview with h | ⟨-, h⟩ | ⟨-, h⟩
    · omega
    · unfold playbackTab at h
      split at h <;> omega
    · exact h
  signal h := by omega

/-- Modes may end at any time. -/
theorem Ok.ended {v : NavView} (h : v.Ok) {a p s q : Bool} (ha : a = true → v.actions = true)
    (hp : p = true → v.periodic = true) (hs : s = true → v.sending = true)
    (hq : q = true → v.searching = true) :
    Ok { v with actions := a, periodic := p, sending := s, searching := q } where
  tab := h.tab
  level := h.level
  level3 := h.level3
  level2 := h.level2
  actions hact := h.actions (ha hact)
  periodic hper := h.periodic (hp hper)
  sending hsend := h.sending (hs hsend)
  searching hsearch := h.searching (hq hsearch)
  message := h.message
  signal hlevel := by
    obtain ⟨ns, n, hns, hn, hle, hsend, hper⟩ := h.signal hlevel
    exact ⟨ns, n, hns, hn, hle, fun hs' => hsend (hs hs'), fun hp' => hper (hp hp')⟩

/-- On the third level, the cursor moves among the signals and buttons of the selected message, and
the editor or the wizard is opened where the cursor is. -/
theorem Idle.ok_third {v : NavView} (hidle : v.Idle) (htab : v.tab = 1) (hlevel : v.level = 3)
    {ns : List Nat} {n : Nat} (hns : v.counts = some ns) (hn : ns[v.msgCursor]? = some n)
    {cursor : Nat} {p s : Bool} (hle : cursor ≤ n + 1) (hs : s = true → cursor < n)
    (hp : p = true → cursor = n + 1) :
    Ok { v with sigCursor := cursor, periodic := p, sending := s } where
  tab := by
    show v.tab < v.tabCount
    rw [htab, tabCount]
    omega
  level := by
    show v.level ≤ 3
    omega
  level3 _ := htab
  level2 _ := Or.inl htab
  actions h := (hidle.not_actions h).elim
  periodic _ := hlevel
  sending _ := hlevel
  searching h := (hidle.not_searching h).elim
  message _ _ := ⟨ns, hns, (List.getElem?_eq_some_iff.mp hn).1⟩
  signal _ := ⟨ns, n, hns, hn, hle, hs, hp⟩

/-! ### The input modes exclude each other

The actions' editor needs another level than the send tab's two modes, these need the cursor in
different places, and the search needs another tab than the three. -/

/-- On the actions tab there is only its editor. -/
theorem Ok.on_actionsTab {v : NavView} (h : v.Ok) (htab : v.tab = 2) :
    v.periodic = false ∧ v.sending = false ∧ v.searching = false := by
  have hlevel : v.level ≠ 3 := by
    intro hlevel
    have htab' := h.level3 hlevel
    omega
  refine ⟨?_, ?_, ?_⟩
  · exact Bool.eq_false_iff.mpr fun hp => hlevel (h.periodic hp)
  · exact Bool.eq_false_iff.mpr fun hs => hlevel (h.sending hs)
  · refine Bool.eq_false_iff.mpr fun hq => ?_
    have htab' := h.searching hq
    omega

theorem Ok.not_sending {v : NavView} (h : v.Ok) (hp : v.periodic = true) : v.sending = false := by
  obtain ⟨ns, n, -, -, -, hsend, hper⟩ := h.signal (h.periodic hp)
  refine Bool.eq_false_iff.mpr fun hs => ?_
  have hlt := hsend hs
  have hlast := hper hp
  omega

theorem Ok.not_searching {v : NavView} (h : v.Ok) (hlevel : v.level = 3) : v.searching = false := by
  refine Bool.eq_false_iff.mpr fun hq => ?_
  have htab := h.level3 hlevel
  have htab' := h.searching hq
  omega

theorem Ok.one {v : NavView} (h : v.Ok) :
    [v.actions, v.periodic, v.sending, v.searching].count true ≤ 1 := by
  by_cases ha : v.actions = true
  · obtain ⟨hp, hs, hq⟩ := h.on_actionsTab (h.actions ha).1
    rw [ha, hp, hs, hq]
    decide
  · have ha : v.actions = false := Bool.eq_false_iff.mpr ha
    by_cases hp : v.periodic = true
    · rw [ha, hp, h.not_sending hp, h.not_searching (h.periodic hp)]
      decide
    · have hp : v.periodic = false := Bool.eq_false_iff.mpr hp
      by_cases hs : v.sending = true
      · rw [ha, hp, hs, h.not_searching (h.sending hs)]
        decide
      · rw [ha, hp, Bool.eq_false_iff.mpr hs]
        cases v.searching <;> decide

end NavView

namespace TuiDataFrameSet

section View

variable {env : Env} {t : TuiDataFrameSet}

/-- The playback controller's tab comes after the trace, the send and the actions tab. -/
theorem two_lt_playbackTabIdx (t : TuiDataFrameSet) : 2 < t.playbackTabIdx := by
  unfold playbackTabIdx
  split <;> omega

/-- The first level of the other tabs. -/
theorem view_first (hlevel : t.navLevel = 1) (htab : t.mainTab < t.playbackTabIdx) (event : Event) :
    t.view env event = if t.mainTab = 2 then t.actionList env event else t.subTabs event := by
  have hplayback : ¬ t.mainTab = t.playbackTabIdx := htab.ne
  rw [view, hlevel]
  cases t.playbackCtrl with
  | none => rfl
  | some ctrl => exact if_neg hplayback

theorem view_second (hlevel : t.navLevel = 2) (htab : t.mainTab < t.playbackTabIdx) (event : Event) :
    t.view env event = if t.mainTab = 2 then t.actionSignals env event else t.msgList event := by
  have hplayback : ¬ t.mainTab = t.playbackTabIdx := htab.ne
  rw [view, hlevel]
  cases t.playbackCtrl with
  | none => rfl
  | some ctrl => exact if_neg hplayback

end View

/-- What navigation sees of a state. -/
def navView (t : TuiDataFrameSet) : NavView where
  modelTab := t.modelTabEnabled
  playback := t.playbackCtrl.isSome
  tab := t.mainTab
  level := t.navLevel
  counts := t.selectedCounts
  msgCursor := t.sendMsgCursor
  sigCursor := t.sendSigCursor
  actions := t.actionsEditing
  periodic := decide (t.periodicStep ≠ .None)
  sending := t.sendEditing
  searching := t.traceSearching

section Selected

variable {t : TuiDataFrameSet}

theorem selectedSendModel_of_counts {ns : List Nat} (h : t.selectedCounts = some ns) :
    ∃ i messages, t.selectedSendModel = some (i, messages) ∧
      messages.map (fun msg => msg.signals.length) = ns := by
  obtain ⟨⟨i, messages⟩, hsel, rfl⟩ := Option.map_eq_some_iff.mp h
  exact ⟨i, messages, hsel, rfl⟩

theorem selectedMsg_eq {i : Nat} {messages : List SendMessage} {msg : SendMessage}
    (hsel : t.selectedSendModel = some (i, messages))
    (hmsg : messages[t.sendMsgCursor]? = some msg) :
    t.selectedMsg = some (i, t.sendMsgCursor, msg) := by
  have hlt : t.sendMsgCursor < messages.length := (List.getElem?_eq_some_iff.mp hmsg).1
  have hclamp : clampCursor t.sendMsgCursor messages.length = some t.sendMsgCursor := by
    rw [clampCursor, if_neg (by omega), min_eq_left (by omega)]
  rw [selectedMsg, hsel, Option.bind_some, hclamp, Option.bind_some, hmsg, Option.map_some]

/-- The message under the cursor, from its signal count. -/
theorem selected_of_counts {ns : List Nat} {n : Nat} (hns : t.selectedCounts = some ns)
    (hn : ns[t.sendMsgCursor]? = some n) : ∃ i messages msg,
      t.selectedSendModel = some (i, messages) ∧ messages[t.sendMsgCursor]? = some msg ∧
        msg.signals.length = n := by
  obtain ⟨i, messages, hsel, rfl⟩ := selectedSendModel_of_counts hns
  rw [List.getElem?_map, Option.map_eq_some_iff] at hn
  obtain ⟨msg, hmsg, hlen⟩ := hn
  exact ⟨i, messages, msg, hsel, hmsg, hlen⟩

end Selected

/-- The invariant says of the view what `Nav` says of the state. -/
theorem nav_of_ok {t : TuiDataFrameSet} (h : t.navView.Ok) : t.Nav where
  tab := h.tab
  level := h.level
  level3 := h.level3
  level2 := h.level2
  one := h.one
  actions := h.actions
  periodic hp := by
    have hlevel : t.navLevel = 3 := h.periodic (decide_eq_true hp)
    exact ⟨h.level3 hlevel, hlevel⟩
  sending hs := by
    have hlevel : t.navLevel = 3 := h.sending hs
    exact ⟨h.level3 hlevel, hlevel⟩
  searching := h.searching
  message htab hlevel := by
    obtain ⟨ns, hns, hlt⟩ := h.message htab hlevel
    obtain ⟨i, messages, hsel, rfl⟩ := selectedSendModel_of_counts hns
    rw [List.length_map] at hlt
    exact ⟨i, messages, hsel, hlt⟩
  signal hlevel := by
    obtain ⟨ns, n, hns, hn, hle, hsend, hper⟩ := h.signal hlevel
    obtain ⟨i, messages, msg, hsel, hmsg, rfl⟩ := selected_of_counts hns hn
    exact ⟨i, messages, msg, hsel, hmsg, hle, hsend, fun hp => hper (decide_eq_true hp)⟩

/-! ### Keys that only change the handler -/

section Keys

variable {env : Env} {t : TuiDataFrameSet}

theorem selectedCounts_congr {t' : TuiDataFrameSet}
    (hiface : t'.selectedSendIface = t.selectedSendIface)
    (hshape : t'.models.shape = t.models.shape) : t'.selectedCounts = t.selectedCounts := by
  rw [selectedCounts_eq, selectedCounts_eq, hiface, hshape]

/-- The handler may change in any way that keeps the shape of the models. -/
theorem navView_handler {h : ActionHandler SendModels} (hshape : h.world.shape = t.models.shape) :
    ({ t with handler := h } : TuiDataFrameSet).navView = t.navView := by
  have hcounts : ({ t with handler := h } : TuiDataFrameSet).selectedCounts = t.selectedCounts :=
    selectedCounts_congr rfl hshape
  rw [navView, hcounts]
  rfl

theorem navView_post (r : Request SendModels) : (t.post env r).navView = t.navView := by
  apply navView_handler
  rw [ActionHandler.world_step]
  rfl

theorem navView_of_effect {c : Option Commit} {t' : TuiDataFrameSet}
    (honly : ∃ h, t' = { t with handler := h }) (he : Effect env t c t') :
    t'.navView = t.navView := by
  obtain ⟨h, rfl⟩ := honly
  apply navView_handler
  have hmodels : h.world = afterCommit t.models c := he.models
  rw [hmodels, SendModels.shape_afterCommit]

theorem navView_createSingleAction : (t.createSingleAction env).navView = t.navView := by
  refine navView_of_effect ?_ effect_createSingleAction
  unfold createSingleAction
  split
  · exact ⟨_, rfl⟩
  · exact ⟨_, rfl⟩

theorem navView_createPeriodicAction (period : Int) :
    (t.createPeriodicAction env period).navView = t.navView := by
  refine navView_of_effect ?_ (effect_createPeriodicAction period)
  unfold createPeriodicAction
  split
  · exact ⟨_, rfl⟩
  · exact ⟨_, rfl⟩

theorem navView_startSin (now : ℚ) : (t.startSin env now).navView = t.navView := by
  refine navView_of_effect ?_ (effect_startSin now)
  unfold startSin createSinAction
  repeat' split
  all_goals exact ⟨_, rfl⟩

theorem navView_commitActionsEdit : (t.commitActionsEdit env).navView = t.navView := by
  refine navView_of_effect ?_ effect_commitActionsEdit
  unfold commitActionsEdit commitPayload
  repeat' split
  all_goals exact ⟨_, rfl⟩

theorem navView_commitSendEdit : (t.commitSendEdit env).navView = t.navView := by
  refine navView_of_effect ?_ effect_commitSendEdit
  unfold commitSendEdit
  repeat' split
  all_goals exact ⟨_, rfl⟩

/-! ### The input modes -/

theorem ok_actionsEdit (h : t.navView.Ok) (event : Event) :
    (t.actionsEdit env event).navView.Ok := by
  have hoff : NavView.Ok { t.navView with actions := false } := h.ended nofun id id id
  have hcommit : NavView.Ok { (t.commitActionsEdit env).navView with actions := false } := by
    rw [navView_commitActionsEdit]
    exact hoff
  cases event with
  | Return => exact hcommit
  | ArrowLeft => exact hcommit
  | Escape => exact hoff
  | Character c =>
    rw [actionsEdit]
    split
    · exact h
    · exact h
  | _ => exact h

/-- The wizard changes nothing of the view but its own step. -/
theorem navView_periodicEdit (event : Event) (now : ℚ) :
    ∃ b, (t.periodicEdit env event now).navView = { t.navView with periodic := b } := by
  have hoff : ∀ t' : TuiDataFrameSet, t'.navView = t.navView →
      ∃ b, t'.resetPeriodic.navView = { t.navView with periodic := b } := by
    intro t' ht'
    refine ⟨false, ?_⟩
    rw [← ht']
    rfl
  unfold periodicEdit
  split
  · exact hoff t rfl
  · split
    · exact ⟨_, rfl⟩
    · unfold periodEdit
      repeat' split
      all_goals exact ⟨_, rfl⟩
    · unfold typeSelect
      split
      · exact ⟨_, rfl⟩
      · exact ⟨_, rfl⟩
      · split
        · exact hoff _ (navView_createPeriodicAction _)
        · exact ⟨_, rfl⟩
      · exact ⟨_, rfl⟩
      · exact ⟨_, rfl⟩
    all_goals first | exact hoff _ (navView_startSin now) | exact ⟨_, rfl⟩

theorem ok_periodicEdit (h : t.navView.Ok) (hon : t.periodicStep ≠ .None) (event : Event)
    (now : ℚ) : (t.periodicEdit env event now).navView.Ok := by
  obtain ⟨b, hb⟩ := @navView_periodicEdit env t event now
  rw [hb]
  exact h.ended id (fun _ => decide_eq_true hon) id id

theorem ok_sendEdit (h : t.navView.Ok) (event : Event) : (t.sendEdit env event).navView.Ok := by
  have hoff : NavView.Ok { t.navView with sending := false } := h.ended id id nofun id
  have hcommit : NavView.Ok { (t.commitSendEdit env).navView with sending := false } := by
    rw [navView_commitSendEdit]
    exact hoff
  cases event with
  | Return => exact hcommit
  | ArrowLeft => exact hcommit
  | Escape => exact hoff
  | Character c =>
    rw [sendEdit]
    split
    · exact h
    · exact h
  | _ => exact h

theorem ok_traceSearch (h : t.navView.Ok) (event : Event) : (t.traceSearch event).navView.Ok := by
  have hoff : NavView.Ok { t.navView with searching := false } := h.ended id id id nofun
  unfold traceSearch
  split
  · exact hoff
  · exact h
  · exact h
  · exact h

/-! ### The third level -/

/-- Where the signal list leads, from a cursor that is on a signal or a button. -/
theorem ok_openSignal (h : t.navView.Ok) (hidle : t.navView.Idle) (hlevel : t.navLevel = 3) :
    (t.openSignal env).navView.Ok := by
  obtain ⟨ns, n, hns, hn, hle, -, -⟩ := h.signal hlevel
  obtain ⟨i, messages, msg, hsel, hmsg, rfl⟩ := selected_of_counts hns hn
  unfold openSignal
  rw [selectedMsg_eq hsel hmsg]
  dsimp only
  split
  · next sig hsig =>
    have hlt : t.sendSigCursor < msg.signals.length := (List.getElem?_eq_some_iff.mp hsig).1
    exact hidle.ok_third (h.level3 hlevel) hlevel hns hn hle (fun _ => hlt)
      (fun hp => (hidle.not_periodic hp).elim)
  · next hnone =>
    have hge : msg.signals.length ≤ t.sendSigCursor := List.getElem?_eq_none_iff.mp hnone
    split
    · rw [navView_createSingleAction]
      exact h
    · next hne =>
      have hlast : t.sendSigCursor = msg.signals.length + 1 := by
        have hle' : t.sendSigCursor ≤ msg.signals.length + 1 := hle
        omega
      exact hidle.ok_third (h.level3 hlevel) hlevel hns hn hle
        (fun hs => (hidle.not_sending hs).elim) (fun _ => hlast)

theorem ok_sigList (h : t.navView.Ok) (hidle : t.navView.Idle) (hlevel : t.navLevel = 3)
    (event : Event) : (t.sigList env event).navView.Ok := by
  obtain ⟨ns, n, hns, hn, hle, -, -⟩ := h.signal hlevel
  obtain ⟨i, messages, msg, hsel, hmsg, rfl⟩ := selected_of_counts hns hn
  have htab : t.mainTab = 1 := h.level3 hlevel
  have hcursor : ∀ cursor, cursor ≤ msg.signals.length + 1 →
      NavView.Ok { t.navView with sigCursor := cursor } := by
    intro cursor hcursor
    exact hidle.ok_third htab hlevel hns hn hcursor (fun hs => (hidle.not_sending hs).elim)
      (fun hp => (hidle.not_periodic hp).elim)
  have hle' : t.sendSigCursor ≤ msg.signals.length + 1 := hle
  unfold sigList
  rw [selectedMsg_eq hsel hmsg]
  split
  · exact NavView.Idle.ok_second (v := { t.navView with level := 2 }) hidle h.tab rfl
      (Or.inr (Or.inr ⟨htab, ns, hns, (List.getElem?_eq_some_iff.mp hn).1⟩))
  · exact ok_openSignal h hidle hlevel
  · exact ok_openSignal h hidle hlevel
  · exact hcursor (t.sendSigCursor - 1) (by omega)
  · simp only [Option.map_some, Option.getD_some]
    split
    · next hlt => exact hcursor (t.sendSigCursor + 1) (by omega)
    · exact h
  · rw [navView_createSingleAction]
    exact h
  · exact hidle.ok_third htab hlevel hns hn le_rfl (fun hs => (hidle.not_sending hs).elim)
      (fun _ => rfl)
  · exact h

/-! ### The second level -/

/-- Leaving for the first level. -/
theorem ok_first (h : t.navView.Ok) (hidle : t.navView.Idle) :
    NavView.Ok { t.navView with level := 1 } :=
  NavView.Idle.ok_low (v := { t.navView with level := 1 }) hidle h.tab le_rfl

theorem ok_msgList (h : t.navView.Ok) (hidle : t.navView.Idle) (hlevel : t.navLevel = 2)
    (htab : t.mainTab = 1) (event : Event) : (t.msgList event).navView.Ok := by
  obtain ⟨ns, hns, hlt⟩ := h.message htab (Or.inl hlevel)
  obtain ⟨i, messages, hsel, rfl⟩ := selectedSendModel_of_counts hns
  rw [List.length_map] at hlt
  have hcursor : ∀ cursor, cursor < messages.length →
      NavView.Ok { t.navView with msgCursor := cursor } := by
    intro cursor hcursor
    refine NavView.Idle.ok_second (v := { t.navView with msgCursor := cursor }) hidle h.tab hlevel
      (Or.inr (Or.inr ⟨htab, _, hns, ?_⟩))
    rw [List.length_map]
    exact hcursor
  have hlt' : t.sendMsgCursor < messages.length := hlt
  have hopened : NavView.Ok { t.navView with sigCursor := 0, level := 3 } := by
    have hmsg : (messages.map fun msg => msg.signals.length)[t.sendMsgCursor]? =
        some (messages[t.sendMsgCursor].signals.length) := by
      rw [List.getElem?_map, List.getElem?_eq_getElem hlt']
      rfl
    exact NavView.Idle.ok_third (v := { t.navView with level := 3 }) hidle htab rfl hns hmsg
      (Nat.zero_le _) (fun hs => (hidle.not_sending hs).elim)
      (fun hp => (hidle.not_periodic hp).elim)
  unfold msgList
  rw [hsel]
  split
  · exact ok_first h hidle
  · dsimp only
    split
    · exact h
    · exact hopened
  · dsimp only
    split
    · exact h
    · exact hopened
  · exact hcursor (t.sendMsgCursor - 1) (by omega)
  · dsimp only
    split
    · next hnext => exact hcursor (t.sendMsgCursor + 1) hnext
    · exact h
  · exact h

/-- The lists of the playback controller may change. -/
theorem navView_playback {ctrl ctrl' : PlaybackController} (hctrl : t.playbackCtrl = some ctrl) :
    ({ t with playbackCtrl := some ctrl' } : TuiDataFrameSet).navView = t.navView := by
  have hsome : t.playbackCtrl.isSome = true := by rw [hctrl]; rfl
  rw [navView, navView, hsome]
  rfl

theorem ok_playbackFilter (h : t.navView.Ok) (hidle : t.navView.Idle) {ctrl : PlaybackController}
    (hctrl : t.playbackCtrl = some ctrl) (event : Event) :
    (t.playbackFilter ctrl event).navView.Ok := by
  unfold playbackFilter
  split
  · exact ok_first h hidle
  · exact h
  · split
    · exact h
    · split
      · exact h
      · exact h
  · split
    · exact h
    · rw [navView_playback hctrl]
      exact h
  · exact h

theorem ok_actionSignals (h : t.navView.Ok) (hidle : t.navView.Idle) (hlevel : t.navLevel = 2)
    (htab : t.mainTab = 2) (event : Event) : (t.actionSignals env event).navView.Ok := by
  have hediting : NavView.Ok { t.navView with actions := true } :=
    { h with actions := fun _ => ⟨htab, hlevel⟩ }
  unfold actionSignals
  split
  · exact ok_first h hidle
  · split
    · exact h
    · split
      · exact hediting
      · split
        · exact h
        · exact hediting
  · split
    · exact h
    · split
      · exact hediting
      · split
        · exact h
        · exact hediting
  · exact h
  · dsimp only
    repeat' split
    all_goals exact h
  · exact h

/-! ### The first level -/

theorem ok_playbackList (h : t.navView.Ok) (hidle : t.navView.Idle) {ctrl : PlaybackController}
    (hctrl : t.playbackCtrl = some ctrl) (htab : t.mainTab = t.playbackTabIdx) (event : Event) :
    (t.playbackList ctrl event).navView.Ok := by
  have hsome : t.playbackCtrl.isSome = true := by rw [hctrl]; rfl
  unfold playbackList
  split
  · split
    · exact h
    · exact NavView.Idle.ok_low (v := { t.navView with level := 0 }) hidle h.tab (Nat.zero_le _)
  · split
    · exact h
    · exact h
  · split
    · exact h
    · rw [navView_playback hctrl]
      exact h
  · split
    · exact NavView.Idle.ok_second (v := { t.navView with level := 2 }) hidle h.tab rfl
        (Or.inr (Or.inl ⟨hsome, htab⟩))
    · exact h
  · exact h

theorem navView_removeSelected : (t.removeSelected env).navView = t.navView := by
  unfold removeSelected
  split
  · rfl
  · next info _ =>
    have hpost : (t.post env (.removeAction info.idx)).navView = t.navView := navView_post _
    rw [← hpost]
    rfl

theorem ok_actionList (h : t.navView.Ok) (hidle : t.navView.Idle) (htab : t.mainTab = 2)
    (event : Event) : (t.actionList env event).navView.Ok := by
  have hopened : NavView.Ok { t.navView with level := 2 } :=
    NavView.Idle.ok_second (v := { t.navView with level := 2 }) hidle h.tab rfl (Or.inl htab)
  unfold actionList
  split
  · split
    · exact h
    · exact NavView.Idle.ok_low (v := { t.navView with level := 0 }) hidle h.tab (Nat.zero_le _)
  · split
    · exact h
    · exact h
  · split
    · exact hopened
    · exact h
  · split
    · exact hopened
    · exact h
  · split
    · exact h
    · rw [navView_post]
      exact h
  · rw [navView_removeSelected]
    exact h
  · rw [navView_removeSelected]
    exact h
  · exact h

/-- The selected model changes on the first level only. -/
theorem ok_subTabs (h : t.navView.Ok) (hidle : t.navView.Idle) (hlevel : t.navLevel = 1)
    (event : Event) : (t.subTabs event).navView.Ok := by
  have hlow : t.navLevel ≤ 1 := by omega
  have hturned : ∀ turn, (subTabs.turned t turn).navView.Ok := by
    intro turn
    unfold subTabs.turned
    split
    · split
      · exact h
      · exact h
    · exact NavView.Idle.ok_low hidle h.tab hlow
  unfold subTabs
  split
  · split
    · exact h
    · exact NavView.Idle.ok_low (v := { t.navView with level := 0 }) hidle h.tab (Nat.zero_le _)
  · split
    · split
      · exact h
      · exact h
    · split
      · next htab =>
        split
        · exact h
        · next i messages hsel =>
          split
          · exact h
          · next hne =>
            refine NavView.Idle.ok_second (v := { t.navView with msgCursor := 0, level := 2 })
              hidle h.tab rfl (Or.inr (Or.inr ⟨htab, messages.map (·.signals.length), ?_, ?_⟩))
            · show t.selectedSendModel.map _ = _
              rw [hsel]
              rfl
            · rw [List.length_map]
              exact List.length_pos_iff.mpr (fun hnil => hne (by simp [hnil]))
      · exact h
  · exact hturned _
  · exact hturned _
  · exact h

/-! ### The main tabs and the shortcuts -/

theorem turnTab_lt {tab turn count : Nat} (hcount : 0 < count) : turnTab tab turn count < count := by
  rw [turnTab, if_neg (by omega)]
  exact Nat.mod_lt _ hcount

theorem ok_mainTabs (h : t.navView.Ok) (hidle : t.navView.Idle) (hlevel : t.navLevel = 0)
    (event : Event) : (t.mainTabs event).navView.Ok := by
  have hlow : t.navLevel ≤ 1 := by omega
  have hcount : 0 < t.tabCount := by
    unfold tabCount
    omega
  have hturned : ∀ tab, tab < t.tabCount → NavView.Ok { t.navView with tab := tab } := by
    intro tab htab
    exact NavView.Idle.ok_low (v := { t.navView with tab := tab }) hidle htab hlow
  unfold mainTabs
  split
  · exact ok_first h hidle
  · exact hturned _ (turnTab_lt hcount)
  · exact hturned _ (turnTab_lt hcount)
  · exact h

/-- The first level of the tabs before the playback controller's. -/
theorem ok_firstLevel (h : t.navView.Ok) (hidle : t.navView.Idle) (hlevel : t.navLevel = 1)
    (event : Event) :
    (if t.mainTab = 2 then t.actionList env event else t.subTabs event).navView.Ok := by
  split
  · next htab => exact ok_actionList h hidle htab event
  · exact ok_subTabs h hidle hlevel event

/-- The second: only the send tab and the actions tab have one. -/
theorem ok_secondLevel (h : t.navView.Ok) (hidle : t.navView.Idle) (hlevel : t.navLevel = 2)
    (hplayback : ¬ (t.playbackCtrl.isSome = true ∧ t.mainTab = t.playbackTabIdx)) (event : Event) :
    (if t.mainTab = 2 then t.actionSignals env event else t.msgList event).navView.Ok := by
  split
  · next htab => exact ok_actionSignals h hidle hlevel htab event
  · next hactions =>
    have htab : t.mainTab = 1 := by
      rcases h.level2 hlevel with htab | htab | htab
      · exact htab
      · exact absurd htab hactions
      · exact absurd htab hplayback
    exact ok_msgList h hidle hlevel htab event

theorem ok_view (h : t.navView.Ok) (hidle : t.navView.Idle) (event : Event) :
    (t.view env event).navView.Ok := by
  have hle : t.navLevel ≤ 3 := h.level
  unfold view
  split
  · next hlevel => exact ok_sigList h hidle hlevel event
  · next ctrl hlevel hctrl =>
    split
    · exact ok_playbackFilter h hidle hctrl event
    · next hplayback => exact ok_secondLevel h hidle hlevel (fun hon => hplayback hon.2) event
  · next hlevel hctrl => exact ok_secondLevel h hidle hlevel (by simp [hctrl]) event
  · next ctrl hlevel hctrl =>
    split
    · next htab => exact ok_playbackList h hidle hctrl htab event
    · exact ok_firstLevel h hidle hlevel event
  · next hlevel hctrl => exact ok_firstLevel h hidle hlevel event
  · next h3 h2 h2' h1 h1' =>
    have hlevel : t.navLevel = 0 := by
      have hne3 : t.navLevel ≠ 3 := h3
      cases hctrl : t.playbackCtrl with
      | none =>
        have hne2 : t.navLevel ≠ 2 := fun hlevel => h2' hlevel hctrl
        have hne1 : t.navLevel ≠ 1 := fun hlevel => h1' hlevel hctrl
        omega
      | some ctrl =>
        have hne2 : t.navLevel ≠ 2 := fun hlevel => h2 ctrl hlevel hctrl
        have hne1 : t.navLevel ≠ 1 := fun hlevel => h1 ctrl hlevel hctrl
        omega
    exact ok_mainTabs h hidle hlevel event

theorem ok_shortcut (h : t.navView.Ok) (hidle : t.navView.Idle) {event : Event}
    {t' : TuiDataFrameSet} (ht' : t.shortcut event = some t') : t'.navView.Ok := by
  have hjump : ∀ tab, tab < t.tabCount → NavView.Ok { t.navView with tab := tab, level := 1 } := by
    intro tab htab
    exact NavView.Idle.ok_low (v := { t.navView with tab := tab, level := 1 }) hidle htab le_rfl
  unfold shortcut at ht'
  split at ht'
  · cases ht'
    exact h
  · cases ht'
    exact h
  · cases ht'
    exact hjump 0 (by unfold tabCount; omega)
  · cases ht'
    exact hjump 1 (by unfold tabCount; omega)
  · cases ht'
    exact hjump 2 (by unfold tabCount; omega)
  · split at ht'
    · next hmodel =>
      cases ht'
      exact hjump 3 (by unfold tabCount; rw [if_pos hmodel]; omega)
    · cases ht'
  · split at ht'
    · next hplayback =>
      cases ht'
      refine hjump t.playbackTabIdx ?_
      unfold playbackTabIdx tabCount
      rw [if_pos hplayback]
      split <;> omega
    · cases ht'
  · split at ht'
    · next htab =>
      cases ht'
      exact { h with searching := fun _ => htab }
    · cases ht'
  · cases ht'

/-- Every key keeps the invariant. -/
theorem ok_onEvent (h : t.navView.Ok) (event : Event) (now : ℚ) :
    (t.onEvent env event now).navView.Ok := by
  unfold onEvent
  split
  · exact ok_actionsEdit h event
  · split
    · next hon => exact ok_periodicEdit h hon event now
    · split
      · exact ok_sendEdit h event
      · split
        · exact ok_traceSearch h event
        · next hactions hperiodic hsending hsearching =>
          have hidle : t.navView.Idle :=
            ⟨Bool.eq_false_iff.mpr hactions, decide_eq_false hperiodic,
              Bool.eq_false_iff.mpr hsending, Bool.eq_false_iff.mpr hsearching⟩
          cases hs : t.shortcut event with
          | none => exact ok_view h hidle event
          | some t' => exact ok_shortcut h hidle hs

end Keys

/-! ### Runs -/

/-- A key, or a change of what the TUI shows: any actions and models, any playback lists, any
frames. -/
inductive NavLabel where
  | key (event : Event) (now : ℚ)
  | lists (handler : ActionHandler SendModels) (ctrl : PlaybackController)
      (sets : List (String × List (BitVec 32)))

/-- Nothing ever changes the messages of a model or their signals, only the signals' values; and
there is a playback controller in every state or in none. -/
def navStep (env : Env) (t : TuiDataFrameSet) : NavLabel → TuiDataFrameSet
  | .key event now => t.onEvent env event now
  | .lists handler ctrl sets =>
    if handler.world.shape = t.models.shape then
      { t with handler := handler, playbackCtrl := t.playbackCtrl.map fun _ => ctrl, sets := sets }
    else t

variable {env : Env} {t : TuiDataFrameSet}

theorem navView_lists {handler : ActionHandler SendModels} {ctrl : PlaybackController}
    {sets : List (String × List (BitVec 32))} (hshape : handler.world.shape = t.models.shape) :
    ({ t with
      handler := handler
      playbackCtrl := t.playbackCtrl.map fun _ => ctrl
      sets := sets } : TuiDataFrameSet).navView = t.navView := by
  rw [← navView_handler (t := t) hshape]
  unfold navView
  simp only [Option.isSome_map]
  rfl

theorem ok_navStep (h : t.navView.Ok) (l : NavLabel) : (t.navStep env l).navView.Ok := by
  cases l with
  | key event now => exact ok_onEvent h event now
  | lists handler ctrl sets =>
    unfold navStep
    dsimp only
    split
    · next hshape =>
      rw [navView_lists hshape]
      exact h
    · exact h

theorem ok_navRun (h : t.navView.Ok) (ls : List NavLabel) : (run (navStep env) t ls).navView.Ok :=
  run_invariant (P := fun t : TuiDataFrameSet => t.navView.Ok) (fun _ l h => ok_navStep h l) h ls

/-- At the start the trace tab is selected, and no mode is active. -/
theorem ok_start (h : t.mainTab = 0) (hlevel : t.navLevel = 0) (hidle : t.navView.Idle) :
    t.navView.Ok := by
  refine hidle.ok_low ?_ ?_
  · show t.mainTab < t.tabCount
    rw [h, tabCount]
    omega
  · show t.navLevel ≤ 1
    omega

/-- The navigation state is consistent after all keys and changes, whatever the TUI shows. -/
theorem nav_run (env : Env) (interfaces : List String) (handler : ActionHandler SendModels)
    (playbackCtrl : Option PlaybackController) (modelTabEnabled : Bool) (ls : List NavLabel) :
    Nav (run (navStep env)
      { interfaces := interfaces
        handler := handler
        playbackCtrl := playbackCtrl
        modelTabEnabled := modelTabEnabled } ls) := by
  have hstart : NavView.Idle (navView
      { interfaces := interfaces
        handler := handler
        playbackCtrl := playbackCtrl
        modelTabEnabled := modelTabEnabled }) := ⟨rfl, rfl, rfl, rfl⟩
  exact nav_of_ok (ok_navRun (ok_start rfl rfl hstart) ls)

/-! ### The runs of the TUI -/

/-- The models have the shape `s`, and keep it. -/
def Shaped (env : Env) (s : List (String × List Nat)) (t : TuiDataFrameSet) : Prop :=
  t.handler.Reached env.trig fun models => models.shape = s

theorem Shaped.step {s : List (String × List Nat)} (h : t.Shaped env s) (l : Label) :
    (t.step env l).Shaped env s :=
  reached_step (fun models i mi k v hs => (SendModels.shape_setValue models i mi k v).trans hs) h l

theorem Shaped.run {s : List (String × List Nat)} (h : t.Shaped env s) (ls : List Label) :
    (Runs.run (TuiDataFrameSet.step env) t ls).Shaped env s :=
  run_invariant (P := fun t : TuiDataFrameSet => t.Shaped env s) (fun _ l h => h.step l) h ls

/-- At the start everything but the lists has its default. -/
theorem Started.exists_eq {cfgs : List InterfaceConfig} (h : t.Started env cfgs) :
    ∃ handler playbackCtrl modelTabEnabled,
      handler.terminated = false ∧
      handler.Reached env.trig (fun models => models.shape = (env.sendModels cfgs).shape) ∧
      t =
        { interfaces := cfgs.map (·.name)
          handler := handler
          playbackCtrl := playbackCtrl
          modelTabEnabled := modelTabEnabled } := by
  rcases h with ⟨now, modelTabEnabled, h⟩ | ⟨messages, rfl⟩
  · obtain ⟨handler, hload, rfl⟩ := exists_of_runTui h
    refine ⟨handler, none, modelTabEnabled, ?_, env.reached_loadPresets (.init rfl) hload, rfl⟩
    refine env.loadPresets_invariant (I := fun h => h.terminated = false) ?_ rfl hload
    intro h a halive _
    rw [ActionHandler.step, if_neg (by simp [halive])]
    exact halive
  · exact ⟨_, _, false, rfl, .init rfl, rfl⟩

theorem Started.shaped {cfgs : List InterfaceConfig} (h : t.Started env cfgs) :
    t.Shaped env (env.sendModels cfgs).shape := by
  obtain ⟨handler, playbackCtrl, modelTabEnabled, -, hreached, rfl⟩ := h.exists_eq
  exact hreached

theorem Started.ok {cfgs : List InterfaceConfig} (h : t.Started env cfgs) : t.navView.Ok := by
  obtain ⟨handler, playbackCtrl, modelTabEnabled, -, -, rfl⟩ := h.exists_eq
  exact ok_start rfl rfl ⟨rfl, rfl, rfl, rfl⟩

/-- A change of the handler and the frames. -/
theorem exists_lists {handler : ActionHandler SendModels}
    (hshape : handler.world.shape = t.models.shape) (sets : List (String × List (BitVec 32))) :
    ∃ l, t.navStep env l = { t with handler := handler, sets := sets } := by
  refine ⟨.lists handler (t.playbackCtrl.getD ⟨[], UnorderedMap.empty⟩) sets, ?_⟩
  have hctrl : (t.playbackCtrl.map fun _ => t.playbackCtrl.getD ⟨[], UnorderedMap.empty⟩) =
      t.playbackCtrl := by
    cases t.playbackCtrl with
    | none => rfl
    | some ctrl => rfl
  unfold navStep
  dsimp only
  rw [if_pos hshape, hctrl]

/-- Every step of the TUI is a key or a change. -/
theorem Shaped.exists_navStep {s : List (String × List Nat)} (h : t.Shaped env s) (l : Label) :
    ∃ l', t.navStep env l' = t.step env l := by
  have hshape : (t.step env l).handler.world.shape = t.models.shape :=
    (h.step l).worldKept.world.trans h.worldKept.world.symm
  cases l with
  | key event now =>
    unfold TuiDataFrameSet.step
    dsimp only
    split
    · exact exists_lists rfl t.sets
    · exact ⟨.key event now, rfl⟩
  | frame frame => exact exists_lists rfl _
  | expire timer => exact exists_lists hshape t.sets
  | run tick => exact exists_lists hshape t.sets

/-- So the navigation runs include those of the TUI. -/
theorem Shaped.exists_navRun {s : List (String × List Nat)} (h : t.Shaped env s) (ls : List Label) :
    ∃ ls', Runs.run (navStep env) t ls' = Runs.run (TuiDataFrameSet.step env) t ls := by
  induction ls generalizing t with
  | nil => exact ⟨[], rfl⟩
  | cons l ls ih =>
    obtain ⟨l', hl'⟩ := h.exists_navStep l
    obtain ⟨ls', hls'⟩ := ih (h.step l)
    refine ⟨l' :: ls', ?_⟩
    rw [run_cons, run_cons, hl', hls']

theorem Started.ok_run {cfgs : List InterfaceConfig} (h : t.Started env cfgs) (ls : List Label) :
    (run (TuiDataFrameSet.step env) t ls).navView.Ok := by
  obtain ⟨ls', hls'⟩ := h.shaped.exists_navRun ls
  rw [← hls']
  exact ok_navRun h.ok ls'

/-- The keys and changes of the program itself keep the navigation state consistent. -/
theorem Started.nav {cfgs : List InterfaceConfig} (h : t.Started env cfgs) (ls : List Label) :
    Nav (run (TuiDataFrameSet.step env) t ls) := nav_of_ok (h.ok_run ls)

end TuiDataFrameSet

end Caneo
