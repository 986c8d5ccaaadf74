import Caneo.GraphWindow
import Caneo.Runs
import Mathlib.Data.List.DropRight
import Mathlib.Data.List.Induction

/-!
# What the series of the plots hold

The loops of `GraphWindow::update` and `push_value` differ: one looks at every series of a tab, the
other stops at the first that fits. They feed the same series because the keys of a tab are distinct,
which `add_signal` checks and a removal keeps. A series then holds the end of what was delivered
for its key since it was added (`series_hold_last_samples`).
-/

namespace Caneo

/-! ### Windows over a sequence of samples -/

theorem rtake_append_singleton {α : Type} (l : List α) (a : α) {n : Nat} (hn : 0 < n) :
    (l ++ [a]).rtake n =
      if n < (l.rtake n ++ [a]).length then (l.rtake n ++ [a]).tail else l.rtake n ++ [a] := by
  obtain ⟨n, rfl⟩ := Nat.exists_eq_succ_of_ne_zero hn.ne'
  rw [List.rtake_concat_succ]
  simp only [List.rtake, List.length_append, List.length_drop, List.length_singleton]
  by_cases hlength : n < l.length
  · -- a full window loses its oldest sample
    rw [if_pos (by omega), List.tail_append_of_ne_nil (by simp; omega), List.tail_drop]
    congr 2
    omega
  · rw [if_neg (by omega), Nat.sub_eq_zero_of_le (by omega), Nat.sub_eq_zero_of_le (by omega)]

theorem length_rtake {α : Type} (l : List α) (n : Nat) : (l.rtake n).length = min l.length n := by
  rw [List.rtake, List.length_drop]
  omega

namespace SignalSeries

def key (s : SignalSeries) : String × BitVec 32 × String := (s.interface, s.msgId, s.signalName)

/-- The series holds the last of these samples. -/
def Holds (s : SignalSeries) (samples : List (ℚ × ℚ)) : Prop :=
  s.xs = (samples.rtake MAX).map Prod.fst ∧ s.ys = (samples.rtake MAX).map Prod.snd

@[simp] theorem key_push (s : SignalSeries) (t v : ℚ) : (s.push t v).key = s.key := by
  rw [push]
  split <;> rfl

/-- Both vectors are cut when the first one is too long. -/
theorem Holds.push {s : SignalSeries} {samples : List (ℚ × ℚ)} (h : s.Holds samples) (t v : ℚ) :
    (s.push t v).Holds (samples ++ [(t, v)]) := by
  obtain ⟨hxs, hys⟩ := h
  have hlength : s.xs.length = (samples.rtake MAX).length := by rw [hxs, List.length_map]
  rw [Holds, rtake_append_singleton samples (t, v) (by decide), SignalSeries.push]
  simp only [List.length_append, hlength, List.length_singleton]
  split
  · simp [hxs, hys, List.map_tail]
  · simp [hxs, hys]

end SignalSeries

/-! ### Steps -/

inductive GraphOp where
  | addGraph (name : String)
  | addSignal (graphIdx : Nat) (interface : String) (msgId : BitVec 32) (signalName : String)
      (yMin yMax : ℚ) (yAxis : Int) (label : String)
  | update (frame : CanFrame)
  | pushValue (interface signalName : String) (value : ℚ) (now : Int)
  | openSeriesCtx (tabIdx seriesIdx : Nat)
  | seriesMenu (clicked : Int → Bool) (doRemove : Bool)

namespace GraphMenu

def step (m : GraphMenu) : GraphOp → GraphMenu
  | .addGraph name => { m with window := m.window.addGraph name }
  | .addSignal graphIdx interface msgId signalName yMin yMax yAxis label =>
    { m with window :=
        m.window.addSignal graphIdx interface msgId signalName yMin yMax yAxis label }
  | .update frame => { m with window := m.window.update frame }
  | .pushValue interface signalName value now =>
    { m with window := m.window.pushValue interface signalName value now }
  | .openSeriesCtx tabIdx seriesIdx => m.openSeriesCtx tabIdx seriesIdx
  | .seriesMenu clicked doRemove => m.seriesMenu clicked doRemove

/-- The series of a tab. -/
def series (m : GraphMenu) (ti : Nat) : List SignalSeries :=
  (m.window.graphs[ti]?.map (·.series)).getD []

def HasSeries (m : GraphMenu) (ti : Nat) (key : String × BitVec 32 × String) : Prop :=
  ∃ s ∈ m.series ti, s.key = key

end GraphMenu

/-- The samples that a step has for the series of a key: a frame its first decoded signal of this
name, a pushed value itself. -/
def GraphOp.delivered (start : Int) (key : String × BitVec 32 × String) :
    GraphOp → List (ℚ × ℚ)
  | .update frame =>
    if frame.header.interface = key.1 ∧ frame.header.id = key.2.1 then
      ((frame.decoded.find? fun sig => sig.name = key.2.2).map fun sig =>
        (GraphWindow.seconds (frame.timestamp - start), sig.value)).toList
    else []
  | .pushValue interface signalName value now =>
    if interface = key.1 ∧ key.2.1 = 0 ∧ signalName = key.2.2 then
      [(GraphWindow.seconds (now - start), value)]
    else []
  | _ => []

/-! ### One list of series -/

open SignalSeries

/-- The new series are some of the old, each with the samples for its key. -/
def Feeds (samples : String × BitVec 32 × String → List (ℚ × ℚ)) (old new : List SignalSeries) :
    Prop :=
  ∀ s' ∈ new, ∃ s ∈ old, s.key = s'.key ∧ ∀ held, s.Holds held → s'.Holds (held ++ samples s.key)

theorem Feeds.of_subset {old new : List SignalSeries} (h : new ⊆ old) : Feeds (fun _ => []) old new :=
  fun s hs => ⟨s, h hs, rfl, fun held hheld => by simpa using hheld⟩

theorem key_update (t : ℚ) (frame : CanFrame) (s : SignalSeries) :
    (s.update t frame).key = s.key := by
  rw [SignalSeries.update]
  split
  · split
    · exact key_push s t _
    · rfl
  · rfl

theorem SignalSeries.listensTo_iff (s : SignalSeries) {frame : CanFrame} :
    s.listensTo frame = true ↔
      frame.header.interface = s.key.1 ∧ frame.header.id = s.key.2.1 := by
  rw [listensTo, Bool.and_eq_true, decide_eq_true_eq, decide_eq_true_eq]
  exact and_congr eq_comm eq_comm

theorem delivered_update (start : Int) (frame : CanFrame) (s : SignalSeries) :
    GraphOp.delivered start s.key (.update frame) =
      if s.listensTo frame then
        ((frame.decoded.find? fun sig => sig.name = s.signalName).map fun sig =>
          (GraphWindow.seconds (frame.timestamp - start), sig.value)).toList
      else [] := by
  by_cases hlistens : s.listensTo frame = true
  · rw [if_pos hlistens]
    exact if_pos (s.listensTo_iff.mp hlistens)
  · rw [if_neg hlistens]
    exact if_neg (mt s.listensTo_iff.mpr hlistens)

theorem feeds_update (start : Int) (frame : CanFrame) (series : List SignalSeries) :
    Feeds (GraphOp.delivered start · (.update frame)) series
      (series.map (SignalSeries.update (GraphWindow.seconds (frame.timestamp - start)) frame)) := by
  intro s' hs'
  obtain ⟨s, hs, rfl⟩ := List.mem_map.mp hs'
  refine ⟨s, hs, (key_update _ _ _).symm, fun held hheld => ?_⟩
  dsimp only
  rw [delivered_update, SignalSeries.update]
  split
  · split
    · next sig hfind =>
      rw [hfind]
      exact hheld.push _ _
    · next hfind =>
      rw [hfind]
      simpa using hheld
  · simpa using hheld

theorem keys_pushFirst (p : SignalSeries → Bool) (t v : ℚ) (series : List SignalSeries) :
    (GraphWindow.pushFirst p t v series).map key = series.map key := by
  induction series with
  | nil => rfl
  | cons s series ih =>
    rw [GraphWindow.pushFirst]
    split <;> simp [ih]

/-- Behind the first series that fits there is no other with its key. -/
theorem feeds_pushFirst {p : SignalSeries → Bool} {k : String × BitVec 32 × String}
    (hp : ∀ s, p s = true ↔ s.key = k) (t v : ℚ) {series : List SignalSeries}
    (hdistinct : (series.map key).Nodup) :
    Feeds (fun key => if key = k then [(t, v)] else []) series
      (GraphWindow.pushFirst p t v series) := by
  induction series with
  | nil => exact fun s hs => absurd hs List.not_mem_nil
  | cons s series ih =>
    rw [List.map_cons, List.nodup_cons] at hdistinct
    rw [GraphWindow.pushFirst]
    split
    · next hfits =>
      have hkey : s.key = k := (hp s).mp hfits
      intro s' hs'
      rcases List.mem_cons.mp hs' with rfl | hs'
      · refine ⟨s, List.mem_cons_self, (key_push s t v).symm, fun held hheld => ?_⟩
        simp only [if_pos hkey]
        exact hheld.push t v
      · refine ⟨s', List.mem_cons_of_mem _ hs', rfl, fun held hheld => ?_⟩
        have hother : s'.key ≠ k := fun hsame =>
          hdistinct.1 (List.mem_map.mpr ⟨s', hs', hsame.trans hkey.symm⟩)
        simp only [if_neg hother, List.append_nil]
        exact hheld
    · next hfits =>
      have hkey : s.key ≠ k := fun hsame => hfits ((hp s).mpr hsame)
      intro s' hs'
      rcases List.mem_cons.mp hs' with rfl | hs'
      · refine ⟨s', List.mem_cons_self, rfl, fun held hheld => ?_⟩
        simp only [if_neg hkey, List.append_nil]
        exact hheld
      · obtain ⟨s'', hs'', hsame, hheld⟩ := ih hdistinct.2 s' hs'
        exact ⟨s'', List.mem_cons_of_mem _ hs'', hsame, hheld⟩

theorem keys_modify_axis (series : List SignalSeries) (si : Nat) (axis : Int) :
    (series.modify si fun s => { s with yAxis := axis }).map key = series.map key := by
  induction series generalizing si with
  | nil => simp
  | cons s series ih =>
    rcases si with _ | si
    · rfl
    · simp [List.modify_succ_cons, ih]

theorem feeds_modify_axis (series : List SignalSeries) (si : Nat) (axis : Int) :
    Feeds (fun _ => []) series (series.modify si fun s => { s with yAxis := axis }) := by
  intro s' hs'
  obtain ⟨i, hi⟩ := List.getElem?_of_mem hs'
  rw [List.getElem?_modify] at hi
  obtain ⟨s, hs, rfl⟩ := Option.map_eq_some_iff.mp hi
  refine ⟨s, List.mem_of_getElem? hs, ?_, fun held hheld => ?_⟩
  · split <;> rfl
  · rw [List.append_nil]
    split
    · exact hheld
    · exact hheld

/-! ### One step -/

namespace GraphMenu

/-- The keys of every tab are distinct. -/
def Distinct (m : GraphMenu) : Prop := ∀ ti, ((m.series ti).map key).Nodup

theorem series_eq {m : GraphMenu} {ti : Nat} {tab : GraphTab}
    (htab : m.window.graphs[ti]? = some tab) : m.series ti = tab.series := by
  simp [series, htab]

theorem series_eq_nil {m : GraphMenu} {ti : Nat} (htab : m.window.graphs[ti]? = none) :
    m.series ti = [] := by
  simp [series, htab]

/-- The series of a tab after one tab was changed. -/
theorem series_modify (m : GraphMenu) (i : Nat) (f : GraphTab → GraphTab)
    (ctx : Option PendingSeriesCtx) (ti : Nat) :
    (⟨{ m.window with graphs := m.window.graphs.modify i f }, ctx⟩ : GraphMenu).series ti =
      if i = ti then (m.window.graphs[ti]?.map fun tab => (f tab).series).getD []
      else m.series ti := by
  simp only [series, List.getElem?_modify]
  split
  · rcases m.window.graphs[ti]? with _ | tab <;> rfl
  · rcases m.window.graphs[ti]? with _ | tab <;> rfl

theorem series_update (m : GraphMenu) (frame : CanFrame) (ti : Nat) :
    (m.step (.update frame)).series ti = (m.series ti).map
      (SignalSeries.update (GraphWindow.seconds (frame.timestamp - m.window.start)) frame) := by
  simp only [step, series, GraphWindow.update, List.getElem?_map, Option.map_map]
  rcases m.window.graphs[ti]? with _ | tab <;> rfl

theorem series_pushValue (m : GraphMenu) (interface signalName : String) (value : ℚ) (now : Int)
    (ti : Nat) :
    (m.step (.pushValue interface signalName value now)).series ti =
      GraphWindow.pushFirst
        (fun s => s.interface = interface && s.msgId = 0 && s.signalName = signalName)
        (GraphWindow.seconds (now - m.window.start)) value (m.series ti) := by
  simp only [step, series, GraphWindow.pushValue, List.getElem?_map, Option.map_map]
  rcases m.window.graphs[ti]? with _ | tab <;> rfl

theorem series_addGraph (m : GraphMenu) (name : String) (ti : Nat) :
    (m.step (.addGraph name)).series ti = m.series ti := by
  simp only [step, series, GraphWindow.addGraph, List.getElem?_append]
  split
  · rfl
  · next hti =>
    rw [List.getElem?_eq_none (not_lt.mp hti)]
    rcases ti - m.window.graphs.length with _ | n <;> rfl

theorem series_openSeriesCtx (m : GraphMenu) (tabIdx seriesIdx ti : Nat) :
    (m.step (.openSeriesCtx tabIdx seriesIdx)).series ti = m.series ti := by
  rw [step, openSeriesCtx]
  split
  · rfl
  · split <;> rfl

/-- A new series comes last, without samples, and only where its key is new. -/
theorem series_addSignal (m : GraphMenu) (graphIdx : Nat) (interface : String)
    (msgId : BitVec 32) (signalName : String) (yMin yMax : ℚ) (yAxis : Int) (label : String)
    (ti : Nat) :
    let m' := m.step (.addSignal graphIdx interface msgId signalName yMin yMax yAxis label)
    m'.series ti = m.series ti ∨
      graphIdx = ti ∧ ¬m.HasSeries ti (interface, msgId, signalName) ∧
        ∃ s, s.key = (interface, msgId, signalName) ∧ s.Holds [] ∧
          m'.series ti = m.series ti ++ [s] := by
  intro m'
  have hseries := m.series_modify graphIdx (fun tab =>
    if tab.series.any fun s =>
        s.interface = interface && s.msgId = msgId && s.signalName = signalName then tab
    else { tab with series := tab.series ++
      [{ interface := interface, msgId := msgId, signalName := signalName,
         label := if label.isEmpty then signalName else label,
         yMin := yMin, yMax := yMax, yAxis := yAxis }] }) m.pendingSeriesCtx ti
  change m'.series ti = _ at hseries
  by_cases hidx : graphIdx = ti
  · rw [if_pos hidx] at hseries
    rcases htab : m.window.graphs[ti]? with _ | tab
    · rw [htab] at hseries
      exact Or.inl (hseries.trans (series_eq_nil htab).symm)
    · rw [htab, Option.map_some, Option.getD_some] at hseries
      have hold := series_eq htab
      by_cases hany : (tab.series.any fun s =>
          s.interface = interface && s.msgId = msgId && s.signalName = signalName) = true
      · rw [if_pos hany] at hseries
        exact Or.inl (hseries.trans hold.symm)
      · rw [if_neg hany] at hseries
        rw [hold]
        refine Or.inr ⟨hidx, fun ⟨s, hs, hkey⟩ => hany ?_, _, ?_, ?_, hseries⟩
        · rw [hold] at hs
          simp only [SignalSeries.key, Prod.mk.injEq] at hkey
          exact List.any_eq_true.mpr ⟨s, hs, by simp [hkey]⟩
        · rfl
        · exact ⟨rfl, rfl⟩
  · rw [if_neg hidx] at hseries
    exact Or.inl hseries

/-- The menu changes at most the series it was opened for, or takes it away. -/
theorem series_seriesMenu (m : GraphMenu) (clicked : Int → Bool) (doRemove : Bool) (ti : Nat) :
    let m' := m.step (.seriesMenu clicked doRemove)
    ((m'.series ti).map key).Sublist ((m.series ti).map key) ∧
      Feeds (fun _ => []) (m.series ti) (m'.series ti) := by
  intro m'
  have hsame : m'.series ti = m.series ti →
      ((m'.series ti).map key).Sublist ((m.series ti).map key) ∧
        Feeds (fun _ => []) (m.series ti) (m'.series ti) := fun h => by
    rw [h]
    exact ⟨List.Sublist.refl _, Feeds.of_subset (List.Subset.refl _)⟩
  rcases hctx : m.pendingSeriesCtx with _ | ctx
  · exact hsame (by simp [m', step, seriesMenu, hctx])
  · by_cases hchosen : ((newAxis ctx.currentAxis clicked).isSome || doRemove) = true
    · have hseries := m.series_modify ctx.tabIdx (fun tab =>
        if doRemove then { tab with series := tab.series.eraseIdx ctx.seriesIdx }
        else { tab with series := tab.series.modify ctx.seriesIdx fun s =>
          { s with yAxis := (newAxis ctx.currentAxis clicked).getD ctx.currentAxis } }) none ti
      have hm := hseries
      rw [show (⟨_, none⟩ : GraphMenu) = m' by
        simp only [m', step, seriesMenu, hctx, if_pos hchosen]] at hm
      by_cases hidx : ctx.tabIdx = ti
      · rw [if_pos hidx] at hm
        rcases htab : m.window.graphs[ti]? with _ | tab
        · rw [htab] at hm
          exact hsame (hm.trans (series_eq_nil htab).symm)
        · rw [htab, Option.map_some, Option.getD_some] at hm
          rw [hm, series_eq htab]
          split
          · have hsublist := List.eraseIdx_sublist tab.series ctx.seriesIdx
            exact ⟨hsublist.map key, Feeds.of_subset hsublist.subset⟩
          · refine ⟨?_, feeds_modify_axis _ _ _⟩
            rw [keys_modify_axis]
      · rw [if_neg hidx] at hm
        exact hsame hm
    · exact hsame (by simp [m', step, seriesMenu, hctx, hchosen])

/-- A step feeds the series of a tab, and may add one whose key is new. -/
theorem series_step {m : GraphMenu} (h : m.Distinct) (op : GraphOp) (ti : Nat) :
    (((m.step op).series ti).map key).Nodup ∧
      (Feeds (GraphOp.delivered m.window.start · op) (m.series ti) ((m.step op).series ti) ∨
        ∃ s yMin yMax yAxis label,
          op = .addSignal ti s.interface s.msgId s.signalName yMin yMax yAxis label ∧
            ¬m.HasSeries ti s.key ∧ s.Holds [] ∧ (m.step op).series ti = m.series ti ++ [s]) := by
  rcases op with name | ⟨graphIdx, interface, msgId, signalName, yMin, yMax, yAxis, label⟩ |
    frame | ⟨interface, signalName, value, now⟩ | ⟨tabIdx, seriesIdx⟩ | ⟨clicked, doRemove⟩
  · rw [series_addGraph]
    exact ⟨h ti, Or.inl (Feeds.of_subset (List.Subset.refl _))⟩
  · rcases m.series_addSignal graphIdx interface msgId signalName yMin yMax yAxis label ti with
      hsame | ⟨rfl, hnew, s, hkey, hholds, hseries⟩
    · rw [hsame]
      exact ⟨h ti, Or.inl (Feeds.of_subset (List.Subset.refl _))⟩
    · have hfields : s.interface = interface ∧ s.msgId = msgId ∧ s.signalName = signalName := by
        simpa [SignalSeries.key] using hkey
      refine ⟨?_, Or.inr ⟨s, yMin, yMax, yAxis, label, ?_, hkey ▸ hnew, hholds, hseries⟩⟩
      · rw [hseries, List.map_append, List.map_singleton, List.nodup_append]
        refine ⟨h graphIdx, by simp, fun k hk k' hk' hsame => hnew ?_⟩
        obtain ⟨s', hs', hkey'⟩ := List.mem_map.mp hk
        rw [List.mem_singleton] at hk'
        exact ⟨s', hs', by rw [hkey', hsame, hk', hkey]⟩
      · rw [hfields.1, hfields.2.1, hfields.2.2]
  · rw [series_update]
    refine ⟨?_, Or.inl (feeds_update m.window.start frame (m.series ti))⟩
    simpa [Function.comp_def, key_update] using h ti
  · rw [series_pushValue]
    refine ⟨by rw [keys_pushFirst]; exact h ti, Or.inl ?_⟩
    have hfeeds := feeds_pushFirst
      (p := fun s => s.interface = interface && s.msgId = 0 && s.signalName = signalName)
      (k := (interface, 0, signalName)) (fun s => by simp [SignalSeries.key, and_assoc])
      (GraphWindow.seconds (now - m.window.start)) value (h ti)
    intro s' hs'
    obtain ⟨s, hs, hkey, hheld⟩ := hfeeds s' hs'
    refine ⟨s, hs, hkey, fun held hholds => ?_⟩
    have hsamples : GraphOp.delivered m.window.start s.key
        (.pushValue interface signalName value now) =
          if s.key = (interface, 0, signalName) then
            [(GraphWindow.seconds (now - m.window.start), value)]
          else [] := by
      simp only [GraphOp.delivered, SignalSeries.key, Prod.mk.injEq, @eq_comm _ interface,
        @eq_comm _ signalName]
    dsimp only
    rw [hsamples]
    exact hheld held hholds
  · rw [series_openSeriesCtx]
    exact ⟨h ti, Or.inl (Feeds.of_subset (List.Subset.refl _))⟩
  · obtain ⟨hsublist, hfeeds⟩ := m.series_seriesMenu clicked doRemove ti
    exact ⟨(h ti).sublist hsublist, Or.inl hfeeds⟩

theorem start_step (m : GraphMenu) (op : GraphOp) :
    (m.step op).window.start = m.window.start := by
  rcases op with _ | _ | _ | _ | ⟨tabIdx, seriesIdx⟩ | ⟨clicked, doRemove⟩
  · rfl
  · rfl
  · rfl
  · rfl
  · rw [step, openSeriesCtx]
    split
    · rfl
    · split <;> rfl
  · rw [step, seriesMenu]
    split
    · rfl
    · dsimp only
      split <;> rfl

/-! ### Runs -/

/-- The run added the series to the tab, kept it, and it holds the last samples since then. -/
def HeldSince (m : GraphMenu) (ops : List GraphOp) (ti : Nat) (s : SignalSeries) : Prop :=
  ∃ before yMin yMax yAxis label after,
    let add := .addSignal ti s.interface s.msgId s.signalName yMin yMax yAxis label
    ops = before ++ add :: after ∧
      ¬(Runs.run step m before).HasSeries ti s.key ∧
      (∀ k, (Runs.run step m (before ++ add :: after.take k)).HasSeries ti s.key) ∧
      s.Holds (after.flatMap (GraphOp.delivered m.window.start s.key))

theorem start_run (m : GraphMenu) (ops : List GraphOp) :
    (Runs.run step m ops).window.start = m.window.start := by
  induction ops generalizing m with
  | nil => rfl
  | cons op ops ih => rw [Runs.run_cons, ih, start_step]

/-- The induction is over the run from its end: a series is fed by the last step, or added by it. -/
theorem heldSince_run {m : GraphMenu} (hnone : ∀ ti, m.series ti = []) (ops : List GraphOp) :
    (Runs.run step m ops).Distinct ∧
      ∀ ti, ∀ s ∈ (Runs.run step m ops).series ti, m.HeldSince ops ti s := by
  induction ops using List.reverseRecOn with
  | nil =>
    refine ⟨fun ti => ?_, fun ti s hs => ?_⟩
    · simp [hnone]
    · simp [hnone] at hs
  | append_singleton ops op ih =>
    obtain ⟨hdistinct, hheld⟩ := ih
    have hrun : Runs.run step m (ops ++ [op]) = (Runs.run step m ops).step op := by
      rw [Runs.run_append]
      rfl
    rw [hrun]
    refine ⟨fun ti => (series_step hdistinct op ti).1, fun ti s' hs' => ?_⟩
    have hkept : ∀ s ∈ (Runs.run step m ops).series ti, s.key = s'.key →
        (∀ held, s.Holds held → s'.Holds (held ++ op.delivered m.window.start s.key)) →
        m.HeldSince (ops ++ [op]) ti s' := by
      intro s hs hkey hfed
      obtain ⟨before, yMin, yMax, yAxis, label, after, hops, hnew, hthere, hholds⟩ :=
        hheld ti s hs
      have hfields : s.interface = s'.interface ∧ s.msgId = s'.msgId ∧
          s.signalName = s'.signalName := by
        simpa [SignalSeries.key] using hkey
      rw [hfields.1, hfields.2.1, hfields.2.2] at hops hthere
      rw [hkey] at hnew hholds hthere hfed
      refine ⟨before, yMin, yMax, yAxis, label, after ++ [op], by simp [hops], hnew,
        fun k => ?_, ?_⟩
      · by_cases hk : k ≤ after.length
        · rw [List.take_append_of_le_length hk]
          exact hthere k
        · rw [List.take_of_length_le (by simp; omega), ← List.cons_append, ← List.append_assoc,
            ← hops, hrun]
          exact ⟨s', hs', rfl⟩
      · rw [List.flatMap_append, List.flatMap_singleton]
        exact hfed _ hholds
    rcases (series_step hdistinct op ti).2 with
      hfeeds | ⟨s, yMin, yMax, yAxis, label, hop, hnew, hholds, hseries⟩
    · obtain ⟨s, hs, hkey, hfed⟩ := hfeeds s' hs'
      rw [start_run] at hfed
      exact hkept s hs hkey hfed
    · rw [hseries, List.mem_append, List.mem_singleton] at hs'
      rcases hs' with hs' | rfl
      · refine hkept s' hs' rfl fun held hheld => ?_
        simpa [hop, GraphOp.delivered] using hheld
      · refine ⟨ops, yMin, yMax, yAxis, label, [], by rw [hop], hnew, fun k => ?_, hholds⟩
        rw [List.take_nil, ← hop, hrun, HasSeries, hseries]
        exact ⟨s', by simp, rfl⟩

/-- Within a tab no key is there twice, and each series holds the last samples that were delivered
for its key since it was added. -/
theorem series_hold_last_samples (start : Int) (ops : List GraphOp) (ti : Nat) :
    let m : GraphMenu := { window := { start := start } }
    let series := (Runs.run step m ops).series ti
    (series.map key).Nodup ∧
      ∀ s ∈ series, ∃ before yMin yMax yAxis label after,
        let add := .addSignal ti s.interface s.msgId s.signalName yMin yMax yAxis label
        let samples := after.flatMap (GraphOp.delivered start s.key)
        ops = before ++ add :: after ∧
          ¬(Runs.run step m before).HasSeries ti s.key ∧
          (∀ k, (Runs.run step m (before ++ add :: after.take k)).HasSeries ti s.key) ∧
          s.xs = (samples.rtake 10000).map Prod.fst ∧
          s.ys = (samples.rtake 10000).map Prod.snd ∧
          s.xs.length = min samples.length 10000 ∧ s.ys.length = s.xs.length := by
  intro m series
  obtain ⟨hdistinct, hheld⟩ := heldSince_run (m := m) (fun ti => by simp [m, GraphMenu.series]) ops
  refine ⟨hdistinct ti, fun s hs => ?_⟩
  obtain ⟨before, yMin, yMax, yAxis, label, after, hops, hnew, hthere, hxs, hys⟩ := hheld ti s hs
  refine ⟨before, yMin, yMax, yAxis, label, after, hops, hnew, hthere, hxs, hys, ?_, ?_⟩
  · rw [hxs, List.length_map, length_rtake]
    rfl
  · rw [hxs, hys, List.length_map, List.length_map]

end GraphMenu

end Caneo
