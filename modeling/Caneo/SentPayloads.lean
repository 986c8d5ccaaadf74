import Caneo.EncodeFns

/-!
# The bytes that actions send

A single or periodic action sends the payload it was created with, or was last given; a sin action
sends what its encode function returned. So a property of byte strings holds of everything that is
ever sent if the requests bring payloads with the property and the sin actions encode such
(`PayloadsKept.preserved`).
-/

namespace Caneo

open BitField EventLoop Runs

variable {W : Type}

/-- A single or periodic action has a payload with `Q`. -/
def Action.PlainHas (Q : Bytes → Prop) (a : Action W) : Prop := a.sinParams = none → Q a.payload

/-- The payload that a request brings has `Q`. The initial payload of a sin action is never sent. -/
def Request.PayloadHas (Q : Bytes → Prop) : Request W → Prop
  | .addAction a | .addActionPaused a => a.PlainHas Q
  | .updatePayload _ payload => Q payload
  | .removeAction _ | .togglePause _ | .updateSinParam .. => True

theorem Request.PayloadHas.mono {Q Q' : Bytes → Prop} (h : ∀ bytes, Q bytes → Q' bytes)
    {r : Request W} (hr : r.PayloadHas Q) : r.PayloadHas Q' := by
  cases r with
  | addAction a => exact fun ha => h _ (hr ha)
  | addActionPaused a => exact fun ha => h _ (hr ha)
  | updatePayload idx payload => exact h _ hr
  | _ => trivial

theorem Request.PayloadHas.allocate {Q : Bytes → Prop} {r : Request W} (hr : r.PayloadHas Q)
    (ptr : Nat) : (r.allocate ptr).1.PayloadHas Q := by
  cases r <;> exact hr

namespace ActionHandler

/-- What an action sends as it is, what is on its way to an action, and what was sent, has `Q`. -/
structure PayloadsKept (Q : Bytes → Prop) (h : ActionHandler W) : Prop where
  actions : ∀ a ∈ h.actions, a.PlainHas Q
  arriving : ∀ r ∈ h.loop.closures, r.PayloadHas Q
  calls : ∀ c ∈ h.calls, Q c.data

variable {Q : Bytes → Prop} {h : ActionHandler W}

theorem PayloadsKept.mono (hk : PayloadsKept Q h) {Q' : Bytes → Prop}
    (himp : ∀ bytes, Q bytes → Q' bytes) : PayloadsKept Q' h where
  actions a ha hsin := himp _ (hk.actions a ha hsin)
  arriving r hr := (hk.arriving r hr).mono himp
  calls c hc := himp _ (hk.calls c hc)

theorem PayloadsKept.modify (hk : PayloadsKept Q h) (ptr : Nat) {f : Action W → Action W}
    (hf : ∀ a : Action W, a.PlainHas Q → (f a).PlainHas Q) : PayloadsKept Q (h.modify ptr f) := by
  refine ⟨?_, hk.arriving, hk.calls⟩
  intro b hb
  obtain ⟨a, ha, rfl⟩ := List.mem_map.mp hb
  by_cases hptr : a.ptr = ptr
  · rw [if_pos hptr]
    exact hf a (hk.actions a ha)
  · rw [if_neg hptr]
    exact hk.actions a ha

theorem PayloadsKept.pushBack (hk : PayloadsKept Q h) {a : Action W}
    (ha : a.PlainHas Q) : PayloadsKept Q (h.pushBack a) := by
  refine ⟨?_, hk.arriving, hk.calls⟩
  intro b hb
  rcases List.mem_append.mp hb with hold | hnew
  · exact hk.actions b hold
  · rw [List.mem_singleton.mp hnew]
    exact ha

/-- Timers do not matter. -/
theorem PayloadsKept.of_loop (hk : PayloadsKept Q h) {h' : ActionHandler W}
    (hactions : ∀ a ∈ h'.actions, a ∈ h.actions)
    (hclosures : ∀ r ∈ h'.loop.closures, r ∈ h.loop.closures) (hcalls : h'.calls = h.calls) :
    PayloadsKept Q h' where
  actions a ha := hk.actions a (hactions a ha)
  arriving r hr := hk.arriving r (hclosures r hr)
  calls c hc := hk.calls c (hcalls ▸ hc)

theorem PayloadsKept.schedule (hk : PayloadsKept Q h) (ptr : Nat) : PayloadsKept Q (h.schedule ptr) :=
  hk.of_loop (fun _ ha => ha) (fun r hr => by simpa using hr) rfl

theorem PayloadsKept.cancel (hk : PayloadsKept Q h) (ptr : Nat) : PayloadsKept Q (h.cancel ptr) :=
  hk.of_loop (fun _ ha => ha) (fun r hr => by simpa using hr) rfl

theorem PayloadsKept.rebuildSnapshot (hk : PayloadsKept Q h) : PayloadsKept Q h.rebuildSnapshot :=
  ⟨hk.actions, hk.arriving, hk.calls⟩

theorem PayloadsKept.pause (hk : PayloadsKept Q h) (now : ℚ) (ptr : Nat) :
    PayloadsKept Q (h.pause now ptr) := by
  refine (hk.modify ptr ?_).cancel ptr
  intro a ha
  unfold Action.pause
  split
  · intro hsin
    cases hsin
  · exact ha
  · exact ha

theorem PayloadsKept.resume (hk : PayloadsKept Q h) (now : ℚ) (ptr : Nat) :
    PayloadsKept Q (h.resume now ptr) := by
  refine (hk.modify ptr ?_).schedule ptr
  intro a ha
  unfold Action.resume
  split
  · intro hsin
    cases hsin
  · exact ha
  · exact ha

/-! ### Handlers -/

theorem PayloadsKept.runRequest (hk : PayloadsKept Q h) (tick : Tick) {r : Request W}
    (hr : r.PayloadHas Q) : PayloadsKept Q (h.runRequest tick r) := by
  have heffect := requestEffect_runRequest tick h r
  generalize h.runRequest tick r = h' at heffect ⊢
  cases heffect with
  | added a => exact ((hk.pushBack hr).schedule a.ptr).rebuildSnapshot
  | addedPaused a => exact (((hk.pushBack hr).schedule a.ptr).pause _ a.ptr).rebuildSnapshot
  | missed r idx hidx hget => exact hk
  | removed idx a hget =>
    refine hk.of_loop ?_ ?_ rfl
    · intro b hb
      exact List.mem_of_mem_eraseIdx hb
    · intro r hr
      simpa using hr
  | resumed idx a hget hpaused => exact (hk.resume _ _).rebuildSnapshot
  | paused idx a hget hrunning => exact (hk.pause _ _).rebuildSnapshot
  | constant idx param value a hget hsin => exact hk
  | sinParam idx param value a hget hsin =>
    refine (hk.modify _ ?_).rebuildSnapshot
    intro a ha
    unfold Action.setSinParam
    split
    · intro hsin
      cases hsin
    · exact ha
    · exact ha
  | payload idx payload a hget => exact hk.modify _ fun _ _ _ => hr

theorem PayloadsKept.fire (hk : PayloadsKept Q h) (tick : Tick) {a : Action W} (ha : Q a.payload) :
    PayloadsKept Q (h.fire tick a) := by
  have hcalled : PayloadsKept Q { h with calls := h.calls ++ [SendCall.ofAction a tick.throws] } := by
    refine ⟨hk.actions, hk.arriving, ?_⟩
    intro c hc
    rcases List.mem_append.mp hc with hold | hnew
    · exact hk.calls c hold
    · rw [List.mem_singleton.mp hnew]
      exact ha
  unfold ActionHandler.fire
  dsimp only
  split
  · exact ⟨hcalled.actions, hcalled.arriving, hcalled.calls⟩
  · refine PayloadsKept.rebuildSnapshot (hcalled.modify a.ptr ?_)
    intro b hb
    exact hb

theorem PayloadsKept.onActionDone (hk : PayloadsKept Q h) (ptr : Nat) :
    PayloadsKept Q (h.onActionDone ptr) := by
  refine PayloadsKept.rebuildSnapshot (hk.of_loop ?_ ?_ rfl)
  · intro a ha
    exact List.mem_of_mem_filter ha
  · intro r hr
    simpa using hr

theorem PayloadsKept.readyToSend (hk : PayloadsKept Q h) {trig : Trig} {tick : Tick}
    {g : ActionHandler W} {a b : Action W} (hready : ReadyToSend trig tick h a g b)
    (ha : a ∈ h.actions)
    (hsin : ∀ p, a.sinParams = some p → Q (p.encodeFn (p.value trig tick.now) h.world).1) :
    PayloadsKept Q g ∧ Q b.payload := by
  cases hready with
  | constant hnone => exact ⟨hk, hk.actions a ha hnone⟩
  | encoded p hp =>
    have hworld : PayloadsKept Q
        { h with world := (p.encodeFn (p.value trig tick.now) h.world).2 } :=
      ⟨hk.actions, hk.arriving, hk.calls⟩
    exact ⟨hworld.modify a.ptr fun _ _ _ => hsin p hp, hsin p hp⟩

theorem PayloadsKept.runTimer (hk : PayloadsKept Q h) (trig : Trig) (tick : Tick) {a : Action W}
    (ha : a ∈ h.actions)
    (hsin : ∀ p, a.sinParams = some p → Q (p.encodeFn (p.value trig tick.now) h.world).1) :
    PayloadsKept Q (h.runTimer trig tick a) := by
  have heffect := timerEffect_runTimer trig tick h a
  generalize h.runTimer trig tick a = h' at heffect ⊢
  cases heffect with
  | failed g b hready hthrows =>
    obtain ⟨hg, hb⟩ := hk.readyToSend hready ha hsin
    exact hg.fire tick hb
  | done hnone hkind hsent => exact (hk.fire tick (hk.actions a ha hnone)).onActionDone a.ptr
  | rearmed g b hready hkind hsent =>
    obtain ⟨hg, hb⟩ := hk.readyToSend hready ha hsin
    exact (hg.fire tick hb).schedule a.ptr

/-- Every step keeps the invariant, if requests bring such payloads and sin actions encode such. -/
theorem PayloadsKept.preserved (hk : PayloadsKept Q h) (trig : Trig) {l : Label W}
    (hl : ∀ r, l = .request r → r.PayloadHas Q)
    (hsin : ∀ p now, h.sinFired l = some (p, now) →
      Q (p.encodeFn (p.value trig now) h.world).1) :
    PayloadsKept Q (step trig h l) := by
  rcases step_cases trig h l with ⟨he, -⟩ | ⟨r, hr, -, he⟩ | ⟨timer, -, -, he⟩ |
    ⟨tick, x, rest, rfl, halive, hready, -, he⟩
  · rwa [he]
  · rw [he]
    refine ⟨hk.actions, ?_, hk.calls⟩
    intro r' hr'
    rw [Loop.closures_post, List.mem_append, List.mem_singleton] at hr'
    rcases hr' with hold | rfl
    · exact hk.arriving r' hold
    · exact (hl r hr).allocate _
  · rw [he]
    exact hk.of_loop (fun _ ha => ha) (fun r hr => by simpa using hr) rfl
  · rw [he]
    cases x with
    | posted r =>
      have hclosures := Loop.closures_of_posted hready
      have hpopped : PayloadsKept Q { h with loop := h.loop.popped rest } :=
        ⟨hk.actions, fun r' hr' => hk.arriving r' (hclosures ▸ List.mem_cons_of_mem _ hr'), hk.calls⟩
      exact hpopped.runRequest tick (hk.arriving r (hclosures ▸ List.mem_cons_self))
    | completion ptr aborted =>
      have hclosures := Loop.closures_of_completion hready
      have hpopped : PayloadsKept Q { h with loop := h.loop.popped rest } :=
        ⟨hk.actions, fun r hr => hk.arriving r (hclosures ▸ hr), hk.calls⟩
      cases aborted with
      | true => exact hpopped
      | false =>
        cases hfind : ActionHandler.find { h with loop := h.loop.popped rest } ptr with
        | none =>
          simp only [runReady, hfind]
          exact ⟨hpopped.actions, hpopped.arriving, hpopped.calls⟩
        | some a =>
          simp only [runReady, hfind]
          have hfind' : h.find ptr = some a := hfind
          refine hpopped.runTimer trig tick (List.mem_of_find?_eq_some hfind) ?_
          intro p hp
          refine hsin p tick.now ?_
          unfold sinFired
          dsimp only
          rw [halive, hready]
          dsimp only
          rw [hfind', Option.bind_some, hp]
          rfl

end ActionHandler

end Caneo
