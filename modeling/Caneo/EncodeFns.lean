import Caneo.ActionTimers
import Mathlib.Data.List.Nodup

/-!
# The state that encode functions share

The encode function of a sin action runs on the io thread and may change the world (the TUI's
encode functions set a value in the send model that all its actions share). Nothing else that the
handler does changes the world (`world_step`), and the encode functions are those of the actions
that were requested (`FnsKept.preserved`). So a property of the world that every encode function
keeps, and that holds at the start, holds in every state of the handler (`WorldKept.preserved`).
-/

namespace Caneo

open BitField EventLoop Runs

variable {W : Type}

/-- The encode function, of a sin action. -/
def Action.encodeFn (a : Action W) : Option (ℚ → W → Bytes × W) := a.sinParams.map (·.encodeFn)

/-- The action that a request adds. -/
def Request.action : Request W → Option (Action W)
  | .addAction a | .addActionPaused a => some a
  | .removeAction _ | .togglePause _ | .updateSinParam .. | .updatePayload .. => none

/-- The world stays in `P` when the action's value is encoded. -/
def Action.Keeps (P : W → Prop) (a : Action W) : Prop :=
  ∀ f, a.encodeFn = some f → ∀ v w, P w → P (f v w).2

namespace Action

theorem encodeFn_pause (now : ℚ) (a : Action W) : (a.pause now).encodeFn = a.encodeFn := by
  cases hkind : a.kind <;> simp [encodeFn, pause, sinParams, hkind]

theorem encodeFn_resume (now : ℚ) (a : Action W) : (a.resume now).encodeFn = a.encodeFn := by
  cases hkind : a.kind <;> simp [encodeFn, resume, sinParams, hkind]

theorem encodeFn_setPayload (payload : Bytes) (a : Action W) :
    (a.setPayload payload).encodeFn = a.encodeFn := rfl

theorem encodeFn_sent (now : ℚ) (a : Action W) : (a.sent now).encodeFn = a.encodeFn := rfl

theorem encodeFn_setSinParam (param : Int) (value : ℚ) (a : Action W) :
    (a.setSinParam param value).encodeFn = a.encodeFn := by
  cases hkind : a.kind with
  | single => simp [encodeFn, setSinParam, sinParams, hkind]
  | periodic period => simp [encodeFn, setSinParam, sinParams, hkind]
  | sin p =>
    simp only [encodeFn, setSinParam, sinParams, hkind, Option.map_some, Option.some.injEq,
      SinParams.setParam]
    split
    · rfl
    · split
      · rfl
      · split <;> rfl

/-- What no method of an action changes. -/
structure Fixed {γ : Type} (φ : Action W → γ) : Prop where
  pause : ∀ now a, φ (a.pause now) = φ a
  resume : ∀ now a, φ (a.resume now) = φ a
  setPayload : ∀ payload a, φ (a.setPayload payload) = φ a
  sent : ∀ now a, φ (a.sent now) = φ a
  setSinParam : ∀ param value a, φ (a.setSinParam param value) = φ a

theorem fixed_encodeFn : Fixed (encodeFn : Action W → Option (ℚ → W → Bytes × W)) where
  pause := encodeFn_pause
  resume := encodeFn_resume
  setPayload := encodeFn_setPayload
  sent := encodeFn_sent
  setSinParam := encodeFn_setSinParam

theorem Fixed.withPtr {γ : Type} {φ : Action W → γ} (hφ : Fixed φ) :
    Fixed fun a => (a.ptr, φ a) where
  pause now a := by rw [ptr_pause, hφ.pause]
  resume now a := by rw [ptr_resume, hφ.resume]
  setPayload payload a := by rw [ptr_setPayload, hφ.setPayload]
  sent now a := by rw [ptr_sent, hφ.sent]
  setSinParam param value a := by rw [ptr_setSinParam, hφ.setSinParam]

theorem fixed_typeName : Fixed (typeName : Action W → String) where
  pause now a := by cases hkind : a.kind <;> simp [typeName, pause, hkind]
  resume now a := by cases hkind : a.kind <;> simp [typeName, resume, hkind]
  setPayload _ _ := rfl
  sent _ _ := rfl
  setSinParam param value a := by cases hkind : a.kind <;> simp [typeName, setSinParam, hkind]

end Action

theorem Request.action_allocate {r : Request W} {ptr : Nat} {a : Action W}
    (h : (r.allocate ptr).1.action = some a) : ∃ b, r.action = some b ∧ a.encodeFn = b.encodeFn := by
  cases r with
  | addAction b => cases h; exact ⟨b, rfl, rfl⟩
  | addActionPaused b => cases h; exact ⟨b, rfl, rfl⟩
  | removeAction idx => cases h
  | togglePause idx => cases h
  | updateSinParam idx param value => cases h
  | updatePayload idx payload => cases h

namespace ActionHandler

/-- The encode functions of the actions. -/
def fns (h : ActionHandler W) : List (Option (ℚ → W → Bytes × W)) := h.actions.map Action.encodeFn

/-- A property of the actions, in their order. -/
def each {γ : Type} (φ : Action W → γ) (h : ActionHandler W) : List γ := h.actions.map φ

section Each

variable {γ : Type} {φ : Action W → γ}

@[simp] theorem each_rebuildSnapshot (h : ActionHandler W) :
    h.rebuildSnapshot.each φ = h.each φ := rfl

@[simp] theorem each_schedule (h : ActionHandler W) (ptr : Nat) :
    (h.schedule ptr).each φ = h.each φ := rfl

@[simp] theorem each_cancel (h : ActionHandler W) (ptr : Nat) :
    (h.cancel ptr).each φ = h.each φ := rfl

@[simp] theorem each_pushBack (h : ActionHandler W) (a : Action W) :
    (h.pushBack a).each φ = h.each φ ++ [φ a] := by
  simp [each, pushBack]

theorem each_modify (h : ActionHandler W) (ptr : Nat) {f : Action W → Action W}
    (hf : ∀ a, φ (f a) = φ a) : (h.modify ptr f).each φ = h.each φ := by
  rw [each, each, modify, List.map_map]
  apply List.map_congr_left
  intro a _
  by_cases ha : a.ptr = ptr <;> simp [ha, hf]

theorem each_pause (hφ : Action.Fixed φ) (h : ActionHandler W) (now : ℚ) (ptr : Nat) :
    (h.pause now ptr).each φ = h.each φ := by
  rw [pause, each_cancel, each_modify _ _ (hφ.pause now)]

theorem each_resume (hφ : Action.Fixed φ) (h : ActionHandler W) (now : ℚ) (ptr : Nat) :
    (h.resume now ptr).each φ = h.each φ := by
  rw [resume, each_schedule, each_modify _ _ (hφ.resume now)]

theorem each_fire (hφ : Action.Fixed φ) (tick : Tick) (h : ActionHandler W) (a : Action W) :
    (fire tick h a).each φ = h.each φ := by
  unfold fire
  dsimp only
  split
  · rfl
  · rw [each_rebuildSnapshot, each_modify _ _ (hφ.sent _)]
    rfl

theorem mem_each_onActionDone {h : ActionHandler W} {ptr : Nat} {x : γ}
    (hx : x ∈ (h.onActionDone ptr).each φ) : x ∈ h.each φ := by
  obtain ⟨a, ha, rfl⟩ := List.mem_map.mp hx
  exact List.mem_map_of_mem (List.mem_of_mem_filter ha)

/-- After a posted closure nothing is new but what the added action has. -/
theorem mem_each_runRequest (hφ : Action.Fixed φ) {tick : Tick} {h : ActionHandler W}
    {r : Request W} {x : γ} (hx : x ∈ (runRequest tick h r).each φ) :
    x ∈ h.each φ ∨ ∃ a, r.action = some a ∧ φ a = x := by
  have heffect := requestEffect_runRequest tick h r
  generalize runRequest tick h r = h' at heffect hx
  cases heffect with
  | added a =>
    simp only [each_rebuildSnapshot, each_schedule, each_pushBack, List.mem_append,
      List.mem_singleton] at hx
    exact hx.imp_right fun hx => ⟨a, rfl, hx.symm⟩
  | addedPaused a =>
    simp only [each_rebuildSnapshot, each_pause hφ, each_schedule, each_pushBack, List.mem_append,
      List.mem_singleton] at hx
    exact hx.imp_right fun hx => ⟨a, rfl, hx.symm⟩
  | missed r idx hidx hget => exact Or.inl hx
  | removed idx a hget =>
    obtain ⟨b, hb, rfl⟩ := List.mem_map.mp hx
    exact Or.inl (List.mem_map_of_mem (List.mem_of_mem_eraseIdx hb))
  | resumed idx a hget hpaused =>
    rw [each_rebuildSnapshot, each_resume hφ] at hx
    exact Or.inl hx
  | paused idx a hget hrunning =>
    rw [each_rebuildSnapshot, each_pause hφ] at hx
    exact Or.inl hx
  | constant idx param value a hget hsin => exact Or.inl hx
  | sinParam idx param value a hget hsin =>
    rw [each_rebuildSnapshot, each_modify _ _ (hφ.setSinParam param value)] at hx
    exact Or.inl hx
  | payload idx payload a hget =>
    rw [each_modify _ _ (hφ.setPayload payload)] at hx
    exact Or.inl hx

theorem ReadyToSend.each (hφ : Action.Fixed φ) {trig : Trig} {tick : Tick} {h g : ActionHandler W}
    {a b : Action W} (hready : ReadyToSend trig tick h a g b) : g.each φ = h.each φ := by
  cases hready with
  | constant hsin => rfl
  | encoded p hsin => exact each_modify _ _ (hφ.setPayload _)

/-- After a timer handler nothing is new. -/
theorem mem_each_runTimer (hφ : Action.Fixed φ) {trig : Trig} {tick : Tick} {h : ActionHandler W}
    {a : Action W} {x : γ} (hx : x ∈ (runTimer trig tick h a).each φ) : x ∈ h.each φ := by
  have heffect := timerEffect_runTimer trig tick h a
  generalize runTimer trig tick h a = h' at heffect hx
  cases heffect with
  | failed g b hready hthrows => rwa [each_fire hφ, hready.each hφ] at hx
  | done hsin hkind hsent =>
    have hfired := mem_each_onActionDone hx
    rwa [each_fire hφ] at hfired
  | rearmed g b hready hkind hsent => rwa [each_schedule, each_fire hφ, hready.each hφ] at hx

end Each

@[simp] theorem world_fire (tick : Tick) (h : ActionHandler W) (a : Action W) :
    (fire tick h a).world = h.world := by
  unfold fire
  dsimp only
  split <;> rfl

/-! ### Handlers -/

/-- A posted closure leaves the world alone. -/
theorem world_runRequest (tick : Tick) (h : ActionHandler W) (r : Request W) :
    (runRequest tick h r).world = h.world :=
  (runRequest_frame tick h r).2.2.1

theorem ReadyToSend.world {trig : Trig} {tick : Tick} {h g : ActionHandler W} {a b : Action W}
    (hready : ReadyToSend trig tick h a g b) :
    g.world = a.sinParams.elim h.world fun p => (p.encodeFn (p.value trig tick.now) h.world).2 := by
  cases hready with
  | constant hsin => rw [hsin, Option.elim_none]
  | encoded p hsin =>
    rw [hsin, Option.elim_some]
    rfl

/-- A timer handler changes the world by the action's encode function, if it has one. -/
theorem world_runTimer (trig : Trig) (tick : Tick) (h : ActionHandler W) (a : Action W) :
    (runTimer trig tick h a).world =
      a.sinParams.elim h.world fun p => (p.encodeFn (p.value trig tick.now) h.world).2 := by
  have heffect := timerEffect_runTimer trig tick h a
  generalize runTimer trig tick h a = h' at heffect ⊢
  cases heffect with
  | failed g b hready hthrows => rw [world_fire, hready.world]
  | done hsin hkind hsent =>
    rw [hsin, Option.elim_none]
    exact world_fire _ _ _
  | rearmed g b hready hkind hsent => exact (world_fire _ _ _).trans hready.world

@[simp] theorem closures_runRequest (tick : Tick) (h : ActionHandler W) (r : Request W) :
    (runRequest tick h r).loop.closures = h.loop.closures := by
  have heffect := requestEffect_runRequest tick h r
  generalize runRequest tick h r = h' at heffect ⊢
  cases heffect with
  | added a => simp
  | addedPaused a => simp [pause]
  | missed r idx hidx hget => rfl
  | removed idx a hget => simp
  | resumed idx a hget hpaused => simp [resume]
  | paused idx a hget hrunning => simp [pause]
  | constant idx param value a hget hsin => rfl
  | sinParam idx param value a hget hsin => rfl
  | payload idx payload a hget => rfl

@[simp] theorem closures_runTimer (trig : Trig) (tick : Tick) (h : ActionHandler W) (a : Action W) :
    (runTimer trig tick h a).loop.closures = h.loop.closures := by
  have heffect := timerEffect_runTimer trig tick h a
  generalize runTimer trig tick h a = h' at heffect ⊢
  cases heffect with
  | failed g b hready hthrows => rw [loop_fire, hready.loop]
  | done hsin hkind hsent => simp [onActionDone]
  | rearmed g b hready hkind hsent => simp [hready.loop]

/-- After a step nothing is new but what an action has that was requested. -/
theorem mem_each_step {γ : Type} {φ : Action W → γ} (hφ : Action.Fixed φ) {trig : Trig}
    {h : ActionHandler W} {l : Label W} {x : γ} (hx : x ∈ (step trig h l).each φ) :
    x ∈ h.each φ ∨ ∃ r ∈ h.loop.closures, ∃ a, r.action = some a ∧ φ a = x := by
  rcases step_cases trig h l with ⟨he, -⟩ | ⟨r, -, -, he⟩ | ⟨timer, -, -, he⟩ |
    ⟨tick, y, rest, -, -, hready, -, he⟩
  · rw [he] at hx
    exact Or.inl hx
  · rw [he] at hx
    exact Or.inl hx
  · rw [he] at hx
    exact Or.inl hx
  · rw [he] at hx
    cases y with
    | posted r =>
      refine (mem_each_runRequest hφ hx).imp_right fun hadded => ⟨r, ?_, hadded⟩
      rw [Loop.closures_of_posted hready]
      exact List.mem_cons_self
    | completion ptr aborted =>
      cases aborted with
      | true => exact Or.inl hx
      | false =>
        cases hfind : ActionHandler.find { h with loop := h.loop.popped rest } ptr with
        | none =>
          simp only [runReady, hfind] at hx
          exact Or.inl hx
        | some a =>
          simp only [runReady, hfind] at hx
          have hold := mem_each_runTimer hφ hx
          exact Or.inl hold

/-- An action keeps what no method changes as long as it is in the list. -/
theorem Identities.fixed {γ : Type} {φ : Action W → γ} (hφ : Action.Fixed φ) {h : ActionHandler W}
    (hid : Identities h) {trig : Trig} {l : Label W} {a b : Action W} (ha : a ∈ h.actions)
    (hb : b ∈ (step trig h l).actions) (hptr : b.ptr = a.ptr) : φ b = φ a := by
  have hpair := hφ.withPtr
  have hmem : (b.ptr, φ b) ∈ (step trig h l).each fun a => (a.ptr, φ a) :=
    List.mem_map_of_mem hb
  rcases mem_each_step hpair hmem with hold | ⟨r, hr, c, hc, heq⟩
  · obtain ⟨c, hc, heq⟩ := List.mem_map.mp hold
    obtain ⟨hcptr, hcφ⟩ := Prod.mk.inj heq
    obtain rfl : c = a := List.inj_on_of_nodup_map hid.nodup_ptrs hc ha (hcptr.trans hptr)
    exact hcφ.symm
  · obtain ⟨hcptr, -⟩ := Prod.mk.inj heq
    have harriving : a.ptr ∈ h.arriving := by
      refine List.mem_filterMap.mpr ⟨r, hr, ?_⟩
      rw [← hptr, ← hcptr]
      cases r <;> cases hc <;> rfl
    exact absurd (List.mem_map_of_mem ha) (hid.not_mem_ptrs harriving)

/-! ### The world -/

/-- The sin action whose timer handler is run by the step, and the clock reading it gets. -/
def sinFired (h : ActionHandler W) : Label W → Option (SinParams W × ℚ)
  | .run tick =>
    match h.terminated, h.loop.ready with
    | false, .completion ptr false :: _ =>
      ((h.find ptr).bind Action.sinParams).map fun p => (p, tick.now)
    | _, _ => none
  | .request _ | .expire _ => none

theorem mem_fns_of_sinFired {h : ActionHandler W} {l : Label W} {p : SinParams W} {now : ℚ}
    (hfired : h.sinFired l = some (p, now)) : some p.encodeFn ∈ h.fns := by
  cases l with
  | request r => cases hfired
  | expire timer => cases hfired
  | run tick =>
    unfold sinFired at hfired
    dsimp only at hfired
    split at hfired
    · obtain ⟨p', hp, he⟩ := Option.map_eq_some_iff.mp hfired
      cases he
      obtain ⟨a, hfind, hsin⟩ := Option.bind_eq_some_iff.mp hp
      have hfn : a.encodeFn = some p.encodeFn := by rw [Action.encodeFn, hsin]; rfl
      rw [← hfn]
      exact List.mem_map_of_mem (List.mem_of_find?_eq_some hfind)
    · cases hfired

/-- A step changes the world by the encode function of the sin action that fires, if one does. -/
theorem world_step (trig : Trig) (h : ActionHandler W) (l : Label W) :
    (step trig h l).world =
      (h.sinFired l).elim h.world fun x => (x.1.encodeFn (x.1.value trig x.2) h.world).2 := by
  unfold step
  cases hterm : h.terminated with
  | true => cases l <;> simp [sinFired, hterm]
  | false =>
    cases l with
    | request r => rfl
    | expire timer => rfl
    | run tick =>
      simp only [Bool.false_eq_true, if_false, sinFired, hterm]
      cases h.loop.ready with
      | nil => rfl
      | cons x rest =>
        cases x with
        | posted r => exact world_runRequest tick _ r
        | completion ptr aborted =>
          cases aborted with
          | true => rfl
          | false =>
            simp only [runReady]
            split
            · next hfind =>
              have hfind' : h.find ptr = none := hfind
              rw [hfind']
              rfl
            · next a hfind =>
              have hfind' : h.find ptr = some a := hfind
              rw [hfind']
              refine (world_runTimer trig tick _ a).trans ?_
              cases hsin : a.sinParams <;> simp [hsin]

/-! ### The invariants -/

/-- Every encode function, of an action in the list or on its way there, has `Q`. -/
structure FnsKept (Q : (ℚ → W → Bytes × W) → Prop) (h : ActionHandler W) : Prop where
  actions : ∀ f, some f ∈ h.fns → Q f
  arriving : ∀ r ∈ h.loop.closures, ∀ a, r.action = some a → ∀ f, a.encodeFn = some f → Q f

theorem FnsKept.init {Q : (ℚ → W → Bytes × W) → Prop} (world : W) : FnsKept Q (init world) where
  actions f hf := by cases hf
  arriving r hr := by cases hr

/-- Every step keeps the invariant, if the encode functions of the requested actions have `Q`. -/
theorem FnsKept.preserved {Q : (ℚ → W → Bytes × W) → Prop} {h : ActionHandler W}
    (hk : FnsKept Q h) (trig : Trig) {l : Label W}
    (hl : ∀ r a, l = .request r → r.action = some a → ∀ f, a.encodeFn = some f → Q f) :
    FnsKept Q (step trig h l) := by
  rcases step_cases trig h l with ⟨he, -⟩ | ⟨r, hr, -, he⟩ | ⟨timer, -, -, he⟩ |
    ⟨tick, x, rest, -, -, hready, -, he⟩
  · rwa [he]
  · rw [he]
    refine ⟨hk.actions, ?_⟩
    intro r' hr' a ha
    rw [Loop.closures_post, List.mem_append, List.mem_singleton] at hr'
    rcases hr' with hold | rfl
    · exact hk.arriving r' hold a ha
    · obtain ⟨b, hb, hfn⟩ := Request.action_allocate ha
      intro f hf
      exact hl r b hr hb f (hfn ▸ hf)
  · rw [he]
    refine ⟨hk.actions, ?_⟩
    rw [Loop.closures_expire]
    exact hk.arriving
  · rw [he]
    cases x with
    | posted r =>
      have hclosures := Loop.closures_of_posted hready
      refine ⟨?_, ?_⟩
      · intro f hf
        rcases mem_each_runRequest Action.fixed_encodeFn hf with hold | ⟨a, ha, hfn⟩
        · exact hk.actions f hold
        · exact hk.arriving r (hclosures ▸ List.mem_cons_self) a ha f hfn
      · rw [runReady, closures_runRequest]
        intro r' hr'
        exact hk.arriving r' (hclosures ▸ List.mem_cons_of_mem _ hr')
    | completion ptr aborted =>
      have hclosures := Loop.closures_of_completion hready
      have hpopped : FnsKept Q { h with loop := h.loop.popped rest } :=
        ⟨hk.actions, fun r hr => hk.arriving r (hclosures ▸ hr)⟩
      cases aborted with
      | true => exact hpopped
      | false =>
        cases hfind : ActionHandler.find { h with loop := h.loop.popped rest } ptr with
        | none =>
          simp only [runReady, hfind]
          exact ⟨hpopped.actions, hpopped.arriving⟩
        | some a =>
          simp only [runReady, hfind]
          refine ⟨fun f hf => hpopped.actions f (mem_each_runTimer Action.fixed_encodeFn hf), ?_⟩
          rw [closures_runTimer]
          exact hpopped.arriving

/-- The world has `P`, and every encode function, of an action in the list or on its way there,
keeps it. -/
structure WorldKept (P : W → Prop) (h : ActionHandler W) : Prop where
  world : P h.world
  actions : ∀ f, some f ∈ h.fns → ∀ v w, P w → P (f v w).2
  arriving : ∀ r ∈ h.loop.closures, ∀ a, r.action = some a → a.Keeps P

theorem WorldKept.init {P : W → Prop} {world : W} (h : P world) : WorldKept P (init world) where
  world := h
  actions f hf := by cases hf
  arriving r hr := by cases hr

theorem WorldKept.fnsKept {P : W → Prop} {h : ActionHandler W} (hk : WorldKept P h) :
    FnsKept (fun f => ∀ v w, P w → P (f v w).2) h := ⟨hk.actions, hk.arriving⟩

/-- Every step keeps the invariant, if the actions that are requested keep the property. -/
theorem WorldKept.preserved {P : W → Prop} {h : ActionHandler W} (hk : WorldKept P h) (trig : Trig)
    {l : Label W} (hl : ∀ r a, l = .request r → r.action = some a → a.Keeps P) :
    WorldKept P (step trig h l) := by
  have hfns := hk.fnsKept.preserved trig hl
  refine ⟨?_, hfns.actions, hfns.arriving⟩
  rw [world_step]
  cases hfired : h.sinFired l with
  | none => exact hk.world
  | some x => exact hk.actions _ (mem_fns_of_sinFired hfired) _ _ hk.world

end ActionHandler

end Caneo
