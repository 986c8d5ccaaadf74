import Caneo.EncodeFns

/-!
# What the handlers do to the actions

`ActionTimers` says what a handler does to the life of the actions; this is what it does to the
objects. An action that is in the list after a handler was there before, and was touched in one of a
few ways (`Touched`), or the handler has added it (`Added`). Everything else of an object never
changes; so an invariant about single actions needs a case for each way.
-/

namespace Caneo

open BitField EventLoop

variable {W : Type}

theorem Request.added_of_action {r : Request W} {a : Action W} (h : r.action = some a) :
    r.added = some a.ptr := by
  rcases r with b | b | _ | _ | _ | _
  · cases h
    rfl
  · cases h
    rfl
  · cases h
  · cases h
  · cases h
  · cases h

theorem Request.ptr_of_allocate {r : Request W} {ptr : Nat} {a : Action W}
    (h : (r.allocate ptr).1.action = some a) : a.ptr = ptr := by
  rcases r with b | b | _ | _ | _ | _
  · cases h
    rfl
  · cases h
    rfl
  · cases h
  · cases h
  · cases h
  · cases h

/-- `b` is the action `a` after the handler `x` ran at `now`. -/
inductive Touched (now : ℚ) : Ready (Request W) → Action W → Action W → Prop where
  | kept (x : Ready (Request W)) (a : Action W) : Touched now x a a
  | payload (x : Ready (Request W)) (a : Action W) (payload : Bytes) :
      Touched now x a (a.setPayload payload)
  | sent (x : Ready (Request W)) (a : Action W) (sentAt : ℚ) : Touched now x a (a.sent sentAt)
  | encoded (x : Ready (Request W)) (a : Action W) (payload : Bytes) (sentAt : ℚ) :
      Touched now x a ((a.setPayload payload).sent sentAt)
  | param (idx : Nat) (param : Int) (value : ℚ) (a : Action W) :
      Touched now (.posted (.updateSinParam idx param value)) a (a.setSinParam param value)
  | paused (idx : Nat) (a : Action W) (ha : a.paused = false) :
      Touched now (.posted (.togglePause idx)) a (a.pause now)
  | resumed (idx : Nat) (a : Action W) (ha : a.paused = true) :
      Touched now (.posted (.togglePause idx)) a (a.resume now)

/-- `b` is the action that the handler `x` puts into the list at `now`. -/
inductive Added (now : ℚ) : Ready (Request W) → Action W → Prop where
  | running (a : Action W) : Added now (.posted (.addAction a)) a
  | paused (a : Action W) : Added now (.posted (.addActionPaused a)) (a.pause now)

theorem Touched.ptr_eq {now : ℚ} {x : Ready (Request W)} {a b : Action W}
    (h : Touched now x a b) : b.ptr = a.ptr := by
  rcases h with - | - | - | - | - | - | -
  · rfl
  · rfl
  · rfl
  · rfl
  · exact Action.ptr_setSinParam ..
  · exact Action.ptr_pause ..
  · exact Action.ptr_resume ..

/-- What no method changes. -/
theorem Touched.fixed {γ : Type} {φ : Action W → γ} (hφ : Action.Fixed φ) {now : ℚ}
    {x : Ready (Request W)} {a b : Action W} (h : Touched now x a b) : φ b = φ a := by
  rcases h with _ | _ | _ | _ | ⟨idx, param, value⟩ | _ | _
  · rfl
  · exact hφ.setPayload ..
  · exact hφ.sent ..
  · exact (hφ.sent ..).trans (hφ.setPayload ..)
  · exact hφ.setSinParam param value a
  · exact hφ.pause now a
  · exact hφ.resume now a

theorem Added.fixed {γ : Type} {φ : Action W → γ} (hφ : Action.Fixed φ) {now : ℚ}
    {x : Ready (Request W)} {b : Action W} (h : Added now x b) :
    ∃ r a, x = .posted r ∧ r.action = some a ∧ a.ptr = b.ptr ∧ φ a = φ b := by
  rcases h with a | a
  · exact ⟨_, b, rfl, rfl, rfl, rfl⟩
  · exact ⟨_, a, rfl, rfl, (Action.ptr_pause now a).symm, (hφ.pause now a).symm⟩

namespace ActionHandler

/-! ### Objects on their way -/

theorem mem_closures_of_popped {h : ActionHandler W} {x : Ready (Request W)}
    {rest : List (Ready (Request W))} (hready : h.loop.ready = x :: rest) :
    ∀ r ∈ (h.loop.popped rest).closures, r ∈ h.loop.closures := by
  intro r hr
  rcases x with c | ⟨t, aborted⟩
  · rw [Loop.closures_of_posted hready]
    exact List.mem_cons_of_mem c hr
  · rwa [Loop.closures_of_completion hready]

/-- An action on its way was on its way before, or a request has just brought it. -/
theorem closures_step {h : ActionHandler W} (hid : Identities h) (trig : Trig) (l : Label W)
    {r : Request W} (hr : r ∈ (step trig h l).loop.closures) :
    r ∈ h.loop.closures ∨ ∃ r', l = .request r' ∧ r = (r'.allocate h.nextPtr).1 := by
  rcases step_cases trig h l with ⟨hs, -⟩ | ⟨r', hl, -, hs⟩ | ⟨timer, -, -, hs⟩ |
    ⟨tick, x, rest, -, -, hready, -, hs⟩
  · left
    rwa [hs] at hr
  · rw [hs] at hr
    change r ∈ (h.loop.post (r'.allocate h.nextPtr).1).closures at hr
    rw [Loop.closures_post] at hr
    rcases List.mem_append.mp hr with hr | hr
    · exact Or.inl hr
    · exact Or.inr ⟨r', hl, List.mem_singleton.mp hr⟩
  · left
    rw [hs] at hr
    change r ∈ (h.loop.expire timer).closures at hr
    rwa [Loop.closures_expire] at hr
  · left
    rw [hs, (hid.life_of_run trig tick hready).closures] at hr
    exact mem_closures_of_popped hready r hr

/-- Identities are given out in order. -/
theorem nextPtr_le_step {h : ActionHandler W} (hid : Identities h) (trig : Trig) (l : Label W) :
    h.nextPtr ≤ (step trig h l).nextPtr := by
  rcases step_cases trig h l with ⟨hs, -⟩ | ⟨r, -, -, hs⟩ | ⟨timer, -, -, hs⟩ |
    ⟨tick, x, rest, -, -, hready, -, hs⟩
  · rw [hs]
  · rw [hs]
    rcases allocate_cases h.nextPtr r with ⟨-, hnext⟩ | ⟨-, hnext⟩
    · exact hnext.ge
    · exact (Nat.le_succ _).trans hnext.ge
  · rw [hs]
  · rw [hs, (hid.life_of_run trig tick hready).nextPtr]

/-! ### Single operations -/

theorem mem_modify {h : ActionHandler W} {ptr : Nat} {f : Action W → Action W} {b : Action W}
    (hb : b ∈ (h.modify ptr f).actions) :
    ∃ a ∈ h.actions, (a.ptr = ptr ∧ b = f a) ∨ (a.ptr ≠ ptr ∧ b = a) := by
  obtain ⟨a, ha, rfl⟩ := List.mem_map.mp hb
  refine ⟨a, ha, ?_⟩
  split
  · next hptr => exact Or.inl ⟨hptr, rfl⟩
  · next hptr => exact Or.inr ⟨hptr, rfl⟩

theorem mem_fire {tick : Tick} {h : ActionHandler W} {a b : Action W}
    (hb : b ∈ (fire tick h a).actions) :
    ∃ a' ∈ h.actions, b = a' ∨ b = a'.sent tick.sentAt := by
  unfold fire at hb
  dsimp only at hb
  split at hb
  · exact ⟨b, hb, Or.inl rfl⟩
  · obtain ⟨a', ha', hb⟩ := mem_modify hb
    rcases hb with ⟨-, rfl⟩ | ⟨-, rfl⟩
    · exact ⟨a', ha', Or.inr rfl⟩
    · exact ⟨b, ha', Or.inl rfl⟩

theorem touched_fire {trig : Trig} {tick : Tick} {h g : ActionHandler W} (x : Ready (Request W))
    {a a' b : Action W} (hready : ReadyToSend trig tick h a g a')
    (hb : b ∈ (fire tick g a').actions) : ∃ c ∈ h.actions, Touched tick.now x c b := by
  obtain ⟨c, hc, hsame⟩ := mem_fire hb
  cases hready with
  | constant hsin =>
    refine ⟨c, hc, ?_⟩
    rcases hsame with rfl | rfl
    · apply Touched.kept
    · apply Touched.sent
  | encoded p hsin =>
    obtain ⟨c', hc', hc⟩ := mem_modify hc
    refine ⟨c', hc', ?_⟩
    rcases hc with ⟨-, rfl⟩ | ⟨-, rfl⟩
    · rcases hsame with rfl | rfl
      · apply Touched.payload
      · apply Touched.encoded
    · rcases hsame with rfl | rfl
      · apply Touched.kept
      · apply Touched.sent

/-- A timer handler sends, sets the payload before if it encodes, and erases or re-arms. -/
theorem touched_runTimer (trig : Trig) (tick : Tick) {h : ActionHandler W} (x : Ready (Request W))
    {a b : Action W} (hb : b ∈ (runTimer trig tick h a).actions) :
    ∃ a' ∈ h.actions, Touched tick.now x a' b := by
  have heffect := timerEffect_runTimer trig tick h a
  generalize runTimer trig tick h a = h' at heffect hb
  cases heffect with
  | failed g c hready hthrows => exact touched_fire x hready hb
  | done hsin hkind hsent =>
    have hready : ReadyToSend trig tick h a h a := .constant hsin
    exact touched_fire x hready (List.mem_filter.mp hb).1
  | rearmed g c hready hkind hsent => exact touched_fire x hready hb

/-- The object at a position is the only one with its identity. -/
theorem eq_of_getElem?_of_ptr {h : ActionHandler W} (hnodup : h.ptrs.Nodup) {idx : Nat}
    {a b : Action W} (ha : h.actions[idx]? = some a) (hb : b ∈ h.actions) (hptr : b.ptr = a.ptr) :
    b = a :=
  List.inj_on_of_nodup_map hnodup hb (List.mem_of_getElem? ha) hptr

/-! ### Handlers -/

theorem touched_runRequest (tick : Tick) {h : ActionHandler W} (hnodup : h.ptrs.Nodup)
    {r : Request W} (hnew : ∀ ptr, r.added = some ptr → ptr ∉ h.ptrs) {b : Action W}
    (hb : b ∈ (runRequest tick h r).actions) :
    (∃ a ∈ h.actions, Touched tick.now (.posted r) a b) ∨ Added tick.now (.posted r) b := by
  have hkept : b ∈ h.actions →
      (∃ a ∈ h.actions, Touched tick.now (.posted r) a b) ∨ Added tick.now (.posted r) b :=
    fun hb => Or.inl ⟨b, hb, .kept _ b⟩
  have heffect := requestEffect_runRequest tick h r
  generalize runRequest tick h r = h' at heffect hb
  cases heffect with
  | added a =>
    rcases List.mem_append.mp hb with hb | hb
    · exact hkept hb
    · rw [List.mem_singleton.mp hb]
      exact Or.inr (.running a)
  | addedPaused a =>
    -- No older object has the identity of the new one.
    obtain ⟨c, hc, hb⟩ := mem_modify hb
    rcases List.mem_append.mp hc with hc | hc
    · rcases hb with ⟨hptr, -⟩ | ⟨-, rfl⟩
      · exact absurd (List.mem_map.mpr ⟨c, hc, hptr⟩) (hnew a.ptr rfl)
      · exact hkept hc
    · have hc := List.mem_singleton.mp hc
      subst hc
      rcases hb with ⟨-, rfl⟩ | ⟨hptr, -⟩
      · exact Or.inr (.paused c)
      · exact absurd rfl hptr
  | missed r idx hidx hget => exact hkept hb
  | removed idx a hget => exact hkept ((List.eraseIdx_sublist h.actions idx).subset hb)
  | resumed idx a hget hpaused =>
    obtain ⟨c, hc, hb⟩ := mem_modify hb
    rcases hb with ⟨hptr, rfl⟩ | ⟨-, rfl⟩
    · have hca := eq_of_getElem?_of_ptr hnodup hget hc hptr
      exact Or.inl ⟨c, hc, .resumed idx c (hca ▸ hpaused)⟩
    · exact hkept hc
  | paused idx a hget hrunning =>
    obtain ⟨c, hc, hb⟩ := mem_modify hb
    rcases hb with ⟨hptr, rfl⟩ | ⟨-, rfl⟩
    · have hca := eq_of_getElem?_of_ptr hnodup hget hc hptr
      exact Or.inl ⟨c, hc, .paused idx c (hca ▸ hrunning)⟩
    · exact hkept hc
  | constant idx param value a hget hsin => exact hkept hb
  | sinParam idx param value a hget hsin =>
    obtain ⟨c, hc, hb⟩ := mem_modify hb
    rcases hb with ⟨-, rfl⟩ | ⟨-, rfl⟩
    · exact Or.inl ⟨c, hc, .param idx param value c⟩
    · exact hkept hc
  | payload idx payload a hget =>
    obtain ⟨c, hc, hb⟩ := mem_modify hb
    rcases hb with ⟨-, rfl⟩ | ⟨-, rfl⟩
    · exact Or.inl ⟨c, hc, .payload _ c payload⟩
    · exact hkept hc

/-- Every object in the list after a handler was there and was touched, or has been added. -/
theorem touched_runReady {h : ActionHandler W} (hid : Identities h) (trig : Trig) (tick : Tick)
    {x : Ready (Request W)} {rest : List (Ready (Request W))} (hready : h.loop.ready = x :: rest)
    {b : Action W}
    (hb : b ∈ (runReady trig tick { h with loop := h.loop.popped rest } x).actions) :
    (∃ a ∈ h.actions, Touched tick.now x a b) ∨ Added tick.now x b := by
  rcases x with r | ⟨ptr, aborted⟩
  · refine touched_runRequest (h := { h with loop := h.loop.popped rest }) tick hid.nodup_ptrs ?_ hb
    intro ptr hadded
    exact hid.not_mem_ptrs (mem_arriving_of_ready hready hadded)
  · left
    cases aborted with
    | true => exact ⟨b, hb, .kept _ b⟩
    | false =>
      simp only [runReady] at hb
      split at hb
      · exact ⟨b, hb, .kept _ b⟩
      · exact touched_runTimer (h := { h with loop := h.loop.popped rest }) trig tick _ hb

/-- What a step does to the objects. -/
theorem touched_step {h : ActionHandler W} (hid : Identities h) (trig : Trig) (l : Label W)
    {b : Action W} (hb : b ∈ (step trig h l).actions) :
    b ∈ h.actions ∨
      ∃ tick x rest, l = .run tick ∧ h.terminated = false ∧ h.loop.ready = x :: rest ∧
        ((∃ a ∈ h.actions, Touched tick.now x a b) ∨ Added tick.now x b) := by
  rcases step_cases trig h l with ⟨hs, -⟩ | ⟨r, -, -, hs⟩ | ⟨timer, -, -, hs⟩ |
    ⟨tick, x, rest, hl, halive, hready, -, hs⟩
  · left
    rwa [hs] at hb
  · left
    rwa [hs] at hb
  · left
    rwa [hs] at hb
  · rw [hs] at hb
    exact Or.inr ⟨tick, x, rest, hl, halive, hready, touched_runReady hid trig tick hready hb⟩

end ActionHandler

end Caneo
