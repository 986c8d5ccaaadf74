import Caneo.ActionObjects
import Mathlib.Tactic.Linarith

/-!
# The phase of a sin action

A sin action computes its phase from the time that has passed, which it splits into what it had
accumulated when it was last paused and what has passed since it was last resumed; the constructor
counts as a resumption. Whatever toggles there are, and also if it is paused while it is added, the
two parts make up the time during which `paused_` was false (`elapsedSeconds_eq_unpaused`).
-/

namespace Caneo

open BitField EventLoop Runs

variable {W : Type}

/-! ### Time -/

/-- The handler, the last reading of the clock, and for how long `paused_` of one action has been
false since it was constructed. -/
structure Watch (W : Type) where
  handler : ActionHandler W
  clock : ℚ
  unpaused : ℚ := 0

namespace Watch

/-- `paused_` of an action; it is false until the action is in the list. -/
def pausedFlag (ptr : Nat) (h : ActionHandler W) : Bool := (h.find ptr).elim false (·.paused)

/-- Time passes until a handler runs. -/
def step (trig : Trig) (ptr : Nat) (s : Watch W) : ActionHandler.Label W → Watch W
  | .run tick =>
    { handler := s.handler.step trig (.run tick)
      clock := tick.now
      unpaused := s.unpaused + if pausedFlag ptr s.handler then 0 else tick.now - s.clock }
  | l => { s with handler := s.handler.step trig l }

end Watch

/-- The accumulated time, and that since the last resumption, are `total` at `clock`. -/
def Action.InPhase (clock total : ℚ) (a : Action W) : Prop :=
  ∃ p, a.sinParams = some p ∧
    total = p.accumulated + if a.paused then 0 else clock - p.resumeTime

namespace Action.InPhase

variable {clock total : ℚ} {a b : Action W}

/-- While time passes, the total grows exactly if the action is not paused. -/
theorem advance (h : a.InPhase clock total) (now : ℚ) :
    a.InPhase now (total + if a.paused then 0 else now - clock) := by
  obtain ⟨p, hp, rfl⟩ := h
  refine ⟨p, hp, ?_⟩
  cases a.paused with
  | true => simp
  | false =>
    simp only [Bool.false_eq_true, if_false]
    ring

/-- Only the flag, the accumulated time and the time of the resumption matter. -/
theorem congr (h : a.InPhase clock total) (hpaused : b.paused = a.paused)
    (hparams : ∀ p, a.sinParams = some p → ∃ q, b.sinParams = some q ∧
      q.accumulated = p.accumulated ∧ q.resumeTime = p.resumeTime) : b.InPhase clock total := by
  obtain ⟨p, hp, htotal⟩ := h
  obtain ⟨q, hq, haccumulated, hresume⟩ := hparams p hp
  refine ⟨q, hq, ?_⟩
  rw [htotal, haccumulated, hresume, hpaused]

theorem setSinParam (h : a.InPhase clock total) (param : Int) (value : ℚ) :
    (a.setSinParam param value).InPhase clock total := by
  apply h.congr (paused_setSinParam param value a)
  intro p hp
  unfold Action.sinParams at hp
  split at hp
  · next params hkind =>
    cases hp
    refine ⟨p.setParam param value, ?_, ?_⟩
    · simp only [Action.setSinParam, Action.sinParams, hkind]
    · unfold SinParams.setParam
      split
      · exact ⟨rfl, rfl⟩
      · split
        · exact ⟨rfl, rfl⟩
        · split
          · exact ⟨rfl, rfl⟩
          · exact ⟨rfl, rfl⟩
  · cases hp
  · cases hp

/-- A pause adds what has passed since the resumption to the accumulated time. -/
theorem pause (h : a.InPhase clock total) (hrunning : a.paused = false) :
    (a.pause clock).InPhase clock total := by
  obtain ⟨p, hp, rfl⟩ := h
  unfold Action.sinParams at hp
  split at hp
  · next params hkind =>
    cases hp
    refine ⟨{ p with accumulated := p.accumulated + (clock - p.resumeTime) }, ?_, ?_⟩
    · simp only [Action.pause, Action.sinParams, hkind]
    · rw [paused_pause, hrunning, if_pos rfl, if_neg (by decide), add_zero]
  · cases hp
  · cases hp

/-- A resumption starts from the accumulated time. -/
theorem resume (h : a.InPhase clock total) (hpaused : a.paused = true) :
    (a.resume clock).InPhase clock total := by
  obtain ⟨p, hp, rfl⟩ := h
  unfold Action.sinParams at hp
  split at hp
  · next params hkind =>
    cases hp
    refine ⟨{ p with resumeTime := clock }, ?_, ?_⟩
    · simp only [Action.resume, Action.sinParams, hkind]
    · rw [paused_resume, hpaused, if_pos rfl, if_neg (by decide), sub_self]
  · cases hp
  · cases hp

theorem touched {x : Ready (Request W)} (h : a.InPhase clock total) (ht : Touched clock x a b) :
    b.InPhase clock total := by
  rcases ht with - | - | - | - | ⟨idx, param, value⟩ | ⟨idx, _, hrunning⟩ | ⟨idx, _, hpaused⟩
  · exact h
  · exact h
  · exact h
  · exact h
  · exact h.setSinParam param value
  · exact h.pause hrunning
  · exact h.resume hpaused

end Action.InPhase

/-! ### The invariant -/

namespace Watch

open ActionHandler

/-- The action `ptr`, in the list or on its way, is in phase. -/
structure Phased (ptr : Nat) (s : Watch W) : Prop where
  identities : Identities s.handler
  lt_nextPtr : ptr < s.handler.nextPtr
  present : ∀ a ∈ s.handler.actions, a.ptr = ptr → a.InPhase s.clock s.unpaused
  coming : ∀ r ∈ s.handler.loop.closures, ∀ a, r.action = some a → a.ptr = ptr →
    a.paused = false ∧ a.InPhase s.clock s.unpaused

variable {ptr : Nat} {s : Watch W}

theorem pausedFlag_of_mem {h : ActionHandler W} (hid : Identities h) {a : Action W}
    (ha : a ∈ h.actions) : pausedFlag a.ptr h = a.paused := by
  obtain ⟨idx, hidx⟩ := List.getElem?_of_mem ha
  cases hfind : h.find a.ptr with
  | none => exact absurd (List.mem_map_of_mem ha) (find_eq_none_iff.mp hfind)
  | some b =>
    obtain ⟨hptr, -⟩ := mem_flags_of_find hfind
    have hb := eq_of_getElem?_of_ptr hid.nodup_ptrs hidx (List.mem_of_find?_eq_some hfind) hptr
    rw [pausedFlag, hfind, hb]
    rfl

theorem pausedFlag_of_coming {h : ActionHandler W} (hid : Identities h) {r : Request W}
    (hr : r ∈ h.loop.closures) {a : Action W} (ha : r.action = some a) :
    pausedFlag a.ptr h = false := by
  have hcoming : a.ptr ∈ h.arriving :=
    List.mem_filterMap.mpr ⟨r, hr, Request.added_of_action ha⟩
  have hnone : h.find a.ptr = none := find_eq_none_iff.mpr (hid.not_mem_ptrs hcoming)
  rw [pausedFlag, hnone]
  rfl

/-- An action is added in the phase that it was on its way in. -/
theorem inPhase_of_added {clock total : ℚ} {x : Ready (Request W)} {b : Action W}
    (hadded : Added clock x b)
    (hcoming : ∀ r a, x = .posted r → r.action = some a → a.ptr = b.ptr →
      a.paused = false ∧ a.InPhase clock total) : b.InPhase clock total := by
  rcases hadded with a | a
  · exact (hcoming _ b rfl rfl rfl).2
  · obtain ⟨hrunning, hphase⟩ := hcoming _ a rfl rfl (Action.ptr_pause clock a).symm
    exact hphase.pause hrunning

theorem Phased.run (hs : Phased ptr s) (trig : Trig) (tick : Tick) :
    Phased ptr (s.step trig ptr (.run tick)) := by
  have hid := hs.identities
  -- What was in the list or on its way is in phase when the clock is read.
  have hpresent : ∀ a ∈ s.handler.actions, a.ptr = ptr →
      a.InPhase tick.now (s.step trig ptr (.run tick)).unpaused := by
    intro a ha hptr
    have hflag := pausedFlag_of_mem hid ha
    have hphase := (hs.present a ha hptr).advance tick.now
    rw [hptr] at hflag
    rwa [← hflag] at hphase
  have hcoming : ∀ r ∈ s.handler.loop.closures, ∀ a, r.action = some a → a.ptr = ptr →
      a.paused = false ∧ a.InPhase tick.now (s.step trig ptr (.run tick)).unpaused := by
    intro r hr a ha hptr
    have hflag := pausedFlag_of_coming hid hr ha
    obtain ⟨hrunning, hphase⟩ := hs.coming r hr a ha hptr
    have hphase := hphase.advance tick.now
    rw [hptr, ← hrunning] at hflag
    rw [← hflag] at hphase
    exact ⟨hrunning, hphase⟩
  refine ⟨hid.preserved trig (.run tick),
    hs.lt_nextPtr.trans_le (nextPtr_le_step hid trig (.run tick)), ?_, ?_⟩
  · intro b hb hptr
    rcases touched_step hid trig (.run tick) hb with hb | ⟨tick', x, rest, hl, -, hready, hfrom⟩
    · exact hpresent b hb hptr
    · cases hl
      rcases hfrom with ⟨a, ha, htouched⟩ | hadded
      · exact (hpresent a ha (htouched.ptr_eq ▸ hptr)).touched htouched
      · apply inPhase_of_added hadded
        intro r a hx ha haptr
        have hr : r ∈ s.handler.loop.closures := by
          rw [hx] at hready
          rw [Loop.closures_of_posted hready]
          exact List.mem_cons_self
        exact hcoming r hr a ha (haptr.trans hptr)
  · intro r hr a ha hptr
    rcases closures_step hid trig (.run tick) hr with hr | ⟨r', hl, -⟩
    · exact hcoming r hr a ha hptr
    · cases hl

theorem Phased.preserved (hs : Phased ptr s) (trig : Trig) (l : Label W) :
    Phased ptr (s.step trig ptr l) := by
  have hid := hs.identities
  have hwait : ∀ l : Label W, (∀ tick, l ≠ .run tick) →
      Phased ptr { s with handler := s.handler.step trig l } := by
    intro l hl
    refine ⟨hid.preserved trig l, hs.lt_nextPtr.trans_le (nextPtr_le_step hid trig l), ?_, ?_⟩
    · intro b hb hptr
      rcases touched_step hid trig l hb with hb | ⟨tick, x, rest, hrun, -⟩
      · exact hs.present b hb hptr
      · exact absurd hrun (hl tick)
    · intro r hr a ha hptr
      rcases closures_step hid trig l hr with hr | ⟨r', -, rfl⟩
      · exact hs.coming r hr a ha hptr
      · -- A new object has another identity.
        have hnew := Request.ptr_of_allocate ha
        exact absurd (hptr.symm.trans hnew) (Nat.ne_of_lt hs.lt_nextPtr)
  rcases l with r | timer | tick
  · exact hwait (.request r) fun tick h => by cases h
  · exact hwait (.expire timer) fun tick h => by cases h
  · exact hs.run trig tick

/-- An action has been constructed at `now`, and `r` was posted to add it. -/
def added (trig : Trig) (now : ℚ) (r : Request W) (h : ActionHandler W) : Watch W where
  handler := h.step trig (.request r)
  clock := now

/-- A process that has ended does nothing more. -/
theorem handler_of_terminated (trig : Trig) (hend : s.handler.terminated = true)
    (ls : List (Label W)) : (Runs.run (step trig ptr) s ls).handler = s.handler := by
  apply run_invariant (P := fun s' : Watch W => s'.handler = s.handler) _ rfl ls
  intro s' l hs'
  have hstep : s'.handler.step trig l = s.handler := by
    rw [hs']
    exact if_pos hend
  rcases l with r | timer | tick
  · exact hstep
  · exact hstep
  · exact hstep

/-- A new action is in phase while its request waits. -/
theorem phased_added {h : ActionHandler W} (hid : Identities h) (halive : h.terminated = false)
    (trig : Trig) (now : ℚ) {r : Request W} {a : Action W} (hr : r.action = some a)
    (hrunning : a.paused = false) (hphase : a.InPhase now 0) :
    Phased h.nextPtr (added trig now r h) := by
  have hpost : h.step trig (.request r) = { h with loop := h.loop.post (r.allocate h.nextPtr).1,
                                                   nextPtr := (r.allocate h.nextPtr).2 } := by
    unfold ActionHandler.step
    exact if_neg (by rw [halive]; decide)
  have hnext : (r.allocate h.nextPtr).1.action = some { a with ptr := h.nextPtr } ∧
      (r.allocate h.nextPtr).2 = h.nextPtr + 1 := by
    rcases r with b | b | _ | _ | _ | _
    · cases hr
      exact ⟨rfl, rfl⟩
    · cases hr
      exact ⟨rfl, rfl⟩
    · cases hr
    · cases hr
    · cases hr
    · cases hr
  refine ⟨hid.preserved trig (.request r), ?_, ?_, ?_⟩
  · change h.nextPtr < (h.step trig (.request r)).nextPtr
    rw [hpost, hnext.2]
    exact Nat.lt_succ_self _
  · intro b hb hptr
    change b ∈ (h.step trig (.request r)).actions at hb
    rw [hpost] at hb
    have hlt := hid.lt_nextPtr b.ptr (List.mem_append_left _ (List.mem_map_of_mem hb))
    exact absurd hptr (Nat.ne_of_lt hlt)
  · intro r' hr' b hb hptr
    rcases closures_step hid trig (.request r) hr' with hr' | ⟨r'', hl, rfl⟩
    · have hcoming : b.ptr ∈ h.arriving :=
        List.mem_filterMap.mpr ⟨r', hr', Request.added_of_action hb⟩
      have hlt := hid.lt_nextPtr b.ptr (List.mem_append_right _ hcoming)
      exact absurd hptr (Nat.ne_of_lt hlt)
    · cases hl
      rw [hnext.1] at hb
      cases hb
      exact ⟨hrunning, hphase.congr rfl fun p hp => ⟨p, hp, rfl, rfl⟩⟩

end Watch

/-! ### The phase -/

section

variable (trig : Trig) (now : ℚ) (interface : String) (msgId : BitVec 64) (msgName : String)
  (interval : Int) (encodeFn : ℚ → W → Bytes × W) (amplitude : ℚ) (sinPeriod : Int) (offset : ℚ)

/-- **The phase of a sin action.** A sin action is constructed at `now` in any state of any run, and
added running or paused; then anything may happen, at any clock readings. Whenever it is not paused,
in particular when it fires, the time that it computes its value from is the time during which
`paused_` was false since the construction. -/
theorem elapsedSeconds_eq_unpaused (world : W) (before after : List (ActionHandler.Label W))
    (r : Request W)
    (hr : r.action =
      some (Action.newSin now interface msgId msgName interval encodeFn amplitude sinPeriod offset))
    (tick : Tick) (a : Action W) :
    let h := run (ActionHandler.step trig) (ActionHandler.init world) before
    let s := run (Watch.step trig h.nextPtr) (Watch.added trig now r h) after
    s.handler.find h.nextPtr = some a → a.paused = false →
      ∃ p, a.sinParams = some p ∧
        p.elapsedSeconds tick.now = (s.step trig h.nextPtr (.run tick)).unpaused ∧
        p.value trig tick.now = p.amplitude * trig.sin (p.omega trig *
          (s.step trig h.nextPtr (.run tick)).unpaused) + p.offset := by
  intro h s hfind hrunning
  have hid : ActionHandler.Identities h := ActionHandler.identities_of_run trig world before
  obtain ⟨hptr, -⟩ := ActionHandler.mem_flags_of_find hfind
  have ha := List.mem_of_find?_eq_some hfind
  have halive : h.terminated = false := by
    -- A process that has ended has no action with a new identity.
    by_contra hend
    have hend : h.terminated = true := (Bool.not_eq_false _).mp hend
    have hstep : h.step trig (.request r) = h := if_pos hend
    have hsame : s.handler = h := by
      refine (Watch.handler_of_terminated trig ?_ after).trans hstep
      change (h.step trig (.request r)).terminated = true
      rwa [hstep]
    rw [hsame] at ha
    have hlt := hid.lt_nextPtr a.ptr (List.mem_append_left _ (List.mem_map_of_mem ha))
    exact absurd hptr (Nat.ne_of_lt hlt)
  have hnew : Action.InPhase now 0
      (Action.newSin now interface msgId msgName interval encodeFn amplitude sinPeriod offset) :=
    ⟨_, rfl, by simp [Action.newSin]⟩
  have hphased : s.Phased h.nextPtr := by
    apply run_invariant (P := Watch.Phased h.nextPtr) (fun s l hs => hs.preserved trig l)
    exact Watch.phased_added hid halive trig now hr rfl hnew
  obtain ⟨p, hp, htotal⟩ := hphased.present a ha hptr
  have hflag : Watch.pausedFlag h.nextPtr s.handler = false := by
    rw [Watch.pausedFlag, hfind]
    exact hrunning
  have helapsed : p.elapsedSeconds tick.now = (s.step trig h.nextPtr (.run tick)).unpaused := by
    change _ = s.unpaused + if Watch.pausedFlag h.nextPtr s.handler then 0 else tick.now - s.clock
    rw [hflag, htotal, hrunning, SinParams.elapsedSeconds]
    simp only [Bool.false_eq_true, if_false]
    ring
  refine ⟨p, hp, helapsed, ?_⟩
  rw [SinParams.value, helapsed]

end

/-! A sin action of a preset: constructed at 0 s, paused when it is added at 1 s, resumed at 5 s. -/

def sweepFn (value : ℚ) (w : Unit) : Bytes × Unit := ([BitVec.ofInt 8 (truncate value)], w)

def sweep : Request Unit :=
  .addActionPaused (Action.newSin 0 "vcan0" 513 "Sweep" 100 sweepFn 10 2000 0)

/-- The second handler is that of the wait which the pause has aborted. -/
def resumedLate : List (ActionHandler.Label Unit) :=
  [.run (ActionHandler.tickAt 1), .request (.togglePause 0), .run (ActionHandler.tickAt 1),
    .run (ActionHandler.tickAt 5), .expire 0]

def watchedSweep : Watch Unit :=
  run (Watch.step ActionHandler.flatTrig 0)
    (Watch.added ActionHandler.flatTrig 0 sweep (ActionHandler.init ())) resumedLate

/-- When it fires at 6 s, it has been running for 2 s. -/
theorem elapsedSeconds_sweep :
    ∃ a p, watchedSweep.handler.find 0 = some a ∧ a.sinParams = some p ∧
      p.elapsedSeconds 6 = 2 := by
  have hany : (watchedSweep.handler.find 0).any (fun a => !a.paused) = true := by decide +kernel
  obtain ⟨a, hfind, hrunning⟩ := (Option.any_eq_true _ _).mp hany
  have hunpaused : (watchedSweep.step ActionHandler.flatTrig 0
      (.run (ActionHandler.tickAt 6))).unpaused = 2 := by decide +kernel
  obtain ⟨p, hp, helapsed, -⟩ := elapsedSeconds_eq_unpaused ActionHandler.flatTrig 0 "vcan0" 513
    "Sweep" 100 sweepFn 10 2000 0 () [] resumedLate sweep rfl (ActionHandler.tickAt 6) a hfind
    ((Bool.not_eq_true' _).mp hrunning)
  exact ⟨a, p, hfind, hp, helapsed.trans hunpaused⟩

end Caneo
