import Caneo.ActionObjects
import Caneo.ActionRequests
import Caneo.TimerChains

/-!
# A single action is sent once

A single action whose wait has completed may be paused and resumed before its handler runs, and then
it has a second wait. What keeps it from being sent twice is where the completions are queued:
the event loop looks for expired timers only at one place of its queue, the reactor's turn, which
comes after all handlers that were queued when it came last. So the handler that is already queued
runs before the second wait can complete (`Paced`), and it destroys the timer.
-/

namespace Caneo

open BitField EventLoop Runs

variable {W : Type}

/-- The handler, and how many entries of the queue come before the reactor's turn. -/
structure Reactor (W : Type) where
  handler : ActionHandler W
  ahead : Nat := 0

/-- A request is posted, the next handler runs, or it is the reactor's turn and it finds the timers
`expired`. -/
inductive Reactor.Label (W : Type) where
  | request (r : Request W)
  | run (tick : Tick)
  | poll (expired : List Nat)

namespace Reactor

open ActionHandler

def init (world : W) : Reactor W := { handler := ActionHandler.init world }

/-- The waits of these timers complete. -/
def expireAll (trig : Trig) (h : ActionHandler W) (expired : List Nat) : ActionHandler W :=
  Runs.run (ActionHandler.step trig) h (expired.map .expire)

/-- When it is the reactor's turn, no handler runs before it; afterwards it lines up again. -/
def step (trig : Trig) (s : Reactor W) (l : Label W) : Reactor W :=
  if s.handler.terminated then s else
    match l with
    | .request r => { s with handler := s.handler.step trig (.request r) }
    | .run tick =>
      match s.ahead with
      | 0 => s
      | ahead + 1 => { handler := s.handler.step trig (.run tick), ahead := ahead }
    | .poll expired =>
      if s.ahead = 0 then
        let h := expireAll trig s.handler expired
        { handler := h, ahead := h.loop.ready.length }
      else s

/-! ### Handlers append to the queue -/

section Append

variable {C : Type}

theorem prefix_complete (loop : Loop C) (t : Nat) (aborted : Bool) :
    loop.ready <+: (loop.complete t aborted).ready := List.prefix_append _ _

theorem prefix_schedule (loop : Loop C) (t : Nat) :
    loop.ready <+: ((loop.expiresAfter t).asyncWait t).ready := prefix_complete loop t true

end Append

theorem prefix_runTimer (trig : Trig) (tick : Tick) (h : ActionHandler W) (a : Action W) :
    h.loop.ready <+: (runTimer trig tick h a).loop.ready := by
  have heffect := timerEffect_runTimer trig tick h a
  generalize runTimer trig tick h a = h' at heffect ⊢
  cases heffect with
  | failed g b hready hthrows => simp [hready.loop]
  | done hsin hkind hsent =>
    change h.loop.ready <+: ((fire tick h a).loop.destroy a.ptr).ready
    rw [loop_fire]
    exact prefix_complete h.loop a.ptr true
  | rearmed g b hready hkind hsent =>
    rw [loop_schedule, loop_fire, hready.loop]
    exact prefix_schedule h.loop a.ptr

theorem prefix_runRequest (tick : Tick) (h : ActionHandler W) (r : Request W) :
    h.loop.ready <+: (runRequest tick h r).loop.ready := by
  have heffect := requestEffect_runRequest tick h r
  generalize runRequest tick h r = h' at heffect ⊢
  cases heffect with
  | added a => exact prefix_schedule h.loop a.ptr
  | addedPaused a => exact (prefix_schedule h.loop a.ptr).trans (prefix_complete _ a.ptr true)
  | removed idx a hget =>
    exact (prefix_complete h.loop a.ptr true).trans (prefix_complete _ a.ptr true)
  | resumed idx a hget hpaused => exact prefix_schedule h.loop a.ptr
  | paused idx a hget hrunning => exact prefix_complete h.loop a.ptr true
  | _ => exact List.prefix_rfl

theorem prefix_runReady (trig : Trig) (tick : Tick) (h : ActionHandler W)
    (x : Ready (Request W)) : h.loop.ready <+: (runReady trig tick h x).loop.ready := by
  rcases x with r | ⟨ptr, aborted⟩
  · exact prefix_runRequest tick h r
  · cases aborted with
    | true => exact List.prefix_rfl
    | false =>
      simp only [runReady]
      split
      · exact List.prefix_rfl
      · exact prefix_runTimer trig tick h _

/-! ### The pace of the timers -/

/-- No timer has two waits or two successful completions, those that it has come before the
reactor's turn, and an identity that was not given out has neither these nor calls. -/
structure Paced (s : Reactor W) : Prop where
  identities : Identities s.handler
  pending_le : ∀ t, s.handler.loop.pending t ≤ 1
  queued_le : ∀ t, s.handler.loop.queued t ≤ 1
  ahead : ∀ x ∈ s.handler.loop.ready.drop s.ahead, ∀ t, x.succeeds t = false
  unborn : ∀ t, s.handler.nextPtr ≤ t → s.handler.loop.pending t = 0 ∧
    s.handler.loop.queued t = 0 ∧ s.handler.callsBy t = []

theorem paced_init (world : W) : Paced (init world) where
  identities := identities_init world
  pending_le _ := Nat.zero_le 1
  queued_le _ := Nat.zero_le 1
  ahead x hx := by cases hx
  unborn _ _ := ⟨rfl, rfl, rfl⟩

/-- A change leaves the waits of an object that is neither in the list nor on its way. -/
theorem pending_change_of_absent {tick : Tick} {h : ActionHandler W} {x : Ready (Request W)}
    {rest : List (Ready (Request W))} (hready : h.loop.ready = x :: rest) {t : Nat}
    (hlist : t ∉ h.ptrs) (hcoming : t ∉ h.arriving) (w : Nat → Nat) :
    (change tick h x).pending w t = w t := by
  have hother : ∀ q n, q ∈ h.ptrs ∨ q ∈ h.arriving → Function.update w q n t = w t := by
    intro q n hq
    apply Function.update_of_ne
    rintro rfl
    rcases hq with hq | hq
    · exact hlist hq
    · exact hcoming hq
  have hsubject : ∀ q, (change tick h x).subject = some q → q ∈ h.ptrs := fun q hq =>
    mem_ptrs_of_subject tick x hq
  rcases hc : change tick h x with _ | ⟨q, flag, waits⟩ | q | q | q | q
  · rfl
  · obtain ⟨r, rfl, hadded⟩ := change_added hc
    exact hother q waits (Or.inr (mem_arriving_of_ready hready hadded))
  · exact hother q 0 (Or.inl (hsubject q (by rw [hc]; rfl)))
  · exact hother q 0 (Or.inl (hsubject q (by rw [hc]; rfl)))
  · exact hother q 1 (Or.inl (hsubject q (by rw [hc]; rfl)))
  · exact hother q 1 (Or.inl (hsubject q (by rw [hc]; rfl)))

variable {s : Reactor W}

theorem absent_of_unborn {h : ActionHandler W} (hid : Identities h) {t : Nat} (ht : h.nextPtr ≤ t) :
    t ∉ h.ptrs ∧ t ∉ h.arriving := by
  constructor
  · intro hmem
    exact absurd (hid.lt_nextPtr t (List.mem_append_left _ hmem)) (Nat.not_lt_of_le ht)
  · intro hmem
    exact absurd (hid.lt_nextPtr t (List.mem_append_right _ hmem)) (Nat.not_lt_of_le ht)

theorem Paced.run (hs : Paced s) (trig : Trig) (tick : Tick) {x : Ready (Request W)}
    {rest : List (Ready (Request W))} {ahead : Nat} (hready : s.handler.loop.ready = x :: rest)
    (hahead : s.ahead = ahead + 1) :
    Paced { handler := runReady trig tick { s.handler with loop := s.handler.loop.popped rest } x,
            ahead := ahead } := by
  have hid := hs.identities
  have hlife := hid.life_of_run trig tick hready
  have hsplit := Loop.queued_of_ready hready
  have hqueued : ∀ t, (s.handler.loop.popped rest).queued t ≤ s.handler.loop.queued t := by
    intro t
    rw [hsplit t]
    exact Nat.le_add_right _ _
  refine ⟨identities_run hid trig tick hready, ?_, ?_, ?_, ?_⟩
  · intro t
    rw [hlife.pending]
    exact pending_change_le tick s.handler x hs.pending_le t
  · intro t
    rw [hlife.queued]
    exact (hqueued t).trans (hs.queued_le t)
  · intro y hy t
    -- What a handler appends is not a success: the number of successes stays.
    obtain ⟨extra, hextra⟩ := prefix_runReady trig tick
      { s.handler with loop := s.handler.loop.popped rest } x
    have hcount := hlife.queued t
    have hextra : (runReady trig tick { s.handler with loop := s.handler.loop.popped rest }
        x).loop.ready = rest ++ extra := hextra.symm
    have hnone : extra.countP (·.succeeds t) = 0 := by
      unfold Loop.queued at hcount
      rw [hextra, List.countP_append] at hcount
      exact Nat.add_left_cancel hcount
    rw [hextra, List.drop_append] at hy
    rcases List.mem_append.mp hy with hy | hy
    · apply hs.ahead y _ t
      rw [hready, hahead]
      exact hy
    · have hy := List.mem_of_mem_drop hy
      have hfalse := List.countP_eq_zero.mp hnone y hy
      exact (Bool.not_eq_true _).mp hfalse
  · intro t ht
    rw [hlife.nextPtr] at ht
    obtain ⟨hpending, hq, hcalls⟩ := hs.unborn t ht
    obtain ⟨hlist, hcoming⟩ := absent_of_unborn hid ht
    have hx : x.succeeds t = false :=
      Loop.queued_eq_zero_iff.mp hq x (by rw [hready]; exact List.mem_cons_self)
    refine ⟨?_, ?_, ?_⟩
    · rw [hlife.pending, pending_change_of_absent hready hlist hcoming]
      exact hpending
    · rw [hlife.queued]
      exact Nat.le_zero.mp (hq ▸ hqueued t)
    · rw [callsBy_runReady trig tick hx]
      exact hcalls

theorem step_request {h : ActionHandler W} (halive : h.terminated = false) (trig : Trig)
    (r : Request W) : h.step trig (.request r) =
      { h with loop := h.loop.post (r.allocate h.nextPtr).1,
               nextPtr := (r.allocate h.nextPtr).2 } := by
  unfold ActionHandler.step
  exact if_neg (by rw [halive]; decide)

theorem step_expire {h : ActionHandler W} (halive : h.terminated = false) (trig : Trig)
    (timer : Nat) : h.step trig (.expire timer) = { h with loop := h.loop.expire timer } := by
  unfold ActionHandler.step
  exact if_neg (by rw [halive]; decide)

theorem step_run {h : ActionHandler W} (halive : h.terminated = false) (trig : Trig) (tick : Tick)
    {x : Ready (Request W)} {rest : List (Ready (Request W))} (hready : h.loop.ready = x :: rest) :
    h.step trig (.run tick) = runReady trig tick { h with loop := h.loop.popped rest } x := by
  unfold ActionHandler.step
  rw [if_neg (by rw [halive]; decide)]
  simp only [hready]

theorem Paced.request (hs : Paced s) (halive : s.handler.terminated = false) (trig : Trig)
    (r : Request W) : Paced { s with handler := s.handler.step trig (.request r) } := by
  have hid := hs.identities.preserved trig (.request r)
  have hle := nextPtr_le_step hs.identities trig (.request r)
  rw [step_request halive] at hid hle ⊢
  refine ⟨hid, hs.pending_le, ?_, ?_, ?_⟩
  · intro t
    change (s.handler.loop.post _).queued t ≤ 1
    rw [Loop.queued_post]
    exact hs.queued_le t
  · intro x hx t
    change x ∈ (s.handler.loop.ready ++ [_]).drop s.ahead at hx
    rw [List.drop_append] at hx
    rcases List.mem_append.mp hx with hx | hx
    · exact hs.ahead x hx t
    · rw [List.mem_singleton.mp (List.mem_of_mem_drop hx)]
      rfl
  · intro t ht
    obtain ⟨hpending, hqueued, hcalls⟩ := hs.unborn t (hle.trans ht)
    refine ⟨hpending, ?_, hcalls⟩
    change (s.handler.loop.post _).queued t = 0
    rw [Loop.queued_post]
    exact hqueued

/-- While the reactor looks at the timers, a wait becomes a completion. -/
structure Polling (h : ActionHandler W) : Prop where
  alive : h.terminated = false
  identities : Identities h
  waits : ∀ t, h.loop.pending t + h.loop.queued t ≤ 1
  unborn : ∀ t, h.nextPtr ≤ t → h.loop.pending t = 0 ∧ h.loop.queued t = 0 ∧ h.callsBy t = []

theorem Polling.expire {h : ActionHandler W} (hp : Polling h) (trig : Trig) (timer : Nat) :
    Polling (h.step trig (.expire timer)) := by
  have hid := hp.identities.preserved trig (.expire timer)
  rw [step_expire hp.alive] at hid ⊢
  have hwaits : ∀ t, (h.loop.expire timer).pending t + (h.loop.expire timer).queued t =
      h.loop.pending t + h.loop.queued t := by
    intro t
    rw [Loop.pending_expire, Loop.queued_expire]
    by_cases ht : t = timer
    · rw [if_pos ht, if_pos ht, ht]
      omega
    · rw [if_neg ht, if_neg ht]
      rfl
  refine ⟨hp.alive, hid, ?_, ?_⟩
  · intro t
    exact (hwaits t).trans_le (hp.waits t)
  · intro t ht
    obtain ⟨hpending, hqueued, hcalls⟩ := hp.unborn t ht
    have hnone := hwaits t
    rw [hpending, hqueued] at hnone
    exact ⟨(Nat.add_eq_zero_iff.mp hnone).1, (Nat.add_eq_zero_iff.mp hnone).2, hcalls⟩

theorem Polling.expireAll {h : ActionHandler W} (hp : Polling h) (trig : Trig)
    (expired : List Nat) : Polling (expireAll trig h expired) := by
  unfold Reactor.expireAll
  induction expired generalizing h with
  | nil => exact hp
  | cons timer expired ih => exact ih (hp.expire trig timer)

/-- When it is the reactor's turn, no completion is left from the last one. -/
theorem Paced.polling (hs : Paced s) (halive : s.handler.terminated = false)
    (hturn : s.ahead = 0) : Polling s.handler := by
  refine ⟨halive, hs.identities, ?_, hs.unborn⟩
  intro t
  have hqueued : s.handler.loop.queued t = 0 := by
    apply Loop.queued_eq_zero_iff.mpr
    intro x hx
    apply hs.ahead x _ t
    rwa [hturn, List.drop_zero]
  rw [hqueued]
  exact hs.pending_le t

theorem Polling.paced {h : ActionHandler W} (hp : Polling h) :
    Paced { handler := h, ahead := h.loop.ready.length } := by
  refine ⟨hp.identities, ?_, ?_, ?_, hp.unborn⟩
  · intro t
    exact (Nat.le_add_right _ _).trans (hp.waits t)
  · intro t
    exact (Nat.le_add_left _ _).trans (hp.waits t)
  · intro x hx
    rw [List.drop_length] at hx
    cases hx

/-- What a step does to the handler. -/
theorem step_cases (trig : Trig) (s : Reactor W) (l : Label W) :
    s.step trig l = s ∨
    (s.handler.terminated = false ∧
      ((∃ r, l = .request r ∧ s.step trig l = { s with handler := s.handler.step trig (.request r) }) ∨
      (∃ tick ahead, l = .run tick ∧ s.ahead = ahead + 1 ∧ s.handler.loop.ready = [] ∧
        s.step trig l = { s with ahead := ahead }) ∨
      (∃ tick ahead x rest, l = .run tick ∧ s.ahead = ahead + 1 ∧
        s.handler.loop.ready = x :: rest ∧
        s.step trig l =
          { handler := runReady trig tick { s.handler with loop := s.handler.loop.popped rest } x,
            ahead := ahead }) ∨
      (∃ expired, l = .poll expired ∧ s.ahead = 0 ∧
        s.step trig l =
          { handler := expireAll trig s.handler expired,
            ahead := (expireAll trig s.handler expired).loop.ready.length }))) := by
  by_cases hend : s.handler.terminated = true
  · left
    exact if_pos hend
  have halive : s.handler.terminated = false := (Bool.not_eq_true _).mp hend
  rcases l with r | tick | expired
  · exact Or.inr ⟨halive, Or.inl ⟨r, rfl, if_neg hend⟩⟩
  · rcases hahead : s.ahead with _ | ahead
    · left
      unfold step
      rw [if_neg hend]
      simp only [hahead]
    · have hstep : s.step trig (.run tick) =
          { handler := s.handler.step trig (.run tick), ahead := ahead } := by
        unfold step
        rw [if_neg hend]
        simp only [hahead]
      right
      refine ⟨halive, Or.inr ?_⟩
      rcases hready : s.handler.loop.ready with _ | ⟨x, rest⟩
      · refine Or.inl ⟨tick, ahead, rfl, rfl, rfl, hstep.trans ?_⟩
        simp only [ActionHandler.step, halive, hready]
        rfl
      · refine Or.inr (Or.inl ⟨tick, ahead, x, rest, rfl, rfl, rfl, hstep.trans ?_⟩)
        rw [step_run halive trig tick hready]
  · have hstep : s.step trig (.poll expired) = if s.ahead = 0 then
        { handler := expireAll trig s.handler expired,
          ahead := (expireAll trig s.handler expired).loop.ready.length } else s := if_neg hend
    by_cases hturn : s.ahead = 0
    · rw [if_pos hturn] at hstep
      exact Or.inr ⟨halive, Or.inr (Or.inr (Or.inr ⟨expired, rfl, hturn, hstep⟩))⟩
    · rw [if_neg hturn] at hstep
      exact Or.inl hstep

theorem Paced.preserved (hs : Paced s) (trig : Trig) (l : Label W) : Paced (s.step trig l) := by
  rcases step_cases trig s l with he | ⟨halive, ⟨r, -, he⟩ | ⟨tick, ahead, -, -, hready, he⟩ |
    ⟨tick, ahead, x, rest, -, hahead, hready, he⟩ | ⟨expired, -, hturn, he⟩⟩
  · rwa [he]
  · rw [he]
    exact hs.request halive trig r
  · rw [he]
    refine ⟨hs.identities, hs.pending_le, hs.queued_le, ?_, hs.unborn⟩
    intro x hx
    rw [hready, List.drop_nil] at hx
    cases hx
  · rw [he]
    exact hs.run trig tick hready hahead
  · rw [he]
    exact ((hs.polling halive hturn).expireAll trig expired).paced

/-! ### One shot -/

/-- What cannot come back: the action is not in the list, and nothing of it is under way. -/
structure Gone (ptr : Nat) (h : ActionHandler W) : Prop where
  quiet : Quiet ptr h
  absent : ptr ∉ h.ptrs

theorem Gone.preserved {h : ActionHandler W} {ptr : Nat} (hg : Gone ptr h) (hid : Identities h)
    (trig : Trig) (l : ActionHandler.Label W) : Gone ptr (h.step trig l) := by
  have hmoved : Moved 0 ptr (h.step trig l) :=
    Moved.preserved ⟨hg.quiet.known, Or.inl hg.absent⟩ hid trig l
  refine ⟨hg.quiet.preserved hid trig ?_, ?_⟩
  · intro hres
    rcases ActionHandler.step_cases trig h l with ⟨-, hc⟩ | ⟨r, -, hc, -⟩ | ⟨timer, -, hc, -⟩ |
      ⟨tick, x, rest, -, -, -, hc, -⟩
    · cases hc.symm.trans hres
    · cases hc.symm.trans hres
    · cases hc.symm.trans hres
    · apply hg.absent
      apply mem_ptrs_of_subject tick x
      rw [← hc, hres]
      rfl
  · rcases hmoved.place with habsent | ⟨i, hi, -⟩
    · exact habsent
    · exact absurd hi (Nat.not_lt_zero i)

/-- `ptr` is a single action, which has not been sent, or once, and then it is gone. -/
structure OneShot (ptr : Nat) (h : ActionHandler W) : Prop where
  lt_nextPtr : ptr < h.nextPtr
  present : ∀ a ∈ h.actions, a.ptr = ptr → a.kind = .single
  coming : ∀ r ∈ h.loop.closures, ∀ a, r.action = some a → a.ptr = ptr → a.kind = .single
  calls : h.callsBy ptr = [] ∨ ∃ call, h.callsBy ptr = [call] ∧ Gone ptr h

theorem kind_eq_single_iff (a : Action W) : a.kind = .single ↔ a.typeName = "Single" := by
  unfold Action.typeName
  rcases a.kind with _ | period | p
  · exact iff_of_true rfl rfl
  · exact iff_of_false (fun h => by cases h) (by simp)
  · exact iff_of_false (fun h => by cases h) (by simp)

/-- An action keeps its type. -/
theorem kind_touched {now : ℚ} {x : Ready (Request W)} {a b : Action W} (h : a.kind = .single)
    (ht : Touched now x a b) : b.kind = .single := by
  rw [kind_eq_single_iff] at h ⊢
  rwa [ht.fixed Action.fixed_typeName]

namespace OneShot

variable {h : ActionHandler W} {ptr : Nat}

/-- The handler of its completion sends it, and then it is gone. -/
theorem gone_of_fires (ho : OneShot ptr h) (hid : Identities h) (trig : Trig) {tick : Tick}
    (hsend : tick.throws = false) (hqueued : h.loop.queued ptr ≤ 1)
    {rest : List (Ready (Request W))} (hready : h.loop.ready = .completion ptr false :: rest)
    {a : Action W} (hfind : h.find ptr = some a)
    (halive : h.terminated = false) :
    ∃ call, (h.step trig (.run tick)).callsBy ptr = [call] ∧ Gone ptr (h.step trig (.run tick)) := by
  obtain ⟨hptr, -⟩ := mem_flags_of_find hfind
  have hmem : ptr ∈ h.ptrs := by
    by_contra hne
    rw [find_eq_none_iff.mpr hne] at hfind
    cases hfind
  have hkind := ho.present a (List.mem_of_find?_eq_some hfind) hptr
  have hthrows : ¬ tick.throws = true := by
    rw [hsend]
    exact Bool.false_ne_true
  have hnone : h.callsBy ptr = [] := by
    rcases ho.calls with hnone | ⟨call, -, hgone⟩
    · exact hnone
    · exact absurd hmem hgone.absent
  have hfind' : ActionHandler.find { h with loop := h.loop.popped rest } ptr = some a := hfind
  have hcalls : (h.step trig (.run tick)).calls = h.calls ++ [SendCall.ofAction a tick.throws] := by
    rw [step_run halive trig tick hready]
    simp only [runReady, hfind', runTimer, hkind]
    rw [if_neg hthrows]
    exact calls_fire ..
  have hchange : change tick h (.completion ptr false) = .erased ptr := by
    simp only [change, hfind, hkind]
    rw [if_neg hthrows]
  have hlife := hid.life_of_run trig tick hready
  rw [hchange, ← step_run halive trig tick hready] at hlife
  refine ⟨SendCall.ofAction a tick.throws, ?_, ⟨?_, ?_, ?_⟩, ?_⟩
  · unfold callsBy at hnone ⊢
    rw [hcalls, List.filter_append, hnone, List.nil_append]
    have hcall : (SendCall.ofAction a tick.throws).ptr = ptr := hptr
    exact List.filter_cons_of_pos (by simpa using hcall)
  · rw [hlife.pending]
    exact Function.update_self ..
  · have hsplit := Loop.queued_of_ready hready ptr
    have hsucceeds : (Ready.completion ptr false : Ready (Request W)).succeeds ptr = true := by
      simp [Ready.succeeds]
    rw [if_pos hsucceeds] at hsplit
    rw [hlife.queued]
    change (h.loop.popped rest).queued ptr = 0
    omega
  · exact (hid.known hmem).preserved hid trig (.run tick)
  · rw [← map_fst_flags, hlife.flags]
    simp [Change.flags]

theorem preserved (ho : OneShot ptr h) (hid : Identities h) (trig : Trig)
    (l : ActionHandler.Label W)
    (hrun : ∀ tick, l = .run tick → tick.throws = false ∧ h.loop.queued ptr ≤ 1) :
    OneShot ptr (h.step trig l) := by
  refine ⟨ho.lt_nextPtr.trans_le (nextPtr_le_step hid trig l), ?_, ?_, ?_⟩
  · intro b hb hptr
    rcases touched_step hid trig l hb with hb | ⟨tick, x, rest, -, -, hready, hfrom⟩
    · exact ho.present b hb hptr
    · rcases hfrom with ⟨a, ha, htouched⟩ | hadded
      · exact kind_touched (ho.present a ha (htouched.ptr_eq ▸ hptr)) htouched
      · obtain ⟨r, a, rfl, ha, haptr, htype⟩ := hadded.fixed Action.fixed_typeName
        have hr : r ∈ h.loop.closures := by
          rw [Loop.closures_of_posted hready]
          exact List.mem_cons_self
        rw [kind_eq_single_iff, ← htype, ← kind_eq_single_iff]
        exact ho.coming r hr a ha (haptr.trans hptr)
  · intro r hr a ha hptr
    rcases closures_step hid trig l hr with hr | ⟨r', -, rfl⟩
    · exact ho.coming r hr a ha hptr
    · have hnew := Request.ptr_of_allocate ha
      exact absurd (hptr.symm.trans hnew) (Nat.ne_of_lt ho.lt_nextPtr)
  · rcases ho.calls with hnone | ⟨call, hcall, hgone⟩
    · rcases ActionHandler.step_cases trig h l with ⟨hs, -⟩ | ⟨r, -, -, hs⟩ | ⟨timer, -, -, hs⟩ |
        ⟨tick, x, rest, rfl, halive, hready, -, hs⟩
      · rw [hs]
        exact Or.inl hnone
      · rw [hs]
        exact Or.inl hnone
      · rw [hs]
        exact Or.inl hnone
      · by_cases hx : x.succeeds ptr = true
        · obtain ⟨hsend, hqueued⟩ := hrun tick rfl
          have hx : x = .completion ptr false := by
            rcases x with c | ⟨t, aborted⟩
            · cases hx
            · obtain ⟨rfl, rfl⟩ : t = ptr ∧ aborted = false := by simpa [Ready.succeeds] using hx
              rfl
          subst hx
          rcases hfind : h.find ptr with _ | a
          · -- It was removed, and its completion dangles.
            left
            have hfind' : ActionHandler.find { h with loop := h.loop.popped rest } ptr = none :=
              hfind
            rw [hs]
            simp only [runReady, hfind']
            exact hnone
          · exact Or.inr (ho.gone_of_fires hid trig hsend hqueued hready hfind halive)
        · left
          rw [hs, callsBy_runReady trig tick ((Bool.not_eq_true _).mp hx)]
          exact hnone
    · right
      refine ⟨call, ?_, hgone.preserved hid trig l⟩
      rw [hgone.quiet.callsBy_step trig l]
      exact hcall

end OneShot

/-! ### Runs -/

/-- What every step of the handler preserves, every step of the reactor does. -/
theorem handler_preserved {P : ActionHandler W → Prop} (trig : Trig)
    (hstep : ∀ h l, P h → P (ActionHandler.step trig h l)) {s : Reactor W} (hs : P s.handler)
    (l : Label W) : P (s.step trig l).handler := by
  rcases step_cases trig s l with he | ⟨halive, ⟨r, -, he⟩ | ⟨tick, ahead, -, -, -, he⟩ |
    ⟨tick, ahead, x, rest, -, -, hready, he⟩ | ⟨expired, -, -, he⟩⟩
  · rwa [he]
  · rw [he]
    exact hstep s.handler (.request r) hs
  · rw [he]
    exact hs
  · rw [he, ← step_run halive trig tick hready]
    exact hstep s.handler (.run tick) hs
  · rw [he]
    exact run_invariant hstep hs _

theorem OneShot.expireAll {h : ActionHandler W} {ptr : Nat} (ho : OneShot ptr h)
    (hid : Identities h) (trig : Trig) (expired : List Nat) :
    OneShot ptr (expireAll trig h expired) := by
  unfold Reactor.expireAll
  induction expired generalizing h with
  | nil => exact ho
  | cons timer expired ih =>
    exact ih (ho.preserved hid trig (.expire timer) fun tick hl => by cases hl)
      (hid.preserved trig (.expire timer))

theorem OneShot.step {s : Reactor W} {ptr : Nat} (ho : OneShot ptr s.handler) (hs : Paced s)
    (trig : Trig) {l : Label W} (hsend : ∀ tick, l = .run tick → tick.throws = false) :
    OneShot ptr (s.step trig l).handler := by
  have hid := hs.identities
  rcases step_cases trig s l with he | ⟨halive, ⟨r, -, he⟩ | ⟨tick, ahead, -, -, -, he⟩ |
    ⟨tick, ahead, x, rest, hl, -, hready, he⟩ | ⟨expired, -, -, he⟩⟩
  · rwa [he]
  · rw [he]
    exact ho.preserved hid trig (.request r) fun tick hl => by cases hl
  · rw [he]
    exact ho
  · rw [he, ← step_run halive trig tick hready]
    apply ho.preserved hid trig (.run tick)
    intro tick' htick
    cases htick
    exact ⟨hsend tick hl, hs.queued_le ptr⟩
  · rw [he]
    exact ho.expireAll hid trig expired

theorem OneShot.run {s : Reactor W} {ptr : Nat} (ho : OneShot ptr s.handler) (hs : Paced s)
    (trig : Trig) {ls : List (Label W)}
    (hsends : ∀ tick, .run tick ∈ ls → tick.throws = false) :
    OneShot ptr (Runs.run (Reactor.step trig) s ls).handler := by
  induction ls generalizing s with
  | nil => exact ho
  | cons l ls ih =>
    apply ih _ (hs.preserved trig l)
    · exact fun tick hmem => hsends tick (List.mem_cons_of_mem l hmem)
    · apply ho.step hs trig
      rintro tick rfl
      exact hsends tick List.mem_cons_self

/-- A single action on its way. -/
theorem oneShot_request {s : Reactor W} (hs : Paced s) (halive : s.handler.terminated = false)
    (trig : Trig) {r : Request W} {a : Action W} (hr : r.action = some a) (ha : a.kind = .single) :
    OneShot s.handler.nextPtr (s.handler.step trig (.request r)) := by
  have hid := hs.identities
  have hpost := step_request halive trig r
  refine ⟨?_, ?_, ?_, ?_⟩
  · rw [hpost]
    rcases r with b | b | _ | _ | _ | _
    · exact Nat.lt_succ_self _
    · exact Nat.lt_succ_self _
    · cases hr
    · cases hr
    · cases hr
    · cases hr
  · intro b hb hptr
    rw [hpost] at hb
    exact absurd (hptr ▸ List.mem_map_of_mem hb) (absent_of_unborn hid le_rfl).1
  · intro r' hr' b hb hptr
    rcases closures_step hid trig (.request r) hr' with hr' | ⟨r'', hl, rfl⟩
    · have hcoming : b.ptr ∈ s.handler.arriving :=
        List.mem_filterMap.mpr ⟨r', hr', Request.added_of_action hb⟩
      exact absurd (hptr ▸ hcoming) (absent_of_unborn hid le_rfl).2
    · cases hl
      rcases r with c | c | _ | _ | _ | _
      · cases hr
        cases hb
        exact ha
      · cases hr
        cases hb
        exact ha
      · cases hr
      · cases hr
      · cases hr
      · cases hr
  · left
    rw [hpost]
    exact (hs.unborn s.handler.nextPtr le_rfl).2.2

/-- **A single action is sent at most once.** In any state of any run a single action is requested,
running or paused. Whatever requests, expiries and handlers follow, in an order that the event loop
allows, and if no send throws: its payload is sent at most once, and from the handler that sent it
on the action is neither in the list nor in the snapshot, which shows just the list. -/
theorem single_sent_once (trig : Trig) (world : W) (before after : List (Label W)) (r : Request W)
    (interface : String) (msgId : BitVec 64) (msgName : String) (payload : Bytes)
    (hr : r.action = some (Action.newSingle interface msgId msgName payload))
    (hsends : ∀ tick, .run tick ∈ after → tick.throws = false) :
    let s₀ := Runs.run (step trig) (init world) before
    let s := Runs.run (step trig) s₀ (.request r :: after)
    (s.handler.callsBy s₀.handler.nextPtr).length ≤ 1 ∧
      (s.handler.callsBy s₀.handler.nextPtr ≠ [] →
        s₀.handler.nextPtr ∉ s.handler.ptrs ∧
          s.handler.snapshot = s.handler.actions.mapIdx ActionInfo.ofAction) := by
  intro s₀ s
  have hpaced : Paced s₀ := run_invariant (fun _ l hs => hs.preserved trig l) (paced_init world) before
  have hsynced : Synced s.handler := by
    have hfirst : Synced s₀.handler :=
      run_invariant (P := fun s : Reactor W => Synced s.handler)
        (fun s l hs => handler_preserved trig (fun h l hh => hh.preserved trig l) hs l)
        (s := init world) rfl before
    exact run_invariant (P := fun s : Reactor W => Synced s.handler)
      (fun s l hs => handler_preserved trig (fun h l hh => hh.preserved trig l) hs l) hfirst _
  by_cases hend : s₀.handler.terminated = true
  · -- The process has ended: nothing is sent any more.
    have hsame : s = s₀ := by
      apply run_invariant (P := fun s => s = s₀) _ rfl
      rintro _ l rfl
      exact if_pos hend
    have hnone := (hpaced.unborn s₀.handler.nextPtr le_rfl).2.2
    rw [hsame, hnone]
    exact ⟨Nat.zero_le 1, fun hne => absurd rfl hne⟩
  · have halive : s₀.handler.terminated = false := (Bool.not_eq_true _).mp hend
    have hstep : s₀.step trig (.request r) =
        { s₀ with handler := s₀.handler.step trig (.request r) } := if_neg hend
    have hone : OneShot s₀.handler.nextPtr s.handler := by
      apply OneShot.run _ (hpaced.preserved trig (.request r)) trig hsends
      rw [hstep]
      exact oneShot_request hpaced halive trig hr rfl
    rcases hone.calls with hnone | ⟨call, hcall, hgone⟩
    · rw [hnone]
      exact ⟨Nat.zero_le 1, fun hne => absurd rfl hne⟩
    · rw [hcall]
      exact ⟨Nat.le_refl 1, fun _ => ⟨hgone.absent, hsynced⟩⟩

/-! Two toggles are posted while the wait of the action is pending, and run when it has completed. -/

def wake : Request Unit := .addAction (Action.newSingle "vcan0" 256 "Wake" [1])

def toggledWake : List (Label Unit) :=
  [.poll [], .run (tickAt 0), .request (.togglePause 0), .request (.togglePause 0), .poll [0],
    .run (tickAt 1), .run (tickAt 2), .run (tickAt 3), .poll [0], .run (tickAt 4)]

theorem toggledWake_sends : ∀ tick, Label.run tick ∈ toggledWake → tick.throws = false := by
  intro tick hmem
  simp only [toggledWake, List.mem_cons, Label.run.injEq, reduceCtorEq, List.not_mem_nil,
    or_false, false_or] at hmem
  rcases hmem with rfl | rfl | rfl | rfl | rfl <;> rfl

def wokenUp : Reactor Unit :=
  Runs.run (step flatTrig) (init ()) (.request wake :: toggledWake)

theorem single_sent_once_wake : (wokenUp.handler.callsBy 0).length = 1 ∧ 0 ∉ wokenUp.handler.ptrs := by
  have hne : wokenUp.handler.callsBy 0 ≠ [] := by decide +kernel
  obtain ⟨hle, hgone⟩ := single_sent_once flatTrig () [] toggledWake wake "vcan0" 256 "Wake" [1] rfl
    toggledWake_sends
  exact ⟨le_antisymm hle (List.length_pos_iff.mpr hne), (hgone hne).1⟩

end Reactor

end Caneo
