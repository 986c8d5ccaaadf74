import Caneo.ActionHandler

/-!
# Actions and their timers

What a handler of the action component does to the *life* of the actions is one of six changes: an
action is added, erased, paused, resumed or re-armed, or nothing happens. `change` reads the change
off the state before the handler, and `Life.of_runReady` proves that the handlers of
`ActionHandler` make it; all that is said here about pausing and erasing follows from there.

The timer handlers test their error code and nothing else, so a completion that is already queued
when its action is paused or erased still fires. `no_send_while_paused` and `no_dangling` say that
this race is the only way in which a pause or an erasure can fail to take hold.
-/

namespace Caneo

open BitField EventLoop Runs

/-- The action a posted closure will add. -/
def Request.added {W : Type} : Request W → Option Nat
  | .addAction a | .addActionPaused a => some a.ptr
  | .removeAction _ | .togglePause _ | .updateSinParam .. | .updatePayload .. => none

namespace ActionHandler

variable {W : Type}

/-- The actions that closures still in the queue will add. -/
def arriving (h : ActionHandler W) : List Nat := h.loop.closures.filterMap Request.added

/-! ### Changes -/

inductive Change where
  | nothing
  | added (ptr : Nat) (flag : Bool) (waits : Nat)
  | erased (ptr : Nat)
  | paused (ptr : Nat)
  | resumed (ptr : Nat)
  | rearmed (ptr : Nat)
deriving DecidableEq

namespace Change

def flags : Change → List (Nat × Bool) → List (Nat × Bool)
  | .nothing, l | .rearmed _, l => l
  | .added ptr flag _, l => l ++ [(ptr, flag)]
  | .erased ptr, l => l.filter fun x => x.1 ≠ ptr
  | .paused ptr, l => setFlag ptr true l
  | .resumed ptr, l => setFlag ptr false l

def pending : Change → (Nat → Nat) → Nat → Nat
  | .nothing, w => w
  | .added ptr _ waits, w => Function.update w ptr waits
  | .erased ptr, w | .paused ptr, w => Function.update w ptr 0
  | .resumed ptr, w | .rearmed ptr, w => Function.update w ptr 1

end Change

/-- The change that the handler `x` will make. -/
def change (tick : Tick) (h : ActionHandler W) : Ready (Request W) → Change
  | .posted (.addAction a) => .added a.ptr a.paused 1
  | .posted (.addActionPaused a) => .added a.ptr true 0
  | .posted (.removeAction idx) =>
    match h.actions[idx]? with
    | none => .nothing
    | some a => .erased a.ptr
  | .posted (.togglePause idx) =>
    match h.actions[idx]? with
    | none => .nothing
    | some a => if a.paused then .resumed a.ptr else .paused a.ptr
  | .posted (.updateSinParam ..) | .posted (.updatePayload ..) => .nothing
  | .completion _ true => .nothing
  | .completion ptr false =>
    match h.find ptr with
    | none => .nothing
    | some a =>
      if tick.throws then .nothing
      else match a.kind with
        | .single => .erased ptr
        | .periodic _ | .sin _ => .rearmed ptr

/-- `h'` is `h` after the change `c`, as far as the lives of the actions are concerned. -/
structure Life (c : Change) (h h' : ActionHandler W) : Prop where
  flags : h'.flags = c.flags h.flags
  pending : h'.loop.pending = c.pending h.loop.pending
  queued : ∀ ptr, h'.loop.queued ptr = h.loop.queued ptr
  closures : h'.loop.closures = h.loop.closures
  nextPtr : h'.nextPtr = h.nextPtr

/-- No two actions, here or on their way, are the same object. -/
structure Identities (h : ActionHandler W) : Prop where
  nodup : (h.ptrs ++ h.arriving).Nodup
  lt_nextPtr : ∀ ptr ∈ h.ptrs ++ h.arriving, ptr < h.nextPtr

theorem Life.nothing_of_eq {h h' : ActionHandler W} (hflags : h'.flags = h.flags)
    (hloop : h'.loop = h.loop) (hnext : h'.nextPtr = h.nextPtr) : Life .nothing h h' where
  flags := hflags
  pending := by rw [hloop]; rfl
  queued _ := by rw [hloop]
  closures := by rw [hloop]
  nextPtr := hnext

/-- Erasing by position is erasing by identity. -/
theorem eraseIdx_eq_filter {h : ActionHandler W} (hnodup : h.ptrs.Nodup) {idx : Nat}
    {a : Action W} (hidx : h.actions[idx]? = some a) :
    h.actions.eraseIdx idx = h.actions.filter fun b => b.ptr ≠ a.ptr := by
  unfold ptrs at hnodup
  generalize h.actions = l at hnodup hidx
  induction l generalizing idx with
  | nil => simp at hidx
  | cons b l ih =>
    obtain ⟨hb, hl⟩ := List.nodup_cons.mp hnodup
    cases idx with
    | zero =>
      obtain rfl : b = a := by simpa using hidx
      have hkeep : l.filter (fun c => c.ptr ≠ b.ptr) = l := by
        rw [List.filter_eq_self]
        intro c hc
        have hne : c.ptr ≠ b.ptr := fun e => hb (List.mem_map.mpr ⟨c, hc, e⟩)
        simpa using hne
      simpa using hkeep.symm
    | succ idx =>
      have hidx' : l[idx]? = some a := by simpa using hidx
      have hne : b.ptr ≠ a.ptr := fun e =>
        hb (List.mem_map.mpr ⟨a, List.mem_of_getElem? hidx', e.symm⟩)
      simpa [hne] using ih hl hidx'

theorem flags_eraseIdx {h : ActionHandler W} (hnodup : h.ptrs.Nodup) {idx : Nat} {a : Action W}
    (hidx : h.actions[idx]? = some a) :
    (h.actions.eraseIdx idx).map (fun a => (a.ptr, a.paused)) =
      h.flags.filter fun x => x.1 ≠ a.ptr := by
  rw [eraseIdx_eq_filter hnodup hidx, flags, List.filter_map]
  rfl

/-! ### The handlers make the change -/

theorem Life.of_runTimer (trig : Trig) (tick : Tick) {h : ActionHandler W} {a : Action W}
    (hfind : h.find a.ptr = some a) :
    Life (change tick h (.completion a.ptr false)) h (runTimer trig tick h a) := by
  have heffect := timerEffect_runTimer trig tick h a
  generalize runTimer trig tick h a = h' at heffect ⊢
  simp only [change, hfind]
  cases heffect with
  | failed g b hready hthrows =>
    rw [if_pos hthrows]
    apply Life.nothing_of_eq
    · rw [flags_fire, hready.flags]
    · rw [loop_fire, hready.loop]
    · rw [nextPtr_fire, hready.nextPtr]
  | done hsin hkind hsent =>
    simp only [hsent, hkind, Bool.false_eq_true, if_false]
    refine ⟨by simp [Change.flags], ?_, ?_, ?_, by simp [onActionDone]⟩
    · funext q
      by_cases hq : q = a.ptr <;> simp [onActionDone, Change.pending, hq]
    · intro q
      simp [onActionDone]
    · simp [onActionDone]
  | rearmed g b hready hkind hsent =>
    have hrearmed : Life (.rearmed a.ptr) h ((g.fire tick b).schedule a.ptr) := by
      refine ⟨?_, ?_, ?_, ?_, ?_⟩
      · rw [flags_schedule, flags_fire, hready.flags]
        rfl
      · funext q
        rw [loop_schedule, loop_fire, hready.loop]
        by_cases hq : q = a.ptr <;> simp [Change.pending, hq]
      · intro q
        simp [hready.loop]
      · simp [hready.loop]
      · simp [hready.nextPtr]
    simp only [hsent, Bool.false_eq_true, if_false]
    split
    · exact absurd ‹_› hkind
    · exact hrearmed
    · exact hrearmed

/-- Setting the flag of an entry that has just been appended. -/
theorem setFlag_append_new {ptr : Nat} {flags : List (Nat × Bool)}
    (hnew : ptr ∉ flags.map (·.1)) (old b : Bool) :
    setFlag ptr b (flags ++ [(ptr, old)]) = flags ++ [(ptr, b)] := by
  have hkeep : setFlag ptr b flags = flags := by
    rw [setFlag, List.map_congr_left (g := id), List.map_id]
    intro x hx
    have hne : x.1 ≠ ptr := fun e => hnew (e ▸ List.mem_map_of_mem hx)
    simp [hne]
  have hcons := congrArg (· ++ [(ptr, b)]) hkeep
  simpa [setFlag] using hcons

theorem change_missed (tick : Tick) {h : ActionHandler W} {r : Request W} {idx : Nat}
    (hidx : r.index = some idx) (hget : h.actions[idx]? = none) :
    change tick h (.posted r) = .nothing := by
  cases r <;> cases hidx <;> simp [change, hget]

theorem Life.of_runRequest (tick : Tick) {h : ActionHandler W} (hnodup : h.ptrs.Nodup)
    {r : Request W} (hnew : ∀ ptr, r.added = some ptr → ptr ∉ h.ptrs) :
    Life (change tick h (.posted r)) h (runRequest tick h r) := by
  have heffect := requestEffect_runRequest tick h r
  generalize runRequest tick h r = h' at heffect ⊢
  cases heffect with
  | added a =>
    refine ⟨by simp [change, Change.flags], ?_, ?_, ?_, rfl⟩
    · funext q
      by_cases hq : q = a.ptr <;> simp [change, Change.pending, hq]
    · intro q
      simp
    · simp
  | addedPaused a =>
    have hfresh : a.ptr ∉ h.flags.map (·.1) := by
      rw [map_fst_flags]
      exact hnew a.ptr rfl
    have happend := setFlag_append_new hfresh a.paused true
    refine ⟨?_, ?_, ?_, ?_, rfl⟩
    · simpa [change, Change.flags] using happend
    · funext q
      by_cases hq : q = a.ptr <;> simp [change, Change.pending, pause, hq]
    · intro q
      simp [pause]
    · simp [pause]
  | missed r idx hidx hget =>
    rw [change_missed tick hidx hget]
    exact Life.nothing_of_eq rfl rfl rfl
  | removed idx a hget =>
    simp only [change, hget]
    refine ⟨flags_eraseIdx hnodup hget, ?_, ?_, ?_, rfl⟩
    · funext q
      by_cases hq : q = a.ptr <;> simp [Change.pending, hq]
    · intro q
      simp
    · simp
  | resumed idx a hget hpaused =>
    simp only [change, hget, hpaused, if_true]
    refine ⟨by simp [Change.flags], ?_, ?_, ?_, rfl⟩
    · funext q
      by_cases hq : q = a.ptr <;> simp [resume, Change.pending, hq]
    · intro q
      simp [resume]
    · simp [resume]
  | paused idx a hget hrunning =>
    simp only [change, hget, hrunning, Bool.false_eq_true, if_false]
    refine ⟨by simp [Change.flags], ?_, ?_, ?_, rfl⟩
    · funext q
      by_cases hq : q = a.ptr <;> simp [pause, Change.pending, hq]
    · intro q
      simp [pause]
    · simp [pause]
  | constant idx param value a hget hsin => exact Life.nothing_of_eq rfl rfl rfl
  | sinParam idx param value a hget hsin =>
    apply Life.nothing_of_eq
    · exact flags_modify_keep _ _ (Action.ptr_setSinParam param value)
        (Action.paused_setSinParam param value)
    · rfl
    · rfl
  | payload idx payload a hget =>
    apply Life.nothing_of_eq
    · exact flags_modify_keep _ _ (Action.ptr_setPayload payload)
        (Action.paused_setPayload payload)
    · rfl
    · rfl

theorem Life.of_runReady (trig : Trig) (tick : Tick) {h : ActionHandler W}
    (hnodup : h.ptrs.Nodup) {x : Ready (Request W)}
    (hnew : ∀ r ptr, x = .posted r → r.added = some ptr → ptr ∉ h.ptrs) :
    Life (change tick h x) h (runReady trig tick h x) := by
  cases x with
  | posted r => exact Life.of_runRequest tick hnodup fun ptr => hnew r ptr rfl
  | completion ptr aborted =>
    cases aborted with
    | true => exact Life.nothing_of_eq rfl rfl rfl
    | false =>
      cases hfind : h.find ptr with
      | none =>
        simp only [change, runReady, hfind]
        exact Life.nothing_of_eq rfl rfl rfl
      | some a =>
        obtain ⟨rfl, -⟩ := mem_flags_of_find hfind
        simpa [runReady, hfind] using Life.of_runTimer trig tick hfind

/-! ### The change a step makes -/

/-- The change that the next handler makes; no other step makes one. -/
def nextChange (h : ActionHandler W) (l : Label W) : Change :=
  if h.terminated then .nothing else
    match l, h.loop.ready with
    | .run tick, x :: _ => change tick h x
    | _, _ => .nothing

theorem succeeds_of_rearmed {tick : Tick} {h : ActionHandler W} {x : Ready (Request W)} {ptr : Nat}
    (hc : change tick h x = .rearmed ptr) : x.succeeds ptr = true := by
  cases x with
  | posted r => cases r <;> simp only [change] at hc <;> grind
  | completion t aborted =>
    cases aborted with
    | true => cases hc
    | false =>
      simp only [change] at hc
      split at hc
      · cases hc
      · split at hc
        · cases hc
        · split at hc
          · cases hc
          · cases hc
            simp [Ready.succeeds]
          · cases hc
            simp [Ready.succeeds]

/-- The action, already in the list, that a change is about. -/
def Change.subject : Change → Option Nat
  | .nothing | .added .. => none
  | .erased ptr | .paused ptr | .resumed ptr | .rearmed ptr => some ptr

theorem mem_ptrs_of_subject (tick : Tick) {h : ActionHandler W} (x : Ready (Request W)) {ptr : Nat}
    (hc : (change tick h x).subject = some ptr) : ptr ∈ h.ptrs := by
  have hget : ∀ (idx : Nat) (a : Action W), h.actions[idx]? = some a → a.ptr ∈ h.ptrs :=
    fun idx a hidx => List.mem_map_of_mem (List.mem_of_getElem? hidx)
  have hfound : ∀ (t : Nat) (a : Action W), h.find t = some a → t ∈ h.ptrs := by
    intro t a hfind
    obtain ⟨rfl, -⟩ := mem_flags_of_find hfind
    exact List.mem_map_of_mem (List.mem_of_find?_eq_some hfind)
  cases x with
  | posted r => cases r <;> simp only [change] at hc <;> grind [Change.subject]
  | completion t aborted => cases aborted <;> simp only [change] at hc <;> grind [Change.subject]

theorem change_added {tick : Tick} {h : ActionHandler W} {x : Ready (Request W)} {ptr waits : Nat}
    {flag : Bool} (hc : change tick h x = .added ptr flag waits) :
    ∃ r, x = .posted r ∧ r.added = some ptr := by
  cases x with
  | posted r => cases r <;> simp only [change] at hc <;> grind [Request.added]
  | completion t aborted => cases aborted <;> simp only [change] at hc <;> grind

/-- What a step does, apart from the changes of `nextChange`. -/
theorem step_cases (trig : Trig) (h : ActionHandler W) (l : Label W) :
    (step trig h l = h ∧ nextChange h l = .nothing) ∨
    (∃ r, l = .request r ∧ nextChange h l = .nothing ∧
      step trig h l = { h with loop := h.loop.post (r.allocate h.nextPtr).1,
                               nextPtr := (r.allocate h.nextPtr).2 }) ∨
    (∃ timer, l = .expire timer ∧ nextChange h l = .nothing ∧
      step trig h l = { h with loop := h.loop.expire timer }) ∨
    (∃ tick x rest, l = .run tick ∧ h.terminated = false ∧ h.loop.ready = x :: rest ∧
      nextChange h l = change tick h x ∧
      step trig h l = runReady trig tick { h with loop := h.loop.popped rest } x) := by
  by_cases hterm : h.terminated = true
  · exact Or.inl (by simp [step, nextChange, hterm])
  have halive : h.terminated = false := by simpa using hterm
  cases l with
  | request r =>
    exact Or.inr (Or.inl ⟨r, rfl, by simp [nextChange], by simp [step, halive]⟩)
  | expire timer =>
    exact Or.inr (Or.inr (Or.inl ⟨timer, rfl, by simp [nextChange], by simp [step, halive]⟩))
  | run tick =>
    cases hready : h.loop.ready with
    | nil => exact Or.inl (by simp [step, nextChange, halive, hready])
    | cons x rest =>
      exact Or.inr (Or.inr (Or.inr ⟨tick, x, rest, rfl, halive, rfl,
        by simp [nextChange, halive, hready], by simp [step, halive, hready]⟩))

theorem change_popped (tick : Tick) (h : ActionHandler W) (loop : Loop (Request W))
    (x : Ready (Request W)) : change tick { h with loop := loop } x = change tick h x := by
  cases x with
  | posted r => cases r <;> rfl
  | completion t aborted => cases aborted <;> rfl

/-! ### Identities stay apart -/

theorem Identities.nodup_ptrs {h : ActionHandler W} (hid : Identities h) : h.ptrs.Nodup :=
  (List.nodup_append.mp hid.nodup).1

theorem Identities.not_mem_ptrs {h : ActionHandler W} (hid : Identities h) {ptr : Nat}
    (harriving : ptr ∈ h.arriving) : ptr ∉ h.ptrs :=
  fun hmem => (List.nodup_append.mp hid.nodup).2.2 ptr hmem ptr harriving rfl

theorem mem_arriving_of_ready {h : ActionHandler W} {r : Request W} {rest : List (Ready (Request W))}
    (hready : h.loop.ready = .posted r :: rest) {ptr : Nat} (hadded : r.added = some ptr) :
    ptr ∈ h.arriving := by
  rw [arriving, Loop.closures_of_posted hready, List.filterMap_cons_some hadded]
  exact List.mem_cons_self

/-- Running the handler at the head of the queue makes its change. -/
theorem Identities.life_of_run {h : ActionHandler W} (hid : Identities h) (trig : Trig)
    (tick : Tick) {x : Ready (Request W)} {rest : List (Ready (Request W))}
    (hready : h.loop.ready = x :: rest) :
    Life (change tick h x) { h with loop := h.loop.popped rest }
      (runReady trig tick { h with loop := h.loop.popped rest } x) := by
  rw [← change_popped tick h (h.loop.popped rest) x]
  refine Life.of_runReady (h := { h with loop := h.loop.popped rest }) trig tick
    hid.nodup_ptrs ?_
  rintro r ptr rfl hadded
  exact hid.not_mem_ptrs (mem_arriving_of_ready hready hadded)

/-- The identities after a change: one more after an addition, otherwise no new one. -/
theorem Change.ptrs_sublist {c : Change} (hc : ∀ ptr flag waits, c ≠ .added ptr flag waits)
    (l : List (Nat × Bool)) : ((c.flags l).map Prod.fst).Sublist (l.map Prod.fst) := by
  cases c with
  | nothing => exact List.Sublist.refl _
  | added ptr flag waits => exact absurd rfl (hc ptr flag waits)
  | erased ptr => exact List.filter_sublist.map _
  | paused ptr => rw [Change.flags, map_fst_setFlag]
  | resumed ptr => rw [Change.flags, map_fst_setFlag]
  | rearmed ptr => exact List.Sublist.refl _

theorem identities_run {h : ActionHandler W} (hid : Identities h) (trig : Trig) (tick : Tick)
    {x : Ready (Request W)} {rest : List (Ready (Request W))}
    (hready : h.loop.ready = x :: rest) :
    Identities (runReady trig tick { h with loop := h.loop.popped rest } x) := by
  have hlife := hid.life_of_run trig tick hready
  -- the identities, here and arriving, are a sublist of those before
  suffices hsub : ((runReady trig tick { h with loop := h.loop.popped rest } x).ptrs ++
      (runReady trig tick { h with loop := h.loop.popped rest } x).arriving).Sublist
      (h.ptrs ++ h.arriving) by
    refine ⟨hid.nodup.sublist hsub, ?_⟩
    intro ptr hptr
    rw [hlife.nextPtr]
    exact hid.lt_nextPtr ptr (hsub.subset hptr)
  have hptrs : (runReady trig tick { h with loop := h.loop.popped rest } x).ptrs =
      ((change tick h x).flags h.flags).map Prod.fst := by
    rw [← map_fst_flags, hlife.flags]
    rfl
  have harriving : (runReady trig tick { h with loop := h.loop.popped rest } x).arriving =
      (h.loop.popped rest).closures.filterMap Request.added := by
    rw [arriving, hlife.closures]
  rw [hptrs, harriving, ← map_fst_flags h]
  by_cases hadd : ∃ ptr flag waits, change tick h x = .added ptr flag waits
  · obtain ⟨ptr, flag, waits, hc⟩ := hadd
    obtain ⟨r, rfl, hadded⟩ := change_added hc
    rw [arriving, Loop.closures_of_posted hready, List.filterMap_cons_some hadded, hc]
    simp [Change.flags]
  · have hc : ∀ ptr flag waits, change tick h x ≠ .added ptr flag waits :=
      fun ptr flag waits e => hadd ⟨ptr, flag, waits, e⟩
    refine (Change.ptrs_sublist hc h.flags).append ?_
    rw [arriving]
    cases x with
    | posted r =>
      rw [Loop.closures_of_posted hready]
      exact (List.sublist_cons_self _ _).filterMap _
    | completion t aborted => rw [Loop.closures_of_completion hready]

theorem allocate_cases (ptr : Nat) (r : Request W) :
    ((r.allocate ptr).1.added = none ∧ (r.allocate ptr).2 = ptr) ∨
      ((r.allocate ptr).1.added = some ptr ∧ (r.allocate ptr).2 = ptr + 1) := by
  cases r with
  | addAction a => exact Or.inr ⟨rfl, rfl⟩
  | addActionPaused a => exact Or.inr ⟨rfl, rfl⟩
  | removeAction idx => exact Or.inl ⟨rfl, rfl⟩
  | togglePause idx => exact Or.inl ⟨rfl, rfl⟩
  | updateSinParam idx param value => exact Or.inl ⟨rfl, rfl⟩
  | updatePayload idx payload => exact Or.inl ⟨rfl, rfl⟩

theorem identities_request {h : ActionHandler W} (hid : Identities h) (r : Request W) :
    Identities { h with loop := h.loop.post (r.allocate h.nextPtr).1,
                        nextPtr := (r.allocate h.nextPtr).2 } := by
  have hnew : h.nextPtr ∉ h.ptrs ++ h.arriving := fun hmem =>
    lt_irrefl _ (hid.lt_nextPtr _ hmem)
  have harriving : arriving { h with loop := h.loop.post (r.allocate h.nextPtr).1,
                                     nextPtr := (r.allocate h.nextPtr).2 } =
      h.arriving ++ (r.allocate h.nextPtr).1.added.toList := by
    rw [arriving, Loop.closures_post, List.filterMap_append]
    rfl
  rcases allocate_cases h.nextPtr r with ⟨hadded, hnext⟩ | ⟨hadded, hnext⟩
  · rw [hadded, Option.toList_none, List.append_nil] at harriving
    constructor
    · rw [harriving]
      exact hid.nodup
    · intro ptr hptr
      rw [harriving] at hptr
      exact lt_of_lt_of_eq (hid.lt_nextPtr ptr hptr) hnext.symm
  · rw [hadded, Option.toList_some] at harriving
    constructor
    · rw [harriving]
      change (h.ptrs ++ (h.arriving ++ [h.nextPtr])).Nodup
      rw [← List.append_assoc, List.nodup_append]
      refine ⟨hid.nodup, by simp, ?_⟩
      rintro ptr hptr q hq rfl
      exact hnew (List.mem_singleton.mp hq ▸ hptr)
    · intro ptr hptr
      rw [harriving, ← List.append_assoc] at hptr
      change ptr < (r.allocate h.nextPtr).2
      rw [hnext]
      rcases List.mem_append.mp hptr with hold | hlast
      · exact Nat.lt_succ_of_lt (hid.lt_nextPtr ptr hold)
      · rw [List.mem_singleton.mp hlast]
        exact Nat.lt_succ_self _

theorem Identities.preserved {h : ActionHandler W} (hid : Identities h) (trig : Trig) (l : Label W) :
    Identities (step trig h l) := by
  rcases step_cases trig h l with ⟨hs, -⟩ | ⟨r, -, -, hs⟩ | ⟨timer, -, -, hs⟩ |
    ⟨tick, x, rest, -, -, hready, -, hs⟩
  · rwa [hs]
  · rw [hs]
    exact identities_request hid r
  · rw [hs]
    exact ⟨by simpa [ptrs, arriving] using hid.nodup, by simpa [ptrs, arriving] using hid.lt_nextPtr⟩
  · rw [hs]
    exact identities_run hid trig tick hready

theorem identities_init (world : W) : Identities (init world) where
  nodup := List.nodup_nil
  lt_nextPtr ptr hptr := by cases hptr

theorem identities_of_run (trig : Trig) (world : W) (ls : List (Label W)) :
    Identities (run (step trig) (init world) ls) :=
  run_invariant (fun _ l hid => hid.preserved trig l) (identities_init world) ls

/-- `ptr` was given to an action that is no longer on its way. -/
structure Known (ptr : Nat) (h : ActionHandler W) : Prop where
  lt_nextPtr : ptr < h.nextPtr
  not_arriving : ptr ∉ h.arriving

theorem Identities.known {h : ActionHandler W} (hid : Identities h) {ptr : Nat}
    (hmem : ptr ∈ h.ptrs) : Known ptr h where
  lt_nextPtr := hid.lt_nextPtr ptr (List.mem_append_left _ hmem)
  not_arriving harriving := hid.not_mem_ptrs harriving hmem

theorem Known.preserved {h : ActionHandler W} {ptr : Nat} (hk : Known ptr h) (hid : Identities h)
    (trig : Trig) (l : Label W) : Known ptr (step trig h l) := by
  rcases step_cases trig h l with ⟨hs, -⟩ | ⟨r, -, -, hs⟩ | ⟨timer, -, -, hs⟩ |
    ⟨tick, x, rest, rfl, -, hready, -, hs⟩
  · rwa [hs]
  · rw [hs]
    constructor
    · change ptr < (r.allocate h.nextPtr).2
      have hlt := hk.lt_nextPtr
      rcases allocate_cases h.nextPtr r with ⟨-, hnext⟩ | ⟨-, hnext⟩ <;> omega
    · rw [arriving, Loop.closures_post, List.filterMap_append]
      intro hmem
      rcases List.mem_append.mp hmem with hold | hnew
      · exact hk.not_arriving hold
      · have hadded : (r.allocate h.nextPtr).1.added = some ptr := by simpa using hnew
        rcases allocate_cases h.nextPtr r with ⟨hnone, -⟩ | ⟨hsome, -⟩
        · rw [hnone] at hadded
          cases hadded
        · rw [hsome] at hadded
          exact absurd hk.lt_nextPtr (Option.some.inj hadded ▸ lt_irrefl _)
  · rw [hs]
    exact ⟨hk.lt_nextPtr, by simpa [arriving] using hk.not_arriving⟩
  · have hlife := hid.life_of_run trig tick hready
    rw [hs]
    constructor
    · rw [hlife.nextPtr]
      exact hk.lt_nextPtr
    · rw [arriving, hlife.closures]
      intro hmem
      refine hk.not_arriving ?_
      rw [arriving]
      cases x with
      | posted r =>
        rw [Loop.closures_of_posted hready]
        exact ((List.sublist_cons_self _ _).filterMap _).subset hmem
      | completion t aborted =>
        rw [Loop.closures_of_completion hready]
        exact hmem

/-! ### Calls of `send_fn` and dangling handlers -/

/-- A request neither sends nor uses an erased action nor touches the send models. -/
theorem runRequest_frame (tick : Tick) (h : ActionHandler W) (r : Request W) :
    (runRequest tick h r).calls = h.calls ∧ (runRequest tick h r).dangling = h.dangling ∧
      (runRequest tick h r).world = h.world ∧ (runRequest tick h r).terminated = h.terminated := by
  have heffect := requestEffect_runRequest tick h r
  generalize runRequest tick h r = h' at heffect ⊢
  cases heffect <;> exact ⟨rfl, rfl, rfl, rfl⟩

def callsBy (ptr : Nat) (h : ActionHandler W) : List SendCall :=
  h.calls.filter fun call => call.ptr = ptr

/-- A timer handler makes one call. -/
theorem calls_runTimer (trig : Trig) (tick : Tick) (h : ActionHandler W) (a : Action W) :
    ∃ call, call.ptr = a.ptr ∧ (runTimer trig tick h a).calls = h.calls ++ [call] := by
  have heffect := timerEffect_runTimer trig tick h a
  generalize runTimer trig tick h a = h' at heffect ⊢
  cases heffect with
  | failed g b hready hthrows =>
    exact ⟨SendCall.ofAction b tick.throws, hready.ptr, by rw [calls_fire, hready.calls]⟩
  | done hsin hkind hsent => exact ⟨SendCall.ofAction a tick.throws, rfl, calls_fire ..⟩
  | rearmed g b hready hkind hsent =>
    exact ⟨SendCall.ofAction b tick.throws, hready.ptr,
      by rw [calls_schedule, calls_fire, hready.calls]⟩

/-- Only a successful completion of its own timer makes an action send. -/
theorem callsBy_runReady (trig : Trig) (tick : Tick) {h : ActionHandler W}
    {x : Ready (Request W)} {ptr : Nat} (hx : x.succeeds ptr = false) :
    (runReady trig tick h x).callsBy ptr = h.callsBy ptr := by
  unfold callsBy
  cases x with
  | posted r => rw [runReady, (runRequest_frame tick h r).1]
  | completion t aborted =>
    cases aborted with
    | true => rfl
    | false =>
      cases hfind : h.find t with
      | none => simp only [runReady, hfind]
      | some a =>
        obtain ⟨rfl, -⟩ := mem_flags_of_find hfind
        have hne : a.ptr ≠ ptr := by simpa [Ready.succeeds] using hx
        obtain ⟨call, hptr, hcalls⟩ := calls_runTimer trig tick h a
        simp only [runReady, hfind]
        rw [hcalls, List.filter_append]
        simp [hptr, hne]

theorem dangling_runTimer (trig : Trig) (tick : Tick) (h : ActionHandler W) (a : Action W) :
    (runTimer trig tick h a).dangling = h.dangling := by
  have heffect := timerEffect_runTimer trig tick h a
  generalize runTimer trig tick h a = h' at heffect ⊢
  cases heffect with
  | failed g b hready hthrows => rw [dangling_fire, hready.dangling]
  | done hsin hkind hsent => exact dangling_fire ..
  | rearmed g b hready hkind hsent => rw [dangling_schedule, dangling_fire, hready.dangling]

/-- A handler dangles only if it is the successful completion of an erased action's wait. -/
theorem dangling_runReady (trig : Trig) (tick : Tick) {h : ActionHandler W}
    {x : Ready (Request W)} (hx : ∀ ptr, x.succeeds ptr = true → ptr ∈ h.ptrs) :
    (runReady trig tick h x).dangling = h.dangling := by
  cases x with
  | posted r => exact (runRequest_frame tick h r).2.1
  | completion t aborted =>
    cases aborted with
    | true => rfl
    | false =>
      have hmem : t ∈ h.ptrs := hx t (by simp [Ready.succeeds])
      cases hfind : h.find t with
      | none => exact absurd hmem (find_eq_none_iff.mp hfind)
      | some a =>
        simp only [runReady, hfind]
        exact dangling_runTimer trig tick h a

/-! ### Pausing -/

/-- The action that a change pauses: `toggle_pause` of a running one, or `add_action_paused`. -/
def Change.pauses : Change → Option Nat
  | .paused ptr | .added ptr true 0 => some ptr
  | _ => none

theorem Change.pauses_eq_some {c : Change} {ptr : Nat} (hc : c.pauses = some ptr) :
    c = .paused ptr ∨ c = .added ptr true 0 := by
  unfold Change.pauses at hc
  split at hc
  · exact Or.inl (by rw [Option.some.inj hc])
  · exact Or.inr (by rw [Option.some.inj hc])
  · cases hc

/-- The next handler pauses `ptr`. -/
def Pauses (h : ActionHandler W) (l : Label W) (ptr : Nat) : Prop :=
  (h.nextChange l).pauses = some ptr

/-- The next handler resumes `ptr`. -/
def Resumes (h : ActionHandler W) (l : Label W) (ptr : Nat) : Prop :=
  h.nextChange l = .resumed ptr

instance (h : ActionHandler W) (l : Label W) (ptr : Nat) : Decidable (h.Pauses l ptr) :=
  inferInstanceAs (Decidable (_ = _))

instance (h : ActionHandler W) (l : Label W) (ptr : Nat) : Decidable (h.Resumes l ptr) :=
  inferInstanceAs (Decidable (_ = _))

/-- If the next handler pauses an action, no successful completion of its timer is queued
behind. -/
def PauseClean (h : ActionHandler W) (l : Label W) : Prop :=
  ∀ ptr ∈ (h.nextChange l).pauses, ∀ x ∈ h.loop.ready.tail, x.succeeds ptr = false

instance (h : ActionHandler W) (l : Label W) : Decidable (h.PauseClean l) :=
  inferInstanceAs (Decidable (∀ ptr ∈ (h.nextChange l).pauses, _))

/-- Nothing is under way that would make `ptr` send. -/
structure Quiet (ptr : Nat) (h : ActionHandler W) : Prop where
  pending : h.loop.pending ptr = 0
  queued : h.loop.queued ptr = 0
  known : Known ptr h

/-- A pausing handler leaves the action quiet, if no completion slipped in before. -/
theorem Quiet.of_pauses {h : ActionHandler W} (hid : Identities h) (trig : Trig) {l : Label W}
    {ptr : Nat} (hp : h.Pauses l ptr) (hclean : h.PauseClean l) :
    Quiet ptr (step trig h l) := by
  have hid' := hid.preserved trig l
  have hbehind := hclean ptr hp
  replace hp := Change.pauses_eq_some hp
  rcases step_cases trig h l with ⟨-, hc⟩ | ⟨r, -, hc, -⟩ | ⟨timer, -, hc, -⟩ |
    ⟨tick, x, rest, rfl, -, hready, hc, hs⟩
  · rcases hp with hp | hp <;> rw [hc] at hp <;> cases hp
  · rcases hp with hp | hp <;> rw [hc] at hp <;> cases hp
  · rcases hp with hp | hp <;> rw [hc] at hp <;> cases hp
  · have hlife := hid.life_of_run trig tick hready
    have hqueued : (h.loop.popped rest).queued ptr = 0 := by
      rw [hready] at hbehind
      exact Loop.queued_eq_zero_iff.mpr hbehind
    -- the action is in the list now, so it cannot be on its way
    have hmem : ptr ∈ (step trig h (.run tick)).ptrs := by
      rw [hs, ← map_fst_flags, hlife.flags, ← hc]
      rcases hp with hp | hp
      · have hold : ptr ∈ h.ptrs := by
          refine mem_ptrs_of_subject tick x ?_
          rw [← hc, hp]
          rfl
        rw [hp, Change.flags, map_fst_setFlag]
        rwa [← map_fst_flags] at hold
      · rw [hp]
        simp [Change.flags]
    refine ⟨?_, ?_, hid'.known hmem⟩
    · rw [hs, hlife.pending]
      rcases hp with hp | hp <;> rw [← hc, hp] <;> simp [Change.pending]
    · rw [hs, hlife.queued]
      exact hqueued

/-- A change re-arms a quiet action's timer only by resuming it. -/
theorem Quiet.pending_change {h : ActionHandler W} {ptr : Nat} (hq : Quiet ptr h) {tick : Tick}
    {x : Ready (Request W)} {rest : List (Ready (Request W))} (hready : h.loop.ready = x :: rest)
    (hres : change tick h x ≠ .resumed ptr) :
    (change tick h x).pending h.loop.pending ptr = 0 := by
  have hx : x.succeeds ptr = false :=
    Loop.queued_eq_zero_iff.mp hq.queued x (by rw [hready]; exact List.mem_cons_self)
  cases hc : change tick h x with
  | nothing => exact hq.pending
  | added q flag waits =>
    obtain ⟨r, rfl, hadded⟩ := change_added hc
    have hne : ptr ≠ q := by
      rintro rfl
      exact hq.known.not_arriving (mem_arriving_of_ready hready hadded)
    rw [Change.pending, Function.update_of_ne hne]
    exact hq.pending
  | erased q => by_cases hpq : ptr = q <;> simp [Change.pending, hpq, hq.pending]
  | paused q => by_cases hpq : ptr = q <;> simp [Change.pending, hpq, hq.pending]
  | resumed q =>
    have hne : ptr ≠ q := fun e => hres (e ▸ hc)
    rw [Change.pending, Function.update_of_ne hne]
    exact hq.pending
  | rearmed q =>
    have hne : ptr ≠ q := by
      rintro rfl
      rw [succeeds_of_rearmed hc] at hx
      cases hx
    rw [Change.pending, Function.update_of_ne hne]
    exact hq.pending

/-- Until it is resumed, a quiet action stays quiet. -/
theorem Quiet.preserved {h : ActionHandler W} {ptr : Nat} (hq : Quiet ptr h) (hid : Identities h)
    (trig : Trig) {l : Label W} (hres : ¬ h.Resumes l ptr) : Quiet ptr (step trig h l) := by
  suffices hwaits : (step trig h l).loop.pending ptr = 0 ∧ (step trig h l).loop.queued ptr = 0 from
    ⟨hwaits.1, hwaits.2, hq.known.preserved hid trig l⟩
  rcases step_cases trig h l with ⟨hs, -⟩ | ⟨r, -, -, hs⟩ | ⟨timer, -, -, hs⟩ |
    ⟨tick, x, rest, rfl, -, hready, hc, hs⟩
  · rw [hs]
    exact ⟨hq.pending, hq.queued⟩
  · rw [hs]
    exact ⟨hq.pending, by simpa using hq.queued⟩
  · rw [hs]
    constructor
    · change (h.loop.expire timer).pending ptr = 0
      rw [Loop.pending_expire, hq.pending, ite_self]
    · change (h.loop.expire timer).queued ptr = 0
      rw [Loop.queued_expire, hq.queued]
      by_cases hpt : ptr = timer
      · simp [← hpt, hq.pending]
      · simp [hpt]
  · have hlife := hid.life_of_run trig tick hready
    have hres' : change tick h x ≠ .resumed ptr := fun e => hres (hc.trans e)
    rw [hs]
    constructor
    · rw [hlife.pending]
      exact hq.pending_change hready hres'
    · rw [hlife.queued]
      have hsplit := Loop.queued_of_ready hready ptr
      rw [hq.queued] at hsplit
      exact (Nat.add_eq_zero_iff.mp hsplit.symm).1

theorem Quiet.callsBy_step {h : ActionHandler W} {ptr : Nat} (hq : Quiet ptr h) (trig : Trig)
    (l : Label W) : (step trig h l).callsBy ptr = h.callsBy ptr := by
  rcases step_cases trig h l with ⟨hs, -⟩ | ⟨r, -, -, hs⟩ | ⟨timer, -, -, hs⟩ |
    ⟨tick, x, rest, -, -, hready, -, hs⟩
  · rw [hs]
  · rw [hs]
    rfl
  · rw [hs]
    rfl
  · have hx : x.succeeds ptr = false :=
      Loop.queued_eq_zero_iff.mp hq.queued x (by rw [hready]; exact List.mem_cons_self)
    rw [hs, callsBy_runReady trig tick hx]
    rfl

/-- **A pause takes hold.** Take any run in which no successful completion of an action's timer is
queued behind a handler that pauses it. Once the pausing handler has run, the action makes no call
of `send_fn` until a handler resumes it. -/
theorem no_send_while_paused (trig : Trig) (world : W) (before mid after : List (Label W))
    (l : Label W) (ptr : Nat)
    (hclean : Meets (step trig) PauseClean (init world) (before ++ l :: (mid ++ after)))
    (hpause : (run (step trig) (init world) before).Pauses l ptr)
    (hmid : Meets (step trig) (fun h l => ¬ h.Resumes l ptr)
      (run (step trig) (init world) (before ++ [l])) mid) :
    (run (step trig) (init world) (before ++ l :: mid)).callsBy ptr =
      (run (step trig) (init world) (before ++ [l])).callsBy ptr := by
  obtain ⟨-, hl, -⟩ := meets_append.mp hclean
  have hid := identities_of_run trig world before
  have hquiet : Quiet ptr (run (step trig) (init world) (before ++ [l])) := by
    rw [run_append]
    exact Quiet.of_pauses hid trig hpause hl
  have hid' := identities_of_run trig world (before ++ [l])
  rw [show before ++ l :: mid = (before ++ [l]) ++ mid by simp, run_append]
  refine Meets.eq_of_step (P := fun h => Quiet ptr h ∧ Identities h) ?_ ?_ ⟨hquiet, hid'⟩ hmid
  · rintro h l ⟨hq, hh⟩ hres
    exact ⟨hq.preserved hh trig hres, hh.preserved trig l⟩
  · rintro h l ⟨hq, -⟩ -
    exact hq.callsBy_step trig l

/-! A periodic action is added; its timer expires while the request to pause it is waiting. -/

def heartbeat : Action Unit := Action.newPeriodic "vcan0" 257 "Heartbeat" [1] 100

def flatTrig : Trig where
  sin _ := 0

def tickAt (t : ℚ) : Tick where
  now := t
  sentAt := t

theorem no_send_while_paused_heartbeat :
    (run (step flatTrig) (init ())
      [.request (.addAction heartbeat), .run (tickAt 0), .expire 0, .run (tickAt 1),
        .request (.togglePause 0), .run (tickAt 2), .expire 0, .run (tickAt 3)]).callsBy 0 =
    (run (step flatTrig) (init ())
      [.request (.addAction heartbeat), .run (tickAt 0), .expire 0, .run (tickAt 1),
        .request (.togglePause 0), .run (tickAt 2)]).callsBy 0 :=
  no_send_while_paused flatTrig ()
    [.request (.addAction heartbeat), .run (tickAt 0), .expire 0, .run (tickAt 1),
      .request (.togglePause 0)]
    [.expire 0, .run (tickAt 3)] [] (.run (tickAt 2)) 0 (by decide +kernel) (by decide +kernel)
    (by decide +kernel)

/-- The pausing handler runs, no handler resumes the action, and it sends all the same. -/
theorem send_while_paused_heartbeat :
    let queued := run (step flatTrig) (init ())
      [.request (.addAction heartbeat), .run (tickAt 0), .request (.togglePause 0), .expire 0]
    let paused := step flatTrig queued (.run (tickAt 1))
    let after := step flatTrig paused (.run (tickAt 1))
    queued.Pauses (.run (tickAt 1)) 0 ∧ ¬ paused.Resumes (.run (tickAt 1)) 0 ∧
      paused.callsBy 0 = [] ∧
      after.callsBy 0 = [⟨0, "vcan0", 257, [1], false⟩] ∧ after.flags = [(0, true)] := by
  decide +kernel

/-! ### Erasing -/

def Change.erases : Change → Option Nat
  | .erased ptr => some ptr
  | _ => none

/-- If the next handler erases an action, no successful completion of its timer is queued
behind. -/
def EraseClean (h : ActionHandler W) (l : Label W) : Prop :=
  ∀ ptr ∈ (h.nextChange l).erases, ∀ x ∈ h.loop.ready.tail, x.succeeds ptr = false

instance (h : ActionHandler W) (l : Label W) : Decidable (h.EraseClean l) :=
  inferInstanceAs (Decidable (∀ ptr ∈ (h.nextChange l).erases, _))

/-- Every wait that can still succeed belongs to an action in the list. -/
structure Live (h : ActionHandler W) : Prop where
  mem : ∀ ptr, 0 < h.loop.pending ptr ∨ 0 < h.loop.queued ptr → ptr ∈ h.ptrs
  dangling : h.dangling = []

theorem Change.mem_map_fst {c : Change} {l : List (Nat × Bool)} {ptr : Nat}
    (hmem : ptr ∈ l.map Prod.fst) (hne : c ≠ .erased ptr) :
    ptr ∈ (c.flags l).map Prod.fst := by
  cases c with
  | nothing => exact hmem
  | added q flag waits =>
    rw [Change.flags, List.map_append]
    exact List.mem_append_left _ hmem
  | erased q =>
    have hne' : ptr ≠ q := fun e => hne (e ▸ rfl)
    obtain ⟨y, hy, rfl⟩ := List.mem_map.mp hmem
    exact List.mem_map_of_mem (List.mem_filter.mpr ⟨hy, by simpa using hne'⟩)
  | paused q => rwa [Change.flags, map_fst_setFlag]
  | resumed q => rwa [Change.flags, map_fst_setFlag]
  | rearmed q => exact hmem

/-- A wait that is pending after a change was pending before, or the change started it. -/
theorem Change.pending_pos {c : Change} {w : Nat → Nat} {ptr : Nat}
    (hpos : 0 < c.pending w ptr) :
    c ≠ .erased ptr ∧
      (0 < w ptr ∨ c.subject = some ptr ∨ ∃ flag waits, c = .added ptr flag waits) := by
  cases c with
  | nothing => exact ⟨by simp, Or.inl hpos⟩
  | added q flag waits =>
    refine ⟨by simp, ?_⟩
    by_cases hpq : ptr = q
    · exact Or.inr (Or.inr ⟨flag, waits, by rw [hpq]⟩)
    · exact Or.inl (by simpa [Change.pending, hpq] using hpos)
  | erased q =>
    by_cases hpq : ptr = q
    · simp [Change.pending, hpq] at hpos
    · have hqp : q ≠ ptr := fun e => hpq e.symm
      exact ⟨by simp [hqp], Or.inl (by simpa [Change.pending, hpq] using hpos)⟩
  | paused q =>
    refine ⟨by simp, ?_⟩
    by_cases hpq : ptr = q
    · exact Or.inr (Or.inl (by rw [hpq]; rfl))
    · exact Or.inl (by simpa [Change.pending, hpq] using hpos)
  | resumed q =>
    refine ⟨by simp, ?_⟩
    by_cases hpq : ptr = q
    · exact Or.inr (Or.inl (by rw [hpq]; rfl))
    · exact Or.inl (by simpa [Change.pending, hpq] using hpos)
  | rearmed q =>
    refine ⟨by simp, ?_⟩
    by_cases hpq : ptr = q
    · exact Or.inr (Or.inl (by rw [hpq]; rfl))
    · exact Or.inl (by simpa [Change.pending, hpq] using hpos)

theorem Live.of_run {h : ActionHandler W} (hlive : Live h) (hid : Identities h) (trig : Trig)
    {tick : Tick} {x : Ready (Request W)} {rest : List (Ready (Request W))}
    (hready : h.loop.ready = x :: rest)
    (hclean : ∀ ptr, change tick h x = .erased ptr → ∀ y ∈ rest, y.succeeds ptr = false) :
    Live (runReady trig tick { h with loop := h.loop.popped rest } x) := by
  have hlife := hid.life_of_run trig tick hready
  have hsplit := Loop.queued_of_ready hready
  have hkeep : ∀ ptr, ptr ∈ h.ptrs → change tick h x ≠ .erased ptr →
      ptr ∈ ((change tick h x).flags h.flags).map Prod.fst := by
    intro ptr hmem hne
    rw [← map_fst_flags] at hmem
    exact Change.mem_map_fst hmem hne
  constructor
  · intro ptr hwait
    rw [hlife.pending, hlife.queued] at hwait
    rw [← map_fst_flags, hlife.flags]
    rcases hwait with hpos | hqueued
    · obtain ⟨hne, hold | hsubject | ⟨flag, waits, hadded⟩⟩ := Change.pending_pos hpos
      · exact hkeep ptr (hlive.mem ptr (Or.inl hold)) hne
      · exact hkeep ptr (mem_ptrs_of_subject tick x hsubject) hne
      · rw [hadded]
        simp [Change.flags]
    · have hbefore : 0 < h.loop.queued ptr := by
        rw [hsplit]
        exact Nat.add_pos_left hqueued _
      refine hkeep ptr (hlive.mem ptr (Or.inr hbefore)) fun herase => ?_
      have hzero : (h.loop.popped rest).queued ptr = 0 :=
        Loop.queued_eq_zero_iff.mpr (hclean ptr herase)
      exact absurd hzero (Nat.ne_of_gt hqueued)
  · have hrun : ∀ ptr, x.succeeds ptr = true → ptr ∈ h.ptrs := by
      intro ptr hx
      refine hlive.mem ptr (Or.inr ?_)
      rw [hsplit, if_pos hx]
      exact Nat.succ_pos _
    exact (dangling_runReady (h := { h with loop := h.loop.popped rest }) trig tick hrun).trans
      hlive.dangling

theorem Live.preserved {h : ActionHandler W} (hlive : Live h) (hid : Identities h) (trig : Trig)
    {l : Label W} (hclean : h.EraseClean l) : Live (step trig h l) := by
  rcases step_cases trig h l with ⟨hs, -⟩ | ⟨r, -, -, hs⟩ | ⟨timer, -, -, hs⟩ |
    ⟨tick, x, rest, rfl, -, hready, hc, hs⟩
  · rwa [hs]
  · rw [hs]
    refine ⟨fun ptr hwait => hlive.mem ptr ?_, hlive.dangling⟩
    simpa using hwait
  · rw [hs]
    refine ⟨fun ptr hwait => hlive.mem ptr ?_, hlive.dangling⟩
    by_cases hpt : ptr = timer
    · subst hpt
      simp at hwait
      omega
    · simpa [hpt] using hwait
  · rw [hs]
    refine hlive.of_run hid trig hready ?_
    intro ptr herase
    have hbehind := hclean ptr (by rw [hc, herase]; rfl)
    rwa [hready] at hbehind

/-- **No handler outlives its action.** In any run in which, whenever an action is erased, no
successful completion of its timer is queued, every successful completion that runs belongs to an
action still in the list. -/
theorem no_dangling (trig : Trig) (world : W) (ls : List (Label W))
    (hclean : Meets (step trig) EraseClean (init world) ls) :
    (run (step trig) (init world) ls).dangling = [] := by
  have hinit : Live (init world) ∧ Identities (init world) :=
    ⟨⟨by rintro ptr (hp | hq) <;> simp [init, Loop.queued] at *, rfl⟩, identities_init world⟩
  have hrun := hclean.invariant (P := fun h => Live h ∧ Identities h) ?_ hinit
  · exact hrun.1.dangling
  · rintro h l ⟨hlive, hid⟩ hl
    exact ⟨hlive.preserved hid trig hl, hid.preserved trig l⟩

theorem no_dangling_heartbeat :
    (run (step flatTrig) (init ())
      [.request (.addAction heartbeat), .run (tickAt 0), .request (.removeAction 0),
        .run (tickAt 1), .expire 0, .run (tickAt 2)]).dangling = [] :=
  no_dangling flatTrig () _ (by decide +kernel)

/-- The timer expires while the request to remove the action is waiting. -/
theorem dangling_heartbeat :
    (run (step flatTrig) (init ())
      [.request (.addAction heartbeat), .run (tickAt 0), .request (.removeAction 0), .expire 0,
        .run (tickAt 1), .run (tickAt 1)]).dangling = [0] := by
  decide +kernel

end ActionHandler

end Caneo
