import Caneo.ActionTimers

/-!
# The chain of waits of an action

An action keeps itself going: its timer handler sends and starts the next wait, and so do `start`
and `resume`. Every one of them first gives the timer a new expiry, which aborts the wait that may
still be pending. Hence a timer never has two waits (`Chained.pending_le`). A running action always
has a wait, or its completion is in the queue (`Chained.armed`): the only handler that uses up a
completion without starting a wait is that of an action which erases itself.

Both are read off the six changes of `ActionTimers`.
-/

namespace Caneo

open BitField EventLoop Runs

namespace ActionHandler

variable {W : Type}

/-- No timer has two waits, and no running action is without one. -/
structure Chained (h : ActionHandler W) : Prop where
  pending_le : ∀ ptr, h.loop.pending ptr ≤ 1
  armed : ∀ ptr, (ptr, false) ∈ h.flags → 0 < h.loop.pending ptr + h.loop.queued ptr

/-! ### What a change does to the waits -/

/-- `add_action` starts one wait; `add_action_paused` starts none, and the action is paused. -/
theorem change_added_waits {tick : Tick} {h : ActionHandler W} {x : Ready (Request W)}
    {ptr waits : Nat} {flag : Bool} (hc : change tick h x = .added ptr flag waits) :
    waits = 1 ∨ (waits = 0 ∧ flag = true) := by
  cases x with
  | posted r => cases r <;> simp only [change] at hc <;> grind
  | completion t aborted => cases aborted <;> simp only [change] at hc <;> grind

theorem pending_change_le (tick : Tick) (h : ActionHandler W) (x : Ready (Request W))
    {w : Nat → Nat} (hw : ∀ ptr, w ptr ≤ 1) (ptr : Nat) :
    (change tick h x).pending w ptr ≤ 1 := by
  have hset : ∀ q n, n ≤ 1 → Function.update w q n ptr ≤ 1 := by
    intro q n hn
    rw [Function.update_apply]
    split
    · exact hn
    · exact hw ptr
  cases hc : change tick h x with
  | nothing => exact hw ptr
  | added q flag waits =>
    apply hset
    rcases change_added_waits hc with rfl | ⟨rfl, -⟩
    · exact le_refl 1
    · exact Nat.zero_le 1
  | erased q => exact hset q 0 (Nat.zero_le 1)
  | paused q => exact hset q 0 (Nat.zero_le 1)
  | resumed q => exact hset q 1 (le_refl 1)
  | rearmed q => exact hset q 1 (le_refl 1)

theorem mem_setFlag {q ptr : Nat} {flag : Bool} {l : List (Nat × Bool)}
    (hmem : (ptr, false) ∈ setFlag q flag l) :
    (ptr = q ∧ flag = false) ∨ (ptr ≠ q ∧ (ptr, false) ∈ l) := by
  obtain ⟨y, hy, he⟩ := List.mem_map.mp hmem
  by_cases hq : y.1 = q
  · rw [if_pos hq] at he
    cases he
    exact Or.inl ⟨rfl, rfl⟩
  · rw [if_neg hq] at he
    subst he
    exact Or.inr ⟨hq, hy⟩

/-- An action that runs after a change has a new wait, or it ran before and the change is about
another action. -/
theorem Change.running {c : Change} {l : List (Nat × Bool)} {w : Nat → Nat} {ptr : Nat}
    (hnew : ∀ q flag waits, c = .added q flag waits →
      q ∉ l.map Prod.fst ∧ (waits = 1 ∨ (waits = 0 ∧ flag = true)))
    (hmem : (ptr, false) ∈ c.flags l) :
    0 < c.pending w ptr ∨
      ((ptr, false) ∈ l ∧ c.pending w ptr = w ptr ∧ c.subject ≠ some ptr) := by
  have hother : ∀ q n, ptr ≠ q → Function.update w q n ptr = w ptr := fun q n hne =>
    Function.update_of_ne hne n w
  cases c with
  | nothing => exact Or.inr ⟨hmem, rfl, by intro he; cases he⟩
  | added q flag waits =>
    obtain ⟨hfresh, hwaits⟩ := hnew q flag waits rfl
    rcases List.mem_append.mp hmem with hold | hlast
    · have hne : ptr ≠ q := by
        rintro rfl
        exact hfresh (List.mem_map_of_mem hold)
      exact Or.inr ⟨hold, hother q waits hne, by intro he; cases he⟩
    · cases List.mem_singleton.mp hlast
      rcases hwaits with rfl | ⟨-, hflag⟩
      · left
        simp [Change.pending]
      · cases hflag
  | erased q =>
    obtain ⟨hold, hne⟩ := List.mem_filter.mp hmem
    have hne' : ptr ≠ q := by simpa using hne
    refine Or.inr ⟨hold, hother q 0 hne', ?_⟩
    intro he
    exact hne' (Option.some.inj he).symm
  | paused q =>
    rcases mem_setFlag hmem with ⟨-, hflag⟩ | ⟨hne, hold⟩
    · cases hflag
    · refine Or.inr ⟨hold, hother q 0 hne, ?_⟩
      intro he
      exact hne (Option.some.inj he).symm
  | resumed q =>
    rcases mem_setFlag hmem with ⟨rfl, -⟩ | ⟨hne, hold⟩
    · left
      simp [Change.pending]
    · refine Or.inr ⟨hold, hother q 1 hne, ?_⟩
      intro he
      exact hne (Option.some.inj he).symm
  | rearmed q =>
    by_cases hq : ptr = q
    · left
      simp [Change.pending, hq]
    · refine Or.inr ⟨hmem, hother q 1 hq, ?_⟩
      intro he
      exact hq (Option.some.inj he).symm

/-- Unless its send throws, the timer handler of an action re-arms or erases it. -/
theorem subject_of_succeeds {tick : Tick} (hsend : tick.throws = false) {h : ActionHandler W}
    {x : Ready (Request W)} {ptr : Nat} (hx : x.succeeds ptr = true) (hmem : ptr ∈ h.ptrs) :
    (change tick h x).subject = some ptr := by
  cases x with
  | posted r => cases hx
  | completion t aborted =>
    obtain ⟨rfl, rfl⟩ : t = ptr ∧ aborted = false := by simpa [Ready.succeeds] using hx
    cases hfind : h.find t with
    | none => exact absurd hmem (find_eq_none_iff.mp hfind)
    | some a =>
      have hthrows : ¬ tick.throws = true := by
        rw [hsend]
        exact Bool.false_ne_true
      simp only [change, hfind]
      rw [if_neg hthrows]
      split <;> rfl

/-! ### The invariant -/

theorem Chained.of_run {h : ActionHandler W} (hch : Chained h) (hid : Identities h) (trig : Trig)
    {tick : Tick} (hsend : tick.throws = false) {x : Ready (Request W)}
    {rest : List (Ready (Request W))} (hready : h.loop.ready = x :: rest) :
    Chained (runReady trig tick { h with loop := h.loop.popped rest } x) := by
  have hlife := hid.life_of_run trig tick hready
  have hsplit := Loop.queued_of_ready hready
  constructor
  · intro ptr
    rw [hlife.pending]
    exact pending_change_le tick h x hch.pending_le ptr
  · intro ptr hmem
    rw [hlife.flags] at hmem
    rw [hlife.pending, hlife.queued]
    have hnew : ∀ q flag waits, change tick h x = .added q flag waits →
        q ∉ h.flags.map Prod.fst ∧ (waits = 1 ∨ (waits = 0 ∧ flag = true)) := by
      intro q flag waits hc
      obtain ⟨r, rfl, hadded⟩ := change_added hc
      rw [map_fst_flags]
      exact ⟨hid.not_mem_ptrs (mem_arriving_of_ready hready hadded), change_added_waits hc⟩
    rcases Change.running (w := h.loop.pending) hnew hmem with hpos | ⟨hold, hsame, hsubject⟩
    · exact Nat.add_pos_left hpos _
    · have hbefore := hch.armed ptr hold
      have hx : x.succeeds ptr = false := by
        by_contra hx
        have hmem : ptr ∈ h.ptrs := by
          rw [← map_fst_flags]
          exact List.mem_map_of_mem hold
        exact hsubject (subject_of_succeeds hsend (by simpa using hx) hmem)
      rw [hsplit ptr, hx] at hbefore
      have hpending : (change tick h x).pending (h.loop.popped rest).pending ptr =
          h.loop.pending ptr := hsame
      rw [hpending]
      simpa using hbefore

theorem Chained.preserved {h : ActionHandler W} (hch : Chained h) (hid : Identities h) (trig : Trig)
    {l : Label W} (hsend : ∀ tick, l = .run tick → tick.throws = false) :
    Chained (step trig h l) := by
  rcases step_cases trig h l with ⟨hs, -⟩ | ⟨r, -, -, hs⟩ | ⟨timer, -, -, hs⟩ |
    ⟨tick, x, rest, rfl, -, hready, -, hs⟩
  · rwa [hs]
  · rw [hs]
    refine ⟨hch.pending_le, ?_⟩
    intro ptr hmem
    change 0 < (h.loop.post _).pending ptr + (h.loop.post _).queued ptr
    rw [Loop.pending_post, Loop.queued_post]
    exact hch.armed ptr hmem
  · -- an expiring timer turns its waits into queued completions
    rw [hs]
    constructor
    · intro ptr
      change (h.loop.expire timer).pending ptr ≤ 1
      rw [Loop.pending_expire]
      split
      · exact Nat.zero_le 1
      · exact hch.pending_le ptr
    · intro ptr hmem
      have hbefore := hch.armed ptr hmem
      change 0 < (h.loop.expire timer).pending ptr + (h.loop.expire timer).queued ptr
      rw [Loop.pending_expire, Loop.queued_expire]
      by_cases hpt : ptr = timer
      · subst hpt
        rw [if_pos rfl, if_pos rfl]
        omega
      · rw [if_neg hpt, if_neg hpt]
        exact hbefore
  · rw [hs]
    exact hch.of_run hid trig (hsend tick rfl) hready

theorem chained_init (world : W) : Chained (init world) where
  pending_le _ := Nat.zero_le 1
  armed ptr hmem := by cases hmem

/-- **One chain of waits per action.** In every state of a run in which no send throws, an action
has at most one wait pending on its timer, and one that is not paused has a wait pending or a
successful completion queued. -/
theorem one_chain_per_action (trig : Trig) (world : W) (ls : List (Label W))
    (hsends : ∀ tick, .run tick ∈ ls → tick.throws = false) :
    ∀ a ∈ (run (step trig) (init world) ls).actions,
      (run (step trig) (init world) ls).loop.pending a.ptr ≤ 1 ∧
        (a.paused = false → 1 ≤ (run (step trig) (init world) ls).loop.pending a.ptr ∨
          1 ≤ (run (step trig) (init world) ls).loop.queued a.ptr) := by
  have hrun : ∀ h : ActionHandler W, Chained h → Identities h →
      Chained (run (step trig) h ls) := by
    induction ls with
    | nil => exact fun h hch _ => hch
    | cons l ls ih =>
      intro h hch hid
      have hl : ∀ tick, l = .run tick → tick.throws = false := by
        rintro tick rfl
        exact hsends tick List.mem_cons_self
      exact ih (fun tick hmem => hsends tick (List.mem_cons_of_mem l hmem)) _
        (hch.preserved hid trig hl) (hid.preserved trig l)
  have hch := hrun (init world) (chained_init world) (identities_init world)
  intro a ha
  refine ⟨hch.pending_le a.ptr, ?_⟩
  intro hp
  have hmem : (a.ptr, false) ∈ (run (step trig) (init world) ls).flags := by
    rw [← hp]
    exact List.mem_map_of_mem ha
  have hpos := hch.armed a.ptr hmem
  omega

/-! A pause comes too late, and the action is resumed before its queued handler runs. -/

def toggledTwice : List (Label Unit) :=
  [.request (.addAction heartbeat), .run (tickAt 0), .request (.togglePause 0),
    .request (.togglePause 0), .expire 0, .run (tickAt 1), .run (tickAt 2)]

theorem toggledTwice_sends : ∀ tick, Label.run tick ∈ toggledTwice → tick.throws = false := by
  intro tick hmem
  simp only [toggledTwice, List.mem_cons, Label.run.injEq, reduceCtorEq, List.not_mem_nil,
    or_false, false_or] at hmem
  rcases hmem with rfl | rfl | rfl <;> rfl

/-- It still has one wait pending, and it is running. -/
theorem one_chain_heartbeat :
    ∃ a ∈ (run (step flatTrig) (init ()) toggledTwice).actions, a.paused = false ∧
      (run (step flatTrig) (init ()) toggledTwice).loop.pending a.ptr ≤ 1 ∧
        (1 ≤ (run (step flatTrig) (init ()) toggledTwice).loop.pending a.ptr ∨
          1 ≤ (run (step flatTrig) (init ()) toggledTwice).loop.queued a.ptr) := by
  have hget : (run (step flatTrig) (init ()) toggledTwice).actions.any (!·.paused) = true := by
    decide +kernel
  obtain ⟨a, ha, hp⟩ := List.any_eq_true.mp hget
  have hpaused : a.paused = false := by simpa using hp
  obtain ⟨hle, hlive⟩ := one_chain_per_action flatTrig () toggledTwice toggledTwice_sends a ha
  exact ⟨a, ha, hpaused, hle, hlive hpaused⟩

end ActionHandler

end Caneo
