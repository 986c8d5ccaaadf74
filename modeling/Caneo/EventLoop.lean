import Mathlib.Data.List.Count
import Mathlib.Logic.Function.Basic

/-!
# A single-threaded event loop with timers

One thread takes handlers from a first-in first-out queue. Handlers get there in two ways: a
closure is posted, or an asynchronous wait on a timer completes. A wait completes with a success
code when its timer expires and with an error code when the timer is cancelled (or destroyed, or
given a new expiry); either way its completion goes to the back of the queue, and from then on
nothing can revoke it. In particular `cancel` has no effect on a wait whose timer has already
expired.

When a timer expires is left open: `expire` may happen between any two handlers.
-/

namespace EventLoop

/-- An entry of the queue. -/
inductive Ready (C : Type) where
  | posted (closure : C)
  | completion (timer : Nat) (aborted : Bool)

structure Loop (C : Type) where
  ready : List (Ready C) := []
  pending : Nat → Nat := fun _ => 0

variable {C : Type}

/-- A completion with a success code of a wait on `timer`. -/
def Ready.succeeds (timer : Nat) : Ready C → Bool
  | .posted _ => false
  | .completion t aborted => t = timer && !aborted

namespace Loop

def post (loop : Loop C) (closure : C) : Loop C :=
  { loop with ready := loop.ready ++ [.posted closure] }

def asyncWait (loop : Loop C) (timer : Nat) : Loop C :=
  { loop with pending := Function.update loop.pending timer (loop.pending timer + 1) }

/-- Every wait on `timer` completes. -/
def complete (loop : Loop C) (timer : Nat) (aborted : Bool) : Loop C where
  ready := loop.ready ++ List.replicate (loop.pending timer) (.completion timer aborted)
  pending := Function.update loop.pending timer 0

def expire (loop : Loop C) (timer : Nat) : Loop C := loop.complete timer false

def cancel (loop : Loop C) (timer : Nat) : Loop C := loop.complete timer true

/-- `expires_after` cancels the waits on the timer. -/
def expiresAfter (loop : Loop C) (timer : Nat) : Loop C := loop.cancel timer

/-- The destructor of a timer cancels the waits on it. -/
def destroy (loop : Loop C) (timer : Nat) : Loop C := loop.cancel timer

/-- How many completions with a success code are queued for `timer`. -/
def queued (loop : Loop C) (timer : Nat) : Nat := loop.ready.countP (·.succeeds timer)

/-! ### What the operations do to the waits of a timer -/

@[simp] theorem pending_post (loop : Loop C) (c : C) : (loop.post c).pending = loop.pending := rfl

@[simp] theorem queued_post (loop : Loop C) (c : C) (t : Nat) :
    (loop.post c).queued t = loop.queued t := by
  simp [queued, post, Ready.succeeds]

@[simp] theorem pending_asyncWait (loop : Loop C) (t t' : Nat) :
    (loop.asyncWait t).pending t' = if t' = t then loop.pending t + 1 else loop.pending t' := by
  simp [asyncWait, Function.update_apply]

@[simp] theorem queued_asyncWait (loop : Loop C) (t t' : Nat) :
    (loop.asyncWait t).queued t' = loop.queued t' := rfl

@[simp] theorem pending_complete (loop : Loop C) (t t' : Nat) (aborted : Bool) :
    (loop.complete t aborted).pending t' = if t' = t then 0 else loop.pending t' := by
  simp [complete, Function.update_apply]

theorem queued_complete (loop : Loop C) (t t' : Nat) (aborted : Bool) :
    (loop.complete t aborted).queued t' =
      loop.queued t' + if t' = t ∧ aborted = false then loop.pending t else 0 := by
  unfold queued complete
  rw [List.countP_append, List.countP_replicate]
  by_cases ht : t = t'
  · subst ht
    cases aborted <;> simp [Ready.succeeds]
  · have ht' : ¬ t' = t := fun h => ht h.symm
    simp [Ready.succeeds, ht, ht']

@[simp] theorem pending_cancel (loop : Loop C) (t t' : Nat) :
    (loop.cancel t).pending t' = if t' = t then 0 else loop.pending t' := pending_complete ..

@[simp] theorem queued_cancel (loop : Loop C) (t t' : Nat) :
    (loop.cancel t).queued t' = loop.queued t' := by
  simp [cancel, queued_complete]

@[simp] theorem pending_expiresAfter (loop : Loop C) (t t' : Nat) :
    (loop.expiresAfter t).pending t' = if t' = t then 0 else loop.pending t' := pending_cancel ..

@[simp] theorem queued_expiresAfter (loop : Loop C) (t t' : Nat) :
    (loop.expiresAfter t).queued t' = loop.queued t' := queued_cancel ..

@[simp] theorem pending_destroy (loop : Loop C) (t t' : Nat) :
    (loop.destroy t).pending t' = if t' = t then 0 else loop.pending t' := pending_cancel ..

@[simp] theorem queued_destroy (loop : Loop C) (t t' : Nat) :
    (loop.destroy t).queued t' = loop.queued t' := queued_cancel ..

@[simp] theorem pending_expire (loop : Loop C) (t t' : Nat) :
    (loop.expire t).pending t' = if t' = t then 0 else loop.pending t' := pending_complete ..

@[simp] theorem queued_expire (loop : Loop C) (t t' : Nat) :
    (loop.expire t).queued t' = loop.queued t' + if t' = t then loop.pending t else 0 := by
  simp [expire, queued_complete]

/-! ### Closures in the queue

No timer operation adds, removes or reorders posted closures. -/

/-- The posted closures, in order. -/
def closures (loop : Loop C) : List C :=
  loop.ready.filterMap fun
    | .posted c => some c
    | .completion _ _ => none

@[simp] theorem closures_post (loop : Loop C) (c : C) :
    (loop.post c).closures = loop.closures ++ [c] := by
  simp [closures, post]

@[simp] theorem closures_asyncWait (loop : Loop C) (t : Nat) :
    (loop.asyncWait t).closures = loop.closures := rfl

@[simp] theorem closures_complete (loop : Loop C) (t : Nat) (aborted : Bool) :
    (loop.complete t aborted).closures = loop.closures := by
  unfold closures complete
  rw [List.filterMap_append, List.filterMap_replicate_of_none (by rfl), List.append_nil]

@[simp] theorem closures_cancel (loop : Loop C) (t : Nat) :
    (loop.cancel t).closures = loop.closures := closures_complete ..

@[simp] theorem closures_expiresAfter (loop : Loop C) (t : Nat) :
    (loop.expiresAfter t).closures = loop.closures := closures_complete ..

@[simp] theorem closures_destroy (loop : Loop C) (t : Nat) :
    (loop.destroy t).closures = loop.closures := closures_complete ..

@[simp] theorem closures_expire (loop : Loop C) (t : Nat) :
    (loop.expire t).closures = loop.closures := closures_complete ..

/-! ### Taking the next handler -/

/-- The loop while the handler that stood before `rest` runs. -/
def popped (loop : Loop C) (rest : List (Ready C)) : Loop C := { loop with ready := rest }

@[simp] theorem pending_popped (loop : Loop C) (rest : List (Ready C)) :
    (loop.popped rest).pending = loop.pending := rfl

theorem queued_of_ready {loop : Loop C} {x : Ready C} {rest : List (Ready C)}
    (h : loop.ready = x :: rest) (t : Nat) :
    loop.queued t = (loop.popped rest).queued t + if x.succeeds t then 1 else 0 := by
  simp only [queued, popped, h, List.countP_cons]

theorem closures_of_posted {loop : Loop C} {c : C} {rest : List (Ready C)}
    (h : loop.ready = .posted c :: rest) : loop.closures = c :: (loop.popped rest).closures := by
  simp [closures, popped, h]

theorem closures_of_completion {loop : Loop C} {t : Nat} {aborted : Bool} {rest : List (Ready C)}
    (h : loop.ready = .completion t aborted :: rest) :
    loop.closures = (loop.popped rest).closures := by
  simp [closures, popped, h]

theorem queued_eq_zero_iff {loop : Loop C} {t : Nat} :
    loop.queued t = 0 ↔ ∀ x ∈ loop.ready, x.succeeds t = false := by
  simp [queued, List.countP_eq_zero]

end Loop

end EventLoop
