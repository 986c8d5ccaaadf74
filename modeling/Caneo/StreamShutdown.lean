import Caneo.CanStreamService

/-!
# Shutting the streams down

`shutdown` sets the flag of every subscriber and notifies it; it takes `subs_mutex_`, but not the
mutex under which the subscriber's thread evaluates its predicate. A thread that has found the
predicate false, and has not blocked yet, does not notice the notification: it blocks on a condition
variable that nobody is going to notify again. A call that registers after `shutdown` has returned is
not visited at all.

`Timely` excludes these two orders of events. `shutdown_ends_waiting_iff` says that without them no
call is left waiting, and that after either of them one can be.
-/

namespace Caneo

open BitField Runs

namespace CanStreamService

/-- `shutdown` has returned, and a call waits on its condition variable with nothing to wake it. -/
def Stuck (s : CanStreamService) : Prop :=
  s.shutdownDone = true ∧ ∃ c ∈ s.calls, c.stage = .blocked ∧ c.queue = []

instance (s : CanStreamService) : Decidable s.Stuck := inferInstanceAs (Decidable (_ ∧ _))

/-- The next step is neither a notification by `shutdown` of a call that stands between its
predicate and the wait, nor a registration after `shutdown`. -/
def Timely (s : CanStreamService) (l : Label) : Prop :=
  match l, s.turn with
  | .advance, some (.shuttingDown (i :: _) true) =>
    (s.calls[i]?.map (·.stage)) ≠ some .blocking
  | .subscribe _, none => s.shutdownDone = false
  | _, _ => True

instance (s : CanStreamService) (l : Label) : Decidable (s.Timely l) := by
  unfold Timely
  split <;> infer_instance

/-! ### Calls that will return -/

/-- The call's flag is set, and its thread has noticed or is about to. -/
structure Awake (c : Call) : Prop where
  done : c.done = true
  not_blocking : c.stage ≠ .blocking
  not_blocked : c.stage ≠ .blocked

theorem awake_notify {c : Call} (hdone : c.done = true) (hblocking : c.stage ≠ .blocking) :
    Awake c.notify := by
  unfold Call.notify
  split
  · exact ⟨hdone, by simp, by simp⟩
  · next hblocked => exact ⟨hdone, hblocking, hblocked⟩

theorem Awake.notify {c : Call} (h : Awake c) : Awake c.notify :=
  awake_notify h.done h.not_blocking

theorem Awake.push {c : Call} (h : Awake c) (frame : RawCanFrame) : Awake (c.push frame) :=
  awake_notify h.done h.not_blocking

theorem Awake.mark {c : Call} (h : Awake c) : Awake { c with done := true } :=
  ⟨rfl, h.not_blocking, h.not_blocked⟩

theorem Awake.leave {c : Call} (h : Awake c) : Awake { c with stage := .returned } :=
  ⟨h.done, by simp, by simp⟩

theorem Awake.proceed {c : Call} (h : Awake c) (ok : Bool) : Awake (c.proceed ok) := by
  unfold Call.proceed
  cases hstage : c.stage with
  | looping => exact ⟨h.done, by simp [h.done], by simp [h.done]⟩
  | testing => exact ⟨h.done, by simp [h.done], by simp [h.done]⟩
  | draining =>
    dsimp only
    split
    · exact ⟨h.done, by simp, by simp⟩
    · rw [if_pos h.done]
      exact ⟨h.done, by simp, by simp⟩
  | writing frame =>
    cases ok with
    | true => exact ⟨h.done, by simp, by simp⟩
    | false => exact ⟨rfl, by simp, by simp⟩
  | blocking => exact absurd hstage h.not_blocking
  | blocked => exact absurd hstage h.not_blocked
  | locking => exact ⟨h.done, by simp, by simp⟩
  | woken => exact ⟨h.done, by simp, by simp⟩
  | relocking => exact ⟨h.done, by simp, by simp⟩
  | leaving => exact h
  | returned => exact h

/-! ### A call that waits has nothing to do -/

/-- A call blocks with an empty queue, and whoever fills the queue wakes it. -/
def Idle (c : Call) : Prop := c.stage = .blocking ∨ c.stage = .blocked → c.queue = []

theorem idle_of_stage {c : Call} (hblocking : c.stage ≠ .blocking) (hblocked : c.stage ≠ .blocked) :
    Idle c := by
  rintro (h | h)
  · exact absurd h hblocking
  · exact absurd h hblocked

theorem Idle.notify {c : Call} (h : Idle c) : Idle c.notify := by
  unfold Call.notify
  split
  · exact idle_of_stage (by simp) (by simp)
  · exact h

theorem idle_push (frame : RawCanFrame) {c : Call} (hlocked : c.locked = false) :
    Idle (c.push frame) := by
  have hblocking : c.stage ≠ .blocking := by
    intro h
    simp [Call.locked, h] at hlocked
  unfold Call.push Call.notify
  dsimp only
  split
  · exact idle_of_stage (by simp) (by simp)
  · next hblocked => exact idle_of_stage hblocking hblocked

theorem Idle.proceed {c : Call} (h : Idle c) (ok : Bool) : Idle (c.proceed ok) := by
  unfold Call.proceed
  cases hstage : c.stage with
  | looping => cases c.done <;> exact idle_of_stage (by simp) (by simp)
  | testing =>
    by_cases hready : (!c.queue.isEmpty || c.done) = true
    · exact idle_of_stage (by simp [hready]) (by simp [hready])
    · intro _
      have hempty : c.queue.isEmpty = true := by
        cases hq : c.queue.isEmpty
        · simp [hq] at hready
        · rfl
      exact List.isEmpty_iff.mp hempty
  | blocking =>
    intro _
    exact h (Or.inl hstage)
  | draining =>
    dsimp only
    split
    · exact idle_of_stage (by simp) (by simp)
    · split
      · exact idle_of_stage (by simp) (by simp)
      · exact idle_of_stage (by simp) (by simp)
  | writing frame => cases ok <;> exact idle_of_stage (by simp) (by simp)
  | blocked => exact h
  | locking => exact idle_of_stage (by simp) (by simp)
  | woken => exact idle_of_stage (by simp) (by simp)
  | relocking => exact idle_of_stage (by simp) (by simp)
  | leaving => exact h
  | returned => exact h

theorem idle_run (ls : List Label) :
    ∀ (i : Nat) (c : Call), (run step init ls).calls[i]? = some c → Idle c := by
  refine run_invariant (P := fun s : CanStreamService =>
    ∀ (i : Nat) (c : Call), s.calls[i]? = some c → Idle c) ?_ ?_ ls
  · intro s l hs
    refine forall_calls_move (P := Idle) (move_step s l) ?_ ?_ ?_ ?_ ?_ ?_ hs
    · intro interface _ _
      exact idle_of_stage (by simp) (by simp)
    · exact fun ok c _ h => h.proceed ok
    · exact fun c h => h.notify
    · exact fun frame c hlocked _ => idle_push frame hlocked
    · exact fun c h => h
    · exact fun c _ _ => idle_of_stage (by simp) (by simp)
  · intro i c hc
    cases hc

/-! ### Timely runs -/

/-- Whom `shutdown` has visited is awake. -/
structure Ending (s : CanStreamService) : Prop where
  listed : Listed s
  marked : ∀ i rest, s.turn = some (.shuttingDown (i :: rest) true) →
    ∀ c, s.calls[i]? = some c → c.done = true
  visited : ∀ rest marked, s.turn = some (.shuttingDown rest marked) →
    ∀ (i : Nat) (c : Call), s.calls[i]? = some c → i ∉ rest → Awake c
  finished : s.shutdownDone = true → ∀ (i : Nat) (c : Call), s.calls[i]? = some c → Awake c

theorem ending_init : Ending init where
  listed := listed_init
  marked i rest ht := by cases ht
  visited rest marked ht := by cases ht
  finished hdone := by cases hdone

/-- In a timely run nobody registers after `shutdown`. -/
theorem Ending.finished_move {s s' : CanStreamService} {l : Label} (hs : Ending s)
    (hmove : Move s l s') (htimely : s.Timely l) (hdone : s.shutdownDone = true) :
    ∀ (i : Nat) (c : Call), s'.calls[i]? = some c → Awake c := by
  refine forall_calls_move (P := Awake) hmove ?_ ?_ ?_ ?_ ?_ ?_ (hs.finished hdone)
  · rintro interface rfl hturn
    have hopen : s.shutdownDone = false := by
      unfold Timely at htimely
      rwa [hturn] at htimely
    rw [hdone] at hopen
    cases hopen
  · exact fun ok c _ h => h.proceed ok
  · exact fun c h => h.notify
  · exact fun frame c _ h => h.push frame
  · exact fun c h => h.mark
  · exact fun c _ h => h.leave

/-- One call changes while `shutdown` goes on. -/
theorem Ending.visited_modify {s : CanStreamService} (hs : Ending s) {i : Nat} {f : Call → Call}
    (hf : ∀ c, s.calls[i]? = some c → Awake c → Awake (f c)) {rest : List Nat} {marked : Bool}
    (hturn : s.turn = some (.shuttingDown rest marked)) :
    ∀ (j : Nat) (c : Call), (s.modify i f).calls[j]? = some c → j ∉ rest → Awake c := by
  intro j c' hj hrest
  rcases getElem?_modify_cases hj with ⟨-, hold⟩ | ⟨rfl, c, hc, rfl⟩
  · exact hs.visited rest marked hturn j c' hold hrest
  · exact hf c hc (hs.visited rest marked hturn j c hc hrest)

theorem Ending.marked_modify {s : CanStreamService} (hs : Ending s) {i : Nat} {f : Call → Call}
    (hf : ∀ c, c.done = true → (f c).done = true) {j : Nat} {rest : List Nat}
    (hturn : s.turn = some (.shuttingDown (j :: rest) true)) :
    ∀ c, (s.modify i f).calls[j]? = some c → c.done = true := by
  intro c' hj
  rcases getElem?_modify_cases hj with ⟨-, hold⟩ | ⟨rfl, c, hc, rfl⟩
  · exact hs.marked j rest hturn c' hold
  · exact hf c (hs.marked j rest hturn c hc)

theorem done_notify {c : Call} (hdone : c.done = true) : c.notify.done = true := by
  unfold Call.notify
  split
  · exact hdone
  · exact hdone

theorem done_proceed (ok : Bool) {c : Call} (hdone : c.done = true) :
    (c.proceed ok).done = true := by
  unfold Call.proceed
  cases c.stage with
  | draining =>
    dsimp only
    split
    · exact hdone
    · rw [if_pos hdone]
      exact hdone
  | writing frame =>
    cases ok with
    | true => exact hdone
    | false => rfl
  | _ => exact hdone

/-- Nobody is shutting down. -/
theorem Ending.of_turn {s : CanStreamService} (hlisted : Listed s)
    (hturn : ∀ rest marked, s.turn ≠ some (.shuttingDown rest marked))
    (hfinished : s.shutdownDone = true → ∀ (i : Nat) (c : Call), s.calls[i]? = some c → Awake c) :
    Ending s where
  listed := hlisted
  marked i rest ht := absurd ht (hturn (i :: rest) true)
  visited rest marked ht := absurd ht (hturn rest marked)
  finished := hfinished

theorem Ending.move {s s' : CanStreamService} {l : Label} (hs : Ending s) (hmove : Move s l s')
    (htimely : s.Timely l) : Ending s' := by
  have hlisted := hs.listed.move hmove
  have hfinished := hs.finished_move hmove htimely
  cases hmove with
  | stay hl => exact hs
  | broadcast frame now hturn =>
    exact Ending.of_turn hlisted (fun _ _ => nofun) hfinished
  | shutdown hturn =>
    refine ⟨hlisted, fun _ _ ht => (by simp at ht), ?_, hfinished⟩
    rintro rest marked ⟨⟩ i c hget hrest
    have hreturned : c.stage = .returned := by
      by_contra hne
      exact hrest ((hs.listed.mem_iff i c hget).mpr hne)
    exact ⟨hs.listed.done i c hget (Or.inr hreturned), by simp [hreturned], by simp [hreturned]⟩
  | subscribe interface hturn =>
    have hnone : (s.subscribe interface).turn = none := hturn
    refine Ending.of_turn hlisted ?_ hfinished
    intro rest marked
    rw [hnone]
    nofun
  | proceed i ok c hget hstage =>
    refine ⟨hlisted, ?_, ?_, hfinished⟩
    · exact fun j rest ht => hs.marked_modify (fun c => done_proceed ok) ht
    · exact fun rest marked ht => hs.visited_modify (fun c _ h => h.proceed ok) ht
  | leave i ok c hget hstage hturn =>
    have hnone : (s.leave i).turn = none := hturn
    refine Ending.of_turn hlisted ?_ hfinished
    intro rest marked
    rw [hnone]
    nofun
  | wake i =>
    refine ⟨hlisted, ?_, ?_, hfinished⟩
    · exact fun j rest ht => hs.marked_modify (fun c => done_notify) ht
    · exact fun rest marked ht => hs.visited_modify (fun c _ h => h.notify) ht
  | skip frame now i rest hturn hwants =>
    exact Ending.of_turn hlisted (fun _ _ => nofun) hfinished
  | push frame now i rest c hturn hget hwants hlocked =>
    exact Ending.of_turn hlisted (fun _ _ => nofun) hfinished
  | broadcastEnd frame now hturn =>
    exact Ending.of_turn hlisted (fun _ _ => nofun) hfinished
  | mark i rest hturn =>
    refine ⟨hlisted, ?_, ?_, hfinished⟩
    · rintro j rest' ⟨⟩ c' hj
      rcases getElem?_modify_cases (s := s) hj with ⟨hne, -⟩ | ⟨-, c, -, rfl⟩
      · exact absurd rfl hne
      · rfl
    · rintro rest' marked ⟨⟩
      exact hs.visited_modify (fun c _ h => h.mark) hturn
  | notify i rest hturn =>
    refine ⟨hlisted, fun _ _ ht => (by simp at ht), ?_, hfinished⟩
    rintro rest' marked ⟨⟩ j c' hj hrest
    rcases getElem?_modify_cases (s := s) hj with ⟨hne, hold⟩ | ⟨rfl, c, hc, rfl⟩
    · refine hs.visited _ true hturn j c' hold ?_
      simpa [hne] using hrest
    · -- the notification is not lost, because the call has not just found its predicate false
      have hblocking : c.stage ≠ .blocking := by
        unfold Timely at htimely
        rw [hturn] at htimely
        simpa [hc] using htimely
      exact awake_notify (hs.marked j rest hturn c hc) hblocking
  | shutdownEnd marked hturn =>
    refine Ending.of_turn hlisted (fun _ _ => nofun) ?_
    intro _ i c hget
    exact hs.visited [] marked hturn i c hget List.not_mem_nil

theorem not_stuck_of_timely {ls : List Label} (htimely : Meets step Timely init ls) :
    ¬ Stuck (run step init ls) := by
  have hending : Ending (run step init ls) :=
    htimely.invariant (fun s l hs ht => hs.move (move_step s l) ht) ending_init
  rintro ⟨hdone, c, hc, hblocked, -⟩
  obtain ⟨i, hget⟩ := List.mem_iff_getElem?.mp hc
  exact (hending.finished hdone i c hget).not_blocked hblocked

/-! ### Steps that are not timely -/

theorem calls_proceed {s : CanStreamService} {i : Nat} {c : Call} (hget : s.calls[i]? = some c)
    (hstage : c.stage ≠ .leaving) (ok : Bool) :
    (step s (.proceed i ok)).calls[i]? = some (c.proceed ok) ∧
      (step s (.proceed i ok)).turn = s.turn ∧
      (step s (.proceed i ok)).shutdownDone = s.shutdownDone := by
  have hstep : step s (.proceed i ok) = s.modify i (Call.proceed ok) := by
    rw [step, proceed, hget]
    simp only [hstage, ↓reduceIte]
  rw [hstep]
  refine ⟨?_, rfl, rfl⟩
  change (s.calls.modify i _)[i]? = _
  rw [List.getElem?_modify_eq, hget]
  rfl

/-- A call that registers after `shutdown` waits. -/
theorem stuck_of_late {s : CanStreamService} (hturn : s.turn = none) (hdone : s.shutdownDone = true)
    (interface : String) :
    Stuck (run step (step s (.subscribe interface))
      (List.replicate 4 (.proceed s.calls.length true))) := by
  have hstep : step s (.subscribe interface) = s.subscribe interface := by simp [step, hturn]
  have hnew : (step s (.subscribe interface)).calls[s.calls.length]? =
      some { interfaceFilter := interface, since := s.broadcasts.length } := by
    rw [hstep]
    exact List.getElem?_concat_length
  have hdone' : (step s (.subscribe interface)).shutdownDone = true := by
    rw [hstep]
    exact hdone
  obtain ⟨h₁, -, hd₁⟩ := calls_proceed hnew (by simp) true
  obtain ⟨h₂, -, hd₂⟩ := calls_proceed h₁ (by simp [Call.proceed]) true
  obtain ⟨h₃, -, hd₃⟩ := calls_proceed h₂ (by simp [Call.proceed]) true
  obtain ⟨h₄, -, hd₄⟩ := calls_proceed h₃ (by simp [Call.proceed]) true
  refine ⟨?_, _, List.mem_of_getElem? h₄, ?_, ?_⟩
  · exact hd₄.trans (hd₃.trans (hd₂.trans (hd₁.trans hdone')))
  · simp [Call.proceed]
  · simp [Call.proceed]

/-- `shutdown` goes past a blocked call that it has already notified. -/
theorem stuck_of_passed {s : CanStreamService} {i : Nat} {c : Call} {rest : List Nat}
    (hget : s.calls[i]? = some c) (hblocked : c.stage = .blocked) (hqueue : c.queue = [])
    (hturn : s.turn = some (.shuttingDown rest false)) (hpassed : i ∉ rest) :
    ∃ more, Stuck (run step s more) := by
  induction rest generalizing s with
  | nil =>
    refine ⟨[.advance], ?_⟩
    have hstep : step s .advance = { s with turn := none, shutdownDone := true } := by
      simp [step, advance, hturn]
    rw [run_cons, hstep]
    exact ⟨rfl, c, List.mem_of_getElem? hget, hblocked, hqueue⟩
  | cons j rest ih =>
    have hne : j ≠ i := fun e => hpassed (e ▸ List.mem_cons_self)
    have hmark : step s .advance = { s.modify j fun c => { c with done := true } with
        turn := some (.shuttingDown (j :: rest) true) } := by
      simp [step, advance, hturn]
    have hnotify : step (step s .advance) .advance =
        { (step s .advance).modify j Call.notify with
          turn := some (.shuttingDown rest false) } := by
      rw [hmark]
      simp [step, advance]
    have hget' : (step (step s .advance) .advance).calls[i]? = some c := by
      rw [hnotify, hmark]
      change ((s.calls.modify j _).modify j _)[i]? = some c
      rw [List.getElem?_modify_ne _ _ hne, List.getElem?_modify_ne _ _ hne]
      exact hget
    have hturn' : (step (step s .advance) .advance).turn = some (.shuttingDown rest false) := by
      rw [hnotify]
    obtain ⟨more, hstuck⟩ := ih hget' hturn' fun hmem => hpassed (List.mem_cons_of_mem j hmem)
    exact ⟨.advance :: .advance :: more, hstuck⟩

/-- A notification between the predicate and the wait is lost. -/
theorem stuck_of_lost {s : CanStreamService} (hlisted : Listed s) {i : Nat} {rest : List Nat}
    (hturn : s.turn = some (.shuttingDown (i :: rest) true)) {c : Call}
    (hget : s.calls[i]? = some c) (hblocking : c.stage = .blocking) (hqueue : c.queue = []) :
    ∃ more, Stuck (run step (step s .advance) more) := by
  have hfresh : i ∉ rest := hlisted.not_mem_rest hturn rfl
  have hstep : step s .advance = { s.modify i Call.notify with
      turn := some (.shuttingDown rest false) } := by
    simp [step, advance, hturn]
  have hget' : (step s .advance).calls[i]? = some c := by
    rw [hstep]
    change (s.calls.modify i _)[i]? = some c
    rw [List.getElem?_modify_eq, hget]
    simp [Call.notify, hblocking]
  obtain ⟨hblocked, hturn', -⟩ := calls_proceed hget' (by simp [hblocking]) true
  have hturn'' : (step (step s .advance) (.proceed i true)).turn =
      some (.shuttingDown rest false) := by
    rw [hturn', hstep]
  obtain ⟨more, hstuck⟩ := stuck_of_passed hblocked (by simp [Call.proceed, hblocking])
    (by simp [Call.proceed, hblocking, hqueue]) hturn'' hfresh
  exact ⟨.proceed i true :: more, hstuck⟩

/-- **When `shutdown` ends every wait.** In a run whose steps are all timely, no state has
`shutdown` completed and a call waiting with nothing to wake it. Conversely, from any reachable
state a step that is not timely can lead to such a state. -/
theorem shutdown_ends_waiting_iff (ls : List Label) :
    (Meets step Timely init ls → ¬ Stuck (run step init ls)) ∧
      ∀ l, ¬ (run step init ls).Timely l →
        ∃ more, Stuck (run step (step (run step init ls) l) more) := by
  refine ⟨not_stuck_of_timely, ?_⟩
  intro l hlate
  have hlisted := listed_run ls
  have hidle := idle_run ls
  generalize run step init ls = s at hlate hlisted hidle ⊢
  unfold Timely at hlate
  split at hlate
  · next i rest hturn =>
    rw [not_not, Option.map_eq_some_iff] at hlate
    obtain ⟨c, hget, hblocking⟩ := hlate
    exact stuck_of_lost hlisted hturn hget hblocking (hidle i c hget (Or.inl hblocking))
  · next interface hturn =>
    have hdone : s.shutdownDone = true := by simpa using hlate
    exact ⟨_, stuck_of_late hturn hdone interface⟩
  · exact absurd trivial hlate

/-! A call blocks, and `shutdown` wakes it. -/

def wokenClient : List Label :=
  [.subscribe "", .proceed 0 true, .proceed 0 true, .proceed 0 true, .proceed 0 true, .shutdown,
    .advance, .advance, .advance, .proceed 0 true]

theorem shutdown_ends_waiting_wokenClient : ¬ Stuck (run step init wokenClient) :=
  (shutdown_ends_waiting_iff wokenClient).1 (by decide +kernel)

/-! The same call, with a `shutdown` that comes between its predicate and the wait; and a call that
registers when `shutdown` has returned. -/

def lostWakeUp : List Label :=
  [.subscribe "", .proceed 0 true, .proceed 0 true, .proceed 0 true, .shutdown, .advance, .advance,
    .advance, .proceed 0 true]

def lateClient : List Label :=
  [.shutdown, .advance, .subscribe "", .proceed 0 true, .proceed 0 true, .proceed 0 true,
    .proceed 0 true]

theorem stuck_lostWakeUp :
    Stuck (run step init lostWakeUp) ∧ Stuck (run step init lateClient) := by
  decide +kernel

end CanStreamService

end Caneo
