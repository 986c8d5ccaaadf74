import Caneo.CanFrame
import Caneo.Runs

/-!
# `CanStreamService`

The gRPC service that streams received frames to clients (`src/grpc/CanStreamService.cpp`). Each
call of `Subscribe` runs on a thread of its own, next to the io thread, which calls `broadcast`,
and the thread that calls `shutdown`. `subs_mutex_` protects the list of subscribers; each
subscriber has a mutex and a condition variable of its own, and an atomic flag `done`.

A label says whose turn it is, and a step takes that thread to its next point of interaction:

* `broadcast` and `shutdown` take `subs_mutex_`; from then on `advance` visits one subscriber after
  the other, and the list cannot change until the last has been visited (`turn`);
* `subscribe` is the registration of a new call, and `proceed` the next step of a registered one.
  The points between which a call moves are its `Stage`s: evaluating the predicate of `cv.wait`,
  and unlocking and blocking, are steps of their own.

A thread that needs a mutex somebody else holds does not move. `broadcast` takes a subscriber's
mutex before it touches the queue; `shutdown` does not take it.
-/

namespace Caneo

open BitField Runs

structure RawCanFrame where
  interface : String
  canId : BitVec 32
  dlc : BitVec 32
  data : Bytes
  timestampUs : Int
deriving DecidableEq

/-- The message that `broadcast` fills. -/
def RawCanFrame.ofFrame (now : Int) (frame : CanFrame) : RawCanFrame where
  interface := frame.header.interface
  canId := frame.header.id
  dlc := frame.header.dlc.setWidth 32
  data := frame.payload
  timestampUs := now

/-- Where a call of `Subscribe` stands. -/
inductive Stage where
  /-- before the test of the outer loop -/
  | looping
  /-- before the construction of the lock -/
  | locking
  /-- in `cv.wait` with the lock, before the predicate -/
  | testing
  /-- the predicate was false; the lock is still held -/
  | blocking
  | blocked
  /-- notified; the lock is to be taken again -/
  | woken
  /-- with the lock, before the test of the inner loop -/
  | draining
  /-- without the lock, in `Write` -/
  | writing (frame : RawCanFrame)
  /-- `Write` has returned; the lock is to be taken again -/
  | relocking
  /-- before `erase` -/
  | leaving
  | returned
deriving DecidableEq

/-- A call of `Subscribe`, with its `Subscriber`. `stream` is what the client has been written;
`since` is the number of frames that were broadcast before the call registered. -/
structure Call where
  interfaceFilter : String
  queue : List RawCanFrame := []
  done : Bool := false
  stage : Stage := .looping
  stream : List RawCanFrame := []
  since : Nat
deriving DecidableEq

namespace Call

/-- The call's thread holds the subscriber's mutex. -/
def locked (c : Call) : Bool :=
  match c.stage with
  | .testing | .blocking | .draining => true
  | _ => false

def wants (c : Call) (frame : CanFrame) : Bool :=
  c.interfaceFilter.isEmpty || c.interfaceFilter = frame.header.interface

/-- `cv.notify_one`, which wakes the thread if it is blocked. -/
def notify (c : Call) : Call := if c.stage = .blocked then { c with stage := .woken } else c

def push (frame : RawCanFrame) (c : Call) : Call :=
  notify { c with queue := c.queue ++ [frame] }

/-- The next step of the call's thread, as long as it does not need `subs_mutex_`. `ok` is the
result of `Write`. -/
def proceed (ok : Bool) (c : Call) : Call :=
  match c.stage with
  | .looping => { c with stage := if c.done then .leaving else .locking }
  | .locking => { c with stage := .testing }
  | .testing => { c with stage := if !c.queue.isEmpty || c.done then .draining else .blocking }
  | .blocking => { c with stage := .blocked }
  | .blocked => c
  | .woken => { c with stage := .testing }
  | .draining =>
    match c.queue with
    | [] => { c with stage := .looping }
    | frame :: queue =>
      if c.done then { c with stage := .looping }
      else { c with queue := queue, stage := .writing frame }
  | .writing frame =>
    if ok then { c with stream := c.stream ++ [frame], stage := .relocking }
    else { c with done := true, stage := .relocking }
  | .relocking => { c with stage := .draining }
  | .leaving => c
  | .returned => c

end Call

/-- Who holds `subs_mutex_` while it visits the subscribers, and which of them it has not visited.
`marked` says that `shutdown` has set the flag of the first of these and not yet notified it. -/
inductive Turn where
  | broadcasting (frame : CanFrame) (now : Int) (rest : List Nat)
  | shuttingDown (rest : List Nat) (marked : Bool)
deriving DecidableEq

/-- The subscribers that are still to be visited. -/
def Turn.rest : Turn → List Nat
  | .broadcasting _ _ rest => rest
  | .shuttingDown rest _ => rest

/-- Calls are numbered in the order in which they register; `subscribers` has their numbers.
`broadcasts` has the frames that were broadcast, in order. -/
structure CanStreamService where
  calls : List Call := []
  subscribers : List Nat := []
  turn : Option Turn := none
  broadcasts : List CanFrame := []
  shutdownDone : Bool := false
deriving DecidableEq

inductive CanStreamService.Label where
  | broadcast (frame : CanFrame) (now : Int)
  | shutdown
  | advance
  | subscribe (interface : String)
  | proceed (call : Nat) (ok : Bool)
  | spurious (call : Nat)

namespace CanStreamService

def init : CanStreamService := {}

def modify (s : CanStreamService) (i : Nat) (f : Call → Call) : CanStreamService :=
  { s with calls := s.calls.modify i f }

/-! ### Steps -/

def subscribe (s : CanStreamService) (interface : String) : CanStreamService :=
  { s with
    calls := s.calls ++ [{ interfaceFilter := interface, since := s.broadcasts.length }]
    subscribers := s.subscribers ++ [s.calls.length] }

/-- `std::erase(subscribers_, sub)`, and the return. -/
def leave (s : CanStreamService) (i : Nat) : CanStreamService :=
  { s.modify i fun c => { c with stage := .returned } with
    subscribers := s.subscribers.filter fun j => j ≠ i }

def proceed (s : CanStreamService) (i : Nat) (ok : Bool) : CanStreamService :=
  match s.calls[i]? with
  | none => s
  | some c =>
    if c.stage = .leaving then
      if s.turn = none then s.leave i else s
    else s.modify i (Call.proceed ok)

/-- The next subscriber `i` of `broadcast`. -/
def visit (s : CanStreamService) (frame : CanFrame) (now : Int) (i : Nat) (rest : List Nat) :
    CanStreamService :=
  let visited := { s with turn := some (.broadcasting frame now rest) }
  match s.calls[i]? with
  | none => visited
  | some c =>
    if !c.wants frame then visited
    else if c.locked then s
    else visited.modify i (Call.push (RawCanFrame.ofFrame now frame))

def advance (s : CanStreamService) : CanStreamService :=
  match s.turn with
  | none => s
  | some (.broadcasting _ _ []) => { s with turn := none }
  | some (.broadcasting frame now (i :: rest)) => s.visit frame now i rest
  | some (.shuttingDown [] _) => { s with turn := none, shutdownDone := true }
  | some (.shuttingDown (i :: rest) false) =>
    { s.modify i fun c => { c with done := true } with
      turn := some (.shuttingDown (i :: rest) true) }
  | some (.shuttingDown (i :: rest) true) =>
    { s.modify i Call.notify with turn := some (.shuttingDown rest false) }

def step (s : CanStreamService) : Label → CanStreamService
  | .broadcast frame now =>
    if s.turn = none then
      { s with
        turn := some (.broadcasting frame now s.subscribers)
        broadcasts := s.broadcasts ++ [frame] }
    else s
  | .shutdown =>
    if s.turn = none then { s with turn := some (.shuttingDown s.subscribers false) } else s
  | .advance => s.advance
  | .subscribe interface => if s.turn = none then s.subscribe interface else s
  | .proceed i ok => s.proceed i ok
  | .spurious i => s.modify i Call.notify

/-! ### What a step does -/

/-- The moves the service can make. -/
inductive Move (s : CanStreamService) : Label → CanStreamService → Prop where
  | stay (l : Label) (hl : ∀ interface, l = .subscribe interface → s.turn ≠ none) : Move s l s
  | broadcast (frame : CanFrame) (now : Int) (hturn : s.turn = none) :
      Move s (.broadcast frame now)
        { s with turn := some (.broadcasting frame now s.subscribers)
                 broadcasts := s.broadcasts ++ [frame] }
  | shutdown (hturn : s.turn = none) :
      Move s .shutdown { s with turn := some (.shuttingDown s.subscribers false) }
  | subscribe (interface : String) (hturn : s.turn = none) :
      Move s (.subscribe interface) (s.subscribe interface)
  | proceed (i : Nat) (ok : Bool) (c : Call) (hget : s.calls[i]? = some c)
      (hstage : c.stage ≠ .leaving) : Move s (.proceed i ok) (s.modify i (Call.proceed ok))
  | leave (i : Nat) (ok : Bool) (c : Call) (hget : s.calls[i]? = some c)
      (hstage : c.stage = .leaving) (hturn : s.turn = none) : Move s (.proceed i ok) (s.leave i)
  | wake (i : Nat) : Move s (.spurious i) (s.modify i Call.notify)
  | skip (frame : CanFrame) (now : Int) (i : Nat) (rest : List Nat)
      (hturn : s.turn = some (.broadcasting frame now (i :: rest)))
      (hwants : ∀ c, s.calls[i]? = some c → c.wants frame = false) :
      Move s .advance { s with turn := some (.broadcasting frame now rest) }
  | push (frame : CanFrame) (now : Int) (i : Nat) (rest : List Nat) (c : Call)
      (hturn : s.turn = some (.broadcasting frame now (i :: rest))) (hget : s.calls[i]? = some c)
      (hwants : c.wants frame = true) (hlocked : c.locked = false) :
      Move s .advance { s.modify i (Call.push (RawCanFrame.ofFrame now frame)) with
        turn := some (.broadcasting frame now rest) }
  | broadcastEnd (frame : CanFrame) (now : Int)
      (hturn : s.turn = some (.broadcasting frame now [])) : Move s .advance { s with turn := none }
  | mark (i : Nat) (rest : List Nat) (hturn : s.turn = some (.shuttingDown (i :: rest) false)) :
      Move s .advance { s.modify i fun c => { c with done := true } with
        turn := some (.shuttingDown (i :: rest) true) }
  | notify (i : Nat) (rest : List Nat) (hturn : s.turn = some (.shuttingDown (i :: rest) true)) :
      Move s .advance { s.modify i Call.notify with turn := some (.shuttingDown rest false) }
  | shutdownEnd (marked : Bool) (hturn : s.turn = some (.shuttingDown [] marked)) :
      Move s .advance { s with turn := none, shutdownDone := true }

theorem Move.stay_of_ne {s : CanStreamService} {l : Label} (hl : ∀ interface, l ≠ .subscribe interface) :
    Move s l s := Move.stay l fun interface he => absurd he (hl interface)

theorem move_visit {s : CanStreamService} {frame : CanFrame} {now : Int} {i : Nat} {rest : List Nat}
    (hturn : s.turn = some (.broadcasting frame now (i :: rest))) :
    Move s .advance (s.visit frame now i rest) := by
  unfold visit
  cases hget : s.calls[i]? with
  | none =>
    refine Move.skip frame now i rest hturn ?_
    intro c hc
    rw [hget] at hc
    cases hc
  | some c =>
    by_cases hwants : c.wants frame = true
    · by_cases hlocked : c.locked = true
      · simp only [hwants, hlocked, Bool.not_true, Bool.false_eq_true, ↓reduceIte]
        exact Move.stay_of_ne (by intro interface e; cases e)
      · have hlocked' : c.locked = false := by simpa using hlocked
        simp only [hwants, hlocked', Bool.not_true, Bool.false_eq_true, ↓reduceIte]
        exact Move.push frame now i rest c hturn hget hwants hlocked'
    · have hwants' : c.wants frame = false := by simpa using hwants
      simp only [hwants', Bool.not_false, ↓reduceIte]
      refine Move.skip frame now i rest hturn ?_
      intro c' hc'
      rw [hget] at hc'
      cases hc'
      exact hwants'

theorem move_advance (s : CanStreamService) : Move s .advance s.advance := by
  unfold advance
  split
  · exact Move.stay_of_ne (by intro interface e; cases e)
  · next frame now hturn => exact Move.broadcastEnd frame now hturn
  · next frame now i rest hturn => exact move_visit hturn
  · next marked hturn => exact Move.shutdownEnd marked hturn
  · next i rest hturn => exact Move.mark i rest hturn
  · next i rest hturn => exact Move.notify i rest hturn

/-- A step is one of the moves. -/
theorem move_step (s : CanStreamService) (l : Label) : Move s l (step s l) := by
  cases l with
  | broadcast frame now =>
    rw [step]
    split
    · next hturn => exact Move.broadcast frame now hturn
    · exact Move.stay_of_ne (by intro interface e; cases e)
  | shutdown =>
    rw [step]
    split
    · next hturn => exact Move.shutdown hturn
    · exact Move.stay_of_ne (by intro interface e; cases e)
  | advance => exact move_advance s
  | subscribe interface =>
    rw [step]
    split
    · next hturn => exact Move.subscribe interface hturn
    · next hturn => exact Move.stay _ fun _ _ => hturn
  | proceed i ok =>
    rw [step, proceed]
    split
    · exact Move.stay_of_ne (by intro interface e; cases e)
    · next c hget =>
      split
      · next hstage =>
        split
        · next hturn => exact Move.leave i ok c hget hstage hturn
        · exact Move.stay_of_ne (by intro interface e; cases e)
      · next hstage => exact Move.proceed i ok c hget hstage
  | spurious i => exact Move.wake i

/-- A call after another one has been changed, or after it has been changed itself. -/
theorem getElem?_modify_cases {s : CanStreamService} {i j : Nat} {f : Call → Call} {c' : Call}
    (h : (s.modify i f).calls[j]? = some c') :
    (j ≠ i ∧ s.calls[j]? = some c') ∨ (j = i ∧ ∃ c, s.calls[j]? = some c ∧ c' = f c) := by
  have hget : (s.calls.modify i f)[j]? = some c' := h
  rw [List.getElem?_modify] at hget
  by_cases hij : i = j
  · subst hij
    obtain ⟨c, hc, he⟩ := Option.map_eq_some_iff.mp hget
    rw [if_pos rfl] at he
    exact Or.inr ⟨rfl, c, hc, he.symm⟩
  · obtain ⟨c, hc, he⟩ := Option.map_eq_some_iff.mp hget
    rw [if_neg hij] at he
    cases he
    exact Or.inl ⟨fun e => hij e.symm, hc⟩

theorem getElem?_subscribe_cases {s : CanStreamService} {interface : String} {j : Nat} {c : Call}
    (h : (s.subscribe interface).calls[j]? = some c) :
    s.calls[j]? = some c ∨
      (j = s.calls.length ∧ c = { interfaceFilter := interface, since := s.broadcasts.length }) := by
  have hget : (s.calls ++ [{ interfaceFilter := interface, since := s.broadcasts.length }])[j]? =
      some c := h
  rcases Nat.lt_or_ge j s.calls.length with hlt | hge
  · rw [List.getElem?_append_left hlt] at hget
    exact Or.inl hget
  · rw [List.getElem?_append_right hge] at hget
    have hzero : j - s.calls.length = 0 := by
      have hlt := (List.getElem?_eq_some_iff.mp hget).1
      simpa using hlt
    rw [hzero] at hget
    exact Or.inr ⟨by omega, (Option.some.inj hget).symm⟩

/-- A property of single calls that every step of a call keeps. -/
theorem forall_calls_move {P : Call → Prop} {s s' : CanStreamService} {l : Label}
    (hmove : Move s l s')
    (hnew : ∀ interface, l = .subscribe interface → s.turn = none →
      P { interfaceFilter := interface, since := s.broadcasts.length })
    (hproceed : ∀ ok c, c.stage ≠ .leaving → P c → P (c.proceed ok))
    (hnotify : ∀ c, P c → P c.notify)
    (hpush : ∀ frame c, c.locked = false → P c → P (c.push frame))
    (hmark : ∀ c, P c → P { c with done := true })
    (hleave : ∀ c, c.stage = .leaving → P c → P { c with stage := .returned })
    (hs : ∀ (i : Nat) (c : Call), s.calls[i]? = some c → P c) :
    ∀ (i : Nat) (c : Call), s'.calls[i]? = some c → P c := by
  have hmodify : ∀ {i : Nat} {f : Call → Call}, (∀ c, s.calls[i]? = some c → P (f c)) →
      ∀ (j : Nat) (c : Call), (s.modify i f).calls[j]? = some c → P c := by
    intro i f hf j c' hj
    rcases getElem?_modify_cases hj with ⟨-, hold⟩ | ⟨rfl, c, hc, rfl⟩
    · exact hs j c' hold
    · exact hf c hc
  have hsame : ∀ {i : Nat} {c c' : Call}, s.calls[i]? = some c → s.calls[i]? = some c' →
      c = c' := by
    intro i c c' h h'
    rw [h] at h'
    exact Option.some.inj h'
  cases hmove with
  | stay hl => exact hs
  | broadcast frame now hturn => exact hs
  | shutdown hturn => exact hs
  | subscribe interface hturn =>
    intro j c hj
    rcases getElem?_subscribe_cases hj with hold | ⟨-, rfl⟩
    · exact hs j c hold
    · exact hnew interface rfl hturn
  | proceed i ok c hget hstage =>
    apply hmodify
    intro c' hc'
    exact hproceed ok c' (hsame hget hc' ▸ hstage) (hs i c' hc')
  | leave i ok c hget hstage hturn =>
    apply hmodify
    intro c' hc'
    exact hleave c' (hsame hget hc' ▸ hstage) (hs i c' hc')
  | wake i => exact hmodify fun c hc => hnotify c (hs i c hc)
  | skip frame now i rest hturn hwants => exact hs
  | push frame now i rest c hturn hget hwants hlocked =>
    apply hmodify
    intro c' hc'
    exact hpush _ c' (hsame hget hc' ▸ hlocked) (hs i c' hc')
  | broadcastEnd frame now hturn => exact hs
  | mark i rest hturn => exact hmodify fun c hc => hmark c (hs i c hc)
  | notify i rest hturn => exact hmodify fun c hc => hnotify c (hs i c hc)
  | shutdownEnd marked hturn => exact hs

/-! ### The list of subscribers -/

/-- `subscribers_` has the calls that have not returned, each once; a call leaves only when its flag
is set; and whoever holds the list visits each of its members once. -/
structure Listed (s : CanStreamService) : Prop where
  nodup : s.subscribers.Nodup
  lt : ∀ i ∈ s.subscribers, i < s.calls.length
  mem_iff : ∀ (i : Nat) (c : Call), s.calls[i]? = some c →
    (i ∈ s.subscribers ↔ c.stage ≠ .returned)
  done : ∀ (i : Nat) (c : Call), s.calls[i]? = some c → c.stage = .leaving ∨ c.stage = .returned →
    c.done = true
  rest : ∀ t, s.turn = some t → t.rest.Sublist s.subscribers

theorem listed_init : Listed init where
  nodup := List.nodup_nil
  lt i hi := by cases hi
  mem_iff i c hc := by cases hc
  done i c hc := by cases hc
  rest t ht := by cases ht

/-- No subscriber is visited twice in a turn. -/
theorem Listed.not_mem_rest {s : CanStreamService} (hs : Listed s) {t : Turn}
    (ht : s.turn = some t) {i : Nat} {rest : List Nat} (hrest : t.rest = i :: rest) : i ∉ rest := by
  have hnodup := hs.nodup.sublist (hs.rest t ht)
  rw [hrest] at hnodup
  exact (List.nodup_cons.mp hnodup).1

/-- What `f` may do to a call without the list being touched. -/
structure Keeps (f : Call → Call) (c : Call) : Prop where
  returned : (f c).stage = .returned ↔ c.stage = .returned
  done : (c.stage = .leaving ∨ c.stage = .returned → c.done = true) →
    (f c).stage = .leaving ∨ (f c).stage = .returned → (f c).done = true

theorem keeps_notify (c : Call) : Keeps Call.notify c := by
  unfold Call.notify
  constructor
  · split
    · next h => simp [h]
    · exact Iff.rfl
  · intro hdone
    split
    · intro hor
      rcases hor with h | h <;> cases h
    · exact hdone

theorem keeps_push (frame : RawCanFrame) (c : Call) : Keeps (Call.push frame) c := by
  have h := keeps_notify { c with queue := c.queue ++ [frame] }
  exact ⟨h.returned, h.done⟩

theorem keeps_mark (c : Call) : Keeps (fun c => { c with done := true }) c where
  returned := Iff.rfl
  done _ _ := rfl

theorem keeps_proceed (ok : Bool) {c : Call} (hstage : c.stage ≠ .leaving) :
    Keeps (Call.proceed ok) c := by
  unfold Call.proceed
  constructor
  · cases h : c.stage with
    | looping => cases c.done <;> simp
    | testing => cases (!c.queue.isEmpty || c.done) <;> simp
    | draining =>
      dsimp only
      split
      · simp
      · split <;> simp
    | writing frame => cases ok <;> simp
    | _ => simp [h]
  · intro hdone
    cases h : c.stage with
    | looping => cases c.done <;> simp
    | testing => cases (!c.queue.isEmpty || c.done) <;> simp
    | draining =>
      dsimp only
      split
      · simp
      · split <;> simp
    | writing frame => cases ok <;> simp
    | leaving => exact absurd h hstage
    | returned =>
      intro _
      exact hdone (Or.inr h)
    | _ => simp [h]

theorem Listed.modify {s : CanStreamService} (hs : Listed s) {i : Nat} {f : Call → Call}
    (hf : ∀ c, s.calls[i]? = some c → Keeps f c) : Listed (s.modify i f) where
  nodup := hs.nodup
  lt j hj := by
    change j < (s.calls.modify i f).length
    rw [List.length_modify]
    exact hs.lt j hj
  mem_iff j c' hj := by
    rcases getElem?_modify_cases hj with ⟨-, hold⟩ | ⟨rfl, c, hc, rfl⟩
    · exact hs.mem_iff j c' hold
    · refine (hs.mem_iff j c hc).trans ?_
      exact not_congr (hf c hc).returned.symm
  done j c' hj := by
    rcases getElem?_modify_cases hj with ⟨-, hold⟩ | ⟨rfl, c, hc, rfl⟩
    · exact hs.done j c' hold
    · exact (hf c hc).done (hs.done j c hc)
  rest := hs.rest

/-- Only `subs_mutex_` passes on. -/
theorem Listed.turn {s : CanStreamService} (hs : Listed s) {turn : Option Turn}
    (hrest : ∀ t, turn = some t → t.rest.Sublist s.subscribers) :
    Listed { s with turn := turn } where
  nodup := hs.nodup
  lt := hs.lt
  mem_iff := hs.mem_iff
  done := hs.done
  rest := hrest

/-- While nobody holds the list, there is nothing left to visit. -/
theorem rest_sublist_of_none {s : CanStreamService} (hturn : s.turn = none) (l : List Nat) :
    ∀ t, s.turn = some t → t.rest.Sublist l := by
  intro t ht
  rw [hturn] at ht
  cases ht

/-- A new call is at the end of both lists. -/
theorem Listed.subscribe {s : CanStreamService} (hs : Listed s) (hturn : s.turn = none)
    (interface : String) : Listed (s.subscribe interface) where
  nodup := by
    have hfresh : s.calls.length ∉ s.subscribers := fun hmem =>
      Nat.lt_irrefl _ (hs.lt _ hmem)
    change (s.subscribers ++ [s.calls.length]).Nodup
    rw [List.nodup_append]
    refine ⟨hs.nodup, by simp, ?_⟩
    rintro i hi j hj rfl
    exact hfresh (List.mem_singleton.mp hj ▸ hi)
  lt i hi := by
    change i < (s.calls ++ [_]).length
    rw [List.length_append]
    rcases List.mem_append.mp hi with hold | hlast
    · exact Nat.lt_succ_of_lt (hs.lt i hold)
    · rw [List.mem_singleton.mp hlast]
      exact Nat.lt_succ_self _
  mem_iff i c hc := by
    change i ∈ s.subscribers ++ [s.calls.length] ↔ _
    rcases getElem?_subscribe_cases hc with hold | ⟨rfl, rfl⟩
    · have hlt := (List.getElem?_eq_some_iff.mp hold).1
      rw [← hs.mem_iff i c hold]
      simp [Nat.ne_of_lt hlt]
    · simp
  done i c hc := by
    rcases getElem?_subscribe_cases hc with hold | ⟨-, rfl⟩
    · exact hs.done i c hold
    · rintro (h | h) <;> cases h
  rest := rest_sublist_of_none hturn _

/-- A call that leaves is removed as it returns. -/
theorem Listed.leave {s : CanStreamService} (hs : Listed s) (hturn : s.turn = none) {i : Nat}
    {c : Call} (hget : s.calls[i]? = some c) (hstage : c.stage = .leaving) :
    Listed (s.leave i) where
  nodup := hs.nodup.filter _
  lt j hj := by
    change j < (s.calls.modify i _).length
    rw [List.length_modify]
    exact hs.lt j (List.mem_of_mem_filter hj)
  mem_iff j c' hj := by
    change j ∈ s.subscribers.filter _ ↔ _
    rcases getElem?_modify_cases hj with ⟨hne, hold⟩ | ⟨rfl, c', -, rfl⟩
    · rw [← hs.mem_iff j c' hold]
      simp [hne]
    · simp
  done j c' hj hor := by
    rcases getElem?_modify_cases hj with ⟨-, hold⟩ | ⟨rfl, c', hc', rfl⟩
    · exact hs.done j c' hold hor
    · rw [hget] at hc'
      cases hc'
      exact hs.done j c hget (Or.inl hstage)
  rest := rest_sublist_of_none hturn _

theorem Listed.move {s s' : CanStreamService} {l : Label} (hs : Listed s) (hmove : Move s l s') :
    Listed s' := by
  have htail : ∀ {i : Nat} {rest : List Nat}, (i :: rest).Sublist s.subscribers →
      rest.Sublist s.subscribers := fun hsub => (List.sublist_cons_self _ _).trans hsub
  cases hmove with
  | stay hl => exact hs
  | broadcast frame now hturn =>
    refine ⟨hs.nodup, hs.lt, hs.mem_iff, hs.done, ?_⟩
    rintro t ⟨⟩
    exact List.Sublist.refl _
  | shutdown hturn =>
    refine hs.turn ?_
    rintro t ⟨⟩
    exact List.Sublist.refl _
  | subscribe interface hturn => exact hs.subscribe hturn interface
  | proceed i ok c hget hstage =>
    refine hs.modify ?_
    intro c' hc'
    rw [hget] at hc'
    cases hc'
    exact keeps_proceed ok hstage
  | leave i ok c hget hstage hturn => exact hs.leave hturn hget hstage
  | wake i => exact hs.modify fun c _ => keeps_notify c
  | skip frame now i rest hturn hwants =>
    refine hs.turn ?_
    rintro t ⟨⟩
    exact htail (hs.rest _ hturn)
  | push frame now i rest c hturn hget hwants hlocked =>
    refine (hs.modify fun c _ => keeps_push _ c).turn ?_
    rintro t ⟨⟩
    exact htail (hs.rest _ hturn)
  | broadcastEnd frame now hturn => exact hs.turn (by rintro t ⟨⟩)
  | mark i rest hturn =>
    refine (hs.modify fun c _ => keeps_mark c).turn ?_
    rintro t ⟨⟩
    exact hs.rest (.shuttingDown (i :: rest) false) hturn
  | notify i rest hturn =>
    refine (hs.modify fun c _ => keeps_notify c).turn ?_
    rintro t ⟨⟩
    exact htail (hs.rest _ hturn)
  | shutdownEnd marked hturn =>
    refine ⟨hs.nodup, hs.lt, hs.mem_iff, hs.done, ?_⟩
    rintro t ⟨⟩

theorem Listed.preserved {s : CanStreamService} (hs : Listed s) (l : Label) : Listed (step s l) :=
  hs.move (move_step s l)

theorem listed_run (ls : List Label) : Listed (run step init ls) :=
  run_invariant (fun _ l hs => hs.preserved l) listed_init ls

end CanStreamService

end Caneo
