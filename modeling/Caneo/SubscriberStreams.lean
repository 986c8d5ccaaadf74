import Caneo.CanStreamService
import Mathlib.Data.List.Induction
import Mathlib.Data.List.Infix

/-!
# What a client of `Subscribe` is sent

A frame reaches a client in three stations: the subscriber's queue, the call's thread (which takes
it out of the queue and writes it without the lock), and the stream. `Delivered` says that, read from
the last station to the first, they hold what was broadcast to the subscriber, in order and without
gaps; once its flag is set the queue may be left behind, but what is in the stream stays a prefix.
-/

namespace Caneo

open BitField Runs

/-- What a message and a frame have in common. -/
structure FrameContent where
  interface : String
  id : BitVec 32
  dlc : Nat
  data : Bytes
deriving DecidableEq

def RawCanFrame.content (raw : RawCanFrame) : FrameContent where
  interface := raw.interface
  id := raw.canId
  dlc := raw.dlc.toNat
  data := raw.data

def CanFrame.content (frame : CanFrame) : FrameContent where
  interface := frame.header.interface
  id := frame.header.id
  dlc := frame.header.dlc.toNat
  data := frame.payload

@[simp] theorem RawCanFrame.content_ofFrame (now : Int) (frame : CanFrame) :
    (RawCanFrame.ofFrame now frame).content = frame.content := by
  have hdlc : (frame.header.dlc.setWidth 32).toNat = frame.header.dlc.toNat := by
    rw [BitVec.toNat_setWidth]
    exact Nat.mod_eq_of_lt (lt_trans frame.header.dlc.isLt (by decide))
  simp [RawCanFrame.content, RawCanFrame.ofFrame, CanFrame.content, hdlc]

/-- The frame that the call's thread has taken out of the queue and not written yet. -/
def Call.inFlight (c : Call) : List RawCanFrame :=
  match c.stage with
  | .writing frame => [frame]
  | _ => []

namespace CanStreamService

/-- `broadcast` has still to visit subscriber `i`. -/
def awaited (s : CanStreamService) (i : Nat) : Bool :=
  match s.turn with
  | some (.broadcasting _ _ rest) => i ∈ rest
  | some (.shuttingDown _ _) | none => false

/-- The frames with which `broadcast` has been at subscriber `i`, had it always been there. -/
def visited (s : CanStreamService) (i : Nat) : List CanFrame :=
  if s.awaited i then s.broadcasts.dropLast else s.broadcasts

/-- What has been broadcast to a call since it registered and has come past it. -/
def offered (s : CanStreamService) (i : Nat) (c : Call) : List FrameContent :=
  (((s.visited i).drop c.since).filter c.wants).map CanFrame.content

/-- The stations of a call, read backwards, hold what was offered to it. -/
structure Delivered (s : CanStreamService) (i : Nat) (c : Call) : Prop where
  since_le : c.since ≤ (s.visited i).length
  written : (c.stream ++ c.inFlight).map RawCanFrame.content <+: s.offered i c
  complete : c.done = false →
    (c.stream ++ c.inFlight ++ c.queue).map RawCanFrame.content = s.offered i c

/-! ### What a call does by itself -/

/-- `f` changes neither who the call is nor, along the stations, what they hold. -/
structure Passes (f : Call → Call) (c : Call) : Prop where
  filter : (f c).interfaceFilter = c.interfaceFilter
  since : (f c).since = c.since
  written : ∀ l, (c.stream ++ c.inFlight).map RawCanFrame.content <+: l →
    (c.done = false → (c.stream ++ c.inFlight ++ c.queue).map RawCanFrame.content = l) →
    ((f c).stream ++ (f c).inFlight).map RawCanFrame.content <+: l
  complete : (f c).done = false → c.done = false ∧
    (f c).stream ++ (f c).inFlight ++ (f c).queue = c.stream ++ c.inFlight ++ c.queue

theorem Passes.congr {f g : Call → Call} {c : Call} (h : Passes f c) (he : g c = f c) :
    Passes g c := by
  refine ⟨?_, ?_, ?_, ?_⟩ <;> rw [he]
  · exact h.filter
  · exact h.since
  · exact h.written
  · exact h.complete

theorem passes_id (c : Call) : Passes id c where
  filter := rfl
  since := rfl
  written _ hl _ := hl
  complete hdone := ⟨hdone, rfl⟩

theorem passes_mark (c : Call) : Passes (fun c => { c with done := true }) c where
  filter := rfl
  since := rfl
  written l hl _ := hl
  complete hdone := by cases hdone

/-- A change of the stage only. -/
theorem passes_stage {c : Call} (hfrom : c.inFlight = []) (stage : Stage)
    (hto : ∀ frame, stage ≠ .writing frame) : Passes (fun c => { c with stage := stage }) c := by
  have hnone : Call.inFlight { c with stage := stage } = [] := by
    unfold Call.inFlight
    split
    · next frame h => exact absurd h (hto frame)
    · rfl
  refine ⟨rfl, rfl, ?_, ?_⟩
  · intro l hl _
    rw [hnone]
    rwa [hfrom] at hl
  · intro hdone
    refine ⟨hdone, ?_⟩
    rw [hnone, hfrom]

theorem passes_notify (c : Call) : Passes Call.notify c := by
  by_cases h : c.stage = .blocked
  · refine (passes_stage (by simp [Call.inFlight, h]) .woken ?_).congr ?_
    · intro frame e
      cases e
    · simp [Call.notify, h]
  · refine (passes_id c).congr ?_
    simp [Call.notify, h]

/-- The frame at the head of the queue becomes the one in flight. -/
theorem passes_take {c : Call} (hfrom : c.inFlight = []) {frame : RawCanFrame}
    {queue : List RawCanFrame} (hqueue : c.queue = frame :: queue) (hdone : c.done = false) :
    Passes (fun c => { c with queue := queue, stage := .writing frame }) c where
  filter := rfl
  since := rfl
  written l _ hcomplete := by
    rw [← hcomplete hdone, hfrom, hqueue]
    refine ⟨queue.map RawCanFrame.content, ?_⟩
    simp [Call.inFlight]
  complete _ := by
    refine ⟨hdone, ?_⟩
    rw [hfrom, hqueue]
    simp [Call.inFlight]

/-- The frame in flight is written. -/
theorem passes_write {c : Call} {frame : RawCanFrame} (hflight : c.inFlight = [frame]) :
    Passes (fun c => { c with stream := c.stream ++ [frame], stage := .relocking }) c where
  filter := rfl
  since := rfl
  written l hl _ := by
    rw [hflight] at hl
    simpa [Call.inFlight] using hl
  complete hdone := by
    refine ⟨hdone, ?_⟩
    rw [hflight]
    simp [Call.inFlight]

/-- The write fails: the frame in flight is dropped, and the call ends. -/
theorem passes_fail (c : Call) :
    Passes (fun c => { c with done := true, stage := .relocking }) c where
  filter := rfl
  since := rfl
  written l hl _ := by
    refine List.IsPrefix.trans ?_ hl
    simp [Call.inFlight]
  complete hdone := by cases hdone

theorem passes_proceed (ok : Bool) (c : Call) : Passes (Call.proceed ok) c := by
  have hstage : ∀ stage, c.inFlight = [] → (∀ frame, stage ≠ .writing frame) →
      c.proceed ok = { c with stage := stage } → Passes (Call.proceed ok) c :=
    fun stage hfrom hto he => (passes_stage hfrom stage hto).congr he
  cases h : c.stage with
  | looping =>
    refine hstage (if c.done then .leaving else .locking) (by simp [Call.inFlight, h]) ?_ ?_
    · intro frame
      split <;> intro e <;> cases e
    · simp [Call.proceed, h]
  | testing =>
    refine hstage (if !c.queue.isEmpty || c.done then .draining else .blocking)
      (by simp [Call.inFlight, h]) ?_ ?_
    · intro frame
      split <;> intro e <;> cases e
    · simp [Call.proceed, h]
  | draining =>
    have hfrom : c.inFlight = [] := by simp [Call.inFlight, h]
    cases hqueue : c.queue with
    | nil =>
      refine hstage .looping hfrom (by intro frame e; cases e) ?_
      simp [Call.proceed, h, hqueue]
    | cons frame queue =>
      by_cases hdone : c.done = true
      · refine hstage .looping hfrom (by intro frame e; cases e) ?_
        simp [Call.proceed, h, hqueue, hdone]
      · have hdone' : c.done = false := by simpa using hdone
        refine (passes_take hfrom hqueue hdone').congr ?_
        simp [Call.proceed, h, hqueue, hdone']
  | writing frame =>
    have hflight : c.inFlight = [frame] := by simp [Call.inFlight, h]
    cases ok with
    | true =>
      refine (passes_write hflight).congr ?_
      simp [Call.proceed, h]
    | false =>
      refine (passes_fail c).congr ?_
      simp [Call.proceed, h]
  | locking =>
    refine hstage .testing (by simp [Call.inFlight, h]) (by intro frame e; cases e) ?_
    simp [Call.proceed, h]
  | woken =>
    refine hstage .testing (by simp [Call.inFlight, h]) (by intro frame e; cases e) ?_
    simp [Call.proceed, h]
  | relocking =>
    refine hstage .draining (by simp [Call.inFlight, h]) (by intro frame e; cases e) ?_
    simp [Call.proceed, h]
  | blocking =>
    refine hstage .blocked (by simp [Call.inFlight, h]) (by intro frame e; cases e) ?_
    simp [Call.proceed, h]
  | blocked =>
    refine (passes_id c).congr ?_
    simp [Call.proceed, h]
  | leaving =>
    refine (passes_id c).congr ?_
    simp [Call.proceed, h]
  | returned =>
    refine (passes_id c).congr ?_
    simp [Call.proceed, h]

/-! ### One step -/

/-- `broadcast` works on the last frame of the history. -/
def Latest (s : CanStreamService) : Prop :=
  ∀ frame now rest, s.turn = some (.broadcasting frame now rest) →
    s.broadcasts.getLast? = some frame

theorem offered_passes {s s' : CanStreamService} {i : Nat} {f : Call → Call} {c : Call}
    (hf : Passes f c) (hvisited : s'.visited i = s.visited i) :
    s'.offered i (f c) = s.offered i c := by
  have hwants : (f c).wants = c.wants := by
    funext frame
    rw [Call.wants, Call.wants, hf.filter]
  rw [offered, offered, hvisited, hwants, hf.since]

theorem Delivered.passes {s s' : CanStreamService} {i : Nat} {f : Call → Call} {c : Call}
    (hd : Delivered s i c) (hf : Passes f c) (hvisited : s'.visited i = s.visited i) :
    Delivered s' i (f c) := by
  constructor
  · rw [hvisited, hf.since]
    exact hd.since_le
  · rw [offered_passes hf hvisited]
    exact hf.written _ hd.written hd.complete
  · intro hdone
    obtain ⟨hdone', hsame⟩ := hf.complete hdone
    rw [offered_passes hf hvisited, hsame]
    exact hd.complete hdone'

/-- `broadcast` comes past a call. -/
theorem offered_grown {s s' : CanStreamService} {i : Nat} {c : Call} {frame : CanFrame}
    (hd : Delivered s i c) (hvisited : s'.visited i = s.visited i ++ [frame]) :
    s'.offered i c = s.offered i c ++ if c.wants frame then [frame.content] else [] := by
  rw [offered, offered, hvisited, List.drop_append_of_le_length hd.since_le, List.filter_append,
    List.map_append]
  by_cases hwants : c.wants frame = true <;> simp [hwants]

theorem Delivered.unwanted {s s' : CanStreamService} {i : Nat} {c : Call} {frame : CanFrame}
    (hd : Delivered s i c) (hvisited : s'.visited i = s.visited i ++ [frame])
    (hwants : c.wants frame = false) : Delivered s' i c := by
  have hsame : s'.offered i c = s.offered i c := by
    rw [offered_grown hd hvisited, hwants]
    simp
  constructor
  · rw [hvisited, List.length_append]
    exact Nat.le_add_right_of_le hd.since_le
  · rw [hsame]
    exact hd.written
  · intro hdone
    rw [hsame]
    exact hd.complete hdone

/-- A call that has left is passed by. -/
theorem Delivered.left {s s' : CanStreamService} {i : Nat} {c : Call} (hd : Delivered s i c)
    (frame : CanFrame) (hvisited : s'.visited i = s.visited i ++ [frame])
    (hdone : c.done = true) : Delivered s' i c := by
  constructor
  · rw [hvisited, List.length_append]
    exact Nat.le_add_right_of_le hd.since_le
  · rw [offered_grown hd hvisited]
    exact hd.written.trans (List.prefix_append _ _)
  · intro hopen
    rw [hdone] at hopen
    cases hopen

theorem Delivered.push {s s' : CanStreamService} {i : Nat} {c : Call} {frame : CanFrame} {now : Int}
    (hd : Delivered s i c) (hvisited : s'.visited i = s.visited i ++ [frame])
    (hwants : c.wants frame = true) :
    Delivered s' i (c.push (RawCanFrame.ofFrame now frame)) := by
  have hqueued : Delivered s' i { c with queue := c.queue ++ [RawCanFrame.ofFrame now frame] } := by
    have hgrown : s'.offered i c = s.offered i c ++ [frame.content] := by
      rw [offered_grown hd hvisited, hwants, if_pos rfl]
    constructor
    · rw [hvisited, List.length_append]
      exact Nat.le_add_right_of_le hd.since_le
    · change List.IsPrefix _ (s'.offered i c)
      rw [hgrown]
      exact hd.written.trans (List.prefix_append _ _)
    · intro hdone
      have hbefore := hd.complete hdone
      change _ = s'.offered i c
      rw [hgrown, ← hbefore]
      simp [Call.inFlight]
  exact hqueued.passes (passes_notify _) rfl

/-! ### Where `broadcast` has been -/

theorem visited_of_none {s : CanStreamService} (hturn : s.turn = none) (i : Nat) :
    s.visited i = s.broadcasts := by
  simp [visited, awaited, hturn]

theorem visited_of_shuttingDown {s : CanStreamService} {rest : List Nat} {marked : Bool}
    (hturn : s.turn = some (.shuttingDown rest marked)) (i : Nat) :
    s.visited i = s.broadcasts := by
  simp [visited, awaited, hturn]

theorem visited_of_broadcasting {s : CanStreamService} {frame : CanFrame} {now : Int}
    {rest : List Nat} (hturn : s.turn = some (.broadcasting frame now rest)) (i : Nat) :
    s.visited i = if i ∈ rest then s.broadcasts.dropLast else s.broadcasts := by
  simp [visited, awaited, hturn]

/-- `broadcast` goes on from subscriber `i`. -/
theorem visited_next {s : CanStreamService} (hlatest : Latest s) {frame : CanFrame} {now : Int}
    {i : Nat} {rest : List Nat} (hturn : s.turn = some (.broadcasting frame now (i :: rest)))
    (hfresh : i ∉ rest) (s' : CanStreamService)
    (hturn' : s'.turn = some (.broadcasting frame now rest))
    (hsame : s'.broadcasts = s.broadcasts) (j : Nat) :
    s'.visited j = if j = i then s.visited i ++ [frame] else s.visited j := by
  rw [visited_of_broadcasting hturn', visited_of_broadcasting hturn, visited_of_broadcasting hturn,
    hsame, if_pos List.mem_cons_self]
  by_cases hij : j = i
  · subst hij
    rw [if_neg hfresh, if_pos rfl]
    exact (List.dropLast_append_getLast? frame (hlatest frame now _ hturn)).symm
  · rw [if_neg hij]
    simp [hij]

/-! ### Every run -/

structure Streams (s : CanStreamService) : Prop where
  listed : Listed s
  latest : Latest s
  delivered : ∀ (i : Nat) (c : Call), s.calls[i]? = some c → Delivered s i c

theorem streams_init : Streams init where
  listed := listed_init
  latest frame now rest ht := by cases ht
  delivered i c hc := by cases hc

/-- One call changes, and `broadcast` stays where it is. -/
theorem Streams.delivered_modify {s s' : CanStreamService} (hs : Streams s) {i : Nat}
    {f : Call → Call} (hf : ∀ c, s.calls[i]? = some c → Passes f c)
    (hcalls : s'.calls = (s.modify i f).calls) (hvisited : ∀ j, s'.visited j = s.visited j) :
    ∀ (j : Nat) (c : Call), s'.calls[j]? = some c → Delivered s' j c := by
  intro j c' hj
  rw [hcalls] at hj
  rcases getElem?_modify_cases hj with ⟨-, hold⟩ | ⟨rfl, c, hc, rfl⟩
  · exact (hs.delivered j c' hold).passes (passes_id c') (hvisited j)
  · exact (hs.delivered j c hc).passes (hf c hc) (hvisited j)

/-- A step that touches no call, and after which the calls have been visited for the same frames. -/
theorem Streams.delivered_turn {s s' : CanStreamService} (hs : Streams s)
    (hcalls : s'.calls = s.calls) (hvisited : ∀ i, s'.visited i = s.visited i) :
    ∀ (i : Nat) (c : Call), s'.calls[i]? = some c → Delivered s' i c := by
  intro i c hget
  rw [hcalls] at hget
  exact (hs.delivered i c hget).passes (passes_id c) (hvisited i)

theorem Latest.move {s s' : CanStreamService} {l : Label} (hs : Latest s) (hmove : Move s l s') :
    Latest s' := by
  intro frame now rest ht
  cases hmove with
  | stay hl => exact hs frame now rest ht
  | broadcast frame' now' hturn =>
    cases ht
    exact List.getLast?_concat
  | shutdown hturn => cases ht
  | subscribe interface hturn => exact hs frame now rest ht
  | proceed i ok c hget hstage => exact hs frame now rest ht
  | leave i ok c hget hstage hturn => exact hs frame now rest ht
  | wake i => exact hs frame now rest ht
  | skip frame' now' i rest' hturn hwants =>
    cases ht
    exact hs frame now (i :: rest) hturn
  | push frame' now' i rest' c hturn hget hwants hlocked =>
    cases ht
    exact hs frame now (i :: rest) hturn
  | broadcastEnd frame' now' hturn => cases ht
  | mark i rest' hturn => cases ht
  | notify i rest' hturn => cases ht
  | shutdownEnd marked hturn => cases ht

/-- When a broadcast begins, a listed call is still to be visited; any other one has left. -/
theorem Streams.delivered_broadcast {s : CanStreamService} (hs : Streams s) (hturn : s.turn = none)
    (frame : CanFrame) (now : Int) {i : Nat} {c : Call} (hget : s.calls[i]? = some c) :
    Delivered { s with turn := some (.broadcasting frame now s.subscribers)
                       broadcasts := s.broadcasts ++ [frame] } i c := by
  have hold := hs.delivered i c hget
  have hvisited := visited_of_none hturn i
  by_cases hmem : i ∈ s.subscribers
  · refine hold.passes (passes_id c) ?_
    rw [visited_of_broadcasting rfl, if_pos hmem, hvisited]
    exact List.dropLast_concat
  · refine hold.left frame ?_ ?_
    · rw [visited_of_broadcasting rfl, if_neg hmem, hvisited]
    · have hreturned : c.stage = .returned := by
        by_contra hne
        exact hmem ((hs.listed.mem_iff i c hget).mpr hne)
      exact hs.listed.done i c hget (Or.inr hreturned)

theorem Streams.delivered_subscribe {s : CanStreamService} (hs : Streams s) (hturn : s.turn = none)
    (interface : String) {i : Nat} {c : Call} (hget : (s.subscribe interface).calls[i]? = some c) :
    Delivered (s.subscribe interface) i c := by
  rcases getElem?_subscribe_cases hget with hold | ⟨-, rfl⟩
  · exact (hs.delivered i c hold).passes (passes_id c) rfl
  · have hvisited : (s.subscribe interface).visited i = s.broadcasts := visited_of_none hturn i
    have hnone : (s.broadcasts).drop s.broadcasts.length = [] := List.drop_length
    refine ⟨?_, ?_, ?_⟩
    · exact le_of_eq (by rw [hvisited])
    · exact List.nil_prefix
    · intro _
      rw [offered, hvisited, hnone]
      rfl

theorem Streams.delivered_skip {s : CanStreamService} (hs : Streams s) {frame : CanFrame} {now : Int}
    {i : Nat} {rest : List Nat} (hturn : s.turn = some (.broadcasting frame now (i :: rest)))
    (hwants : ∀ c, s.calls[i]? = some c → c.wants frame = false) {j : Nat} {c : Call}
    (hget : s.calls[j]? = some c) :
    Delivered { s with turn := some (.broadcasting frame now rest) } j c := by
  have hvisited := visited_next hs.latest hturn (hs.listed.not_mem_rest hturn rfl)
    { s with turn := some (.broadcasting frame now rest) } rfl rfl j
  by_cases hij : j = i
  · subst hij
    rw [if_pos rfl] at hvisited
    exact (hs.delivered j c hget).unwanted hvisited (hwants c hget)
  · rw [if_neg hij] at hvisited
    exact (hs.delivered j c hget).passes (passes_id c) hvisited

theorem Streams.delivered_push {s : CanStreamService} (hs : Streams s) {frame : CanFrame} {now : Int}
    {i : Nat} {rest : List Nat} (hturn : s.turn = some (.broadcasting frame now (i :: rest)))
    (hwants : ∀ c, s.calls[i]? = some c → c.wants frame = true) {j : Nat} {c : Call}
    (hget : (s.modify i (Call.push (RawCanFrame.ofFrame now frame))).calls[j]? = some c) :
    Delivered { s.modify i (Call.push (RawCanFrame.ofFrame now frame)) with
      turn := some (.broadcasting frame now rest) } j c := by
  have hvisited := visited_next hs.latest hturn (hs.listed.not_mem_rest hturn rfl)
    { s.modify i (Call.push (RawCanFrame.ofFrame now frame)) with
      turn := some (.broadcasting frame now rest) } rfl rfl j
  rcases getElem?_modify_cases hget with ⟨hij, hold⟩ | ⟨rfl, c', hold, rfl⟩
  · rw [if_neg hij] at hvisited
    exact (hs.delivered j c hold).passes (passes_id c) hvisited
  · rw [if_pos rfl] at hvisited
    exact (hs.delivered j c' hold).push hvisited (hwants c' hold)

theorem Streams.delivered_move {s s' : CanStreamService} {l : Label} (hs : Streams s)
    (hmove : Move s l s') :
    ∀ (i : Nat) (c : Call), s'.calls[i]? = some c → Delivered s' i c := by
  cases hmove with
  | stay hl => exact hs.delivered
  | broadcast frame now hturn => exact fun i c hget => hs.delivered_broadcast hturn frame now hget
  | shutdown hturn =>
    apply hs.delivered_turn
    · rfl
    · intro i
      rw [visited_of_shuttingDown rfl, visited_of_none hturn]
  | subscribe interface hturn => exact fun i c hget => hs.delivered_subscribe hturn interface hget
  | proceed i ok c hget hstage =>
    exact hs.delivered_modify (fun c _ => passes_proceed ok c) rfl fun _ => rfl
  | leave i ok c hget hstage hturn =>
    refine hs.delivered_modify (i := i) (f := fun c => { c with stage := .returned }) ?_ rfl
      fun _ => rfl
    intro c' hc'
    rw [hget] at hc'
    cases hc'
    exact passes_stage (by simp [Call.inFlight, hstage]) .returned (by intro frame e; cases e)
  | wake i => exact hs.delivered_modify (fun c _ => passes_notify c) rfl fun _ => rfl
  | skip frame now i rest hturn hwants => exact fun j c hget => hs.delivered_skip hturn hwants hget
  | push frame now i rest c hturn hget hwants hlocked =>
    intro j c' hget'
    apply hs.delivered_push hturn _ hget'
    intro c'' hc''
    rw [hget] at hc''
    cases hc''
    exact hwants
  | broadcastEnd frame now hturn =>
    apply hs.delivered_turn
    · rfl
    · intro i
      rw [visited_of_none rfl, visited_of_broadcasting hturn, if_neg List.not_mem_nil]
  | mark i rest hturn =>
    refine hs.delivered_modify (fun c _ => passes_mark c) rfl ?_
    intro j
    rw [visited_of_shuttingDown rfl, visited_of_shuttingDown hturn]
    rfl
  | notify i rest hturn =>
    refine hs.delivered_modify (fun c _ => passes_notify c) rfl ?_
    intro j
    rw [visited_of_shuttingDown rfl, visited_of_shuttingDown hturn]
    rfl
  | shutdownEnd marked hturn =>
    apply hs.delivered_turn
    · rfl
    · intro i
      rw [visited_of_none rfl, visited_of_shuttingDown hturn]

theorem Streams.preserved {s : CanStreamService} (hs : Streams s) (l : Label) :
    Streams (step s l) where
  listed := hs.listed.preserved l
  latest := hs.latest.move (move_step s l)
  delivered := hs.delivered_move (move_step s l)

theorem streams_run (ls : List Label) : Streams (run step init ls) :=
  run_invariant (fun _ l hs => hs.preserved l) streams_init ls

/-! ### When a call registered, and after it has returned -/

theorem returned_notify {c : Call} (hreturned : c.stage = .returned) : c.notify = c := by
  simp [Call.notify, hreturned]

/-- A call that has returned is not touched again. -/
theorem returned_move {s s' : CanStreamService} {l : Label} (hs : Listed s) (hmove : Move s l s')
    {i : Nat} {c : Call} (hget : s.calls[i]? = some c) (hreturned : c.stage = .returned) :
    s'.calls[i]? = some c := by
  have hunlisted : i ∉ s.subscribers := fun hmem => (hs.mem_iff i c hget).mp hmem hreturned
  have hother : ∀ {j : Nat} (f : Call → Call), j ≠ i → (s.calls.modify j f)[i]? = some c := by
    intro j f hne
    rw [List.getElem?_modify_ne _ _ hne]
    exact hget
  have hnotify : ∀ j, (s.calls.modify j Call.notify)[i]? = some c := by
    intro j
    by_cases hj : j = i
    · subst hj
      rw [List.getElem?_modify_eq, hget]
      exact congrArg some (returned_notify hreturned)
    · exact hother _ hj
  have hvisited : ∀ {j : Nat} {rest : List Nat} {t : Turn}, s.turn = some t → t.rest = j :: rest →
      j ≠ i := by
    rintro j rest t ht hrest rfl
    exact hunlisted ((hs.rest t ht).subset (hrest ▸ List.mem_cons_self))
  cases hmove with
  | stay hl => exact hget
  | broadcast frame now hturn => exact hget
  | shutdown hturn => exact hget
  | subscribe interface hturn =>
    have hlt := (List.getElem?_eq_some_iff.mp hget).1
    change (s.calls ++ [_])[i]? = some c
    rw [List.getElem?_append_left hlt]
    exact hget
  | proceed j ok c' hget' hstage =>
    by_cases hj : j = i
    · subst hj
      change (s.calls.modify j _)[j]? = some c
      rw [List.getElem?_modify_eq, hget]
      simp [Call.proceed, hreturned]
    · exact hother _ hj
  | leave j ok c' hget' hstage hturn =>
    refine hother _ ?_
    rintro rfl
    rw [hget] at hget'
    cases hget'
    rw [hstage] at hreturned
    cases hreturned
  | wake j => exact hnotify j
  | skip frame now j rest hturn hwants => exact hget
  | push frame now j rest c' hturn hget' hwants hlocked => exact hother _ (hvisited hturn rfl)
  | broadcastEnd frame now hturn => exact hget
  | mark j rest hturn => exact hother _ (hvisited hturn rfl)
  | notify j rest hturn => exact hnotify j
  | shutdownEnd marked hturn => exact hget

/-- A call is new, or it was there before, with the same filter and the same history. -/
theorem call_move {s s' : CanStreamService} {l : Label} (hmove : Move s l s') {i : Nat} {c' : Call}
    (hget : s'.calls[i]? = some c') :
    (∃ interface, l = .subscribe interface ∧ i = s.calls.length ∧
      c'.interfaceFilter = interface ∧ c'.since = s.broadcasts.length) ∨
    ∃ c, s.calls[i]? = some c ∧ c'.interfaceFilter = c.interfaceFilter ∧ c'.since = c.since := by
  have hmodify : ∀ {j : Nat} {f : Call → Call}, (∀ c, Passes f c) →
      (s.modify j f).calls[i]? = some c' →
      ∃ c, s.calls[i]? = some c ∧ c'.interfaceFilter = c.interfaceFilter ∧ c'.since = c.since := by
    intro j f hf h
    rcases getElem?_modify_cases h with ⟨-, hold⟩ | ⟨-, c, hc, rfl⟩
    · exact ⟨c', hold, rfl, rfl⟩
    · exact ⟨c, hc, (hf c).filter, (hf c).since⟩
  cases hmove with
  | subscribe interface hturn =>
    rcases getElem?_subscribe_cases hget with hold | ⟨hi, rfl⟩
    · exact Or.inr ⟨c', hold, rfl, rfl⟩
    · exact Or.inl ⟨interface, rfl, hi, rfl, rfl⟩
  | stay hl => exact Or.inr ⟨c', hget, rfl, rfl⟩
  | broadcast frame now hturn => exact Or.inr ⟨c', hget, rfl, rfl⟩
  | shutdown hturn => exact Or.inr ⟨c', hget, rfl, rfl⟩
  | proceed j ok c hc hstage => exact Or.inr (hmodify (passes_proceed ok) hget)
  | leave j ok c hc hstage hturn =>
    rcases getElem?_modify_cases (s := s) hget with ⟨-, hold⟩ | ⟨-, c, hc, rfl⟩
    · exact Or.inr ⟨c', hold, rfl, rfl⟩
    · exact Or.inr ⟨c, hc, rfl, rfl⟩
  | wake j => exact Or.inr (hmodify passes_notify hget)
  | skip frame now j rest hturn hwants => exact Or.inr ⟨c', hget, rfl, rfl⟩
  | push frame now j rest c hturn hc hwants hlocked =>
    rcases getElem?_modify_cases (s := s) hget with ⟨-, hold⟩ | ⟨-, c, hc, rfl⟩
    · exact Or.inr ⟨c', hold, rfl, rfl⟩
    · have hp := passes_notify { c with queue := c.queue ++ [RawCanFrame.ofFrame now frame] }
      exact Or.inr ⟨c, hc, hp.filter, hp.since⟩
  | broadcastEnd frame now hturn => exact Or.inr ⟨c', hget, rfl, rfl⟩
  | mark j rest hturn => exact Or.inr (hmodify passes_mark hget)
  | notify j rest hturn => exact Or.inr (hmodify passes_notify hget)
  | shutdownEnd marked hturn => exact Or.inr ⟨c', hget, rfl, rfl⟩

/-- Every call registered at some point of the run, and `since` tells how many frames had been
broadcast by then. -/
theorem exists_registration (ls : List Label) {i : Nat} {c : Call}
    (hget : (run step init ls).calls[i]? = some c) :
    ∃ before after, ls = before ++ .subscribe c.interfaceFilter :: after ∧
      i = (run step init before).calls.length ∧
      c.since = (run step init before).broadcasts.length := by
  induction ls using List.reverseRecOn generalizing c with
  | nil => cases hget
  | append_singleton ls l ih =>
    rw [run_append] at hget
    rcases call_move (move_step (run step init ls) l) hget with
      ⟨interface, rfl, hi, hfilter, hsince⟩ | ⟨c₀, hold, hfilter, hsince⟩
    · subst hfilter
      exact ⟨ls, [], rfl, hi, hsince⟩
    · obtain ⟨before, after, rfl, hi, hsince₀⟩ := ih hold
      refine ⟨before, after ++ [l], ?_, hi, hsince.trans hsince₀⟩
      rw [hfilter]
      simp

/-- **What a client is sent.** At every moment of every run, the frames written to a call's stream
are a prefix of the frames broadcast since the call registered that match its filter, in order and
with interface, id, length and data unchanged. Once the call has returned nothing reaches it. -/
theorem stream_prefix_of_broadcasts (ls : List Label) (i : Nat) (c : Call)
    (hget : (run step init ls).calls[i]? = some c) :
    (∃ before after, ls = before ++ .subscribe c.interfaceFilter :: after ∧
      i = (run step init before).calls.length ∧
      c.stream.map RawCanFrame.content <+:
        (((run step init ls).broadcasts.drop (run step init before).broadcasts.length).filter
          fun frame => c.interfaceFilter = "" ∨ c.interfaceFilter = frame.header.interface).map
            CanFrame.content) ∧
      (c.stage = .returned → ∀ later, (run step init (ls ++ later)).calls[i]? = some c) := by
  have hs := streams_run ls
  constructor
  · obtain ⟨before, after, hls, hi, hsince⟩ := exists_registration ls hget
    refine ⟨before, after, hls, hi, ?_⟩
    have hd := hs.delivered i c hget
    have hwants : (fun frame : CanFrame => decide (c.interfaceFilter = "" ∨
        c.interfaceFilter = frame.header.interface)) = c.wants := by
      funext frame
      have hempty : c.interfaceFilter.isEmpty = decide (c.interfaceFilter = "") := by
        rw [Bool.eq_iff_iff, String.isEmpty_iff, decide_eq_true_iff]
      rw [Call.wants, hempty, Bool.decide_or]
    have hvisited : (run step init ls).visited i <+: (run step init ls).broadcasts := by
      rw [visited]
      split
      · exact List.dropLast_prefix _
      · exact List.prefix_refl _
    rw [hwants, ← hsince]
    have hstream : c.stream.map RawCanFrame.content <+:
        (c.stream ++ c.inFlight).map RawCanFrame.content := by
      rw [List.map_append]
      exact List.prefix_append _ _
    refine (hstream.trans hd.written).trans ?_
    exact ((hvisited.drop c.since).filter _).map _
  · intro hreturned later
    rw [run_append]
    have hstep : ∀ (s : CanStreamService) (l : Label), Listed s ∧ s.calls[i]? = some c →
        Listed (step s l) ∧ (step s l).calls[i]? = some c := by
      rintro s l ⟨hl, hc⟩
      exact ⟨hl.preserved l, returned_move hl (move_step s l) hc hreturned⟩
    exact (run_invariant hstep ⟨hs.listed, hget⟩ later).2

/-! One client asks for `vcan0`; a frame of each interface is broadcast, and the client is written
the one it asked for. -/

def speedFrame : CanFrame where
  header := { id := 257, interface := "vcan0", dlc := 2 }
  payload := [18, 52]

def otherFrame : CanFrame where
  header := { id := 512, interface := "vcan1", dlc := 1 }
  payload := [7]

def oneClient : List Label :=
  [.subscribe "vcan0", .broadcast otherFrame 10, .advance, .advance, .broadcast speedFrame 20,
    .advance, .proceed 0 true, .proceed 0 true, .proceed 0 true, .proceed 0 true, .proceed 0 true]

def servedCall : Call where
  interfaceFilter := "vcan0"
  stage := .relocking
  stream := [RawCanFrame.ofFrame 20 speedFrame]
  since := 0

theorem stream_prefix_of_speedFrame :
    ∃ before after, oneClient = before ++ .subscribe "vcan0" :: after ∧
      0 = (run step init before).calls.length ∧
      servedCall.stream.map RawCanFrame.content <+:
        (((run step init oneClient).broadcasts.drop (run step init before).broadcasts.length).filter
          fun frame => "vcan0" = "" ∨ "vcan0" = frame.header.interface).map CanFrame.content :=
  (stream_prefix_of_broadcasts oneClient 0 servedCall (by decide +kernel)).1

end CanStreamService

end Caneo
