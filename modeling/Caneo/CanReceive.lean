import Caneo.EdgeTriggered
import Caneo.FrameReceivers
import Caneo.ReplayedSends

/-!
# From the kernel to the callback, and into a log

`SocketCAN::asyncRead` (`src/socket/SocketCAN.cpp`) waits for its socket to become readable, then
calls `readFrame` until it fails, and waits again. The wait is edge-triggered, so that a frame that
were left in the kernel's queue would stay there until the next one comes; while the handler reads,
more may arrive at any moment. The handler of one socket runs at a time.

The sockets are a loop of `EdgeTriggered` (`refines_run`), so every frame that arrives is handed to
the callback, once and in its order (`every_frame_handed`).
-/

namespace Caneo

open BitField Containers EdgeTriggered McapReader Runs

/-! ### The sockets -/

/-- What waits in the kernel: `recvmsg` will return at least 0 for it. -/
structure Datagram where
  msg : Recvmsg
  nonneg : 0 ≤ msg.n

/-- `recvmsg` with nothing to receive, or with an error. -/
def recvFailed : Recvmsg where
  n := -1
  raw := SocketCAN.send 0 []

def recvmsg : List Datagram → Recvmsg × List Datagram
  | [] => (recvFailed, [])
  | datagram :: rest => (datagram.msg, rest)

/-- What a frame carries, whenever it is received. -/
abbrev Content := CanHeader × Bytes

def contentOf (frame : CanFrame) : Content := (frame.header, frame.payload)

/-- What a datagram carries, if it is a whole frame. -/
def Datagram.content (interface : String) (datagram : Datagram) : Option Content :=
  if datagram.msg.n < SocketCAN.sizeofFrame then none
  else some ({ id := datagram.msg.raw.canId &&& CAN_EFF_MASK, interface := interface,
               dlc := datagram.msg.raw.canDlc },
    datagram.msg.raw.data.take datagram.msg.raw.canDlc.toNat)

theorem content_readFrame (interface : String) (now : Int) (datagram : Datagram) :
    (SocketCAN.readFrame interface now datagram.msg).2.map contentOf =
      datagram.content interface := by
  unfold SocketCAN.readFrame Datagram.content
  rw [if_neg (Int.not_lt.mpr datagram.nonneg)]
  split <;> rfl

/-- `current` is the socket whose handler is in its loop, and `incomings` has the calls of the
callbacks. -/
structure CanSockets where
  queue : Nat → List Datagram
  edge : Nat → Bool
  current : Option Nat
  incomings : List Incoming

inductive CanSockets.Label where
  | arrive (socket : Nat) (datagram : Datagram)
  /-- The wait of a socket completes. -/
  | wake (socket : Nat)
  | readFrame (now : Int) (clock : String → Int)
  /-- `recvmsg` fails although it need not. -/
  | fail

namespace CanSockets

def init : CanSockets where
  queue _ := []
  edge _ := false
  current := none
  incomings := []

variable (names : List String)

/-- `while (readFrame()) {}` and, when it has failed, `asyncRead()`. -/
def afterRead (s : CanSockets) (socket : Nat) (msg : Recvmsg) (rest : List Datagram) (now : Int)
    (clock : String → Int) : CanSockets :=
  let (more, frame) := SocketCAN.readFrame (names.getD socket "") now msg
  { s with
    queue := Function.update s.queue socket rest
    current := if more then some socket else none
    incomings := s.incomings ++ (frame.map fun frame => ⟨socket, frame, clock⟩).toList }

def step (s : CanSockets) : Label → CanSockets
  | .arrive socket datagram =>
    { s with
      queue := Function.update s.queue socket (s.queue socket ++ [datagram])
      edge := Function.update s.edge socket true }
  | .wake socket =>
    if s.current.isNone && s.edge socket then
      { s with edge := Function.update s.edge socket false, current := some socket }
    else s
  | .readFrame now clock =>
    match s.current with
    | none => s
    | some socket =>
      let (msg, rest) := recvmsg (s.queue socket)
      s.afterRead names socket msg rest now clock
  | .fail =>
    match s.current with
    | none => s
    | some socket => s.afterRead names socket recvFailed (s.queue socket) 0 fun _ => 0

/-! ### They are an edge-triggered loop -/

/-- The stamp of a datagram: when it was read, and the clock of the callback. -/
abbrev Stamp := Int × (String → Int)

def Label.toLoop : Label → EdgeTriggered.Label Nat Datagram Stamp
  | .arrive socket datagram => .arrive socket datagram
  | .wake socket => .wake socket
  | .readFrame now clock => .take (now, clock)
  | .fail => .giveUp

/-- What the callback is called with for a datagram. -/
def incomingOf (taken : Nat × Datagram × Stamp) : Option Incoming :=
  (SocketCAN.readFrame (names.getD taken.1 "") taken.2.2.1 taken.2.1.msg).2.map fun frame =>
    ⟨taken.1, frame, taken.2.2.2⟩

structure Refines (s : CanSockets) (loop : Loop Nat Datagram Stamp) : Prop where
  queue : s.queue = loop.queue
  edge : s.edge = loop.edge
  current : s.current = loop.current
  incomings : s.incomings = loop.taken.filterMap (incomingOf names)

variable {names}

theorem readFrame_failed (interface : String) (now : Int) :
    SocketCAN.readFrame interface now recvFailed = (false, none) := by
  unfold SocketCAN.readFrame
  exact if_pos (by decide)

/-- Whatever is received, the loop goes on. -/
theorem more_readFrame (datagram : Datagram) (interface : String) (now : Int) :
    (SocketCAN.readFrame interface now datagram.msg).1 = true := by
  unfold SocketCAN.readFrame
  rw [if_neg (Int.not_lt.mpr datagram.nonneg)]
  split <;> rfl

theorem afterRead_failed (s : CanSockets) (socket : Nat) (rest : List Datagram) (now : Int)
    (clock : String → Int) :
    s.afterRead names socket recvFailed rest now clock =
      { s with queue := Function.update s.queue socket rest, current := none } := by
  unfold afterRead
  rw [readFrame_failed]
  change CanSockets.mk _ _ _ (s.incomings ++ []) = _
  rw [List.append_nil]
  rfl

theorem afterRead_received (s : CanSockets) (socket : Nat) (datagram : Datagram)
    (rest : List Datagram) (now : Int) (clock : String → Int) :
    s.afterRead names socket datagram.msg rest now clock =
      { s with
        queue := Function.update s.queue socket rest
        current := some socket
        incomings := s.incomings ++ (incomingOf names (socket, datagram, (now, clock))).toList } := by
  change CanSockets.mk _ _ (if (SocketCAN.readFrame _ now datagram.msg).1 = true then _ else _) _ = _
  rw [more_readFrame, if_pos rfl]
  rfl

theorem refines_step {s : CanSockets} {loop : Loop Nat Datagram Stamp} (h : s.Refines names loop)
    (l : Label) : (s.step names l).Refines names (loop.step l.toLoop) := by
  have hcurrent := h.current
  cases l with
  | arrive socket datagram =>
    refine ⟨?_, ?_, hcurrent, h.incomings⟩
    · change Function.update s.queue socket (s.queue socket ++ [datagram]) = _
      rw [h.queue]
      rfl
    · change Function.update s.edge socket true = _
      rw [h.edge]
      rfl
  | wake socket =>
    unfold step
    dsimp only [Label.toLoop]
    rw [hcurrent, h.edge]
    by_cases hready : (loop.current.isNone && loop.edge socket) = true
    · rw [if_pos hready]
      rw [Bool.and_eq_true, Option.isNone_iff_eq_none] at hready
      rw [step_wake hready.1 hready.2]
      refine ⟨h.queue, ?_, rfl, h.incomings⟩
      dsimp only
    · rw [if_neg hready, step_wake_of_not hready]
      exact h
  | readFrame now clock =>
    dsimp only [Label.toLoop]
    cases hsocket : loop.current with
    | none =>
      have hstep : s.step names (.readFrame now clock) = s := by
        unfold step
        rw [hcurrent, hsocket]
      rw [hstep, step_take_of_idle hsocket]
      exact h
    | some socket =>
      cases hqueue : loop.queue socket with
      | nil =>
        have hstep : s.step names (.readFrame now clock) =
            s.afterRead names socket recvFailed [] now clock := by
          unfold step
          rw [hcurrent, hsocket]
          dsimp only
          rw [h.queue, hqueue]
          rfl
        rw [step_take_of_empty hsocket hqueue]
        refine (hstep.trans (afterRead_failed s socket [] now clock)) ▸ ⟨?_, h.edge, rfl, h.incomings⟩
        dsimp only
        rw [h.queue, ← hqueue, Function.update_eq_self]
      | cons datagram rest =>
        have hstep : s.step names (.readFrame now clock) =
            s.afterRead names socket datagram.msg rest now clock := by
          unfold step
          rw [hcurrent, hsocket]
          dsimp only
          rw [h.queue, hqueue]
          rfl
        rw [step_take hsocket hqueue]
        refine (hstep.trans (afterRead_received s socket datagram rest now clock)) ▸
          ⟨?_, h.edge, hsocket.symm, ?_⟩
        · dsimp only
          rw [h.queue]
        · dsimp only
          rw [h.incomings, List.filterMap_append, List.filterMap_cons, List.filterMap_nil]
          cases incomingOf names (socket, datagram, (now, clock)) <;> rfl
  | fail =>
    unfold step
    dsimp only [Label.toLoop]
    cases hsocket : loop.current with
    | none =>
      rw [hcurrent, hsocket]
      exact ⟨h.queue, h.edge, hcurrent.trans hsocket, h.incomings⟩
    | some socket =>
      rw [hcurrent, hsocket]
      dsimp only
      rw [afterRead_failed, Function.update_eq_self]
      exact ⟨h.queue, h.edge, rfl, h.incomings⟩

theorem refines_run (names : List String) (ls : List Label) :
    (run (step names) init ls).Refines names (run Loop.step Loop.init (ls.map Label.toLoop)) := by
  induction ls using List.reverseRecOn with
  | nil => exact ⟨rfl, rfl, rfl, rfl⟩
  | append_singleton ls l ih =>
    rw [run_append, List.map_append, run_append]
    exact refines_step ih l

/-! ### Every frame is handed on -/

/-- What the callback of a socket was called with. -/
def handedTo (s : CanSockets) (socket : Nat) : List Content :=
  (s.incomings.filter fun incoming => incoming.socket = socket).map fun incoming =>
    contentOf incoming.frame

/-- What waits at a socket. -/
def waitingAt (names : List String) (s : CanSockets) (socket : Nat) : List Content :=
  (s.queue socket).filterMap (Datagram.content (names.getD socket ""))

/-- What arrived at a socket. -/
def arrivedAt (names : List String) (socket : Nat) (ls : List Label) : List Content :=
  ls.filterMap fun
    | .arrive socket' datagram =>
      if socket' = socket then datagram.content (names.getD socket "") else none
    | .wake _ | .readFrame .. | .fail => none

theorem arrivedAt_eq (names : List String) (socket : Nat) (ls : List Label) :
    arrivedAt names socket ls =
      (arrivals socket (ls.map Label.toLoop)).filterMap
        (Datagram.content (names.getD socket "")) := by
  induction ls with
  | nil => rfl
  | cons l ls ih =>
    have hcons : ∀ (f : Label → Option Content), (l :: ls).filterMap f =
        (f l).toList ++ ls.filterMap f := by
      intro f
      rw [List.filterMap_cons]
      cases f l <;> rfl
    rw [arrivedAt, hcons, ← arrivedAt, ih]
    cases l with
    | arrive socket' datagram =>
      by_cases hsocket : socket' = socket
      · simp only [Label.toLoop, List.map_cons, arrivals, List.filterMap_cons, hsocket, if_true]
        cases datagram.content (names.getD socket "") <;> rfl
      · simp only [Label.toLoop, List.map_cons, arrivals, List.filterMap_cons, hsocket, if_false]
        rfl
    | wake socket' => rfl
    | readFrame now clock => rfl
    | fail => rfl

theorem handedTo_eq {s : CanSockets} {loop : Loop Nat Datagram Stamp} (h : s.Refines names loop)
    (socket : Nat) :
    s.handedTo socket =
      (loop.takenFrom socket).filterMap (Datagram.content (names.getD socket "")) := by
  rw [handedTo, h.incomings, Loop.takenFrom]
  generalize loop.taken = taken
  induction taken with
  | nil => rfl
  | cons t taken ih =>
    obtain ⟨socket', datagram, now, clock⟩ := t
    have hcontent := content_readFrame (names.getD socket' "") now datagram
    rw [List.filterMap_cons, List.filterMap_cons]
    unfold incomingOf at ih ⊢
    dsimp only at ih ⊢
    cases hframe : (SocketCAN.readFrame (names.getD socket' "") now datagram.msg).2 with
    | none =>
      rw [hframe, Option.map_none] at hcontent
      rw [Option.map_none]
      by_cases hsocket : socket' = socket
      · rw [if_pos hsocket]
        dsimp only
        rw [List.filterMap_cons_none (by rw [← hsocket]; exact hcontent.symm)]
        exact ih
      · rw [if_neg hsocket]
        exact ih
    | some frame =>
      rw [hframe, Option.map_some] at hcontent
      rw [Option.map_some]
      dsimp only
      by_cases hsocket : socket' = socket
      · rw [if_pos hsocket, List.filter_cons_of_pos (by simpa using hsocket), List.map_cons, ih]
        dsimp only
        rw [List.filterMap_cons_some (by rw [← hsocket]; exact hcontent.symm)]
      · rw [if_neg hsocket, List.filter_cons_of_neg (by simpa using hsocket), ih]

/-- `recvmsg` fails only if nothing waits. -/
def Drains (s : CanSockets) : Label → Prop
  | .fail => ∀ socket, s.current = some socket → s.queue socket = []
  | .arrive .. | .wake _ | .readFrame .. => True

theorem meets_drains {ls : List Label} {s : CanSockets} {loop : Loop Nat Datagram Stamp}
    (h : s.Refines names loop) (hls : Meets (step names) Drains s ls) :
    Meets Loop.step Loop.Drains loop (ls.map Label.toLoop) := by
  induction ls generalizing s loop with
  | nil => trivial
  | cons l ls ih =>
    obtain ⟨hl, hrest⟩ := hls
    refine ⟨?_, ih (refines_step h l) hrest⟩
    cases l with
    | arrive socket datagram => trivial
    | wake socket => trivial
    | readFrame now clock => trivial
    | fail =>
      intro socket hcurrent
      rw [← h.queue]
      exact hl socket (h.current.trans hcurrent)

/-- The labels of the loop itself. -/
def Label.isOwn : Label → Bool
  | .wake _ | .readFrame .. => true
  | .arrive .. | .fail => false

theorem exists_labels {ls : List (EdgeTriggered.Label Nat Datagram Stamp)}
    (hls : ∀ l ∈ ls, l.isOwn = true) :
    ∃ ls' : List Label, ls'.map Label.toLoop = ls ∧ ∀ l ∈ ls', l.isOwn = true := by
  induction ls with
  | nil => exact ⟨[], rfl, fun l hl => by cases hl⟩
  | cons l ls ih =>
    obtain ⟨ls', hmap, hown⟩ := ih fun l' hl' => hls l' (List.mem_cons_of_mem _ hl')
    obtain ⟨l', hl', hown'⟩ : ∃ l' : Label, l'.toLoop = l ∧ l'.isOwn = true := by
      cases l with
      | arrive socket datagram => cases hls _ List.mem_cons_self
      | wake socket => exact ⟨.wake socket, rfl, rfl⟩
      | take t => exact ⟨.readFrame t.1 t.2, rfl, rfl⟩
      | giveUp => cases hls _ List.mem_cons_self
    refine ⟨l' :: ls', by rw [List.map_cons, hl', hmap], ?_⟩
    intro l'' hl''
    rcases List.mem_cons.mp hl'' with rfl | hl''
    · exact hown'
    · exact hown l'' hl''

theorem handedTo_append_waitingAt (names : List String) (ls : List Label) (socket : Nat) :
    (run (step names) init ls).handedTo socket ++
        (run (step names) init ls).waitingAt names socket = arrivedAt names socket ls := by
  have hrefines := refines_run names ls
  rw [handedTo_eq hrefines, waitingAt, hrefines.queue, ← List.filterMap_append,
    takenFrom_append_queue, arrivedAt_eq]
  rfl

theorem arrivedAt_of_isOwn {ls : List Label} (hls : ∀ l ∈ ls, l.isOwn = true) (names : List String)
    (socket : Nat) : arrivedAt names socket ls = [] := by
  rw [arrivedAt, List.filterMap_eq_nil_iff]
  intro l hl
  cases l with
  | arrive socket' datagram => cases hls _ hl
  | wake socket' => rfl
  | readFrame now clock => rfl
  | fail => cases hls _ hl

/-- **No frame stays behind.** In every interleaving of arrivals with the handlers: what the callback
of a socket was called with, followed by what waits at the socket, is what arrived there, in its
order, datagrams that are too short left out. As long as `recvmsg` fails only if nothing waits, a
socket where something waits will wake up or is being read, and without further arrivals everything
is handed on in the end. -/
theorem every_frame_handed (names : List String) (ls : List Label) :
    let s := run (step names) init ls
    (∀ socket, s.handedTo socket ++ s.waitingAt names socket = arrivedAt names socket ls) ∧
      (Meets (step names) Drains init ls →
        (∀ socket, s.queue socket ≠ [] → s.edge socket = true ∨ s.current = some socket) ∧
        ∃ ls', (∀ l ∈ ls', l.isOwn = true) ∧ (run (step names) s ls').current = none ∧
          ∀ socket < names.length,
            (run (step names) s ls').handedTo socket = arrivedAt names socket ls) := by
  intro s
  refine ⟨handedTo_append_waitingAt names ls, ?_⟩
  intro hdrains
  have hrefines := refines_run names ls
  have hawake := awake_run awake_init (meets_drains ⟨rfl, rfl, rfl, rfl⟩ hdrains)
  constructor
  · intro socket hwaits
    have hqueue : s.queue = _ := hrefines.queue
    have hedge : s.edge = _ := hrefines.edge
    have hcurrent : s.current = _ := hrefines.current
    rw [hqueue] at hwaits
    rw [hedge, hcurrent]
    exact hawake socket hwaits
  · obtain ⟨loopLs, hown, hidle, -, -, hempty⟩ := exists_drain ((0, fun _ => 0) : Stamp)
      (List.range names.length) hawake
    obtain ⟨ls', rfl, hown'⟩ := exists_labels hown
    have hrefines' := refines_run names (ls ++ ls')
    rw [List.map_append, run_append, run_append] at hrefines'
    refine ⟨ls', hown', hrefines'.current.trans hidle, ?_⟩
    intro socket hsocket
    have hall := handedTo_append_waitingAt names (ls ++ ls') socket
    rw [run_append] at hall
    have hnone : (run (step names) s ls').waitingAt names socket = [] := by
      rw [waitingAt, hrefines'.queue, hempty socket (List.mem_range.mpr hsocket)]
      rfl
    have harrived : arrivedAt names socket (ls ++ ls') = arrivedAt names socket ls := by
      have happend : arrivedAt names socket (ls ++ ls') =
          arrivedAt names socket ls ++ arrivedAt names socket ls' := List.filterMap_append
      rw [happend, arrivedAt_of_isOwn hown', List.append_nil]
    rw [hnone, List.append_nil, harrived] at hall
    exact hall

end CanSockets

/-- A frame that the kernel has stamped. -/
def stampedDatagram (id : BitVec 64) (byte : BitVec 8) (nsec : Int) : Datagram where
  msg := ⟨16, SocketCAN.send id [byte], [⟨true, ⟨0, nsec⟩, ⟨0, 0⟩⟩]⟩
  nonneg := Int.zero_le_ofNat 16

namespace CanSockets

/-- While the first socket is being read, another frame arrives there, and one at the second. -/
def busyReads : List Label :=
  [.arrive 0 (stampedDatagram 0x10 1 5), .wake 0, .readFrame 0 fun _ => 0,
    .arrive 0 (stampedDatagram 0x11 2 7), .arrive 1 (stampedDatagram 0x20 3 9)]

/-- Two frames wait, and the sockets get to them. -/
theorem every_frame_handed_busy :
    let s := run (step ["vcan0", "vcan1"]) init busyReads
    s.queue 0 ≠ [] ∧ s.queue 1 ≠ [] ∧
      ∃ ls', (∀ l ∈ ls', l.isOwn = true) ∧
        (run (step ["vcan0", "vcan1"]) s ls').handedTo 0 =
          [(⟨0x10, "vcan0", 1⟩, [1]), (⟨0x11, "vcan0", 1⟩, [2])] ∧
        (run (step ["vcan0", "vcan1"]) s ls').handedTo 1 = [(⟨0x20, "vcan1", 1⟩, [3])] := by
  intro s
  have hdrains : Meets (step ["vcan0", "vcan1"]) Drains init busyReads :=
    ⟨trivial, trivial, trivial, trivial, trivial, trivial⟩
  obtain ⟨ls', hown, -, hall⟩ := ((every_frame_handed ["vcan0", "vcan1"] busyReads).2 hdrains).2
  refine ⟨List.cons_ne_nil _ _, List.cons_ne_nil _ _, ls', hown, ?_, ?_⟩
  · rw [hall 0 (by decide)]
    decide +kernel
  · rw [hall 1 (by decide)]
    decide +kernel

end CanSockets

end Caneo
