import Caneo.McapReader
import Caneo.Tui

/-!
# `McapReader::play` under a controller

The loop of `play` (`src/logger/McapReader.cpp`) on the playback thread, and the controller that the
UI thread changes meanwhile (`src/playback/PlaybackController.hpp`). The loop reads the controller
several times for each record: it blocks while no interface is running, sleeps towards the record's
time, and then asks whether the record's own interface is running. A step is the loop's next one, or
a call of the controller; the clock reading that the loop gets is part of its step.

A record that finds its interface paused after the sleep is dropped, also when all interfaces are
paused: the check before the sleep, which blocks, is not made again. So the loop passes on every
well-formed record exactly as long as no check after the sleep finds the interface paused
(`nothing_skipped_iff`).
-/

namespace Caneo

open Runs Containers McapReader

variable {pb : Protobuf}

/-! ### The controller -/

namespace PlaybackController

def isRunning (ctrl : PlaybackController) (iface : String) : Bool :=
  ((ctrl.states.find? fun p => p.1 = iface).map (·.2)).getD false

def anyRunning (ctrl : PlaybackController) : Bool := ctrl.states.any (·.2)

def isMessageEnabled (ctrl : PlaybackController) (iface msgName : String) : Bool :=
  match ctrl.messages iface with
  | none => true
  | some names => ((names.find? fun p => p.1 = msgName).map (·.2)).getD true

/-- All message filters are on. -/
def FiltersOn (ctrl : PlaybackController) : Prop :=
  ∀ iface names, ctrl.messages iface = some names → ∀ p ∈ names, p.2 = true

theorem FiltersOn.isMessageEnabled {ctrl : PlaybackController} (h : ctrl.FiltersOn)
    (iface msgName : String) : ctrl.isMessageEnabled iface msgName = true := by
  unfold PlaybackController.isMessageEnabled
  split
  · rfl
  · next names hnames =>
    cases hfind : names.find? fun p => p.1 = msgName with
    | none => rfl
    | some p => exact h iface names hnames p (List.mem_of_find?_eq_some hfind)

theorem messages_toggle (ctrl : PlaybackController) (iface : String) :
    (ctrl.toggle iface).messages = ctrl.messages := by
  unfold toggle
  split <;> rfl

end PlaybackController

/-! ### The loop -/

/-- What `play` is given: the file, and whether the callbacks are not empty. -/
structure Replay (pb : Protobuf) where
  hash : String → BitVec 64
  file : mcap.File
  onFrame : Bool := true
  onSend : Bool := true

namespace Replay

/-- `channel_map.find`; topics of other kinds are not in the map. -/
def channelInfo (r : Replay pb) (view : mcap.Message) : Option ChannelInfo :=
  (r.file.channels[view.channelId]?).bind fun channel =>
    let info := classifyTopic channel.topic
    if info.kind = .Other then none else some info

def takes (r : Replay pb) : Delivery → Bool
  | .onFrame _ => r.onFrame
  | .onSend .. => r.onSend

/-- What the rest of the loop's body passes on, if it is not left before. -/
def handed (r : Replay pb) (now : Int) (view : mcap.Message) : Option Delivery :=
  (deliver pb r.hash r.file now view).filter r.takes

/-- The record is one that is passed on when nothing is paused or filtered. -/
def wellFormed (r : Replay pb) (view : mcap.Message) : Bool := (r.handed 0 view).isSome

end Replay

/-- Where the loop stands in its body; `info` is the current record's channel. -/
inductive PlayStage where
  | next
  /-- In `wait_for_any_running`. -/
  | waiting (info : ChannelInfo)
  /-- Before `is_stopped`. -/
  | resumed (info : ChannelInfo)
  | pacing (info : ChannelInfo)
  /-- In `sleep_until`. -/
  | sleeping (info : ChannelInfo) (target : Int)
  /-- Before `is_running`. -/
  | checking (info : ChannelInfo)
  /-- Before `is_message_enabled`. -/
  | filtering (info : ChannelInfo)
  | finished

/-- `views` are the records from the current one on, and `calls` those that were passed on, each with
what was made of it. -/
structure Player where
  ctrl : PlaybackController
  stopped : Bool := false
  started : Bool := false
  t0 : BitVec 64 := 0
  startTime : Int := 0
  views : List mcap.Message
  stage : PlayStage := .next
  calls : List (mcap.Message × Delivery) := []

inductive Player.Label where
  | play (now : Int)
  | toggle (iface : String)
  | toggleMessage (iface : String) (idx : Nat)
  | stop

namespace Player

/-- `continue`. -/
def skip (p : Player) : Player := { p with views := p.views.tail, stage := .next }

/-- A time of `steady_clock`, which counts its nanoseconds in a signed 64-bit integer. A sum beyond it
is undefined in C++; it wraps where nothing checks it. -/
def timePoint (ns : Int) : Int := ns.bmod (2 ^ 64)

/-- Set the time reference, unless it is set, and find when the record is due. -/
def pace (p : Player) (info : ChannelInfo) (view : mcap.Message) (now : Int) : Player :=
  let p := if p.started then p else { p with started := true, t0 := view.logTime, startTime := now }
  { p with stage := .sleeping info (timePoint (p.startTime + (view.logTime - p.t0).toInt)) }

/-- Pass the record on, if it can be read. -/
def hand (r : Replay pb) (p : Player) (view : mcap.Message) (now : Int) : Player :=
  match r.handed now view with
  | none => p.skip
  | some d => { p with calls := p.calls ++ [(view, d)] }.skip

/-- The loop's next step. -/
def turn (r : Replay pb) (p : Player) (now : Int) : Player :=
  match p.stage, p.views with
  | .next, [] => { p with stage := .finished }
  | .next, view :: _ =>
    match r.channelInfo view with
    | none => p.skip
    | some info => { p with stage := if p.ctrl.anyRunning then .pacing info else .waiting info }
  | .waiting info, _ =>
    if p.stopped || p.ctrl.anyRunning then { p with stage := .resumed info } else p
  | .resumed info, _ =>
    if p.stopped then { p with stage := .finished }
    else { p with started := false, stage := .pacing info }
  | .pacing info, view :: _ => p.pace info view now
  | .sleeping info target, _ =>
    if p.stopped then { p with stage := .finished }
    else if target ≤ now then { p with stage := .checking info }
    else p
  | .checking info, _ =>
    if p.ctrl.isRunning info.iface then { p with stage := .filtering info } else p.skip
  | .filtering info, view :: _ =>
    if p.ctrl.isMessageEnabled info.iface info.msgName then p.hand r view now else p.skip
  | .pacing _, [] | .filtering _, [] | .finished, _ => p

def step (r : Replay pb) (p : Player) : Label → Player
  | .play now => p.turn r now
  | .toggle iface => { p with ctrl := p.ctrl.toggle iface }
  | .toggleMessage iface idx => { p with ctrl := p.ctrl.toggleMessage iface idx }
  | .stop => { p with stopped := true }

end Player

/-- `play`, before the first record. -/
def Replay.start (views : List mcap.Message) (ctrl : PlaybackController) : Player where
  ctrl := ctrl
  views := views

/-! ### What a step does -/

namespace Replay

/-- The clock only gives a frame its time. -/
theorem isSome_handed (r : Replay pb) (now : Int) (view : mcap.Message) :
    (r.handed now view).isSome = r.wellFormed view := by
  unfold wellFormed handed deliver
  cases r.file.channels[view.channelId]? with
  | none => rfl
  | some channel =>
    simp only [Option.bind_some]
    cases (classifyTopic channel.topic).kind with
    | Other => rfl
    | Raw => rfl
    | Data =>
      dsimp only
      cases parse pb r.file view with
      | none => rfl
      | some m => cases htakes : r.onFrame <;> simp [Option.filter, takes, htakes]

/-- A record whose channel is not in the map is not passed on. -/
theorem wellFormed_of_channelInfo_eq_none {r : Replay pb} {view : mcap.Message}
    (h : r.channelInfo view = none) : r.wellFormed view = false := by
  unfold channelInfo at h
  unfold wellFormed handed deliver
  cases hchannel : r.file.channels[view.channelId]? with
  | none => rfl
  | some channel =>
    rw [hchannel, Option.bind_some] at h
    dsimp only at h
    split at h
    · next hkind =>
      simp only [Option.bind_some, hkind]
      rfl
    · cases h

end Replay

namespace Player

/-- What a step does to the records. -/
inductive Outcome (r : Replay pb) (p p' : Player) : Prop where
  | stay : p'.views = p.views → p'.calls = p.calls → Outcome r p p'
  | pass (view : mcap.Message) (now : Int) (d : Delivery) : p.views = view :: p'.views →
      r.handed now view = some d → p'.calls = p.calls ++ [(view, d)] → Outcome r p p'
  | ignore (view : mcap.Message) : p.views = view :: p'.views → r.wellFormed view = false →
      p'.calls = p.calls → Outcome r p p'
  | paused (view : mcap.Message) (info : ChannelInfo) : p.views = view :: p'.views →
      p.stage = .checking info → p.ctrl.isRunning info.iface = false → p'.calls = p.calls →
      Outcome r p p'
  | filtered (view : mcap.Message) (info : ChannelInfo) : p.views = view :: p'.views →
      p.stage = .filtering info → p.ctrl.isMessageEnabled info.iface info.msgName = false →
      p'.calls = p.calls → Outcome r p p'

variable {r : Replay pb} {p : Player}

theorem outcome_hand {view : mcap.Message} {rest : List mcap.Message} (hviews : p.views = view :: rest)
    (now : Int) : Outcome r p (p.hand r view now) := by
  have htail : p.views = view :: p.skip.views := by
    rw [skip, hviews, List.tail_cons]
  unfold hand
  cases hhanded : r.handed now view with
  | none =>
    refine .ignore view htail ?_ rfl
    rw [← r.isSome_handed now, hhanded]
    rfl
  | some d => exact .pass view now d htail hhanded rfl

theorem outcome_turn (r : Replay pb) (p : Player) (now : Int) : Outcome r p (p.turn r now) := by
  unfold turn
  split
  · exact .stay rfl rfl
  · next view rest _ hviews =>
    split
    · next hnone =>
      refine .ignore view ?_ (Replay.wellFormed_of_channelInfo_eq_none hnone) rfl
      rw [skip, hviews, List.tail_cons]
    · exact .stay rfl rfl
  · split
    · exact .stay rfl rfl
    · exact .stay rfl rfl
  · split
    · exact .stay rfl rfl
    · exact .stay rfl rfl
  · unfold pace
    dsimp only
    split
    · exact .stay rfl rfl
    · exact .stay rfl rfl
  · split
    · exact .stay rfl rfl
    · split
      · exact .stay rfl rfl
      · exact .stay rfl rfl
  · next _ info hstage =>
    split
    · exact .stay rfl rfl
    · next hpaused =>
      cases hviews : p.views with
      | nil => exact .stay (by rw [skip, hviews]; rfl) rfl
      | cons view rest =>
        refine .paused view info ?_ hstage (by simpa using hpaused) rfl
        rw [skip, hviews, List.tail_cons]
  · next info view rest hstage hviews =>
    split
    · exact outcome_hand hviews now
    · next hdisabled =>
      refine .filtered view info ?_ hstage (by simpa using hdisabled) rfl
      rw [skip, hviews, List.tail_cons]
  · exact .stay rfl rfl
  · exact .stay rfl rfl
  · exact .stay rfl rfl

/-- A record is only passed on at the end of the loop's body. -/
theorem calls_hand (view : mcap.Message) (now : Int) :
    (p.hand r view now).calls = p.calls ∨ ∃ d, (p.hand r view now).calls = p.calls ++ [(view, d)] := by
  unfold hand
  split
  · exact Or.inl rfl
  · exact Or.inr ⟨_, rfl⟩

theorem stage_hand (view : mcap.Message) (now : Int) : (p.hand r view now).stage = .next := by
  unfold hand
  split <;> rfl

theorem calls_turn (r : Replay pb) (p : Player) (now : Int) :
    (p.turn r now).calls = p.calls ∨
      ∃ info view rest d, p.stage = .filtering info ∧ p.views = view :: rest ∧
        (p.turn r now).calls = p.calls ++ [(view, d)] := by
  unfold turn
  split
  · exact Or.inl rfl
  · split <;> exact Or.inl rfl
  · split <;> exact Or.inl rfl
  · split <;> exact Or.inl rfl
  · left
    unfold pace
    dsimp only
    split <;> rfl
  · split
    · exact Or.inl rfl
    · split <;> exact Or.inl rfl
  · split <;> exact Or.inl rfl
  · next info view rest hstage hviews =>
    split
    · rcases calls_hand (r := r) (p := p) view now with hsame | ⟨d, hcalls⟩
      · exact Or.inl hsame
      · exact Or.inr ⟨info, view, rest, d, hstage, hviews, hcalls⟩
    · exact Or.inl rfl
  · exact Or.inl rfl
  · exact Or.inl rfl
  · exact Or.inl rfl

theorem outcome_step (r : Replay pb) (p : Player) (l : Label) : Outcome r p (p.step r l) := by
  cases l with
  | play now => exact outcome_turn r p now
  | toggle iface => exact .stay rfl rfl
  | toggleMessage iface idx => exact .stay rfl rfl
  | stop => exact .stay rfl rfl

/-! ### One step -/

/-- If the loop asks whether the interface of a record is running that it could pass on, then it
is. -/
def Unpaused (r : Replay pb) (p : Player) : Label → Prop
  | .play _ => ∀ info, p.stage = .checking info → ∀ view, p.views.head? = some view →
      r.wellFormed view = true → p.ctrl.isRunning info.iface = true
  | .toggle _ | .toggleMessage .. | .stop => True

def Label.isToggleMessage : Label → Bool
  | .toggleMessage .. => true
  | .play _ | .toggle _ | .stop => false

def Label.isPlay : Label → Bool
  | .play _ => true
  | .toggle _ | .toggleMessage .. | .stop => false

/-- The records that were passed on, and those that still can be. -/
def hold (r : Replay pb) (p : Player) : List mcap.Message :=
  p.calls.map (·.1) ++ p.views.filter r.wellFormed

/-- Of the well-formed records among `views`, those up to the current one were passed on, and
nothing else. -/
def NothingSkipped (r : Replay pb) (views : List mcap.Message) (p : Player) : Prop :=
  p.hold r = views.filter r.wellFormed

theorem filtersOn_step (h : p.ctrl.FiltersOn) {l : Label} (hl : l.isToggleMessage = false) :
    (p.step r l).ctrl.FiltersOn := by
  have hturn : ∀ now, (p.turn r now).ctrl = p.ctrl := by
    intro now
    unfold turn pace hand skip
    dsimp only
    repeat' split
    all_goals rfl
  cases l with
  | play now => rw [step, hturn]; exact h
  | toggle iface =>
    intro iface' names hnames
    refine h iface' names ?_
    rw [← PlaybackController.messages_toggle p.ctrl iface]
    exact hnames
  | toggleMessage iface idx => cases hl
  | stop => exact h

/-- A record that is not well-formed is none of those that count. -/
theorem hold_of_ignored {p' : Player} {view : mcap.Message} (hviews : p.views = view :: p'.views)
    (hwf : r.wellFormed view = false) (hcalls : p'.calls = p.calls) : p'.hold r = p.hold r := by
  rw [hold, hold, hviews, hcalls, List.filter_cons_of_neg (by simp [hwf])]

/-- Nothing is lost by a step that does not find its interface paused. -/
theorem hold_of_unpaused (hfilters : p.ctrl.FiltersOn) {l : Label} (hl : p.Unpaused r l) :
    (p.step r l).hold r = p.hold r := by
  cases l with
  | play now =>
    rcases outcome_turn r p now with ⟨hviews, hcalls⟩ | ⟨view, t, d, hviews, hhanded, hcalls⟩ |
      ⟨view, hviews, hwf, hcalls⟩ | ⟨view, info, hviews, hstage, hpaused, hcalls⟩ |
      ⟨view, info, -, -, hdisabled, -⟩
    · change (p.turn r now).hold r = p.hold r
      rw [hold, hold, hviews, hcalls]
    · have hwf : r.wellFormed view = true := by
        rw [← r.isSome_handed t, hhanded]
        rfl
      change (p.turn r now).hold r = p.hold r
      rw [hold, hold, hviews, hcalls, List.filter_cons_of_pos hwf, List.map_append,
        List.append_assoc]
      rfl
    · exact hold_of_ignored hviews hwf hcalls
    · refine hold_of_ignored hviews ?_ hcalls
      rw [Bool.eq_false_iff]
      intro hwf
      have hrunning := hl info hstage view (by rw [hviews]; rfl) hwf
      rw [hpaused] at hrunning
      cases hrunning
    · rw [hfilters.isMessageEnabled] at hdisabled
      cases hdisabled
  | toggle iface => rfl
  | toggleMessage iface idx => rfl
  | stop => rfl

/-- A step that finds the interface of a well-formed record paused loses the record. -/
theorem hold_of_paused {l : Label} (hl : ¬ p.Unpaused r l) :
    ((p.step r l).hold r).length < (p.hold r).length := by
  cases l with
  | play now =>
    simp only [Unpaused, not_forall] at hl
    obtain ⟨info, hstage, view, hhead, hwf, hpaused⟩ := hl
    obtain ⟨rest, hviews⟩ := List.head?_eq_some_iff.mp hhead
    have hturn : p.step r (.play now) = p.skip := by
      rw [step, turn, hstage]
      exact if_neg hpaused
    rw [hturn, hold, hold, skip, hviews, List.tail_cons, List.filter_cons_of_pos hwf]
    simp
  | toggle iface => exact absurd trivial hl
  | toggleMessage iface idx => exact absurd trivial hl
  | stop => exact absurd trivial hl

/-! ### Runs -/

theorem length_hold_run (hfilters : p.ctrl.FiltersOn) {ls : List Label}
    (hls : ∀ l ∈ ls, l.isToggleMessage = false) :
    ((run (step r) p ls).hold r).length ≤ (p.hold r).length := by
  induction ls generalizing p with
  | nil => exact le_rfl
  | cons l ls ih =>
    have hrest := ih (filtersOn_step (r := r) hfilters (hls l List.mem_cons_self))
      fun l' hl' => hls l' (List.mem_cons_of_mem _ hl')
    refine hrest.trans ?_
    by_cases hl : p.Unpaused r l
    · rw [hold_of_unpaused hfilters hl]
    · exact (hold_of_paused hl).le

/-- What counts is kept by exactly the runs in which no record finds its interface paused. -/
theorem hold_run_iff (hfilters : p.ctrl.FiltersOn) {ls : List Label}
    (hls : ∀ l ∈ ls, l.isToggleMessage = false) :
    (run (step r) p ls).hold r = p.hold r ↔ Meets (step r) (Unpaused r) p ls := by
  induction ls generalizing p with
  | nil => exact iff_of_true rfl trivial
  | cons l ls ih =>
    have hfilters' := filtersOn_step (r := r) hfilters (hls l List.mem_cons_self)
    have hls' : ∀ l' ∈ ls, l'.isToggleMessage = false :=
      fun l' hl' => hls l' (List.mem_cons_of_mem _ hl')
    rw [run_cons, meets_cons]
    by_cases hl : p.Unpaused r l
    · rw [← hold_of_unpaused hfilters hl, ih hfilters' hls']
      exact (and_iff_right hl).symm
    · refine iff_of_false ?_ fun h => hl h.1
      intro hsame
      have hle := length_hold_run (r := r) hfilters' hls'
      rw [hsame] at hle
      exact absurd (hold_of_paused hl) (Nat.not_lt.mpr hle)

/-- Everything passed on is what its record carries. -/
theorem handed_of_calls {ls : List Label}
    (hp : ∀ call ∈ p.calls, ∃ now, r.handed now call.1 = some call.2) :
    ∀ call ∈ (run (step r) p ls).calls, ∃ now, r.handed now call.1 = some call.2 := by
  refine run_invariant (P := fun p : Player => ∀ call ∈ p.calls, ∃ now,
    r.handed now call.1 = some call.2) ?_ hp ls
  intro p l hp
  have hsame : ∀ {p' : Player}, p'.calls = p.calls → ∀ call ∈ p'.calls, ∃ now,
      r.handed now call.1 = some call.2 := by
    intro p' hcalls call hcall
    exact hp call (hcalls ▸ hcall)
  rcases outcome_step r p l with ⟨-, hcalls⟩ | ⟨view, now, d, -, hhanded, hcalls⟩ |
    ⟨-, -, -, hcalls⟩ | ⟨-, -, -, -, -, hcalls⟩ | ⟨-, -, -, -, -, hcalls⟩
  · exact hsame hcalls
  · intro call hcall
    rw [hcalls, List.mem_append, List.mem_singleton] at hcall
    rcases hcall with hold | rfl
    · exact hp call hold
    · exact ⟨now, hhanded⟩
  · exact hsame hcalls
  · exact hsame hcalls
  · exact hsame hcalls

end Player

/-- **Pausing and resuming.** In every run of the loop with all filters on, whatever interfaces are
toggled at whatever moments (and the playback stopped): at the end every well-formed record that the
loop is done with was passed on, and nothing else, if and only if no step found the interface of a
well-formed record paused after the sleep. The records that were passed on are then a prefix of the
well-formed records of the file. -/
theorem nothing_skipped_iff (r : Replay pb) (views : List mcap.Message) (ctrl : PlaybackController)
    (hfilters : ctrl.FiltersOn) (ls : List Player.Label)
    (hls : ∀ l ∈ ls, l.isToggleMessage = false) :
    let p := run (Player.step r) (Replay.start views ctrl) ls
    (p.NothingSkipped r views ↔ Meets (Player.step r) (Player.Unpaused r) (Replay.start views ctrl) ls) ∧
    (Meets (Player.step r) (Player.Unpaused r) (Replay.start views ctrl) ls →
      p.calls.map (·.1) <+: views.filter r.wellFormed) ∧
    ∀ call ∈ p.calls, ∃ now, r.handed now call.1 = some call.2 := by
  intro p
  have hiff : p.NothingSkipped r views ↔
      Meets (Player.step r) (Player.Unpaused r) (Replay.start views ctrl) ls :=
    Player.hold_run_iff (p := Replay.start views ctrl) hfilters hls
  refine ⟨hiff, ?_, ?_⟩
  · intro hunpaused
    have hhold := hiff.mpr hunpaused
    rw [Player.NothingSkipped, Player.hold] at hhold
    exact ⟨_, hhold⟩
  · refine Player.handed_of_calls ?_
    intro call hcall
    cases hcall

/-! ### Two frames, a tenth of a second apart -/

def tenthFrame (k : Nat) : CanFrame where
  header := { id := 0x123, interface := "vcan0", dlc := 1 }
  payload := [BitVec.ofNat 8 k]
  timestamp := 100000000 * k

/-- The log of both: two `/data` and two `/raw` records. -/
def tenthFile : mcap.File :=
  ([0, 1].foldl (fun logger k =>
    McapLogger.log logger (tenthFrame k) (none : Option (Descriptor Protobuf.wire)) [] none)
      {}).writer

def tenthReplay : Replay Protobuf.wire where
  hash _ := 0
  file := tenthFile

def tenthStart : Player := Replay.start tenthFile.messages (PlaybackController.new ["vcan0"])

theorem tenthStart_filtersOn : (PlaybackController.new ["vcan0"]).FiltersOn := by
  intro iface names hnames
  cases hnames

def plays (now : Int) (n : Nat) : List Player.Label := List.replicate n (.play now)

/-- Both records of the first frame are played, then the interface is paused for a while. -/
def pausedBetween : List Player.Label :=
  [.toggle "vcan0"] ++ plays 0 10 ++ [.toggle "vcan0"] ++ plays 50000000 3 ++ [.toggle "vcan0"] ++
    plays 50000000 12

/-- A pause that is noticed before the sleep costs nothing. -/
theorem nothing_skipped_pausedBetween :
    Meets (Player.step tenthReplay) (Player.Unpaused tenthReplay) tenthStart pausedBetween ∧
      (run (Player.step tenthReplay) tenthStart pausedBetween).calls.map (·.1) = tenthFile.messages := by
  have hskipped : (run (Player.step tenthReplay) tenthStart pausedBetween).NothingSkipped
      tenthReplay tenthFile.messages := by
    unfold Player.NothingSkipped
    decide +kernel
  have hiff := nothing_skipped_iff tenthReplay tenthFile.messages (PlaybackController.new ["vcan0"])
    tenthStart_filtersOn pausedBetween (by decide)
  exact ⟨hiff.1.mp hskipped, by decide +kernel⟩

/-- The interface is paused during the sleep towards the second frame, and resumed after its
`/data` record. -/
def pausedAsleep : List Player.Label :=
  [.toggle "vcan0"] ++ plays 0 12 ++ [.toggle "vcan0"] ++ plays 100000000 2 ++ [.toggle "vcan0"] ++
    plays 100000000 6

/-- The `/data` record of the second frame is dropped, and its `/raw` record is passed on. -/
theorem skipped_pausedAsleep :
    (∀ view ∈ tenthFile.messages, (tenthReplay.channelInfo view).map (·.iface) = some "vcan0" ∧
      tenthReplay.wellFormed view = true) ∧
    (∀ l ∈ pausedAsleep, l.isToggleMessage = false) ∧
    (run (Player.step tenthReplay) tenthStart pausedAsleep).calls.map (fun call => call.1.channelId) =
      [0, 1, 1] ∧
    tenthFile.messages.map (·.channelId) = [0, 1, 0, 1] ∧
    ¬ ((run (Player.step tenthReplay) tenthStart pausedAsleep).calls.map (·.1) <+:
      tenthFile.messages.filter tenthReplay.wellFormed) ∧
    ¬ (run (Player.step tenthReplay) tenthStart pausedAsleep).NothingSkipped
      tenthReplay tenthFile.messages := by
  unfold Player.NothingSkipped
  decide +kernel

end Caneo
