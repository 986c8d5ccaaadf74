import Caneo.Playback

/-!
# When `play` passes records on

The loop of `play` takes its time reference at the first record, and anew at each record for which it
had to wait with all interfaces paused; every record in between is slept for, also those that are
dropped. `Observed` adds to a state of the loop the first record that was processed since the start or
since the last such wait, whatever the loop's own variables say.
-/

namespace Caneo

open Runs Containers McapReader

variable {pb : Protobuf}

namespace Player

/-- The loop's next step when `play` was given no controller. -/
def turnAlone (r : Replay pb) (p : Player) (now : Int) : Player :=
  match p.stage, p.views with
  | .next, [] => { p with stage := .finished }
  | .next, view :: _ =>
    match r.channelInfo view with
    | none => p.skip
    | some info => { p with stage := .pacing info }
  | .pacing info, view :: _ => p.pace info view now
  | .sleeping _ target, view :: _ => if target ≤ now then p.hand r view now else p
  | _, _ => p

def stepAlone (r : Replay pb) (p : Player) : Label → Player
  | .play now => p.turnAlone r now
  | .toggle _ | .toggleMessage .. | .stop => p

end Player

/-- A state of the loop; the first record that was processed since the start or since the loop last
blocked with all interfaces paused, and the clock's reading at it; and the clock's last reading. -/
structure Observed where
  player : Player
  reference : Option (mcap.Message × Int) := none
  clock : Int := 0

namespace Observed

def observe (s : Observed) : Player.Label → Option (mcap.Message × Int)
  | .play now =>
    match s.player.stage, s.player.views with
    | .waiting _, _ => none
    | .pacing _, view :: _ => some (s.reference.getD (view, now))
    | _, _ => s.reference
  | .toggle _ | .toggleMessage .. | .stop => s.reference

def reading (s : Observed) : Player.Label → Int
  | .play now => now
  | .toggle _ | .toggleMessage .. | .stop => s.clock

/-- A step of the loop, with or without a controller. -/
def step (next : Player → Player.Label → Player) (s : Observed) (l : Player.Label) : Observed where
  player := next s.player l
  reference := s.observe l
  clock := s.reading l

def start (views : List mcap.Message) (ctrl : PlaybackController) : Observed where
  player := Replay.start views ctrl

/-- The clock does not go back, and fits its 64 bits. -/
def Steady (s : Observed) (l : Player.Label) : Prop := s.clock ≤ s.reading l ∧ s.reading l < 2 ^ 63

instance (s : Observed) (l : Player.Label) : Decidable (s.Steady l) :=
  inferInstanceAs (Decidable (_ ∧ _))

/-! ### The invariant -/

/-- The loop's own reference is the observed one. -/
inductive Referenced (p : Player) : Option (mcap.Message × Int) → Prop where
  | none : p.started = false → Referenced p none
  | some {c : mcap.Message} : p.started = true → p.t0 = c.logTime → 0 ≤ p.startTime →
      Referenced p (some (c, p.startTime))

/-- The current record is due at `target`. -/
inductive DueAt (p : Player) : Option (mcap.Message × Int) → Int → Prop where
  | mk {m c : mcap.Message} {rest : List mcap.Message} {S : Int} : p.views = m :: rest → 0 ≤ S →
      DueAt p (some (c, S)) (Player.timePoint (S + (m.logTime - c.logTime).toInt))

/-- What holds of the reference at each stage. While the loop waits, its own is the old one. -/
inductive OnTime (p : Player) (reference : Option (mcap.Message × Int)) (clock : Int) : Prop where
  | waiting {info : ChannelInfo} : p.stage = .waiting info → OnTime p reference clock
  | resumed {info : ChannelInfo} : p.stage = .resumed info → reference = none →
      OnTime p reference clock
  | finished : p.stage = .finished → OnTime p reference clock
  | next : p.stage = .next → Referenced p reference → OnTime p reference clock
  | pacing {info : ChannelInfo} : p.stage = .pacing info → Referenced p reference →
      OnTime p reference clock
  | sleeping {info : ChannelInfo} {target : Int} : p.stage = .sleeping info target →
      Referenced p reference → DueAt p reference target → OnTime p reference clock
  | awake {info : ChannelInfo} {target : Int} :
      p.stage = .checking info ∨ p.stage = .filtering info → Referenced p reference →
      DueAt p reference target → target ≤ clock → OnTime p reference clock

section Steps

variable {r : Replay pb} {p : Player} {reference : Option (mcap.Message × Int)} {clock now : Int}

/-- Only `pace` and the end of a wait change the loop's reference. -/
theorem Referenced.congr {p' : Player} (h : Referenced p reference) (hstarted : p'.started = p.started)
    (ht0 : p'.t0 = p.t0) (hstart : p'.startTime = p.startTime) : Referenced p' reference := by
  rcases h with hnone | ⟨hsome, href, hnonneg⟩
  · exact .none (hstarted.trans hnone)
  · rw [← hstart] at hnonneg ⊢
    exact .some (hstarted.trans hsome) (ht0.trans href) hnonneg

theorem DueAt.congr {p' : Player} {target : Int} (h : DueAt p reference target)
    (hviews : p'.views = p.views) : DueAt p' reference target := by
  rcases h with ⟨hcons, hnonneg⟩
  exact .mk (hviews.trans hcons) hnonneg

theorem Referenced.hand (h : Referenced p reference) (view : mcap.Message) (now : Int) :
    Referenced (p.hand r view now) reference := by
  unfold Player.hand
  split <;> exact h.congr rfl rfl rfl

/-- The loop's reference is set by the first record that is processed, and kept by the others. -/
theorem onTime_pace (h : Referenced p reference) (info : ChannelInfo) {view : mcap.Message}
    {rest : List mcap.Message} (hviews : p.views = view :: rest) (hnow : 0 ≤ now) :
    OnTime (p.pace info view now) (some (reference.getD (view, now))) now := by
  rcases h with hstarted | ⟨hstarted, ht0, hstart⟩
  · have hpace : p.pace info view now =
        { p with
          started := true
          t0 := view.logTime
          startTime := now
          stage := .sleeping info (Player.timePoint (now + (view.logTime - view.logTime).toInt)) } := by
      simp [Player.pace, hstarted]
    rw [hpace]
    apply OnTime.sleeping rfl
    · exact .some rfl rfl hnow
    · exact .mk hviews hnow
  · have hpace : p.pace info view now =
        { p with
          stage := .sleeping info
            (Player.timePoint (p.startTime + (view.logTime - p.t0).toInt)) } := by
      simp [Player.pace, hstarted]
    rw [hpace]
    apply OnTime.sleeping rfl
    · exact .some hstarted ht0 hstart
    · rw [ht0]
      exact .mk hviews hstart

theorem onTime_turn (h : OnTime p reference clock) (hclock : clock ≤ now) (hnow : 0 ≤ now) :
    OnTime (p.turn r now) (observe ⟨p, reference, clock⟩ (.play now)) now := by
  rcases h with ⟨hstage⟩ | ⟨hstage, hnone⟩ | ⟨hstage⟩ | ⟨hstage, href⟩ | ⟨hstage, href⟩ |
    ⟨hstage, href, hdue⟩ | ⟨hstage, href, hdue, hle⟩
  · rw [Player.turn, hstage]
    dsimp only
    split
    · refine .resumed rfl ?_
      simp [observe, hstage]
    · exact .waiting hstage
  · have hobserve : observe ⟨p, reference, clock⟩ (.play now) = none := by
      simp [observe, hstage, hnone]
    rw [Player.turn, hstage, hobserve]
    dsimp only
    split
    · exact .finished rfl
    · exact .pacing rfl (.none rfl)
  · rw [Player.turn, hstage]
    exact .finished hstage
  · have hobserve : observe ⟨p, reference, clock⟩ (.play now) = reference := by
      simp [observe, hstage]
    rw [hobserve]
    unfold Player.turn
    rw [hstage]
    cases p.views with
    | nil => exact .finished rfl
    | cons view rest =>
      dsimp only
      split
      · exact .next rfl (href.congr rfl rfl rfl)
      · split
        · exact .pacing rfl (href.congr rfl rfl rfl)
        · exact .waiting rfl
  · unfold Player.turn observe
    rw [hstage]
    cases hviews : p.views with
    | nil => exact .pacing hstage href
    | cons view rest => exact onTime_pace href _ hviews hnow
  · have hobserve : observe ⟨p, reference, clock⟩ (.play now) = reference := by
      simp [observe, hstage]
    rw [hobserve, Player.turn, hstage]
    dsimp only
    split
    · exact .finished rfl
    · split
      · next hle => exact .awake (Or.inl rfl) (href.congr rfl rfl rfl) (hdue.congr rfl) hle
      · exact .sleeping hstage href hdue
  · have hobserve : observe ⟨p, reference, clock⟩ (.play now) = reference := by
      rcases hstage with hstage | hstage <;> simp [observe, hstage]
    rw [hobserve]
    rcases hstage with hstage | hstage
    · rw [Player.turn, hstage]
      dsimp only
      split
      · exact .awake (Or.inr rfl) (href.congr rfl rfl rfl) (hdue.congr rfl) (hle.trans hclock)
      · exact .next rfl (href.congr rfl rfl rfl)
    · unfold Player.turn
      rw [hstage]
      cases hviews : p.views with
      | nil => exact .awake (Or.inr hstage) href hdue (hle.trans hclock)
      | cons view rest =>
        dsimp only
        split
        · exact .next (Player.stage_hand view now) (href.hand view now)
        · exact .next rfl (href.congr rfl rfl rfl)

theorem onTime_turnAlone (h : OnTime p reference clock) (hclock : clock ≤ now) (hnow : 0 ≤ now) :
    OnTime (p.turnAlone r now) (observe ⟨p, reference, clock⟩ (.play now)) now := by
  rcases h with ⟨hstage⟩ | ⟨hstage, hnone⟩ | ⟨hstage⟩ | ⟨hstage, href⟩ | ⟨hstage, href⟩ |
    ⟨hstage, href, hdue⟩ | ⟨hstage, href, hdue, hle⟩
  · rw [Player.turnAlone, hstage]
    exact .waiting hstage
  · rw [Player.turnAlone, hstage]
    refine .resumed hstage ?_
    simp [observe, hstage, hnone]
  · rw [Player.turnAlone, hstage]
    exact .finished hstage
  · have hobserve : observe ⟨p, reference, clock⟩ (.play now) = reference := by
      simp [observe, hstage]
    rw [hobserve]
    unfold Player.turnAlone
    rw [hstage]
    cases p.views with
    | nil => exact .finished rfl
    | cons view rest =>
      dsimp only
      split
      · exact .next rfl (href.congr rfl rfl rfl)
      · exact .pacing rfl (href.congr rfl rfl rfl)
  · unfold Player.turnAlone observe
    rw [hstage]
    cases hviews : p.views with
    | nil => exact .pacing hstage href
    | cons view rest => exact onTime_pace href _ hviews hnow
  · have hobserve : observe ⟨p, reference, clock⟩ (.play now) = reference := by
      simp [observe, hstage]
    rw [hobserve]
    unfold Player.turnAlone
    rw [hstage]
    cases hviews : p.views with
    | nil => exact .sleeping hstage href hdue
    | cons view rest =>
      dsimp only
      split
      · exact .next (Player.stage_hand view now) (href.hand view now)
      · exact .sleeping hstage href hdue
  · have hobserve : observe ⟨p, reference, clock⟩ (.play now) = reference := by
      rcases hstage with hstage | hstage <;> simp [observe, hstage]
    have hsame : p.turnAlone r now = p := by
      rcases hstage with hstage | hstage <;> simp [Player.turnAlone, hstage]
    rw [hobserve, hsame]
    exact .awake hstage href hdue (hle.trans hclock)

/-! ### Calls -/

theorem DueAt.current {target : Int} (h : DueAt p reference target) {m : mcap.Message}
    {rest : List mcap.Message} (hviews : p.views = m :: rest) :
    ∃ c S, reference = some (c, S) ∧ 0 ≤ S ∧
      target = Player.timePoint (S + (m.logTime - c.logTime).toInt) := by
  rcases h with ⟨hviews', hnonneg⟩
  rw [hviews, List.cons.injEq] at hviews'
  obtain ⟨rfl, -⟩ := hviews'
  exact ⟨_, _, rfl, hnonneg, rfl⟩

/-- A record that is passed on was due. -/
def WasDue (reference : Option (mcap.Message × Int)) (m : mcap.Message) (now : Int) : Prop :=
  ∃ c S, reference = some (c, S) ∧ 0 ≤ S ∧
    Player.timePoint (S + (m.logTime - c.logTime).toInt) ≤ now

theorem wasDue_of_turn (h : OnTime p reference clock) (hclock : clock ≤ now) {m : mcap.Message}
    {d : Delivery} (hcall : (p.turn r now).calls = p.calls ++ [(m, d)]) :
    WasDue reference m now := by
  rcases p.calls_turn r now with hsame | ⟨info, view, rest, d', hfiltering, hviews, hcalls⟩
  · rw [hsame] at hcall
    simp at hcall
  · rw [hcalls, List.append_cancel_left_eq, List.singleton_inj, Prod.mk.injEq] at hcall
    obtain ⟨rfl, -⟩ := hcall
    rcases h with ⟨hstage⟩ | ⟨hstage, -⟩ | ⟨hstage⟩ | ⟨hstage, -⟩ | ⟨hstage, -⟩ |
      ⟨hstage, -, -⟩ | ⟨-, -, hdue, hle⟩
    all_goals try simp [hfiltering] at hstage
    obtain ⟨c, S, href, hnonneg, htarget⟩ := hdue.current hviews
    exact ⟨c, S, href, hnonneg, htarget ▸ hle.trans hclock⟩

theorem wasDue_of_turnAlone (h : OnTime p reference clock) {m : mcap.Message} {d : Delivery}
    (hcall : (p.turnAlone r now).calls = p.calls ++ [(m, d)]) : WasDue reference m now := by
  have hquiet : ¬ p.calls = p.calls ++ [(m, d)] := by simp
  unfold Player.turnAlone at hcall
  split at hcall
  · exact absurd hcall hquiet
  · split at hcall
    · exact absurd hcall hquiet
    · exact absurd hcall hquiet
  · unfold Player.pace at hcall
    dsimp only at hcall
    split at hcall
    · exact absurd hcall hquiet
    · exact absurd hcall hquiet
  · next info target view rest hsleeping hviews =>
    split at hcall
    · next hle =>
      rcases Player.calls_hand (r := r) (p := p) view now with hsame | ⟨d', hcalls⟩
      · rw [hsame] at hcall
        exact absurd hcall hquiet
      · rw [hcalls, List.append_cancel_left_eq, List.singleton_inj, Prod.mk.injEq] at hcall
        obtain ⟨rfl, -⟩ := hcall
        rcases h with ⟨hstage⟩ | ⟨hstage, -⟩ | ⟨hstage⟩ | ⟨hstage, -⟩ | ⟨hstage, -⟩ |
          ⟨hstage, -, hdue⟩ | ⟨hstage | hstage, -, -, -⟩
        all_goals simp [hsleeping] at hstage
        obtain ⟨-, rfl⟩ := hstage
        obtain ⟨c, S, href, hnonneg, htarget⟩ := hdue.current hviews
        exact ⟨c, S, href, hnonneg, htarget ▸ hle⟩
    · exact absurd hcall hquiet
  · exact absurd hcall hquiet

end Steps

/-! ### Runs -/

/-- The loop with a controller, or without one. -/
def IsLoop (r : Replay pb) (next : Player → Player.Label → Player) : Prop :=
  next = Player.step r ∨ next = Player.stepAlone r

section Runs

variable {r : Replay pb} {next : Player → Player.Label → Player}

/-- The invariant of a state. -/
structure Timely (s : Observed) : Prop where
  onTime : OnTime s.player s.reference s.clock
  clock : 0 ≤ s.clock

theorem timely_start (views : List mcap.Message) (ctrl : PlaybackController) :
    (start views ctrl).Timely := ⟨.next rfl (.none rfl), le_rfl⟩

/-- The controller is changed by other threads, and the loop's variables are not. -/
theorem OnTime.congr {p p' : Player} {reference : Option (mcap.Message × Int)} {clock : Int}
    (h : OnTime p reference clock) (hstage : p'.stage = p.stage) (hviews : p'.views = p.views)
    (hstarted : p'.started = p.started) (ht0 : p'.t0 = p.t0) (hstart : p'.startTime = p.startTime) :
    OnTime p' reference clock := by
  rcases h with ⟨hs⟩ | ⟨hs, hnone⟩ | ⟨hs⟩ | ⟨hs, href⟩ | ⟨hs, href⟩ | ⟨hs, href, hdue⟩ |
    ⟨hs, href, hdue, hle⟩
  · exact .waiting (hstage.trans hs)
  · exact .resumed (hstage.trans hs) hnone
  · exact .finished (hstage.trans hs)
  · exact .next (hstage.trans hs) (href.congr hstarted ht0 hstart)
  · exact .pacing (hstage.trans hs) (href.congr hstarted ht0 hstart)
  · exact .sleeping (hstage.trans hs) (href.congr hstarted ht0 hstart) (hdue.congr hviews)
  · exact .awake (by rwa [hstage]) (href.congr hstarted ht0 hstart) (hdue.congr hviews) hle

theorem Timely.step (hnext : IsLoop r next) {s : Observed} (h : s.Timely) {l : Player.Label}
    (hl : s.Steady l) : (s.step next l).Timely := by
  refine ⟨?_, h.clock.trans hl.1⟩
  rcases hnext with rfl | rfl
  · cases l with
    | play now => exact onTime_turn h.onTime hl.1 (h.clock.trans hl.1)
    | toggle iface => exact h.onTime.congr rfl rfl rfl rfl rfl
    | toggleMessage iface idx => exact h.onTime.congr rfl rfl rfl rfl rfl
    | stop => exact h.onTime.congr rfl rfl rfl rfl rfl
  · cases l with
    | play now => exact onTime_turnAlone h.onTime hl.1 (h.clock.trans hl.1)
    | toggle iface => exact h.onTime
    | toggleMessage iface idx => exact h.onTime
    | stop => exact h.onTime

theorem Timely.wasDue (hnext : IsLoop r next) {s : Observed} (h : s.Timely) {now : Int}
    (hl : s.Steady (.play now)) {m : mcap.Message} {d : Delivery}
    (hcall : (next s.player (.play now)).calls = s.player.calls ++ [(m, d)]) :
    WasDue s.reference m now := by
  rcases hnext with rfl | rfl
  · exact wasDue_of_turn h.onTime hl.1 hcall
  · exact wasDue_of_turnAlone h.onTime hcall

end Runs

end Observed

/-- A sum that fits the clock is what it is. -/
theorem Player.timePoint_of_lt {S : Int} (hS : 0 ≤ S) (x : BitVec 64) (h : S + x.toInt < 2 ^ 63) :
    timePoint (S + x.toInt) = S + x.toInt := by
  have hx := BitVec.le_toInt x
  unfold timePoint
  apply Int.bmod_eq_of_le
  · norm_num at hx ⊢
    omega
  · norm_num at h ⊢
    omega

/-- **The pace of a replay.** Whatever the records' times and whatever is toggled when, a record that
is passed on is not early against the reference exactly if its time fits the clock. -/
theorem call_on_time_iff (r : Replay pb) (next : Player → Player.Label → Player)
    (hnext : Observed.IsLoop r next) (views : List mcap.Message) (ctrl : PlaybackController)
    (ls : List Player.Label) (now : Int) (m : mcap.Message) (d : Delivery)
    (hsteady : Meets (Observed.step next) Observed.Steady (Observed.start views ctrl)
      (ls ++ [.play now]))
    (hcall : (next (run (Observed.step next) (Observed.start views ctrl) ls).player
        (.play now)).calls =
      (run (Observed.step next) (Observed.start views ctrl) ls).player.calls ++ [(m, d)]) :
    ∃ c S, (run (Observed.step next) (Observed.start views ctrl) ls).reference = some (c, S) ∧
      (S + (m.logTime - c.logTime).toInt ≤ now ↔ S + (m.logTime - c.logTime).toInt < 2 ^ 63) := by
  obtain ⟨hbefore, hlast, -⟩ := meets_append.mp hsteady
  have htimely : (run (Observed.step next) (Observed.start views ctrl) ls).Timely :=
    hbefore.invariant (P := Observed.Timely) (fun _ _ h hl => h.step hnext hl)
      (Observed.timely_start views ctrl)
  obtain ⟨c, S, href, hS, hdue⟩ := htimely.wasDue hnext hlast hcall
  refine ⟨c, S, href, ?_⟩
  constructor
  · exact fun hle => hle.trans_lt hlast.2
  · intro hlt
    rwa [Player.timePoint_of_lt hS _ hlt] at hdue

/-! ### The same replay, and one over 292 years -/

theorem Player.exists_call (r : Replay pb) (p : Player) (now : Int) (logTime : BitVec 64)
    (hhead : p.views.head?.map (·.logTime) = some logTime)
    (hlength : (p.turn r now).calls.length ≠ p.calls.length) :
    ∃ m d, m.logTime = logTime ∧ (p.step r (.play now)).calls = p.calls ++ [(m, d)] := by
  rcases p.calls_turn r now with hsame | ⟨info, view, rest, d, -, hviews, hcalls⟩
  · exact absurd (congrArg List.length hsame) hlength
  · refine ⟨view, d, ?_, hcalls⟩
    simpa [hviews] using hhead

/-- The steps before the second frame's `/data` record is passed on. -/
def toSecond (now : Int) : List Player.Label := [.toggle "vcan0"] ++ plays 1 12 ++ plays now 2

def observedTenth : Observed :=
  run (Observed.step (Player.step tenthReplay))
    (Observed.start tenthFile.messages (PlaybackController.new ["vcan0"])) (toSecond 100000001)

/-- It is passed on a tenth of a second after the first. -/
theorem call_on_time_tenth :
    ∃ m d, m.logTime = 100000000#64 ∧
      (observedTenth.player.step tenthReplay (.play 100000001)).calls =
        observedTenth.player.calls ++ [(m, d)] ∧
      ∃ c S, observedTenth.reference = some (c, S) ∧
        S + (m.logTime - c.logTime).toInt ≤ 100000001 := by
  obtain ⟨m, d, hm, hcall⟩ := Player.exists_call tenthReplay observedTenth.player 100000001
    100000000#64 (by decide +kernel) (by decide +kernel)
  refine ⟨m, d, hm, hcall, ?_⟩
  obtain ⟨c, S, href, hiff⟩ := call_on_time_iff tenthReplay (Player.step tenthReplay) (Or.inl rfl)
    tenthFile.messages (PlaybackController.new ["vcan0"]) (toSecond 100000001) 100000001 m d
    (by decide +kernel) hcall
  have hreference : observedTenth.reference.map (fun p => (p.1.logTime, p.2)) = some (0#64, 1) := by
    decide +kernel
  have hfirst : c.logTime = 0#64 ∧ S = 1 := by
    simpa [show observedTenth.reference = some (c, S) from href] using hreference
  refine ⟨c, S, href, hiff.mpr ?_⟩
  rw [hm, hfirst.1, hfirst.2]
  decide

/-- The log of two frames, the second with the last time of a signed count. -/
def farFile : mcap.File :=
  ([0, 2 ^ 63 - 1].foldl (fun logger ts =>
    McapLogger.log logger ((tenthFrame 0).setTimestamp ts) (none : Option (Descriptor Protobuf.wire))
      [] none) {}).writer

def farReplay : Replay Protobuf.wire where
  hash _ := 0
  file := farFile

def observedFar : Observed :=
  run (Observed.step (Player.step farReplay))
    (Observed.start farFile.messages (PlaybackController.new ["vcan0"])) (toSecond 1)

/-- Its second frame is passed on at once. -/
theorem call_not_on_time_far :
    farFile.messages.map (fun m => m.logTime.toNat) = [0, 0, 2 ^ 63 - 1, 2 ^ 63 - 1] ∧
    Meets (Observed.step (Player.step farReplay)) Observed.Steady
      (Observed.start farFile.messages (PlaybackController.new ["vcan0"]))
      (toSecond 1 ++ [.play 1]) ∧
    ∃ m d, (observedFar.player.step farReplay (.play 1)).calls =
        observedFar.player.calls ++ [(m, d)] ∧
      ∃ c S, observedFar.reference = some (c, S) ∧
        ¬ S + (m.logTime - c.logTime).toInt ≤ 1 := by
  refine ⟨by decide +kernel, by decide +kernel, ?_⟩
  obtain ⟨m, d, hm, hcall⟩ := Player.exists_call farReplay observedFar.player 1
    (BitVec.ofNat 64 (2 ^ 63 - 1)) (by decide +kernel) (by decide +kernel)
  refine ⟨m, d, hcall, ?_⟩
  have hreference : observedFar.reference.map (fun p => (p.1.logTime, p.2)) = some (0#64, 1) := by
    decide +kernel
  obtain ⟨p, href, hp⟩ := Option.map_eq_some_iff.mp hreference
  refine ⟨p.1, p.2, href, ?_⟩
  rw [Prod.mk.injEq] at hp
  rw [hm, hp.1, hp.2]
  decide

end Caneo
