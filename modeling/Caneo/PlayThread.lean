import Caneo.RawReplay

/-!
# The callbacks of a replay

When a record has passed its checks, `play` (`src/logger/McapReader.cpp`) hands it to a callback and
goes on when this returns. The UI thread may call the controller meanwhile, so a callback may still be
running for a record that has been switched off since. The callback of `run_playback`
(`src/modes/run_playback.cpp`) that sends writes to the socket of the record's interface, if it could
be opened. Where the write throws, the exception leaves `play`, and the replay is over.

A `PlayThread` is a `Player` whose callbacks take their time. Its loop is a run of the `Player`
(`player_run`), whose calls are the callbacks that have returned and the one that is running
(`Tracks`).
-/

namespace Caneo

open BitField McapReader Runs

variable {pb : Protobuf}

/-! ### What a callback writes -/

namespace run_playback

/-- `on_send`: the frame that is written, and the interface it is written to. -/
def onSend (socketMap : List String) (sent : RawSend) : Option (String × can_frame) :=
  if sent.1 ∈ socketMap then some (sent.1, SocketCAN.send (sent.2.1.setWidth 64) sent.2.2)
  else none

def writes (socketMap : List String) (d : Delivery) : Option (String × can_frame) :=
  d.sent.bind (onSend socketMap)

end run_playback

/-! ### The playback thread -/

/-- `running` is the callback that has been called and has not returned, or has thrown. -/
structure PlayThread where
  player : Player
  running : Option Delivery := none
  returned : List Delivery := []
  thrown : Bool := false

inductive PlayThread.Label where
  /-- A step of the loop, or a call of the controller. -/
  | player (l : Player.Label)
  | returns
  /-- The write of the callback fails. -/
  | throws

namespace PlayThread

def start (views : List mcap.Message) (ctrl : PlaybackController) : PlayThread where
  player := Replay.start views ctrl

section Steps

variable (loop : Player → Player.Label → Player) (sockets : List String)

/-- The call of `p'` that `p` has not made. -/
def begun (p p' : Player) : Option Delivery := (p'.calls.drop p.calls.length).head?.map (·.2)

/-- The loop stands while a callback runs, and for good when one has thrown. -/
def step (t : PlayThread) : Label → PlayThread
  | .player l =>
    if l.isPlay && t.running.isSome then t
    else
      { t with
        player := loop t.player l
        running := t.running.or (begun t.player (loop t.player l)) }
  | .returns =>
    match t.running with
    | none => t
    | some d => if t.thrown then t else { t with running := none, returned := t.returned ++ [d] }
  | .throws =>
    match t.running with
    | none => t
    | some d => if (run_playback.writes sockets d).isSome then { t with thrown := true } else t

/-- What has been written to the sockets. -/
def written (t : PlayThread) : List (String × can_frame) :=
  t.returned.filterMap (run_playback.writes sockets)

/-- The step of the `Player` that a step is. -/
def loopLabel (t : PlayThread) : Label → Option Player.Label
  | .player l => if l.isPlay && t.running.isSome then none else some l
  | .returns | .throws => none

def loopLabels : PlayThread → List Label → List Player.Label
  | _, [] => []
  | t, l :: ls => (t.loopLabel l).toList ++ loopLabels (t.step loop sockets l) ls

end Steps

end PlayThread

/-- A loop makes at most one call in a step and is then done with the record; the controller does not
move it. -/
structure Player.IsLoop (loop : Player → Player.Label → Player) : Prop where
  calls : ∀ p l, (loop p l).calls = p.calls ∨
    (l.isPlay = true ∧ (loop p l).stage = .next ∧ ∃ call, (loop p l).calls = p.calls ++ [call])
  user : ∀ p l, l.isPlay = false → (loop p l).stage = p.stage

namespace PlayThread

section Loop

variable {loop : Player → Player.Label → Player} {sockets : List String} {t : PlayThread}

/-! ### The thread and its loop -/

/-- The calls of the loop are the callbacks that have returned and the one that is running. -/
structure Tracks (sockets : List String) (t : PlayThread) : Prop where
  calls : t.returned ++ t.running.toList = t.player.calls.map (·.2)
  stage : t.running.isSome = true → t.player.stage ≠ .finished
  thrown : t.thrown = true → ∃ d frame, t.running = some d ∧
    run_playback.writes sockets d = some frame

theorem tracks_start (sockets : List String) (views : List mcap.Message) (ctrl : PlaybackController) :
    (start views ctrl).Tracks sockets where
  calls := rfl
  stage h := by cases h
  thrown h := by cases h

theorem step_busy {l : Player.Label} (hplay : l.isPlay = true) (hbusy : t.running.isSome = true) :
    t.step loop sockets (.player l) = t := by
  simp [step, hplay, hbusy]

theorem step_free {l : Player.Label} (hfree : ¬(l.isPlay && t.running.isSome) = true) :
    t.step loop sockets (.player l) = { t with
      player := loop t.player l
      running := t.running.or (begun t.player (loop t.player l)) } := if_neg hfree

/-- A step of the loop that makes no call. -/
theorem Tracks.quiet (h : t.Tracks sockets) {p : Player} (hcalls : p.calls = t.player.calls)
    (hstage : t.running.isSome = true → p.stage = t.player.stage) :
    ({ t with player := p, running := t.running.or (begun t.player p) } : PlayThread).Tracks sockets
    where
  calls := by simpa [begun, hcalls] using h.calls
  stage hrunning := by
    have hrunning : t.running.isSome = true := by simpa [begun, hcalls] using hrunning
    rw [hstage hrunning]
    exact h.stage hrunning
  thrown := by simpa [begun, hcalls] using h.thrown

/-- A step that makes one. -/
theorem Tracks.call (h : t.Tracks sockets) (hidle : t.running = none) {p : Player}
    {call : mcap.Message × Delivery} (hcalls : p.calls = t.player.calls ++ [call])
    (hstage : p.stage = .next) :
    ({ t with player := p, running := t.running.or (begun t.player p) } : PlayThread).Tracks sockets
    where
  calls := by
    have hold := h.calls
    rw [hidle, Option.toList_none, List.append_nil] at hold
    simp [begun, hidle, hcalls, hold]
  stage _ := by simp [hstage]
  thrown hthrown := by
    obtain ⟨d, frame, hrunning, -⟩ := h.thrown hthrown
    rw [hidle] at hrunning
    cases hrunning

theorem tracks_player (hloop : Player.IsLoop loop) (h : t.Tracks sockets) (l : Player.Label) :
    (t.step loop sockets (.player l)).Tracks sockets := by
  by_cases hbusy : (l.isPlay && t.running.isSome) = true
  · rw [Bool.and_eq_true] at hbusy
    rwa [step_busy hbusy.1 hbusy.2]
  · rw [step_free hbusy]
    rcases hloop.calls t.player l with hsame | ⟨hplay, hnext, call, hcall⟩
    · apply h.quiet hsame
      intro hrunning
      apply hloop.user
      simpa [hrunning] using hbusy
    · apply h.call ?_ hcall hnext
      simpa [hplay] using hbusy

theorem tracks_returns (h : t.Tracks sockets) : (t.step loop sockets .returns).Tracks sockets := by
  cases hrunning : t.running with
  | none => simpa [step, hrunning] using h
  | some d =>
    cases hthrown : t.thrown with
    | true => simpa [step, hrunning, hthrown] using h
    | false =>
      have hcalls := h.calls
      rw [hrunning, Option.toList_some] at hcalls
      have hstep : t.step loop sockets .returns =
          { t with running := none, returned := t.returned ++ [d] } := by
        simp [step, hrunning, hthrown]
      rw [hstep]
      refine ⟨?_, ?_, ?_⟩
      · rw [Option.toList_none, List.append_nil]
        exact hcalls
      · intro hsome
        cases hsome
      · intro hfail
        rw [hthrown] at hfail
        cases hfail

theorem tracks_throws (h : t.Tracks sockets) : (t.step loop sockets .throws).Tracks sockets := by
  cases hrunning : t.running with
  | none => simpa [step, hrunning] using h
  | some d =>
    cases hframe : run_playback.writes sockets d with
    | none => simpa [step, hrunning, hframe] using h
    | some frame =>
      have hstep : t.step loop sockets .throws = { t with thrown := true } := by
        simp [step, hrunning, hframe]
      rw [hstep]
      exact ⟨h.calls, h.stage, fun _ => ⟨d, frame, hrunning, hframe⟩⟩

theorem tracks_step (hloop : Player.IsLoop loop) (h : t.Tracks sockets) (l : Label) :
    (t.step loop sockets l).Tracks sockets := by
  cases l with
  | player l => exact tracks_player hloop h l
  | returns => exact tracks_returns h
  | throws => exact tracks_throws h

theorem tracks_run (hloop : Player.IsLoop loop) (h : t.Tracks sockets) (ls : List Label) :
    (run (step loop sockets) t ls).Tracks sockets :=
  run_invariant (P := Tracks sockets) (fun _ l ht => tracks_step hloop ht l) h ls

/-- What the loop has sent is what was written, and what is being written. -/
theorem Tracks.onSend_sends (h : t.Tracks sockets) :
    t.player.sends.filterMap (run_playback.onSend sockets) =
      t.written sockets ++ (t.running.bind (run_playback.writes sockets)).toList := by
  have hsends : t.player.sends.filterMap (run_playback.onSend sockets) =
      (t.player.calls.map (·.2)).filterMap (run_playback.writes sockets) := by
    rw [Player.sends, List.filterMap_filterMap, List.filterMap_map]
    rfl
  rw [hsends, ← h.calls, List.filterMap_append, written]
  cases t.running with
  | none => rfl
  | some d => cases hwrites : run_playback.writes sockets d <;> simp [hwrites]

theorem Tracks.written_prefix (h : t.Tracks sockets) :
    t.written sockets <+: t.player.sends.filterMap (run_playback.onSend sockets) :=
  ⟨_, h.onSend_sends.symm⟩

/-- When the loop is over, everything has been written. -/
theorem Tracks.written_of_finished (h : t.Tracks sockets) (hfinished : t.player.stage = .finished) :
    t.written sockets = t.player.sends.filterMap (run_playback.onSend sockets) := by
  have hidle : t.running = none := by
    rw [← Option.not_isSome_iff_eq_none]
    exact fun hsome => h.stage hsome hfinished
  rw [h.onSend_sends, hidle]
  exact (List.append_nil _).symm

/-- After a failure, one frame was to be written next. -/
theorem Tracks.written_of_thrown (h : t.Tracks sockets) (hthrown : t.thrown = true) :
    ∃ frame, t.player.sends.filterMap (run_playback.onSend sockets) =
      t.written sockets ++ [frame] := by
  obtain ⟨d, frame, hrunning, hframe⟩ := h.thrown hthrown
  refine ⟨frame, ?_⟩
  rw [h.onSend_sends, hrunning, Option.bind_some, hframe, Option.toList_some]

theorem player_step (t : PlayThread) (l : Label) :
    (t.step loop sockets l).player = ((t.loopLabel l).map (loop t.player)).getD t.player := by
  cases l with
  | player l =>
    by_cases hbusy : (l.isPlay && t.running.isSome) = true
    · simp [step, loopLabel, hbusy]
    · simp [step, loopLabel, hbusy]
  | returns =>
    unfold step loopLabel
    repeat' split
    all_goals rfl
  | throws =>
    unfold step loopLabel
    repeat' split
    all_goals rfl

/-- **The loop of a thread** is a run of the `Player`. -/
theorem player_run (loop : Player → Player.Label → Player) (sockets : List String) (t : PlayThread)
    (ls : List Label) :
    (run (step loop sockets) t ls).player = run loop t.player (t.loopLabels loop sockets ls) := by
  induction ls generalizing t with
  | nil => rfl
  | cons l ls ih =>
    rw [run_cons, ih, player_step, loopLabels, run_append]
    cases t.loopLabel l <;> rfl

theorem mem_loopLabels {l : Player.Label} {ls : List Label} (h : l ∈ t.loopLabels loop sockets ls) :
    .player l ∈ ls := by
  induction ls generalizing t with
  | nil => cases h
  | cons l' ls ih =>
    rw [loopLabels, List.mem_append, Option.mem_toList] at h
    rcases h with hnow | hlater
    · cases l' with
      | player l'' =>
        rw [loopLabel] at hnow
        split at hnow
        · cases hnow
        · rw [Option.some.injEq] at hnow
          rw [hnow]
          exact List.mem_cons_self
      | returns => cases hnow
      | throws => cases hnow
    · exact List.mem_cons_of_mem _ (ih hlater)

/-- What holds of the steps of the loop, in a run of the thread and in its own. -/
theorem meets_loopLabels_iff {C : Player → Player.Label → Prop} {ls : List Label} :
    Meets loop C t.player (t.loopLabels loop sockets ls) ↔
      Meets (step loop sockets) (fun t l => ∀ l', t.loopLabel l = some l' → C t.player l') t ls := by
  induction ls generalizing t with
  | nil => exact Iff.rfl
  | cons l ls ih =>
    rw [meets_cons, ← ih, player_step, loopLabels]
    cases hlabel : t.loopLabel l with
    | none => simp
    | some l' => simp [meets_cons]

/-! ### The end of a replay -/

/-- A step of the loop whose callback, if it calls one, returns. -/
theorem step_returns (loop : Player → Player.Label → Player) (sockets : List String)
    (hidle : t.running = none) (hthrown : t.thrown = false) (l : Player.Label) :
    ((t.step loop sockets (.player l)).step loop sockets .returns).player = loop t.player l ∧
      ((t.step loop sockets (.player l)).step loop sockets .returns).running = none ∧
      ((t.step loop sockets (.player l)).step loop sockets .returns).thrown = false := by
  have hstep : t.step loop sockets (.player l) = { t with
      player := loop t.player l
      running := begun t.player (loop t.player l) } := by
    simp [step, hidle]
  rw [hstep]
  cases hbegun : begun t.player (loop t.player l) with
  | none => simp [step, hthrown]
  | some d => simp [step, hthrown]

theorem exists_labels (loop : Player → Player.Label → Player) (sockets : List String)
    (hidle : t.running = none) (hthrown : t.thrown = false) (ls : List Player.Label) :
    ∃ ls' : List Label, Label.throws ∉ ls' ∧
      (run (step loop sockets) t ls').player = run loop t.player ls := by
  induction ls generalizing t with
  | nil => exact ⟨[], List.not_mem_nil, rfl⟩
  | cons l ls ih =>
    obtain ⟨hplayer, hidle', hthrown'⟩ := step_returns loop sockets hidle hthrown l
    obtain ⟨ls', hmem, hrun⟩ := ih hidle' hthrown'
    refine ⟨.player l :: .returns :: ls', by simpa using hmem, ?_⟩
    rw [run_cons, run_cons, hrun, hplayer, run_cons]

/-- Where no write has failed, the thread gets to wherever its loop gets. -/
theorem exists_run (loop : Player → Player.Label → Player) (sockets : List String)
    (t : PlayThread) (hthrown : t.thrown = false) (ls : List Player.Label) :
    ∃ ls' : List Label, Label.throws ∉ ls' ∧
      (run (step loop sockets) t ls').player = run loop t.player ls := by
  cases hrunning : t.running with
  | none => exact exists_labels loop sockets hrunning hthrown ls
  | some d =>
    have hstep : t.step loop sockets .returns =
        { t with running := none, returned := t.returned ++ [d] } := by
      simp [step, hrunning, hthrown]
    obtain ⟨ls', hmem, hrun⟩ := exists_labels loop sockets
      (t := { t with running := none, returned := t.returned ++ [d] }) rfl hthrown ls
    refine ⟨.returns :: ls', by simpa using hmem, ?_⟩
    rw [run_cons, hstep, hrun]

end Loop

end PlayThread

/-! ### The two loops -/

theorem Player.isLoop_step (r : Replay pb) : Player.IsLoop (Player.step r) where
  calls p l := by
    cases l with
    | play now =>
      rcases calls_turn r p now with hsame | ⟨info, view, rest, d, hstage, hviews, hcalls⟩
      · exact Or.inl hsame
      · refine Or.inr ⟨rfl, ?_, _, hcalls⟩
        have hturn : p.turn r now =
            if p.ctrl.isMessageEnabled info.iface info.msgName then p.hand r view now
            else p.skip := by
          rw [turn, hstage, hviews]
        change (p.turn r now).stage = .next
        rw [hturn]
        split
        · exact stage_hand view now
        · rfl
    | toggle iface => exact Or.inl rfl
    | toggleMessage iface idx => exact Or.inl rfl
    | stop => exact Or.inl rfl
  user p l hl := by
    cases l with
    | play now => cases hl
    | toggle iface => rfl
    | toggleMessage iface idx => rfl
    | stop => rfl

theorem Player.calls_turnAlone (r : Replay pb) (p : Player) (now : Int) :
    (p.turnAlone r now).calls = p.calls ∨ ((p.turnAlone r now).stage = .next ∧
      ∃ call, (p.turnAlone r now).calls = p.calls ++ [call]) := by
  unfold turnAlone
  split
  · exact Or.inl rfl
  · split <;> exact Or.inl rfl
  · left
    unfold pace
    dsimp only
    split <;> rfl
  · next view rest _ _ =>
    split
    · rcases calls_hand (r := r) (p := p) view now with hsame | ⟨d, hcalls⟩
      · exact Or.inl hsame
      · exact Or.inr ⟨stage_hand view now, _, hcalls⟩
    · exact Or.inl rfl
  · exact Or.inl rfl

theorem Player.isLoop_stepAlone (r : Replay pb) : Player.IsLoop (Player.stepAlone r) where
  calls p l := by
    cases l with
    | play now => exact (calls_turnAlone r p now).imp_right fun hcall => ⟨rfl, hcall⟩
    | toggle iface => exact Or.inl rfl
    | toggleMessage iface idx => exact Or.inl rfl
    | stop => exact Or.inl rfl
  user p l hl := by
    cases l with
    | play now => cases hl
    | toggle iface => rfl
    | toggleMessage iface idx => rfl
    | stop => rfl

end Caneo
