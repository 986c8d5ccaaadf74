import Mathlib.Data.List.TakeWhile
import Caneo.Playback

/-!
# Stopping a replay

`stop` sets a flag that the loop of `play` looks at after a wait and in its sleep. So the record that
is past its sleep may still be passed on, and the next one is left, by the one way or the other; it
does not matter what is toggled meanwhile.
-/

namespace Caneo

open Runs Containers McapReader

variable {pb : Protobuf}

/-- The channel of the record that the loop is at. -/
def PlayStage.info : PlayStage → Option ChannelInfo
  | .waiting info | .resumed info | .pacing info | .sleeping info _ | .checking info
  | .filtering info => some info
  | .next | .finished => none

/-- The loop is past the record's sleep. -/
def PlayStage.isAwake : PlayStage → Bool
  | .checking _ | .filtering _ => true
  | .next | .waiting _ | .resumed _ | .pacing _ | .sleeping .. | .finished => false

/-- From the next data or raw record on. -/
def Replay.nextRecord (r : Replay pb) (views : List mcap.Message) : List mcap.Message :=
  views.dropWhile fun view => (r.channelInfo view).isNone

namespace Player

/-- Where the loop is left when it has been stopped: at the current record if it still has to wait or
to sleep for it, else at the next one. -/
def leavesAt (r : Replay pb) (p : Player) : List mcap.Message :=
  match p.stage with
  | .next => r.nextRecord p.views
  | .checking _ | .filtering _ => r.nextRecord p.views.tail
  | .waiting _ | .resumed _ | .pacing _ | .sleeping .. | .finished => p.views

/-- The steps until then, at most. -/
def stepsLeft (p : Player) : Nat :=
  match p.stage with
  | .next => p.views.length + 3
  | .checking _ => p.views.length + 4
  | .filtering _ => p.views.length + 3
  | .waiting _ | .pacing _ => 2
  | .resumed _ | .sleeping .. => 1
  | .finished => 0

/-- The calls until then, at most. -/
def callsLeft (p : Player) : Nat := if p.stage.isAwake then 1 else 0

/-- The loop's body is run for data and raw records, and left at one or at the end. -/
structure AtRecord (r : Replay pb) (p : Player) : Prop where
  current : ∀ info, p.stage.info = some info → ∃ view rest, p.views = view :: rest ∧
    r.channelInfo view = some info
  finished : p.stage = .finished → r.nextRecord p.views = p.views

section Steps

variable {r : Replay pb} {p : Player}

theorem nextRecord_of_some {view : mcap.Message} {rest : List mcap.Message} {info : ChannelInfo}
    (h : r.channelInfo view = some info) : r.nextRecord (view :: rest) = view :: rest := by
  simp [Replay.nextRecord, h]

theorem nextRecord_of_none {view : mcap.Message} {rest : List mcap.Message}
    (h : r.channelInfo view = none) : r.nextRecord (view :: rest) = r.nextRecord rest := by
  simp [Replay.nextRecord, h]

theorem AtRecord.nextRecord (h : AtRecord r p) {info : ChannelInfo} (hinfo : p.stage.info = some info) :
    r.nextRecord p.views = p.views := by
  obtain ⟨view, rest, hviews, hchannel⟩ := h.current info hinfo
  rw [hviews, nextRecord_of_some hchannel]

/-! ### At a record -/

/-- The next stage of the body, for the same record. -/
theorem AtRecord.move (h : AtRecord r p) {p' : Player} {info : ChannelInfo}
    (hinfo : p.stage.info = some info) (hviews : p'.views = p.views)
    (hstage : p'.stage.info = some info ∨ p'.stage = .finished) : AtRecord r p' where
  current info' hinfo' := by
    rcases hstage with hstage | hstage
    · rw [hstage] at hinfo'
      rw [hviews]
      exact h.current info' (hinfo.trans hinfo')
    · rw [hstage] at hinfo'
      cases hinfo'
  finished _ := by rw [hviews, h.nextRecord hinfo]

theorem atRecord_next (hstage : p.stage = .next) : AtRecord r p where
  current info hinfo := by
    rw [hstage] at hinfo
    cases hinfo
  finished hfinished := by
    rw [hstage] at hfinished
    cases hfinished

theorem AtRecord.turn (h : AtRecord r p) (now : Int) : AtRecord r (p.turn r now) := by
  unfold Player.turn
  split
  · next _ _ _ hviews =>
    refine ⟨?_, ?_⟩
    · rintro info ⟨⟩
    · intro _
      simp [hviews, Replay.nextRecord]
  · next view rest _ hviews =>
    split
    · exact atRecord_next rfl
    · next info hchannel =>
      refine ⟨?_, ?_⟩
      · intro info' hinfo
        refine ⟨view, rest, hviews, ?_⟩
        rw [hchannel, ← hinfo]
        dsimp only
        split <;> rfl
      · intro hfinished
        dsimp only at hfinished
        split at hfinished <;> cases hfinished
  · next _ info hstage =>
    have hinfo : p.stage.info = some info := by rw [hstage]; rfl
    split
    · exact h.move hinfo rfl (Or.inl rfl)
    · exact h
  · next _ info hstage =>
    have hinfo : p.stage.info = some info := by rw [hstage]; rfl
    split
    · exact h.move hinfo rfl (Or.inr rfl)
    · exact h.move hinfo rfl (Or.inl rfl)
  · next info _ _ hstage _ =>
    have hinfo : p.stage.info = some info := by rw [hstage]; rfl
    refine h.move hinfo ?_ (Or.inl ?_)
    · unfold pace
      dsimp only
      split <;> rfl
    · rfl
  · next _ info _ hstage =>
    have hinfo : p.stage.info = some info := by rw [hstage]; rfl
    split
    · exact h.move hinfo rfl (Or.inr rfl)
    · split
      · exact h.move hinfo rfl (Or.inl rfl)
      · exact h
  · next _ info hstage =>
    have hinfo : p.stage.info = some info := by rw [hstage]; rfl
    split
    · exact h.move hinfo rfl (Or.inl rfl)
    · exact atRecord_next rfl
  · split
    · exact atRecord_next (stage_hand _ now)
    · exact atRecord_next rfl
  · exact h
  · exact h
  · exact h

theorem AtRecord.step (h : AtRecord r p) (l : Label) : AtRecord r (p.step r l) := by
  cases l with
  | play now => exact h.turn now
  | toggle iface => exact ⟨h.current, h.finished⟩
  | toggleMessage iface idx => exact ⟨h.current, h.finished⟩
  | stop => exact ⟨h.current, h.finished⟩

/-! ### Stopped -/

/-- What may still happen between two states of a stopped loop. -/
structure Leaving (r : Replay pb) (p p' : Player) : Prop where
  stopped : p'.stopped = true
  leavesAt : p'.leavesAt r = p.leavesAt r
  calls : ∃ more, p'.calls = p.calls ++ more ∧ more.length + p'.callsLeft ≤ p.callsLeft

theorem Leaving.refl (hstopped : p.stopped = true) : Leaving r p p :=
  ⟨hstopped, rfl, [], by simp, by simp⟩

theorem Leaving.trans {p' p'' : Player} (h : Leaving r p p') (h' : Leaving r p' p'') :
    Leaving r p p'' := by
  obtain ⟨more, hcalls, hleft⟩ := h.calls
  obtain ⟨more', hcalls', hleft'⟩ := h'.calls
  refine ⟨h'.stopped, h'.leavesAt.trans h.leavesAt, more ++ more', ?_, ?_⟩
  · rw [hcalls', hcalls, List.append_assoc]
  · rw [List.length_append]
    omega

/-- A step without a call. -/
theorem Leaving.quiet {p' : Player} (hstopped : p'.stopped = true)
    (hleaves : p'.leavesAt r = p.leavesAt r) (hcalls : p'.calls = p.calls)
    (hleft : p'.callsLeft ≤ p.callsLeft) : Leaving r p p' :=
  ⟨hstopped, hleaves, [], by simp [hcalls], by simpa using hleft⟩

theorem callsLeft_skip (p : Player) : p.skip.callsLeft = 0 := rfl

theorem leaving_hand (hstopped : p.stopped = true) {info : ChannelInfo}
    (hstage : p.stage = .filtering info) (view : mcap.Message) (now : Int) :
    Leaving r p (p.hand r view now) := by
  have hleaves : r.nextRecord p.views.tail = p.leavesAt r := by simp [leavesAt, hstage]
  have hleft : p.callsLeft = 1 := by simp [callsLeft, hstage, PlayStage.isAwake]
  unfold hand
  split
  · refine Leaving.quiet hstopped hleaves rfl ?_
    rw [callsLeft_skip]
    exact Nat.zero_le _
  · next d _ =>
    refine ⟨hstopped, hleaves, [(view, d)], rfl, ?_⟩
    rw [callsLeft_skip, hleft]
    rfl

theorem stepsLeft_hand (view : mcap.Message) (now : Int) :
    (p.hand r view now).stepsLeft = p.views.tail.length + 3 := by
  unfold hand
  split <;> rfl

/-- Each step of a stopped loop keeps where it will be left. -/
theorem leaving_turn (r : Replay pb) (hstopped : p.stopped = true) (now : Int) :
    Leaving r p (p.turn r now) := by
  have hquiet : ∀ {p' : Player}, p'.stopped = p.stopped → p'.leavesAt r = p.leavesAt r →
      p'.calls = p.calls → p'.stage.isAwake = false ∨ p.stage.isAwake = true → Leaving r p p' := by
    intro p' hstop hleaves hcalls hawake
    refine .quiet (hstop.trans hstopped) hleaves hcalls ?_
    unfold callsLeft
    rcases hawake with hawake | hawake
    · simp [hawake]
    · rw [if_pos hawake]
      split <;> omega
  unfold Player.turn
  split
  · next _ _ hstage hviews =>
    refine hquiet rfl ?_ rfl (Or.inl rfl)
    simp [leavesAt, hstage, hviews, Replay.nextRecord]
  · next view rest hstage hviews =>
    split
    · next hchannel =>
      refine hquiet rfl ?_ rfl (Or.inl rfl)
      simp [leavesAt, skip, hstage, hviews, nextRecord_of_none hchannel]
    · next info hchannel =>
      refine hquiet rfl ?_ rfl ?_
      · have hleaves : p.leavesAt r = p.views := by
          rw [leavesAt, hstage, hviews]
          exact nextRecord_of_some hchannel
        rw [hleaves]
        by_cases hany : p.ctrl.anyRunning = true <;> simp [leavesAt, hany]
      · by_cases hany : p.ctrl.anyRunning = true <;> simp [PlayStage.isAwake, hany]
  · next _ info hstage =>
    rw [if_pos (by simp [hstopped])]
    refine hquiet rfl ?_ rfl (Or.inl rfl)
    simp [leavesAt, hstage]
  · next _ info hstage =>
    rw [if_pos hstopped]
    refine hquiet rfl ?_ rfl (Or.inl rfl)
    simp [leavesAt, hstage]
  · next info view _ hstage _ =>
    unfold pace
    dsimp only
    split
    · refine hquiet rfl ?_ rfl (Or.inl rfl)
      simp [leavesAt, hstage]
    · refine hquiet rfl ?_ rfl (Or.inl rfl)
      simp [leavesAt, hstage]
  · next _ info _ hstage =>
    rw [if_pos hstopped]
    refine hquiet rfl ?_ rfl (Or.inl rfl)
    simp [leavesAt, hstage]
  · next _ info hstage =>
    split
    · refine hquiet rfl ?_ rfl (Or.inr (by rw [hstage]; rfl))
      simp [leavesAt, hstage]
    · refine hquiet rfl ?_ rfl (Or.inl rfl)
      simp [leavesAt, skip, hstage]
  · next info view rest hstage _ =>
    split
    · exact leaving_hand hstopped hstage view now
    · refine hquiet rfl ?_ rfl (Or.inl rfl)
      simp [leavesAt, skip, hstage]
  · exact .refl hstopped
  · exact .refl hstopped
  · exact .refl hstopped

/-- And brings it nearer. -/
theorem stepsLeft_turn (h : AtRecord r p) (hstopped : p.stopped = true) (now : Int) :
    (p.turn r now).stepsLeft ≤ p.stepsLeft - 1 := by
  unfold Player.turn
  split
  · exact Nat.zero_le _
  · next view rest hstage hviews =>
    split
    · simp [stepsLeft, skip, hstage, hviews]
    · by_cases hany : p.ctrl.anyRunning = true <;> simp [stepsLeft, hstage, hviews, hany]
  · next _ info hstage =>
    rw [if_pos (by simp [hstopped])]
    simp [stepsLeft, hstage]
  · next _ info hstage =>
    rw [if_pos hstopped]
    exact Nat.zero_le _
  · next info view _ hstage _ =>
    unfold pace
    simp [stepsLeft, hstage]
  · rw [if_pos hstopped]
    exact Nat.zero_le _
  · next _ info hstage =>
    split
    · simp [stepsLeft, hstage]
    · simp [stepsLeft, skip, hstage]
  · next info view rest hstage hviews =>
    split
    · rw [stepsLeft_hand]
      simp [stepsLeft, hstage, hviews]
    · simp [stepsLeft, skip, hstage, hviews]
  · next info hstage hviews =>
    obtain ⟨view, rest, hcons, -⟩ := h.current info (by rw [hstage]; rfl)
    rw [hviews] at hcons
    cases hcons
  · next info hstage hviews =>
    obtain ⟨view, rest, hcons, -⟩ := h.current info (by rw [hstage]; rfl)
    rw [hviews] at hcons
    cases hcons
  · next _ hstage => simp [stepsLeft, hstage]

theorem leaving_step (r : Replay pb) (hstopped : p.stopped = true) (l : Label) :
    Leaving r p (p.step r l) := by
  cases l with
  | play now => exact leaving_turn r hstopped now
  | toggle iface => exact .quiet hstopped rfl rfl le_rfl
  | toggleMessage iface idx => exact .quiet hstopped rfl rfl le_rfl
  | stop => exact .quiet rfl rfl rfl le_rfl

theorem stepsLeft_step (h : AtRecord r p) (hstopped : p.stopped = true) (l : Label) :
    (p.step r l).stepsLeft ≤ p.stepsLeft - [l].countP Label.isPlay := by
  cases l with
  | play now => exact stepsLeft_turn h hstopped now
  | toggle iface => exact le_rfl
  | toggleMessage iface idx => exact le_rfl
  | stop => exact le_rfl

/-! ### Runs -/

theorem AtRecord.run (h : AtRecord r p) (ls : List Label) : AtRecord r (Runs.run (Player.step r) p ls) :=
  run_invariant (P := fun p : Player => AtRecord r p) (fun _ l h => h.step l) h ls

theorem atRecord_start (views : List mcap.Message) (ctrl : PlaybackController) :
    AtRecord r (Replay.start views ctrl) := atRecord_next rfl

theorem leaving_run (r : Replay pb) (hstopped : p.stopped = true) (ls : List Label) :
    Leaving r p (Runs.run (Player.step r) p ls) := by
  induction ls generalizing p with
  | nil => exact .refl hstopped
  | cons l ls ih =>
    have hstep := leaving_step r hstopped l
    exact hstep.trans (ih hstep.stopped)

theorem stepsLeft_run (h : AtRecord r p) (hstopped : p.stopped = true) (ls : List Label) :
    (Runs.run (Player.step r) p ls).stepsLeft ≤ p.stepsLeft - ls.countP Label.isPlay := by
  induction ls generalizing p with
  | nil => exact le_rfl
  | cons l ls ih =>
    have hstep := stepsLeft_step h hstopped l
    have hrest := ih (h.step l) (leaving_step r hstopped l).stopped
    have hcount : (l :: ls).countP Label.isPlay = [l].countP Label.isPlay + ls.countP Label.isPlay := by
      rw [← List.countP_append, List.singleton_append]
    rw [run_cons, hcount]
    omega

theorem stepsLeft_le (p : Player) : p.stepsLeft ≤ p.views.length + 4 := by
  unfold stepsLeft
  split <;> omega

theorem finished_of_stepsLeft (h : p.stepsLeft = 0) : p.stage = .finished := by
  cases hstage : p.stage with
  | finished => rfl
  | _ => simp [stepsLeft, hstage] at h

end Steps

end Player

/-- **Stopping.** Once `stop` has returned, whatever is toggled and wherever the loop was: it makes at
most one more call, and only if it was past the sleep of its record; and after a bounded number of its
steps it has been left, at the first data or raw record for which it was not, or at the end of the
file. -/
theorem leaves_after_stop (r : Replay pb) (views : List mcap.Message) (ctrl : PlaybackController)
    (before after : List Player.Label) (p q : Player)
    (hp : p = run (Player.step r) (Replay.start views ctrl) (before ++ [.stop]))
    (hq : q = run (Player.step r) p after) :
    (∃ more, q.calls = p.calls ++ more ∧ more.length ≤ if p.stage.isAwake then 1 else 0) ∧
    (p.views.length + 4 ≤ after.countP Player.Label.isPlay →
      q.stage = .finished ∧ q.views = p.leavesAt r) ∧
    (q.stage = .finished → q.views = p.leavesAt r ∧
      ∀ view ∈ q.views.head?, (r.channelInfo view).isSome = true) := by
  have hrecord : Player.AtRecord r p := by
    rw [hp]
    exact (Player.atRecord_start views ctrl).run _
  have hstopped : p.stopped = true := by
    rw [hp, run_append]
    rfl
  have hleaving : Player.Leaving r p q := hq ▸ Player.leaving_run r hstopped after
  have hrecord' : Player.AtRecord r q := hq ▸ hrecord.run after
  have hat : q.stage = .finished → q.views = p.leavesAt r := by
    intro hfinished
    rw [← hleaving.leavesAt, Player.leavesAt, hfinished]
  refine ⟨?_, ?_, ?_⟩
  · obtain ⟨more, hcalls, hleft⟩ := hleaving.calls
    exact ⟨more, hcalls, (Nat.le_add_right _ _).trans hleft⟩
  · intro hcount
    have hsteps := Player.stepsLeft_run hrecord hstopped after
    rw [← hq] at hsteps
    have hfinished : q.stage = .finished := by
      apply Player.finished_of_stepsLeft
      have hle := p.stepsLeft_le
      omega
    exact ⟨hfinished, hat hfinished⟩
  · intro hfinished
    refine ⟨hat hfinished, ?_⟩
    intro view hview
    obtain ⟨rest, hviews⟩ := List.head?_eq_some_iff.mp hview
    have hnext := List.dropWhile_eq_self_iff.mp (hrecord'.finished hfinished)
    rw [hviews] at hnext
    simpa [Option.isSome_iff_ne_none] using hnext (Nat.succ_pos _)

/-- The replay of two frames, stopped when the first `/data` record is past its sleep. -/
def stoppedTenth : Player :=
  run (Player.step tenthReplay) tenthStart ([.toggle "vcan0"] ++ plays 0 3 ++ [.stop])

/-- The record is passed on. The interface is paused, so that the loop is left after a wait. -/
def pausedThen : List Player.Label := plays 0 1 ++ [.toggle "vcan0"] ++ plays 0 7

theorem leaves_after_stop_tenth :
    (run (Player.step tenthReplay) stoppedTenth pausedThen).stage = .finished ∧
      (run (Player.step tenthReplay) stoppedTenth pausedThen).views = tenthFile.messages.tail ∧
      (run (Player.step tenthReplay) stoppedTenth pausedThen).calls.map (·.1) =
        tenthFile.messages.take 1 := by
  obtain ⟨-, hleft, -⟩ := leaves_after_stop tenthReplay tenthFile.messages
    (PlaybackController.new ["vcan0"]) ([.toggle "vcan0"] ++ plays 0 3) pausedThen stoppedTenth _ rfl
    rfl
  obtain ⟨hfinished, hviews⟩ := hleft (by decide +kernel)
  refine ⟨hfinished, ?_, by decide +kernel⟩
  rw [hviews]
  decide +kernel

end Caneo
