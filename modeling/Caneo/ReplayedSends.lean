import Caneo.PlayThread

/-!
# The sends of a replay

What `run_playback` (`src/modes/run_playback.cpp`) puts on the bus while `play` runs. Without the
TUI the loop has no controller: it sends every frame of the log, in the order in which the records are
read, and comes to its end, unless a write fails (`replayed_sends`). Under a controller records are
dropped, but whatever is toggled when, the sends are frames of the log in this order, each at most
once (`controlled_sends`).

A frame that was received is received again as it was: with its id, its length and its payload.
-/

namespace Caneo

open BitField Containers McapReader Runs

variable {pb : Protobuf}

/-! ### Received frames -/

/-- The frame has the header and the payload of one that was read from a socket. -/
def CanFrame.Received (frame : CanFrame) : Prop :=
  ∃ now msg, ∃ raw : CanFrame,
    (SocketCAN.readFrame frame.header.interface now msg).2 = some raw ∧
      raw.header = frame.header ∧ raw.payload = frame.payload

theorem CanFrame.Received.bounds {frame : CanFrame} (h : frame.Received) :
    frame.header.id &&& CAN_EFF_MASK = frame.header.id ∧ frame.payload.length ≤ 8 ∧
      frame.header.dlc.toNat = frame.payload.length := by
  obtain ⟨now, msg, raw, hread, hheader, hpayload⟩ := h
  unfold SocketCAN.readFrame at hread
  split at hread
  · cases hread
  · split at hread
    · cases hread
    · have hraw := Option.some.inj hread
      have hdata := msg.raw.length_data
      have hdlc := msg.raw.dlc_le
      rw [← hraw] at hheader hpayload
      rw [← hheader, ← hpayload]
      dsimp only
      refine ⟨?_, ?_, ?_⟩
      · rw [BitVec.and_assoc, BitVec.and_self]
      · rw [List.length_take]
        omega
      · rw [List.length_take]
        omega

/-- A received frame that is sent is received as it was. -/
theorem readFrame_send {frame : CanFrame} (h : frame.Received) (now : Int) (control : List Cmsg) :
    let raw := SocketCAN.send (frame.header.id.setWidth 64) frame.payload
    (SocketCAN.readFrame frame.header.interface now ⟨16, raw, control⟩).2 =
      some { header := frame.header, payload := frame.payload,
             timestamp := (SocketCAN.rxTimestamp control).getD now } := by
  intro raw
  obtain ⟨hid, hlength, hdlc⟩ := h.bounds
  have hpayload : raw.data.take raw.canDlc.toNat = frame.payload := SocketCAN.payload_send hlength
  have hcanId : raw.canId &&& CAN_EFF_MASK = frame.header.id := by
    have hmask : (CAN_EFF_MASK.setWidth 64).setWidth 32 = CAN_EFF_MASK := by decide
    change ((frame.header.id.setWidth 64 &&& CAN_EFF_MASK.setWidth 64).setWidth 32) &&&
      CAN_EFF_MASK = _
    rw [BitVec.setWidth_and, hmask, BitVec.setWidth_setWidth_of_le _ (by decide), BitVec.and_assoc,
      BitVec.and_self, BitVec.setWidth_eq, hid]
  have hcanDlc : raw.canDlc = frame.header.dlc := by
    apply BitVec.eq_of_toNat_eq
    rw [hdlc]
    change (BitVec.ofNat 8 (min frame.payload.length 8)).toNat = _
    rw [BitVec.toNat_ofNat, Nat.min_eq_left hlength]
    omega
  unfold SocketCAN.readFrame
  dsimp only
  rw [if_neg (by decide), if_neg (by decide), hpayload, hcanId, hcanDlc]

/-! ### One record -/

section Records

variable {r : Replay pb} {p : Player}

/-- The clock does not matter for what is sent. -/
theorem sent_handed (r : Replay pb) (now : Int) (view : mcap.Message) :
    (r.handed now view).bind Delivery.sent = r.sendOf view := by
  unfold Replay.sendOf Replay.handed deliver
  cases r.file.channels[view.channelId]? with
  | none => rfl
  | some channel =>
    simp only [Option.bind_some]
    cases (classifyTopic channel.topic).kind with
    | Other => rfl
    | Raw => rfl
    | Data =>
      dsimp only
      cases parse pb r.file view with
      | none => rfl
      | some m =>
        cases hframe : r.onFrame <;> simp [Option.filter, Replay.takes, hframe, Delivery.sent]

theorem sendOf_of_not_wellFormed {view : mcap.Message} (h : r.wellFormed view = false) :
    r.sendOf view = none := by
  rw [Replay.wellFormed, Option.isSome_eq_false_iff, Option.isNone_iff_eq_none] at h
  rw [Replay.sendOf, h, Option.bind_none]

/-- What was sent, and what the records that are left are sent as. -/
def Player.sendsLeft (r : Replay pb) (p : Player) : List RawSend :=
  p.sends ++ p.views.filterMap r.sendOf

theorem sendsLeft_of_same {p' : Player} (hviews : p'.views = p.views) (hcalls : p'.calls = p.calls) :
    p'.sendsLeft r = p.sendsLeft r := by
  rw [Player.sendsLeft, Player.sendsLeft, Player.sends, Player.sends, hviews, hcalls]

/-- A record that is passed on is sent as what it is. -/
theorem sendsLeft_of_pass {p' : Player} {view : mcap.Message} {now : Int} {d : Delivery}
    (hviews : p.views = view :: p'.views) (hhanded : r.handed now view = some d)
    (hcalls : p'.calls = p.calls ++ [(view, d)]) : p'.sendsLeft r = p.sendsLeft r := by
  have hsend : d.sent = r.sendOf view := by
    rw [← sent_handed r now, hhanded, Option.bind_some]
  rw [Player.sendsLeft, Player.sendsLeft, Player.sends, Player.sends, hviews, hcalls,
    List.filterMap_append, List.append_assoc]
  congr 1
  rw [List.filterMap_cons, List.filterMap_cons, hsend]
  cases r.sendOf view <;> rfl

/-- A record that is dropped is not sent. -/
theorem sendsLeft_of_dropped {p' : Player} {view : mcap.Message} (hviews : p.views = view :: p'.views)
    (hcalls : p'.calls = p.calls) : (p'.sendsLeft r).Sublist (p.sendsLeft r) := by
  rw [Player.sendsLeft, Player.sendsLeft, Player.sends, Player.sends, hviews, hcalls]
  apply List.Sublist.append_left
  apply List.Sublist.filterMap
  exact List.sublist_cons_self view p'.views

theorem sendsLeft_of_ignored {p' : Player} {view : mcap.Message} (hviews : p.views = view :: p'.views)
    (hsend : r.sendOf view = none) (hcalls : p'.calls = p.calls) :
    p'.sendsLeft r = p.sendsLeft r := by
  rw [Player.sendsLeft, Player.sendsLeft, Player.sends, Player.sends, hviews, hcalls,
    List.filterMap_cons_none hsend]

/-- Handing the record on ends the loop's body, whether or not it can be read. -/
theorem sendsLeft_hand {view : mcap.Message} {rest : List mcap.Message}
    (hviews : p.views = view :: rest) (now : Int) :
    (p.hand r view now).sendsLeft r = p.sendsLeft r := by
  have htail : p.views = view :: p.skip.views := by
    rw [Player.skip, hviews, List.tail_cons]
  unfold Player.hand
  cases hhanded : r.handed now view with
  | none =>
    apply sendsLeft_of_ignored htail ?_ rfl
    rw [← sent_handed r now, hhanded, Option.bind_none]
  | some d => exact sendsLeft_of_pass htail hhanded rfl

end Records

/-! ### Without a controller -/

section Alone

variable {r : Replay pb} {p : Player}

theorem sendsLeft_turnAlone (r : Replay pb) (p : Player) (now : Int) :
    (p.turnAlone r now).sendsLeft r = p.sendsLeft r := by
  unfold Player.turnAlone
  split
  · exact sendsLeft_of_same rfl rfl
  · next view rest _ hviews =>
    split
    · next hnone =>
      have htail : p.views = view :: p.skip.views := by
        rw [Player.skip, hviews, List.tail_cons]
      exact sendsLeft_of_ignored htail
        (sendOf_of_not_wellFormed (Replay.wellFormed_of_channelInfo_eq_none hnone)) rfl
    · exact sendsLeft_of_same rfl rfl
  · unfold Player.pace
    dsimp only
    split <;> exact sendsLeft_of_same rfl rfl
  · next hviews =>
    split
    · exact sendsLeft_hand hviews now
    · rfl
  · rfl

/-- The stages of the loop without a controller; it ends after the last record. -/
inductive Player.AloneStage (p : Player) : Prop where
  | next : p.stage = .next → AloneStage p
  | pacing {info : ChannelInfo} {view : mcap.Message} {rest : List mcap.Message} :
      p.stage = .pacing info → p.views = view :: rest → AloneStage p
  | sleeping {info : ChannelInfo} {target : Int} {view : mcap.Message} {rest : List mcap.Message} :
      p.stage = .sleeping info target → p.views = view :: rest → AloneStage p
  | finished : p.stage = .finished → p.views = [] → AloneStage p

theorem aloneStage_turnAlone (h : p.AloneStage) (now : Int) : (p.turnAlone r now).AloneStage := by
  rcases h with hstage | ⟨hstage, hviews⟩ | ⟨hstage, hviews⟩ | ⟨hstage, hviews⟩
  · unfold Player.turnAlone
    rw [hstage]
    cases hviews : p.views with
    | nil => exact .finished rfl rfl
    | cons view rest =>
      dsimp only
      split
      · exact .next rfl
      · exact .pacing rfl rfl
  · unfold Player.turnAlone
    rw [hstage, hviews]
    unfold Player.pace
    dsimp only
    split <;> exact .sleeping rfl hviews
  · unfold Player.turnAlone
    rw [hstage, hviews]
    dsimp only
    split
    · exact .next (Player.stage_hand _ now)
    · exact .sleeping hstage hviews
  · have hsame : p.turnAlone r now = p := by
      unfold Player.turnAlone
      rw [hstage]
    rw [hsame]
    exact .finished hstage hviews

theorem aloneStage_stepAlone (h : p.AloneStage) (l : Player.Label) : (p.stepAlone r l).AloneStage := by
  cases l with
  | play now => exact aloneStage_turnAlone h now
  | toggle iface => exact h
  | toggleMessage iface idx => exact h
  | stop => exact h

theorem sendsLeft_stepAlone (r : Replay pb) (p : Player) (l : Player.Label) :
    (p.stepAlone r l).sendsLeft r = p.sendsLeft r := by
  cases l with
  | play now => exact sendsLeft_turnAlone r p now
  | toggle iface => rfl
  | toggleMessage iface idx => rfl
  | stop => rfl

theorem sendsLeft_runAlone (r : Replay pb) (p : Player) (ls : List Player.Label) :
    (run (Player.stepAlone r) p ls).sendsLeft r = p.sendsLeft r :=
  run_invariant (P := fun q : Player => q.sendsLeft r = p.sendsLeft r)
    (fun q l hq => (sendsLeft_stepAlone r q l).trans hq) rfl ls

/-- The loop can come to its end. -/
def CanFinish (r : Replay pb) (p : Player) : Prop :=
  ∃ ls, (run (Player.stepAlone r) p ls).stage = .finished

theorem CanFinish.of_turn {now : Int} (h : CanFinish r (p.turnAlone r now)) : CanFinish r p := by
  obtain ⟨ls, hls⟩ := h
  exact ⟨.play now :: ls, hls⟩

/-- A record is slept for until it is due. -/
theorem turnAlone_pacing {info : ChannelInfo} {view : mcap.Message} {rest : List mcap.Message}
    (hstage : p.stage = .pacing info) (hviews : p.views = view :: rest) (now : Int) :
    ∃ target, (p.turnAlone r now).stage = .sleeping info target ∧
      (p.turnAlone r now).views = view :: rest := by
  unfold Player.turnAlone
  rw [hstage, hviews]
  unfold Player.pace
  dsimp only
  split <;> exact ⟨_, rfl, hviews⟩

/-- When it is due, the loop is done with it. -/
theorem turnAlone_sleeping {info : ChannelInfo} {target : Int} {view : mcap.Message}
    {rest : List mcap.Message} (hstage : p.stage = .sleeping info target)
    (hviews : p.views = view :: rest) :
    (p.turnAlone r target).stage = .next ∧ (p.turnAlone r target).views = rest := by
  have hhand : p.turnAlone r target = p.hand r view target := by
    unfold Player.turnAlone
    rw [hstage, hviews]
    exact if_pos le_rfl
  rw [hhand]
  refine ⟨Player.stage_hand view target, ?_⟩
  unfold Player.hand Player.skip
  split <;> rw [hviews] <;> rfl

theorem canFinish_next (r : Replay pb) {p : Player} (hstage : p.stage = .next) : CanFinish r p := by
  induction hviews : p.views generalizing p with
  | nil =>
    refine ⟨[.play 0], ?_⟩
    change (p.turnAlone r 0).stage = _
    unfold Player.turnAlone
    rw [hstage, hviews]
  | cons view rest ih =>
    refine @CanFinish.of_turn _ r p 0 ?_
    cases hinfo : r.channelInfo view with
    | none =>
      have hturn : p.turnAlone r 0 = p.skip := by
        unfold Player.turnAlone
        rw [hstage, hviews]
        dsimp only
        rw [hinfo]
      rw [hturn]
      apply ih rfl
      rw [Player.skip, hviews, List.tail_cons]
    | some info =>
      have hturn : p.turnAlone r 0 = { p with stage := .pacing info } := by
        unfold Player.turnAlone
        rw [hstage, hviews]
        dsimp only
        rw [hinfo]
      rw [hturn]
      obtain ⟨target, hsleeping, hkept⟩ := turnAlone_pacing (r := r)
        (p := { p with stage := .pacing info }) rfl hviews 0
      obtain ⟨hnext, hrest⟩ := turnAlone_sleeping (r := r) hsleeping hkept
      exact .of_turn (.of_turn (ih hnext hrest))

/-- Wherever the loop stands, it can come to its end. -/
theorem canFinish (r : Replay pb) {p : Player} (h : p.AloneStage) : CanFinish r p := by
  rcases h with hstage | ⟨hstage, hviews⟩ | ⟨hstage, hviews⟩ | ⟨hstage, -⟩
  · exact canFinish_next r hstage
  · obtain ⟨target, hsleeping, hkept⟩ := turnAlone_pacing (r := r) hstage hviews 0
    exact .of_turn (.of_turn (canFinish_next r (turnAlone_sleeping hsleeping hkept).1))
  · exact .of_turn (canFinish_next r (turnAlone_sleeping hstage hviews).1)
  · exact ⟨[], hstage⟩

end Alone

/-! ### With a controller -/

section Controlled

variable {r : Replay pb} {p : Player}

/-- A step may drop a record, and nothing else. -/
theorem sendsLeft_step (r : Replay pb) (p : Player) (l : Player.Label) :
    ((p.step r l).sendsLeft r).Sublist (p.sendsLeft r) := by
  rcases Player.outcome_step r p l with ⟨hviews, hcalls⟩ | ⟨view, now, d, hviews, hhanded, hcalls⟩ |
    ⟨view, hviews, hwf, hcalls⟩ | ⟨view, info, hviews, -, -, hcalls⟩ |
    ⟨view, info, hviews, -, -, hcalls⟩
  · rw [sendsLeft_of_same hviews hcalls]
  · rw [sendsLeft_of_pass hviews hhanded hcalls]
  · rw [sendsLeft_of_ignored hviews (sendOf_of_not_wellFormed hwf) hcalls]
  · exact sendsLeft_of_dropped hviews hcalls
  · exact sendsLeft_of_dropped hviews hcalls

theorem sendsLeft_run (r : Replay pb) (p : Player) (ls : List Player.Label) :
    ((run (Player.step r) p ls).sendsLeft r).Sublist (p.sendsLeft r) :=
  run_invariant (P := fun q : Player => (q.sendsLeft r).Sublist (p.sendsLeft r))
    (fun q l hq => (sendsLeft_step r q l).trans hq) (List.Sublist.refl _) ls

/-- The loop ends when it is stopped, and after the last record. -/
def Player.EndsAtEnd (p : Player) : Prop :=
  p.stage = .finished → p.stopped = true ∨ p.views = []

theorem endsAtEnd_turn (h : p.EndsAtEnd) (now : Int) : (p.turn r now).EndsAtEnd := by
  unfold Player.turn
  split
  · next hviews => exact fun _ => Or.inr hviews
  · split
    · intro hstage
      cases hstage
    · intro hstage
      dsimp only at hstage
      split at hstage <;> cases hstage
  · split
    · intro hstage
      cases hstage
    · exact h
  · split
    · next hstopped => exact fun _ => Or.inl hstopped
    · intro hstage
      cases hstage
  · unfold Player.pace
    intro hstage
    cases hstage
  · split
    · next hstopped => exact fun _ => Or.inl hstopped
    · split
      · intro hstage
        cases hstage
      · exact h
  · split
    · intro hstage
      cases hstage
    · intro hstage
      cases hstage
  · split
    · intro hstage
      rw [Player.stage_hand] at hstage
      cases hstage
    · intro hstage
      cases hstage
  · exact h
  · exact h
  · exact h

theorem endsAtEnd_step (h : p.EndsAtEnd) (l : Player.Label) : (p.step r l).EndsAtEnd := by
  cases l with
  | play now => exact endsAtEnd_turn h now
  | toggle iface => exact h
  | toggleMessage iface idx => exact h
  | stop => exact fun _ => Or.inl rfl

theorem stopped_turn (r : Replay pb) (p : Player) (now : Int) :
    (p.turn r now).stopped = p.stopped := by
  unfold Player.turn Player.pace Player.hand Player.skip
  dsimp only
  repeat' split
  all_goals rfl

theorem stopped_step {l : Player.Label} (hl : l ≠ .stop) : (p.step r l).stopped = p.stopped := by
  cases l with
  | play now => exact stopped_turn r p now
  | toggle iface => rfl
  | toggleMessage iface idx => rfl
  | stop => exact absurd rfl hl

/-- Without `stop()` the loop ends after the last record. -/
theorem views_of_finished {ls : List Player.Label} (hls : ∀ l ∈ ls, l ≠ .stop)
    {views : List mcap.Message} {ctrl : PlaybackController}
    (hstage : (run (Player.step r) (Replay.start views ctrl) ls).stage = .finished) :
    (run (Player.step r) (Replay.start views ctrl) ls).views = [] := by
  have hends : (run (Player.step r) (Replay.start views ctrl) ls).EndsAtEnd := by
    apply run_invariant (P := Player.EndsAtEnd) (fun _ l h => endsAtEnd_step h l)
    intro hstage
    cases hstage
  have hstopped : (run (Player.step r) (Replay.start views ctrl) ls).stopped = false := by
    apply run_invariant_mem (P := fun q : Player => q.stopped = false)
    · intro q l hl hq
      rwa [stopped_step (hls l hl)]
    · rfl
  rcases hends hstage with hstop | hviews
  · rw [hstopped] at hstop
    cases hstop
  · exact hviews

/-- What was sent is what the records that were passed on are sent as. -/
theorem sends_eq_filterMap_sendOf
    (hcalls : ∀ call ∈ p.calls, ∃ now, r.handed now call.1 = some call.2) :
    p.sends = (p.calls.map (·.1)).filterMap r.sendOf := by
  rw [Player.sends, List.filterMap_map]
  apply List.filterMap_congr
  intro call hcall
  obtain ⟨now, hhanded⟩ := hcalls call hcall
  rw [Function.comp_apply, ← sent_handed r now, hhanded, Option.bind_some]

theorem filterMap_sendOf_filter (views : List mcap.Message) :
    (views.filter r.wellFormed).filterMap r.sendOf = views.filterMap r.sendOf := by
  rw [List.filterMap_filter]
  apply List.filterMap_congr
  intro view _
  cases hwf : r.wellFormed view with
  | true => exact if_pos rfl
  | false =>
    rw [sendOf_of_not_wellFormed hwf]
    exact if_neg (by decide)

/-- Only interfaces are toggled: the playback is not stopped, and no message is disabled. -/
def Player.Label.keepsAll : Player.Label → Bool
  | .play _ | .toggle _ => true
  | .toggleMessage .. | .stop => false

theorem of_keepsAll {l : Player.Label} (h : l.keepsAll = true) :
    l ≠ .stop ∧ l.isToggleMessage = false := by
  cases l with
  | play now => exact ⟨by rintro ⟨⟩, rfl⟩
  | toggle iface => exact ⟨by rintro ⟨⟩, rfl⟩
  | toggleMessage iface idx => cases h
  | stop => cases h

def PlayThread.Label.keepsAll : PlayThread.Label → Bool
  | .player l => l.keepsAll
  | .returns | .throws => true

/-- No step of the loop finds a record's interface paused. -/
def PlayThread.Unpaused (r : Replay pb) (t : PlayThread) (l : PlayThread.Label) : Prop :=
  ∀ l', t.loopLabel l = some l' → Player.Unpaused r t.player l'

/-- If no record finds its interface paused or its message disabled, all are sent. -/
theorem sends_of_unpaused {views : List mcap.Message} {ctrl : PlaybackController}
    (hfilters : ctrl.FiltersOn) {ls : List Player.Label}
    (hls : ∀ l ∈ ls, l.keepsAll = true)
    (hunpaused : Meets (Player.step r) (Player.Unpaused r) (Replay.start views ctrl) ls)
    (hstage : (run (Player.step r) (Replay.start views ctrl) ls).stage = .finished) :
    (run (Player.step r) (Replay.start views ctrl) ls).sends = views.filterMap r.sendOf := by
  have hviews := views_of_finished (fun l hl => (of_keepsAll (hls l hl)).1) hstage
  have hhold := (Player.hold_run_iff (p := Replay.start views ctrl) hfilters
    fun l hl => (of_keepsAll (hls l hl)).2).mpr hunpaused
  rw [Player.hold, hviews, List.filter_nil, List.append_nil] at hhold
  have hcalls := @Player.handed_of_calls _ r (Replay.start views ctrl) ls
    fun call hcall => by cases hcall
  rw [sends_eq_filterMap_sendOf hcalls, hhold]
  exact filterMap_sendOf_filter views

end Controlled

/-! ### The sends of a replay -/

def PlayStage.isFinished : PlayStage → Bool
  | .finished => true
  | .next | .waiting _ | .resumed _ | .pacing _ | .sleeping .. | .checking _ | .filtering _ => false

theorem PlayStage.eq_finished {stage : PlayStage} (h : stage.isFinished = true) :
    stage = .finished := by
  cases stage with
  | finished => rfl
  | next | waiting | resumed | pacing | sleeping | checking | filtering => cases h

/-- What another reader of the bus receives. -/
def receive (now : Int) (bus : List (String × can_frame)) : List CanFrame :=
  bus.filterMap fun sent => (SocketCAN.readFrame sent.1 now ⟨16, sent.2, []⟩).2

/-- Received frames that are sent are received again, on the interfaces that have a socket. -/
theorem receive_onSend (sockets : List String) (now : Int) {frames : List CanFrame}
    (h : ∀ frame ∈ frames, frame.Received) :
    receive now ((frames.map CanFrame.raw).filterMap (run_playback.onSend sockets)) =
      (frames.filter fun frame => frame.header.interface ∈ sockets).map fun frame =>
        { header := frame.header, payload := frame.payload, timestamp := now } := by
  induction frames with
  | nil => rfl
  | cons frame frames ih =>
    have hrest := ih fun frame' hframe' => h frame' (List.mem_cons_of_mem _ hframe')
    have hread := readFrame_send (h frame List.mem_cons_self) now []
    rw [List.map_cons]
    by_cases hsocket : frame.header.interface ∈ sockets
    · have hsent : run_playback.onSend sockets frame.raw = some (frame.header.interface,
          SocketCAN.send (frame.header.id.setWidth 64) frame.payload) := if_pos hsocket
      rw [List.filterMap_cons_some hsent, List.filter_cons_of_pos (by simpa using hsocket),
        List.map_cons, ← hrest]
      exact List.filterMap_cons_some (f := fun sent : String × can_frame =>
        (SocketCAN.readFrame sent.1 now ⟨16, sent.2, []⟩).2) hread
    · have hunsent : run_playback.onSend sockets frame.raw = none := if_neg hsocket
      rw [List.filterMap_cons_none hunsent, List.filter_cons_of_neg (by simpa using hsocket), hrest]

/-- A replay without a controller that has `frames` to write: it has written a prefix of them. It can
always come to its end, unless a write has failed; then it has written all of them, and otherwise
those before the one that failed. -/
structure PlayThread.Replays (r : Replay pb) (sockets : List String) (t : PlayThread)
    (frames : List (String × can_frame)) : Prop where
  prefixWritten : t.written sockets <+: frames
  canFinish : t.thrown = false → ∃ ls, PlayThread.Label.throws ∉ ls ∧
    (run (PlayThread.step (Player.stepAlone r) sockets) t ls).player.stage = .finished
  finished : t.player.stage = .finished → t.written sockets = frames
  thrown : t.thrown = true → ∃ failed, t.written sockets ++ [failed] <+: frames

/-- What the records are sent as is written to the sockets. -/
theorem replays_runAlone (r : Replay pb) (sockets : List String) (views : List mcap.Message)
    (ctrl : PlaybackController) (ls : List PlayThread.Label) :
    (run (PlayThread.step (Player.stepAlone r) sockets) (PlayThread.start views ctrl) ls).Replays r
      sockets ((views.filterMap r.sendOf).filterMap (run_playback.onSend sockets)) := by
  have htracks := PlayThread.tracks_run (Player.isLoop_stepAlone r)
    (PlayThread.tracks_start sockets views ctrl) ls
  have hplayer := PlayThread.player_run (Player.stepAlone r) sockets
    (PlayThread.start views ctrl) ls
  generalize run (PlayThread.step (Player.stepAlone r) sockets) (PlayThread.start views ctrl) ls = t
    at htracks hplayer ⊢
  have hstage : t.player.AloneStage := by
    rw [hplayer]
    exact run_invariant (P := Player.AloneStage) (fun _ l h => aloneStage_stepAlone h l) (.next rfl) _
  have hleft : t.player.sends ++ t.player.views.filterMap r.sendOf = views.filterMap r.sendOf := by
    rw [hplayer]
    exact sendsLeft_runAlone r (Replay.start views ctrl) _
  have hsends : t.player.sends.filterMap (run_playback.onSend sockets) <+:
      (views.filterMap r.sendOf).filterMap (run_playback.onSend sockets) := by
    rw [← hleft, List.filterMap_append]
    exact List.prefix_append _ _
  refine ⟨htracks.written_prefix.trans hsends, ?_, ?_, ?_⟩
  · intro hthrown
    obtain ⟨ls', hfinished⟩ := canFinish r hstage
    obtain ⟨ls'', hmem, hrun⟩ := PlayThread.exists_run (Player.stepAlone r) sockets t
      hthrown ls'
    exact ⟨ls'', hmem, hrun ▸ hfinished⟩
  · intro hfinished
    have hviews : t.player.views = [] := by
      rcases hstage with hnot | ⟨hnot, -⟩ | ⟨hnot, -⟩ | ⟨-, hviews⟩
      · rw [hfinished] at hnot
        cases hnot
      · rw [hfinished] at hnot
        cases hnot
      · rw [hfinished] at hnot
        cases hnot
      · exact hviews
    rw [hviews, List.filterMap_nil, List.append_nil] at hleft
    rw [htracks.written_of_finished hfinished, hleft]
  · intro hthrown
    obtain ⟨failed, hfailed⟩ := htracks.written_of_thrown hthrown
    exact ⟨failed, hfailed ▸ hsends⟩

/-- A replay of a log without a controller has the frames of the log to write. -/
theorem exists_replays (haccepts : AcceptsBuiltIn pb) {calls : List (LogCall pb)}
    (hcalls : ∀ c ∈ calls, c.FromDbc) (hkeeps : KeepsBuiltIn (calls.flatMap LogCall.writes))
    (hslash : ∀ c ∈ calls, ∀ frame, c.frame = some frame → '/' ∉ frame.header.interface.toList)
    {r : Replay pb} (hfile : r.file = (McapLogger.ofCalls calls).writer) (hon : r.onSend = true)
    {views : List mcap.Message} (hviews : views.Perm r.file.messages) :
    ∃ frames, InReadOrder r.file views (recordedFrames calls) frames ∧
      ∀ (sockets : List String) (ctrl : PlaybackController) (ls : List PlayThread.Label),
        (run (PlayThread.step (Player.stepAlone r) sockets) (PlayThread.start views ctrl) ls).Replays r
          sockets ((frames.map CanFrame.raw).filterMap (run_playback.onSend sockets)) := by
  obtain ⟨frames, horder, hsends⟩ := exists_inReadOrder haccepts hcalls hkeeps hslash hfile hon hviews
  refine ⟨frames, horder, ?_⟩
  intro sockets ctrl ls
  rw [← hsends]
  exact replays_runAlone r sockets views ctrl ls

/-- In the end it has been received. -/
theorem PlayThread.Replays.receive_eq {r : Replay pb} {sockets : List String} {t : PlayThread}
    {frames : List CanFrame}
    (h : t.Replays r sockets ((frames.map CanFrame.raw).filterMap (run_playback.onSend sockets)))
    (hframes : ∀ frame ∈ frames, frame.Received) (hfinished : t.player.stage = .finished) (now : Int) :
    receive now (t.written sockets) =
      (frames.filter fun frame => frame.header.interface ∈ sockets).map fun frame =>
        { header := frame.header, payload := frame.payload, timestamp := now } := by
  rw [h.finished hfinished]
  exact receive_onSend sockets now hframes

theorem received_of_recorded {calls : List (LogCall pb)}
    (h : ∀ c ∈ calls, ∀ frame, c.frame = some frame → frame.Received) :
    ∀ frame ∈ recordedFrames calls, frame.Received := by
  intro frame hframe
  obtain ⟨c, hc, hframe⟩ := List.mem_filterMap.mp hframe
  exact h c hc frame hframe

/-- **From the bus into a log, and back.** Whatever received frames are logged, and whatever scalars
between them: a replay without a controller writes the frames of all interfaces that have a socket, in
the order in which their records are read, each once. It comes to its end unless a write fails; then
other readers of the bus have received the frames, each with its id, its length and its payload. -/
theorem replayed_sends (haccepts : AcceptsBuiltIn pb) {calls : List (LogCall pb)}
    (hcalls : ∀ c ∈ calls, c.FromDbc) (hkeeps : KeepsBuiltIn (calls.flatMap LogCall.writes))
    (hframes : ∀ c ∈ calls, ∀ frame, c.frame = some frame →
      frame.Received ∧ '/' ∉ frame.header.interface.toList)
    {r : Replay pb} (hfile : r.file = (McapLogger.ofCalls calls).writer) (hon : r.onSend = true)
    {views : List mcap.Message} (hviews : views.Perm r.file.messages) :
    ∃ frames, InReadOrder r.file views (recordedFrames calls) frames ∧
      ∀ (sockets : List String) (ctrl : PlaybackController) (ls : List PlayThread.Label),
        let t := run (PlayThread.step (Player.stepAlone r) sockets) (PlayThread.start views ctrl) ls
        t.Replays r sockets ((frames.map CanFrame.raw).filterMap (run_playback.onSend sockets)) ∧
          (t.player.stage = .finished → ∀ now, receive now (t.written sockets) =
            (frames.filter fun frame => frame.header.interface ∈ sockets).map fun frame =>
              { header := frame.header, payload := frame.payload, timestamp := now }) := by
  obtain ⟨frames, horder, hreplays⟩ := exists_replays haccepts hcalls hkeeps
    (fun c hc frame hframe => (hframes c hc frame hframe).2) hfile hon hviews
  have hreceived : ∀ frame ∈ frames, frame.Received := by
    intro frame hframe
    apply received_of_recorded fun c hc frame hframe => (hframes c hc frame hframe).1
    exact horder.perm.mem_iff.mp hframe
  refine ⟨frames, horder, ?_⟩
  intro sockets ctrl ls t
  exact ⟨hreplays sockets ctrl ls, (hreplays sockets ctrl ls).receive_eq hreceived⟩

/-- Two frames that are logged in the other order of their times, and a scalar between them. -/
def lateCalls : List (LogCall Protobuf.wire) :=
  [.logFrame none (tenthFrame 1) none, .logScalar "model/script/raw" 7 0,
    .logFrame none (tenthFrame 0) (some 100)]

theorem lateCalls_fromDbc : ∀ c ∈ lateCalls, c.FromDbc := by
  intro c hc
  simp only [lateCalls, List.mem_cons, List.not_mem_nil, or_false] at hc
  rcases hc with rfl | rfl | rfl
  · exact fun l hl => by cases hl
  · trivial
  · exact fun l hl => by cases hl

theorem lateCalls_received : ∀ c ∈ lateCalls, ∀ frame, c.frame = some frame →
    frame.Received ∧ '/' ∉ frame.header.interface.toList := by
  have htenth : ∀ k ∈ [0, 1], (tenthFrame k).Received := by
    intro k hk
    refine ⟨0, ⟨16, SocketCAN.send 0x123 (tenthFrame k).payload, []⟩,
      { header := (tenthFrame k).header, payload := (tenthFrame k).payload }, ?_, rfl, rfl⟩
    simp only [List.mem_cons, List.not_mem_nil, or_false] at hk
    rcases hk with rfl | rfl
    · decide
    · decide
  intro c hc frame hframe
  simp only [lateCalls, List.mem_cons, List.not_mem_nil, or_false] at hc
  rcases hc with rfl | rfl | rfl
  · cases hframe
    exact ⟨htenth 1 (by decide), by decide⟩
  · cases hframe
  · cases hframe
    exact ⟨htenth 0 (by decide), by decide⟩

def lateReplay : Replay Protobuf.wire where
  hash _ := 0
  file := (McapLogger.ofCalls lateCalls).writer
  onFrame := false

/-- The thread plays, and its callbacks return. -/
def playing (ls : List Player.Label) : List PlayThread.Label :=
  ls.flatMap fun l => [.player l, .returns]

def lateThread : PlayThread :=
  run (PlayThread.step (Player.stepAlone lateReplay) ["vcan0"])
    (PlayThread.start lateReplay.file.messages (PlaybackController.new []))
    (playing (plays 0 12 ++ plays 100000000 12))

/-- They are received again in the order in which they were logged. -/
theorem replayed_sends_late :
    receive 0 (lateThread.written ["vcan0"]) =
      [{ (tenthFrame 1) with timestamp := 0 }, { (tenthFrame 0) with timestamp := 0 }] := by
  obtain ⟨frames, horder, hall⟩ := replayed_sends (by decide) lateCalls_fromDbc (by decide +kernel)
    lateCalls_received (r := lateReplay) rfl rfl (List.Perm.refl _)
  have hfinished : lateThread.player.stage = .finished := PlayStage.eq_finished (by decide +kernel)
  rw [lateThread] at hfinished ⊢
  have hreceived := (hall ["vcan0"] (PlaybackController.new [])
    (playing (plays 0 12 ++ plays 100000000 12))).2 hfinished 0
  rw [horder.inFileOrder rfl] at hreceived
  refine hreceived.trans ?_
  decide +kernel

/-- **A replay that is toggled.** Whatever interfaces and messages are toggled at whatever moments, also
while a callback runs: the frames that were written are frames of the log in the order in which their
records are read, each at most once. If the replay comes to its end without being stopped, no message
is disabled and no record finds its interface paused, they are all frames of the log. -/
theorem controlled_sends (haccepts : AcceptsBuiltIn pb) {calls : List (LogCall pb)}
    (hcalls : ∀ c ∈ calls, c.FromDbc) (hkeeps : KeepsBuiltIn (calls.flatMap LogCall.writes))
    (hslash : ∀ c ∈ calls, ∀ frame, c.frame = some frame → '/' ∉ frame.header.interface.toList)
    {r : Replay pb} (hfile : r.file = (McapLogger.ofCalls calls).writer) (hon : r.onSend = true)
    {views : List mcap.Message} (hviews : views.Perm r.file.messages) :
    ∃ frames, InReadOrder r.file views (recordedFrames calls) frames ∧
      ∀ (sockets : List String) (ctrl : PlaybackController) (ls : List PlayThread.Label),
        let start := PlayThread.start views ctrl
        let t := run (PlayThread.step (Player.step r) sockets) start ls
        let toWrite := (frames.map CanFrame.raw).filterMap (run_playback.onSend sockets)
        (t.written sockets).Sublist toWrite ∧
          (t.thrown = true → ∃ failed, (t.written sockets ++ [failed]).Sublist toWrite) ∧
          (ctrl.FiltersOn → (∀ l ∈ ls, l.keepsAll = true) →
            Meets (PlayThread.step (Player.step r) sockets) (PlayThread.Unpaused r) start ls →
            t.player.stage = .finished → t.written sockets = toWrite) := by
  obtain ⟨frames, horder, hall⟩ := exists_inReadOrder haccepts hcalls hkeeps hslash hfile hon hviews
  refine ⟨frames, horder, ?_⟩
  intro sockets ctrl ls start t toWrite
  have htracks : t.Tracks sockets := PlayThread.tracks_run (Player.isLoop_step r)
    (PlayThread.tracks_start sockets views ctrl) ls
  have hplayer : t.player = run (Player.step r) (Replay.start views ctrl)
      (start.loopLabels (Player.step r) sockets ls) := PlayThread.player_run _ _ start ls
  have hsends : (t.player.sends.filterMap (run_playback.onSend sockets)).Sublist toWrite := by
    apply List.Sublist.filterMap
    rw [← hall, hplayer]
    exact (List.sublist_append_left _ _).trans (sendsLeft_run r (Replay.start views ctrl) _)
  refine ⟨htracks.written_prefix.sublist.trans hsends, ?_, ?_⟩
  · intro hthrown
    obtain ⟨failed, hfailed⟩ := htracks.written_of_thrown hthrown
    exact ⟨failed, hfailed ▸ hsends⟩
  · intro hfilters hls hunpaused hfinished
    rw [htracks.written_of_finished hfinished, hplayer, sends_of_unpaused hfilters ?_ ?_ ?_, hall]
    · exact fun l hl => hls _ (PlayThread.mem_loopLabels hl)
    · exact PlayThread.meets_loopLabels_iff.mpr hunpaused
    · rwa [← hplayer]

/-- Pausing and resuming while the loop waits for the second frame's time. -/
def pausedLate : List PlayThread.Label :=
  playing ([.toggle "vcan0"] ++ plays 0 11 ++ [.toggle "vcan0", .toggle "vcan0"] ++
    plays 100000000 20)

def toggledThread : PlayThread :=
  run (PlayThread.step (Player.step lateReplay) ["vcan0"])
    (PlayThread.start lateReplay.file.messages (PlaybackController.new ["vcan0"])) pausedLate

theorem controlled_sends_late :
    toggledThread.written ["vcan0"] =
      [(tenthFrame 1).raw, (tenthFrame 0).raw].filterMap (run_playback.onSend ["vcan0"]) := by
  obtain ⟨frames, horder, hall⟩ := controlled_sends (by decide) lateCalls_fromDbc (by decide +kernel)
    (fun c hc frame hframe => (lateCalls_received c hc frame hframe).2) (r := lateReplay) rfl rfl
    (List.Perm.refl _)
  obtain ⟨-, -, hwritten⟩ := hall ["vcan0"] (PlaybackController.new ["vcan0"]) pausedLate
  have hlabels : ∀ l ∈ pausedLate, l.keepsAll = true := by decide
  have hunpaused : Meets (PlayThread.step (Player.step lateReplay) ["vcan0"])
      (PlayThread.Unpaused lateReplay)
      (PlayThread.start lateReplay.file.messages (PlaybackController.new ["vcan0"])) pausedLate := by
    refine PlayThread.meets_loopLabels_iff.mp ?_
    apply (Player.hold_run_iff (p := Replay.start _ _) tenthStart_filtersOn ?_).mp
    · decide +kernel
    · intro l hl
      exact (of_keepsAll (hlabels _ (PlayThread.mem_loopLabels hl))).2
  have hfinished : toggledThread.player.stage = .finished := PlayStage.eq_finished (by decide +kernel)
  rw [toggledThread] at hfinished ⊢
  rw [hwritten tenthStart_filtersOn hlabels hunpaused hfinished, horder.inFileOrder rfl]
  rfl

end Caneo
