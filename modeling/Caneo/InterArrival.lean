import Caneo.DataFrameSet
import Caneo.LogController
import Caneo.Runs

/-!
# Times between frames

A view and the log both compute the time since the last frame of an id. `DataFrameSet` keeps whole
frames, from the start of the program on, and merges those that were not decoded into the row;
`LogController` keeps a time for every interface and id, from the start of a session on. The frames
of an interface come to both, and while a session lasts the log has the times of the rows
(`Ties`). So the ratio it writes is the time difference of the row, for all frames of an id but the
first in a session.
-/

namespace Caneo

open BitField Containers Runs

/-! ### Stored frames -/

theorem CanFrame.timestamp_foldl_addDecoded (signals : List DecodedSignal) (frame : CanFrame) :
    (signals.foldl CanFrame.addDecoded frame).timestamp = frame.timestamp := by
  rw [DataFrameSet.foldl_addDecoded]

/-- A merged frame keeps its own time. -/
theorem CanFrame.timestamp_storedOver (frame : CanFrame) (row : Option CanFrame) :
    (frame.storedOver row).timestamp = frame.timestamp := by
  rcases row with - | old
  · rfl
  · rw [CanFrame.storedOver]
    split
    · rw [CanFrame.mergedInto]
      split
      · exact timestamp_foldl_addDecoded old.decoded frame
      · exact timestamp_foldl_addDecoded old.decoded frame
    · rfl

/-! ### One interface -/

/-- The rows of an interface, the log, and the ids logged in the session that is open. -/
structure Arrivals where
  set : DataFrameSet
  controller : LogController := {}
  logged : List (BitVec 32) := []

/-- What happens next: a call of the log, or a frame of the interface. -/
inductive Arrival (iface : String) where
  | start (now steadyNow : Int) (opening : Opening)
  | stop
  | frame (frame : { frame : CanFrame // frame.header.interface = iface })

/-- `std::chrono::duration<double, std::milli>` -/
def toMs (d : Int) : ℚ := (d : ℚ) / 1000000

namespace Arrivals

def init (iface : String) : Arrivals := { set := { interface := iface } }

section

variable {pb : Protobuf} (env : LogEnv) (proto : String → Option (ProtoLog pb)) {iface : String}

/-- A frame goes to the rows and then to the log. -/
def step (s : Arrivals) : Arrival iface → Arrivals
  | .start now steadyNow opening =>
    { s with
      controller := s.controller.start env now steadyNow opening
      logged := if !s.controller.isLogging && opening = .opened then [] else s.logged }
  | .stop => { s with controller := s.controller.stop, logged := [] }
  | .frame frame =>
    { set := s.set.update frame
      controller := s.controller.logCanFrame proto frame
      logged := if s.controller.isLogging then frame.val.header.id :: s.logged else s.logged }

/-- The times of the log are those of the rows, for the ids that were logged. -/
structure Ties (iface : String) (s : Arrivals) : Prop where
  times : ∀ id, s.controller.lastTs (iface, id) =
    if id ∈ s.logged then (s.set.frames id).map (·.timestamp) else none
  rows : ∀ id ∈ s.logged, (s.set.frames id).isSome = true
  idle : s.controller.isLogging = false →
    s.controller.lastTs = UnorderedMap.empty ∧ s.logged = []

theorem ties_init : (init iface).Ties iface :=
  ⟨fun _ => rfl, fun _ hmem => absurd hmem List.not_mem_nil, fun _ => ⟨rfl, rfl⟩⟩

variable {env proto}

/-- Whatever the call of a start does, it leaves the times. -/
theorem lastTs_start (now steadyNow : Int) (opening : Opening) (c : LogController) :
    (c.start env now steadyNow opening).lastTs = c.lastTs := by
  unfold LogController.start
  split
  · rfl
  · cases opening with
    | noDirectory => rfl
    | cannotOpen => rfl
    | opened => rfl

/-- A start that opens a log finds no times; any other leaves what there is. -/
theorem Ties.start {s : Arrivals} (h : s.Ties iface) (now steadyNow : Int) (opening : Opening) :
    (s.step env proto (.start now steadyNow opening : Arrival iface)).Ties iface := by
  have hlogged : (s.step env proto (.start now steadyNow opening : Arrival iface)).logged =
      s.logged := by
    change (if _ then [] else s.logged) = s.logged
    split
    · next hopens =>
      rw [Bool.and_eq_true, Bool.not_eq_true'] at hopens
      exact (h.idle hopens.1).2.symm
    · rfl
  refine ⟨?_, ?_, ?_⟩
  · intro id
    rw [hlogged]
    exact (congrFun (lastTs_start now steadyNow opening s.controller) _).trans (h.times id)
  · rw [hlogged]
    exact h.rows
  · intro hidle
    change (s.controller.start env now steadyNow opening).isLogging = false at hidle
    rw [LogController.isLogging_start, Bool.or_eq_false_iff] at hidle
    rw [hlogged]
    exact ⟨(lastTs_start now steadyNow opening s.controller).trans (h.idle hidle.1).1,
      (h.idle hidle.1).2⟩

theorem Ties.stop (s : Arrivals) : (s.step env proto (.stop : Arrival iface)).Ties iface :=
  ⟨fun _ => rfl, fun _ hmem => absurd hmem List.not_mem_nil, fun _ => ⟨rfl, rfl⟩⟩

/-- What a frame does to the times of the log. -/
theorem lastTs_logCanFrame (frame : CanFrame) (c : LogController) :
    (c.logCanFrame proto frame).lastTs =
      if c.isLogging then c.lastTs.set (frame.header.interface, frame.header.id) frame.timestamp
      else c.lastTs := by
  unfold LogController.logCanFrame LogController.isLogging
  cases c.logger with
  | none => rfl
  | some logger => rfl

/-- What a frame does to the log. -/
theorem logger_logCanFrame (frame : CanFrame) (c : LogController) :
    (c.logCanFrame proto frame).logger = c.logger.map fun logger =>
      logger.log frame
        ((proto frame.header.interface).bind fun log =>
          log.descriptor (frame.header.id.setWidth 64))
        ((proto frame.header.interface).elim [] fun log => log.serialize frame)
        ((c.lastTs (frame.header.interface, frame.header.id)).map fun last =>
          toMs (frame.timestamp - last)) := by
  unfold LogController.logCanFrame
  cases hlogger : c.logger with
  | none => exact hlogger
  | some logger => rfl

/-- Between two sessions a frame leaves the log as it is. -/
theorem Ties.frame_idle {s : Arrivals} (h : s.Ties iface)
    (hlogging : s.controller.isLogging = false)
    (frame : { frame : CanFrame // frame.header.interface = iface }) :
    (s.step env proto (.frame frame)).Ties iface := by
  obtain ⟨htimes, hnone⟩ := h.idle hlogging
  have hlogged : (s.step env proto (.frame frame)).logged = [] := by
    change (if s.controller.isLogging then _ else s.logged) = []
    rw [hlogging]
    exact hnone
  have hlast : (s.step env proto (.frame frame)).controller.lastTs = UnorderedMap.empty := by
    refine (lastTs_logCanFrame frame.val s.controller).trans ?_
    rw [hlogging]
    exact htimes
  refine ⟨?_, ?_, fun _ => ⟨hlast, hlogged⟩⟩
  · intro id
    rw [hlast, hlogged, if_neg List.not_mem_nil]
    rfl
  · rw [hlogged]
    exact fun _ hmem => absurd hmem List.not_mem_nil

/-- While a session lasts, a frame puts its own time into the log, as into the row. -/
theorem Ties.frame_logging {s : Arrivals} (h : s.Ties iface)
    (hlogging : s.controller.isLogging = true)
    (frame : { frame : CanFrame // frame.header.interface = iface }) :
    (s.step env proto (.frame frame)).Ties iface := by
  obtain ⟨frame, hiface⟩ := frame
  have hstored : ((s.set.update frame).frames frame.header.id).map (·.timestamp) =
      some frame.timestamp := by
    rw [DataFrameSet.frames_update, if_pos rfl, DataFrameSet.nextRow, Option.map_some,
      CanFrame.timestamp_storedOver]
  have hother : ∀ id, frame.header.id ≠ id → (s.set.update frame).frames id = s.set.frames id := by
    intro id hid
    rw [DataFrameSet.frames_update, if_neg hid]
  have hlogged : (s.step env proto (.frame ⟨frame, hiface⟩)).logged =
      frame.header.id :: s.logged := by
    change (if s.controller.isLogging then _ else s.logged) = _
    rw [hlogging]
    rfl
  have hlast : (s.step env proto (.frame ⟨frame, hiface⟩)).controller.lastTs =
      s.controller.lastTs.set (iface, frame.header.id) frame.timestamp := by
    refine (lastTs_logCanFrame frame s.controller).trans ?_
    rw [hlogging, hiface]
    rfl
  refine ⟨?_, ?_, ?_⟩
  · intro id
    rw [hlast, hlogged, UnorderedMap.set_apply]
    by_cases hid : frame.header.id = id
    · subst hid
      rw [if_pos rfl, if_pos List.mem_cons_self]
      exact hstored.symm
    · rw [if_neg (fun heq => hid (Prod.mk.inj heq).2.symm), h.times id]
      have hmem : id ∈ frame.header.id :: s.logged ↔ id ∈ s.logged := by
        rw [List.mem_cons]
        exact or_iff_right (Ne.symm hid)
      simp only [hmem]
      change _ = if id ∈ s.logged then ((s.set.update frame).frames id).map _ else none
      rw [hother id hid]
  · intro id hmem
    rw [hlogged] at hmem
    change ((s.set.update frame).frames id).isSome = true
    by_cases hid : frame.header.id = id
    · subst hid
      rw [DataFrameSet.frames_update, if_pos rfl]
      rfl
    · rw [hother id hid]
      rcases List.mem_cons.mp hmem with heq | hmem
      · exact absurd heq.symm hid
      · exact h.rows id hmem
  · intro hidle
    change (s.controller.logCanFrame proto frame).isLogging = false at hidle
    rw [LogController.isLogging_logCanFrame, hlogging] at hidle
    cases hidle

theorem Ties.frame {s : Arrivals} (h : s.Ties iface)
    (frame : { frame : CanFrame // frame.header.interface = iface }) :
    (s.step env proto (.frame frame)).Ties iface := by
  cases hlogging : s.controller.isLogging with
  | false => exact h.frame_idle hlogging frame
  | true => exact h.frame_logging hlogging frame

theorem Ties.step {s : Arrivals} (h : s.Ties iface) (a : Arrival iface) :
    (s.step env proto a).Ties iface := by
  rcases a with ⟨now, steadyNow, opening⟩ | - | frame
  · exact h.start now steadyNow opening
  · exact Ties.stop s
  · exact h.frame frame

theorem Ties.run {s : Arrivals} (h : s.Ties iface) (as : List (Arrival iface)) :
    (Runs.run (Arrivals.step env proto) s as).Ties iface := by
  apply run_invariant (P := Ties iface) _ h as
  intro s a h
  exact h.step a

/-! ### The ratio -/

/-- The time difference of the row, for an id that was logged, is that of the log. -/
theorem Ties.delta_update {s : Arrivals} (h : s.Ties iface) {frame : CanFrame}
    (hmem : frame.header.id ∈ s.logged) :
    ∃ last, s.controller.lastTs (iface, frame.header.id) = some last ∧
      (s.set.update frame).delta frame.header.id = some (frame.timestamp - last) := by
  obtain ⟨old, hold⟩ := Option.isSome_iff_exists.mp (h.rows _ hmem)
  refine ⟨old.timestamp, ?_, ?_⟩
  · rw [h.times, if_pos hmem, hold]
    rfl
  · unfold DataFrameSet.delta DataFrameSet.update
    simp only [hold]
    exact UnorderedMap.set_self _ _ _

variable (env proto)

/-- **The two times between frames agree.** For every sequence of frames of one interface, each put
into the rows and then logged, with logs started and stopped anywhere in between, whatever the file
system answers: the logger is handed the time difference of the row, in milliseconds, for a frame
whose id was already logged in the session, for which there is one, and no ratio for any other. -/
theorem update_ratio_eq_delta (as : List (Arrival iface))
    (frame : { frame : CanFrame // frame.header.interface = iface }) :
    let s := run (step env proto) (init iface) as
    let delta := (s.set.update frame).delta frame.val.header.id
    (s.controller.logCanFrame proto frame).logger = (s.controller.logger.map fun logger =>
        logger.log frame
          ((proto iface).bind fun log => log.descriptor (frame.val.header.id.setWidth 64))
          ((proto iface).elim [] fun log => log.serialize frame)
          (if frame.val.header.id ∈ s.logged then delta.map toMs else none)) ∧
      (frame.val.header.id ∈ s.logged → delta.isSome = true) := by
  obtain ⟨frame, hiface⟩ := frame
  intro s delta
  have hties : s.Ties iface := ties_init.run as
  rw [logger_logCanFrame, hiface]
  by_cases hmem : frame.header.id ∈ s.logged
  · obtain ⟨last, hlast, hdelta⟩ := hties.delta_update hmem
    have hdelta : delta = some (frame.timestamp - last) := hdelta
    refine ⟨?_, fun _ => ?_⟩
    · rw [hlast, if_pos hmem, hdelta]
      rfl
    · rw [hdelta]
      rfl
  · refine ⟨?_, fun h => absurd h hmem⟩
    rw [hties.times, if_neg hmem, if_neg hmem]
    rfl

end

end Arrivals

end Caneo
