import Caneo.BusToBus
import Caneo.LogPaths

/-!
# The files of the sessions

A log may be started and stopped at any time, from the window of the GUI or by a remote client, while
frames arrive. Every method of `LogController` holds its mutex, so any order of the calls is possible,
also a start or a stop between the outputs of a model and their frame. Opening a file that exists
empties it, and what the writer holds back is in the file when the writer has been closed.

`Sessions` says what there is to log: which calls come to which session. The files are those of the
sessions (`LogDisk.Holds`), so that every frame that arrives while a log is open belongs to exactly
one session, and a replay of the file of a session that is over writes its frames (`session_files`).
-/

namespace Caneo

open Containers McapReader Runs

variable {pb : Protobuf}

/-! ### The controller and its files -/

/-- A file has all that its writer was given when this has been closed. What there is of it before is
up to the writer. -/
inductive LogFile where
  | unfinished
  | finished (file : mcap.File)

/-- The files by their paths. -/
structure LogDisk where
  controller : LogController := {}
  files : UnorderedMap String LogFile := UnorderedMap.empty

/-- A call of the controller; a scalar is an output of a model. -/
inductive LogDisk.Label where
  | start (now steadyNow : Int) (opening : Opening)
  | stop
  | frame (frame : CanFrame)
  | scalar (topic : String) (value : ℚ) (now : Int)

namespace LogDisk

section Steps

variable (logEnv : LogEnv) (proto : String → Option (ProtoLog pb))

def call (c : LogController) : Label → LogController
  | .start now steadyNow opening => c.start logEnv now steadyNow opening
  | .stop => c.stop
  | .frame frame => c.logCanFrame proto frame
  | .scalar topic value now => c.logScalar pb topic value now

/-- A logger opens its file when it is made, and closes it when it is destroyed. -/
def step (s : LogDisk) (l : Label) : LogDisk :=
  let controller := call logEnv proto s.controller l
  { controller := controller
    files := match s.controller.logger, controller.logger with
      | none, some _ => UnorderedMap.set s.files controller.currentPath .unfinished
      | some logger, none =>
        UnorderedMap.set s.files s.controller.currentPath (.finished logger.writer)
      | none, none | some _, some _ => s.files }

def Label.loggedFrame : Label → Option CanFrame
  | .frame received => some received
  | _ => none

/-- The frames that arrive while a log is open. -/
def framesWhileLogging : LogDisk → List Label → List CanFrame
  | _, [] => []
  | s, l :: ls =>
    (if s.controller.isLogging then l.loggedFrame.toList else []) ++
      framesWhileLogging (s.step logEnv proto l) ls

end Steps

end LogDisk

/-! ### Sessions -/

/-- A log: its path, and what happened between its start and its stop. -/
structure LogSession where
  path : String
  during : List LogDisk.Label := []

/-- The calls of a session's logger, and the times of the last frames. -/
structure SessionLog (pb : Protobuf) where
  calls : List (LogCall pb) := []
  lastTs : UnorderedMap (String × BitVec 32) Int := UnorderedMap.empty

def SessionLog.add (proto : String → Option (ProtoLog pb)) (s : SessionLog pb) :
    LogDisk.Label → SessionLog pb
  | .frame frame =>
    let key := (frame.header.interface, frame.header.id)
    { calls := s.calls ++ [.logFrame (proto frame.header.interface) frame
        ((s.lastTs key).map fun last => ((frame.timestamp - last : Int) : ℚ) / 1000000)]
      lastTs := s.lastTs.set key frame.timestamp }
  | .scalar topic value now => { s with calls := s.calls ++ [.logScalar topic value now] }
  | .start .. | .stop => s

namespace LogSession

def log (proto : String → Option (ProtoLog pb)) (x : LogSession) : SessionLog pb :=
  x.during.foldl (SessionLog.add proto) {}

def logger (proto : String → Option (ProtoLog pb)) (x : LogSession) : McapLogger :=
  McapLogger.ofCalls (x.log proto).calls

def frames (x : LogSession) : List CanFrame := x.during.filterMap LogDisk.Label.loggedFrame

def add (x : LogSession) (l : LogDisk.Label) : LogSession := { x with during := x.during ++ [l] }

end LogSession

/-- The sessions that are over, and the one that is not. -/
structure Sessions where
  closed : List LogSession := []
  current : Option LogSession := none

namespace Sessions

/-- A session lasts from a start that opens its file until the next stop. -/
def step (logEnv : LogEnv) (s : Sessions) (l : LogDisk.Label) : Sessions :=
  match s.current, l with
  | none, .start now _ .opened => { s with current := some { path := logEnv.makeLogPath now } }
  | none, _ => s
  | some x, .stop => { closed := s.closed ++ [x], current := none }
  | some x, l => { s with current := some (x.add l) }

def all (s : Sessions) : List LogSession := s.closed ++ s.current.toList

end Sessions

/-! ### The files are those of the sessions -/

section Refinement

variable {logEnv : LogEnv} {proto : String → Option (ProtoLog pb)}

/-- The last of the sessions of a path, which are over, has its file. -/
def fileOf (proto : String → Option (ProtoLog pb)) (closed : List LogSession) (path : String) :
    Option LogFile :=
  (closed.reverse.find? fun x => x.path = path).map fun x => .finished (x.logger proto).writer

@[simp] theorem fileOf_append (closed : List LogSession) (x : LogSession) (path : String) :
    fileOf proto (closed ++ [x]) path =
      if path = x.path then some (.finished (x.logger proto).writer)
      else fileOf proto closed path := by
  by_cases hpath : x.path = path
  · simp [fileOf, hpath]
  · simp [fileOf, hpath, Ne.symm hpath]

/-- The files of these sessions. -/
def Sessions.files (proto : String → Option (ProtoLog pb)) (a : Sessions) :
    UnorderedMap String LogFile :=
  a.current.elim (fileOf proto a.closed) fun x =>
    UnorderedMap.set (fileOf proto a.closed) x.path .unfinished

/-- The controller and the files of these sessions. -/
structure LogDisk.Holds (proto : String → Option (ProtoLog pb)) (a : Sessions) (s : LogDisk) :
    Prop where
  logger : s.controller.logger = a.current.map (LogSession.logger proto)
  path : ∀ x ∈ a.current, s.controller.currentPath = x.path
  lastTs : s.controller.lastTs = a.current.elim UnorderedMap.empty fun x => (x.log proto).lastTs
  files : s.files = a.files proto

theorem log_add (x : LogSession) (l : LogDisk.Label) :
    (x.add l).log proto = (x.log proto).add proto l := by
  rw [LogSession.log, LogSession.add, List.foldl_append]
  rfl

theorem logger_append (calls : List (LogCall pb)) (c : LogCall pb) :
    McapLogger.ofCalls (calls ++ [c]) = (McapLogger.ofCalls calls).call c := by
  rw [McapLogger.ofCalls, List.foldl_append]
  rfl

/-- A session goes on, with what its logger has now. -/
theorem LogDisk.Holds.go_on {closed : List LogSession} {x y : LogSession} {s : LogDisk}
    (h : s.Holds proto ⟨closed, some x⟩) {l : LogDisk.Label} (hpath : y.path = x.path)
    (hlogger : (call logEnv proto s.controller l).logger = some (y.logger proto))
    (hcurrent : (call logEnv proto s.controller l).currentPath = s.controller.currentPath)
    (hlastTs : (call logEnv proto s.controller l).lastTs = (y.log proto).lastTs) :
    (s.step logEnv proto l).Holds proto ⟨closed, some y⟩ := by
  have hopen : s.controller.logger = some (x.logger proto) := h.logger
  refine ⟨hlogger, ?_, hlastTs, ?_⟩
  · intro z hz
    cases hz
    exact (hcurrent.trans (h.path x rfl)).trans hpath.symm
  · simp [step, hopen, hlogger, h.files, Sessions.files, hpath]

/-- Without a logger nothing happens. -/
theorem LogDisk.Holds.rest {closed : List LogSession} {s : LogDisk} (h : s.Holds proto ⟨closed, none⟩)
    {l : LogDisk.Label} (hlogger : (call logEnv proto s.controller l).logger = none)
    (hlastTs : (call logEnv proto s.controller l).lastTs = UnorderedMap.empty) :
    (s.step logEnv proto l).Holds proto ⟨closed, none⟩ := by
  have hidle : s.controller.logger = none := h.logger
  refine ⟨hlogger, fun x hx => (by cases hx), hlastTs, ?_⟩
  simp only [step, hidle, hlogger]
  exact h.files

/-- A call while no log is open. -/
theorem LogDisk.Holds.step_idle {closed : List LogSession} {s : LogDisk}
    (h : s.Holds proto ⟨closed, none⟩) (l : LogDisk.Label) :
    (s.step logEnv proto l).Holds proto (Sessions.step logEnv ⟨closed, none⟩ l) := by
  have hidle : s.controller.logger = none := h.logger
  have hempty : s.controller.lastTs = UnorderedMap.empty := h.lastTs
  cases l with
  | start now steadyNow opening =>
    have hnot : s.controller.isLogging = false := by simp [LogController.isLogging, hidle]
    cases opening with
    | noDirectory =>
      apply h.rest
      · simp [call, LogController.start, hnot, hidle]
      · simp [call, LogController.start, hnot, hempty]
    | cannotOpen =>
      apply h.rest
      · simp [call, LogController.start, hnot, hidle]
      · simp [call, LogController.start, hnot, hempty]
    | opened =>
      have hcall : call logEnv proto s.controller (.start now steadyNow .opened) =
          { s.controller with
            logger := some {}
            currentPath := logEnv.makeLogPath now
            logStartTime := steadyNow } := by
        simp [call, LogController.start, hnot]
      refine ⟨?_, ?_, ?_, ?_⟩
      · simp only [LogDisk.step, hcall]
        rfl
      · intro x hx
        cases hx
        simp only [LogDisk.step, hcall]
      · simp only [LogDisk.step, hcall]
        exact hempty
      · simp only [LogDisk.step, hcall, hidle, h.files]
        rfl
  | stop => exact h.rest rfl rfl
  | frame frame =>
    apply h.rest
    · simp [call, LogController.logCanFrame, hidle]
    · simp [call, LogController.logCanFrame, hidle, hempty]
  | scalar topic value now =>
    apply h.rest
    · simp [call, LogController.logScalar, hidle]
    · simp [call, LogController.logScalar, hempty]

/-- A call while one is open. -/
theorem LogDisk.Holds.step_open {closed : List LogSession} {x : LogSession} {s : LogDisk}
    (h : s.Holds proto ⟨closed, some x⟩) (l : LogDisk.Label) :
    (s.step logEnv proto l).Holds proto (Sessions.step logEnv ⟨closed, some x⟩ l) := by
  have hopen : s.controller.logger = some (x.logger proto) := h.logger
  have htimes : s.controller.lastTs = (x.log proto).lastTs := h.lastTs
  have hlogging : s.controller.isLogging = true := by simp [LogController.isLogging, hopen]
  cases l with
  | start now steadyNow opening =>
    have hcall : call logEnv proto s.controller (.start now steadyNow opening) = s.controller :=
      LogController.start_of_isLogging hlogging logEnv now steadyNow opening
    apply h.go_on (y := x.add (.start now steadyNow opening)) rfl
    · rw [hcall, hopen, LogSession.logger, LogSession.logger, log_add]
      rfl
    · rw [hcall]
    · rw [hcall, htimes, log_add]
      rfl
  | stop =>
    refine ⟨rfl, fun y hy => (by cases hy), rfl, ?_⟩
    have hpath : s.controller.currentPath = x.path := h.path x rfl
    funext path
    by_cases hx : path = x.path
    · simp [LogDisk.step, call, LogController.stop, hopen, hpath, hx, Sessions.step, Sessions.files]
    · simp [LogDisk.step, call, LogController.stop, hopen, hpath, hx, Sessions.step, Sessions.files,
        UnorderedMap.set_apply, h.files]
  | frame frame =>
    apply h.go_on (y := x.add (.frame frame)) rfl
    · rw [LogSession.logger, log_add]
      simp only [call, LogController.logCanFrame, hopen, htimes, SessionLog.add, logger_append]
      rfl
    · simp [call, LogController.logCanFrame, hopen]
    · rw [log_add]
      simp [call, LogController.logCanFrame, hopen, htimes, SessionLog.add]
  | scalar topic value now =>
    apply h.go_on (y := x.add (.scalar topic value now)) rfl
    · rw [LogSession.logger, log_add]
      simp only [call, LogController.logScalar, hopen, SessionLog.add, logger_append]
      rfl
    · rfl
    · rw [log_add]
      exact htimes

theorem LogDisk.Holds.step {a : Sessions} {s : LogDisk} (h : s.Holds proto a) (l : LogDisk.Label) :
    (s.step logEnv proto l).Holds proto (a.step logEnv l) := by
  obtain ⟨closed, current⟩ := a
  cases current with
  | none => exact h.step_idle l
  | some x => exact h.step_open l

theorem holds_run (logEnv : LogEnv) (ls : List LogDisk.Label) :
    (run (LogDisk.step logEnv proto) {} ls).Holds proto (run (Sessions.step logEnv) {} ls) := by
  induction ls using List.reverseRecOn with
  | nil => exact ⟨rfl, fun x hx => (by cases hx), rfl, rfl⟩
  | append_singleton ls l ih =>
    rw [run_append, run_append]
    exact ih.step l

/-- A path has a file if a session had it. -/
theorem isSome_files (proto : String → Option (ProtoLog pb)) (a : Sessions) (path : String) :
    (a.files proto path).isSome = true ↔ ∃ x ∈ a.all, x.path = path := by
  obtain ⟨closed, current⟩ := a
  cases current with
  | none => simp [Sessions.files, Sessions.all, fileOf]
  | some x =>
    by_cases hx : path = x.path
    · simp [Sessions.files, Sessions.all, hx]
    · simp [Sessions.files, Sessions.all, fileOf, UnorderedMap.set_apply, hx, Ne.symm hx]

/-- The session that goes on has no part in the other files. -/
theorem files_of_other {a : Sessions} {path : String} (h : ∀ y ∈ a.current, y.path ≠ path) :
    a.files proto path = fileOf proto a.closed path := by
  obtain ⟨closed, current⟩ := a
  cases current with
  | none => rfl
  | some x => simp [Sessions.files, UnorderedMap.set_apply, Ne.symm (h x rfl)]

/-! ### The frames of the sessions -/

theorem frames_add (x : LogSession) (l : LogDisk.Label) :
    (x.add l).frames = x.frames ++ l.loggedFrame.toList := by
  rw [LogSession.frames, LogSession.add, List.filterMap_append]
  cases hl : l.loggedFrame with
  | none => simp [LogSession.frames, hl]
  | some frame => simp [LogSession.frames, hl]

/-- A call adds its frame to the session that is open. -/
theorem frames_step {a : Sessions} {s : LogDisk} (h : s.Holds proto a) (l : LogDisk.Label) :
    (a.step logEnv l).all.flatMap LogSession.frames = a.all.flatMap LogSession.frames ++
      if s.controller.isLogging then l.loggedFrame.toList else [] := by
  obtain ⟨closed, current⟩ := a
  have hlogger := h.logger
  cases current with
  | none =>
    have hidle : s.controller.logger = none := hlogger
    have hsame : (Sessions.step logEnv ⟨closed, none⟩ l).all.flatMap LogSession.frames =
        (Sessions.all ⟨closed, none⟩).flatMap LogSession.frames := by
      cases l with
      | start now steadyNow opening =>
        cases opening with
        | noDirectory => rfl
        | cannotOpen => rfl
        | opened => simp [Sessions.step, Sessions.all, LogSession.frames]
      | stop => rfl
      | frame frame => rfl
      | scalar topic value now => rfl
    simp [hsame, LogController.isLogging, hidle]
  | some x =>
    have hopen : s.controller.logger = some (x.logger proto) := hlogger
    have hadd : ∀ l, Sessions.step logEnv ⟨closed, some x⟩ l = ⟨closed, some (x.add l)⟩ →
        (Sessions.step logEnv ⟨closed, some x⟩ l).all.flatMap LogSession.frames =
          (Sessions.all ⟨closed, some x⟩).flatMap LogSession.frames ++ l.loggedFrame.toList := by
      intro l hstep
      simp [hstep, Sessions.all, frames_add]
    simp only [LogController.isLogging, hopen, Option.isSome_some, if_true]
    cases l with
    | start now steadyNow opening => exact hadd _ rfl
    | stop => simp [Sessions.step, Sessions.all, LogDisk.Label.loggedFrame]
    | frame frame => exact hadd _ rfl
    | scalar topic value now => exact hadd _ rfl

theorem frames_run {a : Sessions} {s : LogDisk} (h : s.Holds proto a) (ls : List LogDisk.Label) :
    (run (Sessions.step logEnv) a ls).all.flatMap LogSession.frames =
      a.all.flatMap LogSession.frames ++ s.framesWhileLogging logEnv proto ls := by
  induction ls generalizing a s with
  | nil => simp [LogDisk.framesWhileLogging]
  | cons l ls ih =>
    rw [run_cons, ih (h.step l), frames_step h l, LogDisk.framesWhileLogging, List.append_assoc]

theorem during_step {P : LogDisk.Label → Prop} {a : Sessions}
    (h : ∀ x ∈ a.all, ∀ l ∈ x.during, P l) {l : LogDisk.Label} (hl : P l) :
    ∀ x ∈ (a.step logEnv l).all, ∀ l ∈ x.during, P l := by
  obtain ⟨closed, current⟩ := a
  cases current with
  | none =>
    cases l with
    | start now steadyNow opening =>
      cases opening with
      | noDirectory => exact h
      | cannotOpen => exact h
      | opened =>
        intro x hx
        rcases List.mem_append.mp hx with hx | hx
        · exact h x (List.mem_append_left _ hx)
        · rw [List.mem_singleton.mp hx]
          exact fun l hl => absurd hl List.not_mem_nil
    | stop => exact h
    | frame frame => exact h
    | scalar topic value now => exact h
  | some x =>
    have hadd : ∀ y ∈ Sessions.all ⟨closed, some (x.add l)⟩, ∀ l ∈ y.during, P l := by
      intro y hy l' hl'
      rcases List.mem_append.mp hy with hy | hy
      · exact h y (List.mem_append_left _ hy) l' hl'
      · rw [List.mem_singleton.mp hy] at hl'
        rcases List.mem_append.mp hl' with hl' | hl'
        · exact h x (List.mem_append_right _ (List.mem_singleton.mpr rfl)) l' hl'
        · rwa [List.mem_singleton.mp hl']
    cases l with
    | start now steadyNow opening => exact hadd
    | stop => simpa [Sessions.step, Sessions.all] using h
    | frame frame => exact hadd
    | scalar topic value now => exact hadd

/-- What happens in a session has happened. -/
theorem during_run (ls : List LogDisk.Label) :
    ∀ x ∈ (run (Sessions.step logEnv) {} ls).all, ∀ l ∈ x.during, l ∈ ls := by
  suffices h : ∀ (P : LogDisk.Label → Prop), (∀ l ∈ ls, P l) →
      ∀ x ∈ (run (Sessions.step logEnv) {} ls).all, ∀ l ∈ x.during, P l from h _ fun l hl => hl
  intro P hP
  induction ls using List.reverseRecOn with
  | nil => exact fun x hx => absurd hx List.not_mem_nil
  | append_singleton ls l ih =>
    rw [run_append]
    apply during_step
    · exact ih fun l' hl' => hP l' (List.mem_append_left _ hl')
    · exact hP l (List.mem_append_right _ List.mem_cons_self)

/-! ### The calls of a session -/

/-- Each is a frame, with the log of its interface, or a scalar. -/
theorem mem_calls_session {x : LogSession} {c : LogCall pb} (hc : c ∈ (x.log proto).calls) :
    (∃ frame ratio, .frame frame ∈ x.during ∧
        c = .logFrame (proto frame.header.interface) frame ratio) ∨
      ∃ topic value now, .scalar topic value now ∈ x.during ∧ c = .logScalar topic value now := by
  obtain ⟨path, during⟩ := x
  induction during using List.reverseRecOn with
  | nil => cases hc
  | append_singleton during l ih =>
    have hadd : (⟨path, during ++ [l]⟩ : LogSession).log proto =
        ((⟨path, during⟩ : LogSession).log proto).add proto l := log_add ⟨path, during⟩ l
    rw [hadd] at hc
    have hearlier : c ∈ ((⟨path, during⟩ : LogSession).log proto).calls →
        (∃ frame ratio, .frame frame ∈ during ++ [l] ∧
          c = .logFrame (proto frame.header.interface) frame ratio) ∨
        ∃ topic value now, .scalar topic value now ∈ during ++ [l] ∧
          c = .logScalar topic value now := by
      intro hc
      rcases ih hc with ⟨frame, ratio, hmem, hc⟩ | ⟨topic, value, now, hmem, hc⟩
      · exact Or.inl ⟨frame, ratio, List.mem_append_left _ hmem, hc⟩
      · exact Or.inr ⟨topic, value, now, List.mem_append_left _ hmem, hc⟩
    cases l with
    | start now steadyNow opening => exact hearlier hc
    | stop => exact hearlier hc
    | frame frame =>
      rcases List.mem_append.mp hc with hc | hc
      · exact hearlier hc
      · exact Or.inl ⟨frame, _, List.mem_append_right _ List.mem_cons_self, List.mem_singleton.mp hc⟩
    | scalar topic value now =>
      rcases List.mem_append.mp hc with hc | hc
      · exact hearlier hc
      · exact Or.inr ⟨topic, value, now, List.mem_append_right _ List.mem_cons_self,
          List.mem_singleton.mp hc⟩

theorem filterMap_frame_session (x : LogSession) :
    (x.log proto).calls.filterMap LogCall.frame = x.frames := by
  obtain ⟨path, during⟩ := x
  induction during using List.reverseRecOn with
  | nil => rfl
  | append_singleton during l ih =>
    have hadd : (⟨path, during ++ [l]⟩ : LogSession).log proto =
        ((⟨path, during⟩ : LogSession).log proto).add proto l := log_add ⟨path, during⟩ l
    have hframes : (⟨path, during ++ [l]⟩ : LogSession).frames =
        (⟨path, during⟩ : LogSession).frames ++ l.loggedFrame.toList := frames_add ⟨path, during⟩ l
    rw [hadd, hframes, ← ih]
    cases l with
    | start now steadyNow opening => simp [SessionLog.add, LogDisk.Label.loggedFrame]
    | stop => simp [SessionLog.add, LogDisk.Label.loggedFrame]
    | frame frame => simp [SessionLog.add, LogDisk.Label.loggedFrame, LogCall.frame]
    | scalar topic value now => simp [SessionLog.add, LogDisk.Label.loggedFrame, LogCall.frame]

end Refinement

/-! ### What a replay of a file sends -/

section Files

variable {casts : BitCasts} {files : String → DbcFile} {grpcServer : Bool}
  {cfgs : List InterfaceConfig} {env : ReceiveEnv pb}

/-- The calls of a session are as those of a log that is never stopped. -/
theorem plain_session (henv : ReceiveEnv.ofConfig casts files grpcServer cfgs = .ok env)
    (hplain : PlainNames files cfgs) {x : LogSession}
    (hframes : ∀ frame, .frame frame ∈ x.during → frame.header.interface ∈ cfgs.map (·.name))
    (hscalars : ∀ topic value now, .scalar topic value now ∈ x.during →
      ∃ scriptPath name, topic = ModelEngine.topic scriptPath name) :
    ∀ c ∈ (x.log env.protoRegistry.get).calls,
      (c.FromDbc ∧ ∀ w ∈ c.writes, PlainWrite w) ∧
        ∀ frame, c.frame = some frame → '/' ∉ frame.header.interface.toList := by
  intro c hc
  rcases mem_calls_session hc with ⟨frame, ratio, hmem, rfl⟩ | ⟨topic, value, now, hmem, rfl⟩
  · have hlog : ∀ log, env.protoRegistry.get frame.header.interface = some log →
        FromConfig files cfgs log := fun log hget => fromConfig_ofConfig henv hget
    have hiface := hframes frame hmem
    refine ⟨⟨?_, plain_logFrame hplain hlog hiface ratio⟩, ?_⟩
    · intro log hget
      obtain ⟨cfg, -, network, -, hof⟩ := hlog log hget
      exact ⟨cfg.name, network, hof⟩
    · intro frame' hframe'
      cases hframe'
      obtain ⟨cfg, hcfg, hname⟩ := List.mem_map.mp hiface
      rw [← hname]
      exact (hplain cfg hcfg).1
  · obtain ⟨scriptPath, name, rfl⟩ := hscalars topic value now hmem
    exact ⟨⟨trivial, plain_logScalar scriptPath name value now⟩, fun frame hframe => by cases hframe⟩

/-- **The files of the sessions.** Whenever the log is started and stopped, whatever the file system
answers, and whatever frames and outputs of a model come in between: the frames that arrive while a
log is open are those of the sessions, each in one. A path has a file if a session had it, and the
file is finished unless it is that of the session that goes on. It is then that of the path's last
session: a replay of it without a controller writes the frames of this session in the order in which
the records are read, and comes to its end unless a write fails. -/
theorem session_files (haccepts : AcceptsBuiltIn pb)
    (henv : ReceiveEnv.ofConfig casts files grpcServer cfgs = .ok env)
    (hplain : PlainNames files cfgs) (logEnv : LogEnv) {ls : List LogDisk.Label}
    (hframes : ∀ frame, .frame frame ∈ ls → frame.header.interface ∈ cfgs.map (·.name))
    (hscalars : ∀ topic value now, .scalar topic value now ∈ ls →
      ∃ scriptPath name, topic = ModelEngine.topic scriptPath name) :
    let proto := env.protoRegistry.get
    let disk := run (LogDisk.step logEnv proto) {} ls
    let sessions := run (Sessions.step logEnv) {} ls
    sessions.all.flatMap LogSession.frames = LogDisk.framesWhileLogging logEnv proto {} ls ∧
      (∀ path, (disk.files path).isSome = true ↔ ∃ x ∈ sessions.all, x.path = path) ∧
      (∀ x ∈ sessions.current, disk.files x.path = some .unfinished) ∧
      ∀ path x, (sessions.closed.reverse.find? fun x => x.path = path) = some x →
        (∀ y ∈ sessions.current, y.path ≠ path) →
        ∃ file, disk.files path = some (.finished file) ∧
          ∀ (r : Replay pb) (views : List mcap.Message), r.file = file → r.onSend = true →
            views.Perm r.file.messages →
            ∃ frames, InReadOrder r.file views x.frames frames ∧
              ∀ (sockets : List String) (ctrl : PlaybackController) (playLs : List PlayThread.Label),
                (run (PlayThread.step (Player.stepAlone r) sockets) (PlayThread.start views ctrl)
                  playLs).Replays r sockets
                    ((frames.map CanFrame.raw).filterMap (run_playback.onSend sockets)) := by
  intro proto disk sessions
  have hholds : disk.Holds proto sessions := holds_run logEnv ls
  refine ⟨frames_run (holds_run logEnv []) ls, ?_, ?_, ?_⟩
  · intro path
    rw [hholds.files]
    exact isSome_files proto sessions path
  · intro x hx
    rw [hholds.files, Sessions.files, Option.mem_def.mp hx, Option.elim_some]
    exact UnorderedMap.set_self _ _ _
  · intro path x hfind hother
    have hfile : disk.files path = some (.finished (x.logger proto).writer) := by
      rw [hholds.files, files_of_other hother, fileOf, hfind, Option.map_some]
    refine ⟨_, hfile, ?_⟩
    intro r views hr hon hviews
    have hx : x ∈ sessions.all :=
      List.mem_append_left _ (List.mem_reverse.mp (List.mem_of_find?_eq_some hfind))
    have hduring := during_run ls x hx
    have hcalls := plain_session henv hplain (x := x)
      (fun frame hframe => hframes frame (hduring _ hframe))
      (fun topic value now hscalar => hscalars topic value now (hduring _ hscalar))
    obtain ⟨frames, horder, hreplays⟩ := exists_replays haccepts (fun c hc => (hcalls c hc).1.1)
      (keepsBuiltIn_of_calls fun c hc => (hcalls c hc).1.2) (fun c hc => (hcalls c hc).2) hr hon hviews
    rw [recordedFrames, filterMap_frame_session] at horder
    exact ⟨frames, horder, hreplays⟩

end Files

/-! ### Two sessions -/

def sessionFrame (id : BitVec 32) (timestamp : Int) : CanFrame where
  header := ⟨id, "vcan0", 0⟩
  payload := []
  timestamp := timestamp

/-- The log is started twice, and frames arrive also before and between the sessions. -/
def sessionRun : List LogDisk.Label :=
  [.frame (sessionFrame 0x1 0), .start 1735689600000000000 0 .opened, .frame (sessionFrame 0x2 7),
    .start 1735689601000000000 0 .opened, .frame (sessionFrame 0x3 5), .stop,
    .frame (sessionFrame 0x4 8), .start 1735689602000000000 0 .opened, .frame (sessionFrame 0x5 9)]

def LogFile.content : LogFile → Option mcap.File
  | .unfinished => none
  | .finished file => some file

def firstPath : String := "/var/log/caneo/caneo_20250101_000000.mcap"

def firstSession : Replay Protobuf.wire where
  hash _ := 0
  file := (((run (LogDisk.step newYearEnv twoEnv.protoRegistry.get) {} sessionRun).files
    firstPath).bind LogFile.content).getD {}
  onFrame := false

def firstThread : PlayThread :=
  run (PlayThread.step (Player.stepAlone firstSession) ["vcan0"])
    (PlayThread.start firstSession.file.messages (PlaybackController.new []))
    (playing (plays 0 10 ++ plays 100 30))

/-- The file of the first session has its two frames. -/
theorem session_files_first :
    firstThread.written ["vcan0"] =
      [(sessionFrame 0x2 7).raw, (sessionFrame 0x3 5).raw].filterMap
        (run_playback.onSend ["vcan0"]) := by
  have hframes : ∀ frame, .frame frame ∈ sessionRun →
      frame.header.interface ∈ twoCfgs.map (·.name) := by
    intro frame hframe
    simp only [sessionRun, List.mem_cons, List.not_mem_nil, or_false, reduceCtorEq, false_or,
      LogDisk.Label.frame.injEq] at hframe
    rcases hframe with rfl | rfl | rfl | rfl | rfl <;> decide
  have hscalars : ∀ topic value now, .scalar topic value now ∈ sessionRun →
      ∃ scriptPath name, topic = ModelEngine.topic scriptPath name := by
    intro topic value now hscalar
    simp [sessionRun] at hscalar
  have haccepts : AcceptsBuiltIn Protobuf.wire := by decide
  have henv : ReceiveEnv.ofConfig BitCasts.zero twoFiles false twoCfgs = .ok twoEnv := rfl
  obtain ⟨-, -, -, hclosed⟩ := session_files haccepts henv twoCfgs_plainNames newYearEnv hframes hscalars
  obtain ⟨x, hx⟩ : ∃ x, ((run (Sessions.step newYearEnv) {} sessionRun).closed.reverse.find? fun x =>
      x.path = firstPath) = some x := Option.isSome_iff_exists.mp (by decide +kernel)
  have hother : ∀ y ∈ (run (Sessions.step newYearEnv) {} sessionRun).current, y.path ≠ firstPath := by
    decide +kernel
  obtain ⟨file, hfile, hreplay⟩ := hclosed firstPath x hx hother
  have hsession : firstSession.file = file :=
    congrArg (fun found => (found.bind LogFile.content).getD {}) hfile
  have hframes : x.frames = [sessionFrame 0x2 7, sessionFrame 0x3 5] := by
    have hsome : ((run (Sessions.step newYearEnv) {} sessionRun).closed.reverse.find? fun x =>
        x.path = firstPath).map LogSession.frames =
          some [sessionFrame 0x2 7, sessionFrame 0x3 5] := by decide +kernel
    rw [hx] at hsome
    exact Option.some.inj hsome
  obtain ⟨frames, horder, hwritten⟩ := hreplay firstSession firstSession.file.messages hsession rfl
    (List.Perm.refl _)
  have hfinished : firstThread.player.stage = .finished := PlayStage.eq_finished (by decide +kernel)
  rw [firstThread] at hfinished ⊢
  rw [(hwritten ["vcan0"] (PlaybackController.new []) (playing (plays 0 10 ++ plays 100 30))).finished
    hfinished, horder.inFileOrder rfl, hframes]
  rfl

end Caneo
