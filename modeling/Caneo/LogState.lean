import Caneo.LogController
import Caneo.LogPaths
import Caneo.Runs

/-!
# What is left of a log that could not be opened

`LogController::start` notes the path of the new log before it opens the file. If the file cannot be
opened, the constructor of `McapLogger` throws, and the path stays: the controller then has a path
and does not log, until `stop` is called or a later start succeeds. All other calls keep the state
that the header describes (`stateOk_step_iff`).
-/

namespace Caneo

open BitField Containers Runs

/-! ### Calls of all methods -/

/-- A call of the controller, also as a `Logger`. -/
inductive ControllerCall (pb : Protobuf) where
  | control (op : LogOp)
  | log (frame : CanFrame) (descriptor : Option (Descriptor pb)) (serialized : Bytes)
      (updateRatioMs : Option ℚ)
  | logScalar (topic : String) (value : ℚ) (now : Int)

namespace LogController

section

variable {pb : Protobuf} (env : LogEnv) (proto : String → Option (ProtoLog pb))

def call (c : LogController) : ControllerCall pb → LogController
  | .control op => op.apply env proto c
  | .log frame descriptor serialized updateRatioMs =>
    c.log frame descriptor serialized updateRatioMs
  | .logScalar topic value now => c.logScalar pb topic value now

/-- The call leaves by an exception. -/
def Throws (c : LogController) : ControllerCall pb → Prop
  | .control (.start _ _ opening) => c.startThrows opening = true
  | _ => False

/-- The state as documented: a path while logging, and no time stamps from an earlier log. -/
structure StateOk (c : LogController) : Prop where
  path : c.currentPath ≠ "" ↔ c.isLogging = true
  lastTs : c.isLogging = false → c.lastTs = UnorderedMap.empty

/-- A call that throws changes nothing. -/
def ThrowsCleanly (c : LogController) (call : ControllerCall pb) : Prop :=
  c.Throws call → c.call env proto call = c

/-- The call does not open a file in vain. -/
def CanOpen (c : LogController) : ControllerCall pb → Prop
  | .control (.start _ _ opening) => c.isLogging = false → opening ≠ .cannotOpen
  | _ => True

instance (c : LogController) (call : ControllerCall pb) : Decidable (c.CanOpen call) :=
  match call with
  | .control (.start ..) => inferInstanceAs (Decidable (_ → _))
  | .control .stop => inferInstanceAs (Decidable True)
  | .control (.logCanFrame _) => inferInstanceAs (Decidable True)
  | .log .. => inferInstanceAs (Decidable True)
  | .logScalar .. => inferInstanceAs (Decidable True)

/-! ### The path -/

theorem joinPath_ne_empty {dir name : String} (h : name ≠ "") : joinPath dir name ≠ "" := by
  unfold joinPath
  split
  · exact fun hpath => h (String.append_eq_empty_iff.mp hpath).2
  · exact fun hpath => h (String.append_eq_empty_iff.mp hpath).2

theorem logName_ne_empty (tm : Tm) : tm.logName ≠ "" := by
  unfold Tm.logName
  intro h
  have hchars := String.toList_inj.mpr h
  rw [String.toList_ofList, String.toList_empty, List.append_eq_nil_iff] at hchars
  have hhead : "caneo_".toList ≠ [] := by decide
  exact hhead hchars.1

/-- A log has a name. -/
theorem makeLogPath_ne_empty (now : Int) : env.makeLogPath now ≠ "" :=
  joinPath_ne_empty (logName_ne_empty _)

/-! ### Single calls -/

theorem stateOk_init : StateOk {} :=
  ⟨iff_of_false (fun hne => hne rfl) (by decide), fun _ => rfl⟩

/-- A call that only hands something to the logger. -/
theorem StateOk.setLogger {c : LogController} (h : c.StateOk) (f : McapLogger → McapLogger) :
    StateOk { c with logger := c.logger.map f } := by
  have hsame : (c.logger.map f).isSome = c.isLogging := Option.isSome_map
  refine ⟨?_, ?_⟩
  · exact h.path.trans (Eq.congr_left hsame.symm)
  · intro hidle
    exact h.lastTs (hsame.symm.trans hidle)

theorem StateOk.logCanFrame {c : LogController} (h : c.StateOk) (frame : CanFrame) :
    (c.logCanFrame proto frame).StateOk := by
  have hlogging := isLogging_logCanFrame proto frame c
  cases hlogger : c.logger with
  | none =>
    have hsame : c.logCanFrame proto frame = c := by simp only [LogController.logCanFrame, hlogger]
    rwa [hsame]
  | some logger =>
    have hpath : (c.logCanFrame proto frame).currentPath = c.currentPath := by
      simp only [LogController.logCanFrame, hlogger]
    refine ⟨?_, ?_⟩
    · rw [hpath, hlogging]
      exact h.path
    · intro hidle
      rw [hlogging, isLogging, hlogger] at hidle
      cases hidle

/-- A start keeps the state in order exactly if it does not stop half way. -/
theorem stateOk_start_iff {c : LogController} (h : c.StateOk) (now steadyNow : Int)
    (opening : Opening) :
    (c.start env now steadyNow opening).StateOk ↔ (c.isLogging = false → opening ≠ .cannotOpen) := by
  cases hlogging : c.isLogging with
  | true =>
    rw [start_of_isLogging hlogging]
    exact iff_of_true h fun hidle => by cases hidle
  | false =>
    unfold start
    rw [if_neg (by rw [hlogging]; decide)]
    cases opening with
    | noDirectory => exact iff_of_true h fun _ hne => by cases hne
    | cannotOpen =>
      apply iff_of_false
      · intro hafter
        have hpath := hafter.path.mp (makeLogPath_ne_empty env now)
        exact absurd hpath (by change c.isLogging ≠ true; rw [hlogging]; decide)
      · exact fun hcan => hcan rfl rfl
    | opened =>
      apply iff_of_true
      · exact ⟨iff_of_true (makeLogPath_ne_empty env now) rfl, fun hidle => by cases hidle⟩
      · exact fun _ hne => by cases hne

theorem stateOk_step_iff {c : LogController} (h : c.StateOk) (call : ControllerCall pb) :
    (c.call env proto call).StateOk ↔ c.CanOpen call := by
  rcases call with (⟨now, steadyNow, opening⟩ | - | frame) | ⟨frame, descriptor, serialized, ratio⟩ |
    ⟨topic, value, now⟩
  · exact stateOk_start_iff env h now steadyNow opening
  · exact iff_of_true stateOk_init trivial
  · exact iff_of_true (h.logCanFrame proto frame) trivial
  · exact iff_of_true (h.setLogger _) trivial
  · exact iff_of_true (h.setLogger _) trivial

/-- A start throws without a trace if the directory cannot be made. -/
theorem throwsCleanly_of_canOpen {c : LogController} {call : ControllerCall pb} (h : c.CanOpen call) :
    c.ThrowsCleanly env proto call := by
  intro hthrows
  rcases call with (⟨now, steadyNow, opening⟩ | _ | _) | _ | _
  · have hthrows : c.startThrows opening = true := hthrows
    rw [startThrows, Bool.and_eq_true, Bool.not_eq_true', decide_eq_true_eq] at hthrows
    obtain ⟨hidle, hopening⟩ := hthrows
    have hcan : opening ≠ .cannotOpen := h hidle
    change c.start env now steadyNow opening = c
    unfold start
    rw [if_neg (by rw [hidle]; decide)]
    cases opening with
    | noDirectory => rfl
    | cannotOpen => exact absurd rfl hcan
    | opened => exact absurd rfl hopening
  · exact hthrows.elim
  · exact hthrows.elim
  · exact hthrows.elim
  · exact hthrows.elim

/-! ### Runs -/

/-- **The state of the controller, when.** For every sequence of calls, whatever the file system
answers to the starts: in every state reached the path is set exactly while a log is open and there
are no time stamps while none is, and every start that throws leaves the state as it was, if and
only if no start, while no log is open, gets as far as a file that cannot be opened. -/
theorem stateOk_run_iff (calls : List (ControllerCall pb)) :
    ((∀ k, (run (call env proto) {} (calls.take k)).StateOk) ∧
        Meets (call env proto) (ThrowsCleanly env proto) {} calls) ↔
      Meets (call env proto) CanOpen {} calls := by
  have hstates : (∀ k, (run (call env proto) {} (calls.take k)).StateOk) ↔
      Meets (call env proto) CanOpen {} calls := by
    apply forall_take_iff (I := fun _ => True) (fun _ _ _ => trivial) _ trivial stateOk_init
    intro c call _ hc
    exact stateOk_step_iff env proto hc call
  rw [hstates]
  apply and_iff_left_of_imp
  exact Meets.mono fun c call => throwsCleanly_of_canOpen env proto

end

/-! ### A directory that cannot be written to -/

/-- The directory of the logs exists, and no file can be made in it. -/
def readOnlyEnv : LogEnv := ⟨some "/mnt/usb", "/", newYear⟩

/-- A start at noon, whose file cannot be opened. -/
def failedStart : ControllerCall Protobuf.wire := .control (.start 1735732800000000000 0 .cannotOpen)

/-- It throws, and leaves a path behind. -/
theorem not_stateOk_failedStart :
    let c := run (call readOnlyEnv fun _ => none) {} [failedStart]
    Throws {} failedStart ∧ c.currentPath = "/mnt/usb/caneo_20250101_120000.mcap" ∧
      c.isLogging = false ∧
      ¬ ((∀ k, (run (call readOnlyEnv fun _ => none) {} ([failedStart].take k)).StateOk) ∧
        Meets (call readOnlyEnv fun _ => none) (ThrowsCleanly readOnlyEnv fun _ => none) {}
          [failedStart]) := by
  intro c
  have hpath : c.currentPath = "/mnt/usb/caneo_20250101_120000.mcap" := by decide +kernel
  have hidle : c.isLogging = false := rfl
  refine ⟨rfl, hpath, hidle, ?_⟩
  rintro ⟨hstates, -⟩
  have hok : c.StateOk := hstates 1
  have hlogging := hok.path.mp (by rw [hpath]; decide)
  rw [hidle] at hlogging
  cases hlogging

end LogController

end Caneo
