import Caneo.McapLogger

/-!
# `LogController`

The log that is started and stopped at run time (`src/logger/LogController.cpp`), and the name of
its file (`AppConfig::make_log_path`). All methods hold the controller's mutex, so each is one step.

Every start opens a new file whose name is the local time in seconds. Making the directory or
opening the file may fail; then `start` throws, in the second case after the path has been set.
-/

namespace Caneo

open BitField Containers

/-! ### The name of the file -/

/-- A broken-down time, with the month counted from 0. -/
structure Tm where
  year : Nat
  mon : Fin 12
  mday : Fin 32
  hour : Fin 24
  min : Fin 60
  sec : Fin 61
deriving DecidableEq

/-- `%m`, `%d` and so on -/
def twoDigits (n : Nat) : List Char := [(n / 10).digitChar, (n % 10).digitChar]

/-- `caneo_%Y%m%d_%H%M%S.mcap`; with years of four digits it fits into the buffer of 32 bytes. -/
def Tm.logName (tm : Tm) : String :=
  String.ofList ("caneo_".toList ++ (Nat.toDigits 10 tm.year ++ (twoDigits (tm.mon + 1) ++
    twoDigits tm.mday ++ ['_'] ++ twoDigits tm.hour ++ twoDigits tm.min ++ twoDigits tm.sec ++
    ".mcap".toList)))

/-- `system_clock::to_time_t` of a time in nanoseconds. -/
def toTimeT (now : Int) : Int := now.tdiv 1000000000

/-- `dir / name`, for a name without slashes -/
def joinPath (dir name : String) : String :=
  if dir.toList.getLast?.all (· = '/') then dir ++ name else dir ++ "/" ++ name

/-- What the name of a log depends on besides the clock: the configuration, the working directory
and the time zone. -/
structure LogEnv where
  logFilePath : Option String
  currentPath : String
  localtime : Int → Tm

def LogEnv.makeLogPath (env : LogEnv) (now : Int) : String :=
  joinPath (env.logFilePath.getD env.currentPath) (env.localtime (toTimeT now)).logName

/-! ### The controller -/

/-- Times are in nanoseconds; that of the start is read from another clock. -/
structure LogController where
  logger : Option McapLogger := none
  currentPath : String := ""
  logStartTime : Int := 0
  lastTs : UnorderedMap (String × BitVec 32) Int := UnorderedMap.empty

/-- What the file system answers to a start. -/
inductive Opening where
  | noDirectory
  | cannotOpen
  | opened
deriving DecidableEq

namespace LogController

def isLogging (c : LogController) : Bool := c.logger.isSome

/-- If `opening` is not `opened`, an exception leaves the method. -/
def start (env : LogEnv) (now steadyNow : Int) (opening : Opening) (c : LogController) :
    LogController :=
  if c.isLogging then c
  else match opening with
    | .noDirectory => c
    | .cannotOpen => { c with currentPath := env.makeLogPath now }
    | .opened =>
      { c with logger := some {}, currentPath := env.makeLogPath now, logStartTime := steadyNow }

def startThrows (opening : Opening) (c : LogController) : Bool :=
  !c.isLogging && opening ≠ .opened

def stop (_ : LogController) : LogController := {}

def elapsedSeconds (steadyNow : Int) (c : LogController) : ℚ :=
  if c.isLogging then ((steadyNow - c.logStartTime : Int) : ℚ) / 1000000000 else 0

/-- `proto` is the `ProtoLogRegistry`: the logs of the interfaces that have a DBC. -/
def logCanFrame {pb : Protobuf} (proto : String → Option (ProtoLog pb)) (frame : CanFrame)
    (c : LogController) : LogController :=
  match c.logger with
  | none => c
  | some logger =>
    let protoLog := proto frame.header.interface
    let desc := protoLog.bind fun log => log.descriptor (frame.header.id.setWidth 64)
    let serialized := protoLog.elim [] fun log => log.serialize frame
    let key := (frame.header.interface, frame.header.id)
    let ratioMs := (c.lastTs key).map fun last =>
      ((frame.timestamp - last : Int) : ℚ) / 1000000
    { c with
      logger := some (logger.log frame desc serialized ratioMs)
      lastTs := c.lastTs.set key frame.timestamp }

def log {pb : Protobuf} (frame : CanFrame) (descriptor : Option (Descriptor pb))
    (serialized : Bytes) (updateRatioMs : Option ℚ) (c : LogController) : LogController :=
  { c with logger := c.logger.map fun logger =>
      logger.log frame descriptor serialized updateRatioMs }

def logScalar (pb : Protobuf) (topic : String) (value : ℚ) (now : Int) (c : LogController) :
    LogController :=
  { c with logger := c.logger.map fun logger => McapLogger.logScalar pb logger topic value now }

/-! ### What the methods change -/

@[simp] theorem isLogging_stop (c : LogController) : c.stop.isLogging = false := rfl

@[simp] theorem currentPath_stop (c : LogController) : c.stop.currentPath = "" := rfl

theorem start_of_isLogging {c : LogController} (h : c.isLogging = true) (env : LogEnv)
    (now steadyNow : Int) (opening : Opening) : c.start env now steadyNow opening = c := by
  unfold start
  rw [if_pos h]

@[simp] theorem isLogging_start (env : LogEnv) (now steadyNow : Int) (opening : Opening)
    (c : LogController) :
    (c.start env now steadyNow opening).isLogging = (c.isLogging || opening = .opened) := by
  cases h : c.isLogging with
  | true => rw [start_of_isLogging h, h, Bool.true_or]
  | false =>
    unfold start
    rw [if_neg (by rw [h]; decide)]
    cases opening with
    | noDirectory => exact h
    | cannotOpen => exact h
    | opened => rfl

@[simp] theorem isLogging_logCanFrame {pb : Protobuf} (proto : String → Option (ProtoLog pb))
    (frame : CanFrame) (c : LogController) :
    (c.logCanFrame proto frame).isLogging = c.isLogging := by
  unfold logCanFrame isLogging
  split
  · rfl
  · next logger hlogger => rw [hlogger]; rfl

end LogController

/-! ### Calls -/

/-- A call of the controller, with the clock readings and the answer of the file system. -/
inductive LogOp where
  | start (now steadyNow : Int) (opening : Opening)
  | stop
  | logCanFrame (frame : CanFrame)

def LogOp.apply {pb : Protobuf} (env : LogEnv) (proto : String → Option (ProtoLog pb)) (op : LogOp)
    (c : LogController) : LogController :=
  match op with
  | .start now steadyNow opening => c.start env now steadyNow opening
  | .stop => c.stop
  | .logCanFrame frame => c.logCanFrame proto frame

end Caneo
