import Caneo.BitField
import Caneo.Dbc

/-!
# Actions

`SingleAction`, `PeriodicAction` and `SinPeriodicAction` (`src/action/Action.cpp`) as one record:
the members of the base class, and a `kind` that carries what each derived class adds. `ptr`
stands for the object's identity; its timer bears the same number.

`W` is the state that an action's encode function may read and change (the front end's send
models). Clock readings are seconds, periods and intervals milliseconds.
-/

namespace Caneo

open BitField

structure SinParams (W : Type) where
  interval : Int
  encodeFn : ℚ → W → Bytes × W
  amplitude : ℚ
  sinPeriod : Int
  offset : ℚ
  resumeTime : ℚ
  accumulated : ℚ := 0

inductive Action.Kind (W : Type) where
  | single
  | periodic (period : Int)
  | sin (params : SinParams W)

structure Action (W : Type) where
  ptr : Nat
  interface : String
  msgId : BitVec 64
  msgName : String
  payload : Bytes
  kind : Action.Kind W
  lastSent : ℚ := 0
  everSent : Bool := false
  paused : Bool := false

namespace Action

variable {W : Type}

def isPeriodic (a : Action W) : Bool :=
  match a.kind with
  | .single => false
  | .periodic _ | .sin _ => true

def typeName (a : Action W) : String :=
  match a.kind with
  | .single => "Single"
  | .periodic _ => "Periodic"
  | .sin _ => "Sin"

def period (a : Action W) : Int :=
  match a.kind with
  | .single => 0
  | .periodic period => period
  | .sin params => params.interval

/-- `dynamic_cast<SinPeriodicAction*>`. -/
def sinParams (a : Action W) : Option (SinParams W) :=
  match a.kind with
  | .sin params => some params
  | .single | .periodic _ => none

/-! ### The constructors -/

def newSingle (interface : String) (msgId : BitVec 64) (msgName : String) (payload : Bytes) :
    Action W :=
  { ptr := 0, interface := interface, msgId := msgId, msgName := msgName, payload := payload,
    kind := .single }

def newPeriodic (interface : String) (msgId : BitVec 64) (msgName : String) (payload : Bytes)
    (period : Int) : Action W :=
  { ptr := 0, interface := interface, msgId := msgId, msgName := msgName, payload := payload,
    kind := .periodic period }

def newSin (now : ℚ) (interface : String) (msgId : BitVec 64) (msgName : String) (interval : Int)
    (encodeFn : ℚ → W → Bytes × W) (amplitude : ℚ) (sinPeriod : Int) (offset : ℚ) : Action W :=
  { ptr := 0, interface := interface, msgId := msgId, msgName := msgName, payload := [],
    kind := .sin
      { interval := interval, encodeFn := encodeFn, amplitude := amplitude,
        sinPeriod := sinPeriod, offset := offset, resumeTime := now } }

/-! ### What the methods change in the object

The timer operations that belong to `pause`, `resume` and `schedule` are in `ActionHandler`. -/

def pause (now : ℚ) (a : Action W) : Action W :=
  match a.kind with
  | .sin params =>
    { a with paused := true,
             kind := .sin { params with accumulated := params.accumulated + (now - params.resumeTime) } }
  | .single | .periodic _ => { a with paused := true }

def resume (now : ℚ) (a : Action W) : Action W :=
  match a.kind with
  | .sin params => { a with paused := false, kind := .sin { params with resumeTime := now } }
  | .single | .periodic _ => { a with paused := false }

def setPayload (payload : Bytes) (a : Action W) : Action W := { a with payload := payload }

def sent (now : ℚ) (a : Action W) : Action W := { a with lastSent := now, everSent := true }

@[simp] theorem ptr_pause (now : ℚ) (a : Action W) : (a.pause now).ptr = a.ptr := by
  unfold pause
  split <;> rfl

@[simp] theorem paused_pause (now : ℚ) (a : Action W) : (a.pause now).paused = true := by
  unfold pause
  split <;> rfl

@[simp] theorem ptr_resume (now : ℚ) (a : Action W) : (a.resume now).ptr = a.ptr := by
  unfold resume
  split <;> rfl

@[simp] theorem paused_resume (now : ℚ) (a : Action W) : (a.resume now).paused = false := by
  unfold resume
  split <;> rfl

@[simp] theorem ptr_setPayload (payload : Bytes) (a : Action W) :
    (a.setPayload payload).ptr = a.ptr := rfl

@[simp] theorem paused_setPayload (payload : Bytes) (a : Action W) :
    (a.setPayload payload).paused = a.paused := rfl

@[simp] theorem ptr_sent (now : ℚ) (a : Action W) : (a.sent now).ptr = a.ptr := rfl

@[simp] theorem paused_sent (now : ℚ) (a : Action W) : (a.sent now).paused = a.paused := rfl

end Action

/-! ### The sin value -/

/-- `std::sin`, and `std::numbers::pi` as the rational number its `double` is. -/
structure Trig where
  sin : ℚ → ℚ
  pi : ℚ := 884279719003555 / 281474976710656

/-- `static_cast<long>` of a `double`. C++ leaves the result open where no `long` holds the number;
the processor's conversion gives the least one. -/
def toLong (v : ℚ) : Int :=
  if -2 ^ 63 ≤ truncate v ∧ truncate v < 2 ^ 63 then truncate v else -2 ^ 63

namespace SinParams

variable {W : Type}

def elapsedSeconds (now : ℚ) (p : SinParams W) : ℚ := p.accumulated + (now - p.resumeTime)

def omega (trig : Trig) (p : SinParams W) : ℚ := 2 * trig.pi / (p.sinPeriod / 1000)

/-- The value the timer handler passes to `encode_fn`. -/
def value (trig : Trig) (now : ℚ) (p : SinParams W) : ℚ :=
  p.amplitude * trig.sin (p.omega trig * p.elapsedSeconds now) + p.offset

/-- `update_sin_param` on the object: parameter 0 is the amplitude, 1 the period, 2 the offset. -/
def setParam (param : Int) (value : ℚ) (p : SinParams W) : SinParams W :=
  if param = 0 then { p with amplitude := value }
  else if param = 1 then { p with sinPeriod := toLong value }
  else if param = 2 then { p with offset := value }
  else p

end SinParams

namespace Action

variable {W : Type}

def setSinParam (param : Int) (value : ℚ) (a : Action W) : Action W :=
  match a.kind with
  | .sin params => { a with kind := .sin (params.setParam param value) }
  | .single | .periodic _ => a

@[simp] theorem ptr_setSinParam (param : Int) (value : ℚ) (a : Action W) :
    (a.setSinParam param value).ptr = a.ptr := by
  unfold setSinParam
  split <;> rfl

@[simp] theorem paused_setSinParam (param : Int) (value : ℚ) (a : Action W) :
    (a.setSinParam param value).paused = a.paused := by
  unfold setSinParam
  split <;> rfl

end Action

end Caneo
