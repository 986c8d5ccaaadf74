import Caneo.Action
import Caneo.EventLoop
import Caneo.Runs

/-!
# `ActionHandler`

The list of actions, owned by the io thread, and the requests other threads post to it
(`src/action/ActionHandler.cpp`). The timer handlers of the actions run on the same thread
(`src/action/Action.cpp`), so the whole component is a transition system over the event loop:

* a `request` posts a closure;
* `expire` lets a timer expire;
* `run` executes the handler at the head of the queue, given the clock readings it will see and
  whether a send it makes throws.

A timer handler holds a raw `this`. If its action has been erased it would use a dangling pointer;
such a run of a handler is recorded in `dangling`. An exception from a send leaves `io.run()`
and ends the process (`terminated`).
-/

namespace Caneo

open BitField EventLoop

/-- The closures posted by the public methods. -/
inductive Request (W : Type) where
  | addAction (action : Action W)
  | addActionPaused (action : Action W)
  | removeAction (idx : Nat)
  | togglePause (idx : Nat)
  | updateSinParam (idx : Nat) (param : Int) (value : ℚ)
  | updatePayload (idx : Nat) (payload : Bytes)

/-- The object that `add_action` or `add_action_paused` was given gets its identity. -/
def Request.allocate {W : Type} (ptr : Nat) : Request W → Request W × Nat
  | .addAction a => (.addAction { a with ptr := ptr }, ptr + 1)
  | .addActionPaused a => (.addActionPaused { a with ptr := ptr }, ptr + 1)
  | r => (r, ptr)

def Request.index {W : Type} : Request W → Option Nat
  | .addAction _ | .addActionPaused _ => none
  | .removeAction idx | .togglePause idx | .updateSinParam idx _ _ | .updatePayload idx _ =>
    some idx

structure ActionInfo where
  idx : Nat
  msgId : BitVec 64
  msgName : String
  typeName : String
  interface : String
  isPeriodic : Bool
  paused : Bool
  sinAmplitude : ℚ
  sinPeriodMs : Int
  sinOffset : ℚ
  period : Int
  lastSent : ℚ
  everSent : Bool
deriving DecidableEq

/-- A call of `send_fn`, with the action that made it. -/
structure SendCall where
  ptr : Nat
  interface : String
  id : BitVec 64
  data : Bytes
  failed : Bool
deriving DecidableEq

def SendCall.ofAction {W : Type} (a : Action W) (failed : Bool) : SendCall where
  ptr := a.ptr
  interface := a.interface
  id := a.msgId
  data := a.payload
  failed := failed

structure ActionHandler (W : Type) where
  loop : Loop (Request W) := {}
  actions : List (Action W) := []
  snapshot : List ActionInfo := []
  world : W
  nextPtr : Nat := 0
  calls : List SendCall := []
  dangling : List Nat := []
  terminated : Bool := false

/-- What the outside world answers while one handler runs. -/
structure Tick where
  now : ℚ
  sentAt : ℚ
  throws : Bool := false

inductive ActionHandler.Label (W : Type) where
  | request (r : Request W)
  | expire (timer : Nat)
  | run (tick : Tick)

def ActionInfo.ofAction {W : Type} (idx : Nat) (a : Action W) : ActionInfo where
  idx := idx
  msgId := a.msgId
  msgName := a.msgName
  typeName := a.typeName
  interface := a.interface
  isPeriodic := a.isPeriodic
  paused := a.paused
  sinAmplitude := (a.sinParams.map (·.amplitude)).getD 0
  sinPeriodMs := (a.sinParams.map (·.sinPeriod)).getD 0
  sinOffset := (a.sinParams.map (·.offset)).getD 0
  period := a.period
  lastSent := a.lastSent
  everSent := a.everSent

namespace ActionHandler

variable {W : Type}

def init (world : W) : ActionHandler W := { world := world }

def rebuildSnapshot (h : ActionHandler W) : ActionHandler W :=
  { h with snapshot := h.actions.mapIdx ActionInfo.ofAction }

/-- Change the object `ptr` points to. -/
def modify (h : ActionHandler W) (ptr : Nat) (f : Action W → Action W) : ActionHandler W :=
  { h with actions := h.actions.map fun a => if a.ptr = ptr then f a else a }

def find (h : ActionHandler W) (ptr : Nat) : Option (Action W) :=
  h.actions.find? fun a => a.ptr = ptr

def pushBack (h : ActionHandler W) (a : Action W) : ActionHandler W :=
  { h with actions := h.actions ++ [a] }

/-! ### Methods of an action -/

/-- `schedule`, of all three classes. -/
def schedule (h : ActionHandler W) (ptr : Nat) : ActionHandler W :=
  { h with loop := (h.loop.expiresAfter ptr).asyncWait ptr }

def cancel (h : ActionHandler W) (ptr : Nat) : ActionHandler W :=
  { h with loop := h.loop.cancel ptr }

def pause (h : ActionHandler W) (now : ℚ) (ptr : Nat) : ActionHandler W :=
  (h.modify ptr (Action.pause now)).cancel ptr

def resume (h : ActionHandler W) (now : ℚ) (ptr : Nat) : ActionHandler W :=
  (h.modify ptr (Action.resume now)).schedule ptr

/-- `fire`: call `send_fn`; unless it throws, note the time and let `on_action_fired` rebuild the
snapshot. -/
def fire (tick : Tick) (h : ActionHandler W) (a : Action W) : ActionHandler W :=
  let called := { h with calls := h.calls ++ [SendCall.ofAction a tick.throws] }
  if tick.throws then { called with terminated := true }
  else (called.modify a.ptr (Action.sent tick.sentAt)).rebuildSnapshot

def onActionDone (h : ActionHandler W) (ptr : Nat) : ActionHandler W :=
  rebuildSnapshot
    { h with actions := h.actions.filter (fun a => a.ptr ≠ ptr), loop := h.loop.destroy ptr }

/-- The sin timer handler's first half: encode the new value into the payload. -/
def encodeSin (trig : Trig) (tick : Tick) (h : ActionHandler W) (a : Action W) (p : SinParams W) :
    ActionHandler W × Action W :=
  let encoded := p.encodeFn (p.value trig tick.now) h.world
  (modify { h with world := encoded.2 } a.ptr (Action.setPayload encoded.1),
    a.setPayload encoded.1)

/-! ### Handlers -/

def runAddAction (h : ActionHandler W) (a : Action W) : ActionHandler W :=
  ((h.pushBack a).schedule a.ptr).rebuildSnapshot

def runAddActionPaused (now : ℚ) (h : ActionHandler W) (a : Action W) : ActionHandler W :=
  (((h.pushBack a).schedule a.ptr).pause now a.ptr).rebuildSnapshot

def runRemoveAction (h : ActionHandler W) (idx : Nat) : ActionHandler W :=
  match h.actions[idx]? with
  | none => h
  | some a =>
    let cancelled := h.cancel a.ptr
    rebuildSnapshot
      { cancelled with actions := h.actions.eraseIdx idx, loop := cancelled.loop.destroy a.ptr }

def runTogglePause (now : ℚ) (h : ActionHandler W) (idx : Nat) : ActionHandler W :=
  match h.actions[idx]? with
  | none => h
  | some a => (if a.paused then h.resume now a.ptr else h.pause now a.ptr).rebuildSnapshot

def runUpdateSinParam (h : ActionHandler W) (idx : Nat) (param : Int) (value : ℚ) :
    ActionHandler W :=
  match h.actions[idx]? with
  | none => h
  | some a =>
    match a.sinParams with
    | none => h
    | some _ => (h.modify a.ptr (Action.setSinParam param value)).rebuildSnapshot

def runUpdatePayload (h : ActionHandler W) (idx : Nat) (payload : Bytes) : ActionHandler W :=
  match h.actions[idx]? with
  | none => h
  | some a => h.modify a.ptr (Action.setPayload payload)

def runRequest (tick : Tick) (h : ActionHandler W) : Request W → ActionHandler W
  | .addAction a => h.runAddAction a
  | .addActionPaused a => h.runAddActionPaused tick.now a
  | .removeAction idx => h.runRemoveAction idx
  | .togglePause idx => h.runTogglePause tick.now idx
  | .updateSinParam idx param value => h.runUpdateSinParam idx param value
  | .updatePayload idx payload => h.runUpdatePayload idx payload

/-- The three lambdas passed to `async_wait`, for a success code and a live action. -/
def runTimer (trig : Trig) (tick : Tick) (h : ActionHandler W) (a : Action W) : ActionHandler W :=
  match a.kind with
  | .single =>
    let fired := h.fire tick a
    if tick.throws then fired else fired.onActionDone a.ptr
  | .periodic _ =>
    let fired := h.fire tick a
    if tick.throws then fired else fired.schedule a.ptr
  | .sin p =>
    let encoded := h.encodeSin trig tick a p
    let fired := encoded.1.fire tick encoded.2
    if tick.throws then fired else fired.schedule a.ptr

def runReady (trig : Trig) (tick : Tick) (h : ActionHandler W) : Ready (Request W) →
    ActionHandler W
  | .posted r => h.runRequest tick r
  | .completion _ true => h
  | .completion ptr false =>
    match h.find ptr with
    | none => { h with dangling := h.dangling ++ [ptr] }
    | some a => h.runTimer trig tick a

/-! ### Steps -/

def step (trig : Trig) (h : ActionHandler W) (l : Label W) : ActionHandler W :=
  if h.terminated then h else
    match l with
    | .request r =>
      let (r, nextPtr) := Request.allocate h.nextPtr r
      { h with loop := h.loop.post r, nextPtr := nextPtr }
    | .expire timer => { h with loop := h.loop.expire timer }
    | .run tick =>
      match h.loop.ready with
      | [] => h
      | x :: rest => runReady trig tick { h with loop := h.loop.popped rest } x

/-! ### What the handlers do -/

/-- What the closure of a request does. -/
inductive RequestEffect (tick : Tick) (h : ActionHandler W) : Request W → ActionHandler W → Prop where
  | added (a : Action W) :
      RequestEffect tick h (.addAction a) ((h.pushBack a).schedule a.ptr).rebuildSnapshot
  | addedPaused (a : Action W) : RequestEffect tick h (.addActionPaused a)
      (((h.pushBack a).schedule a.ptr).pause tick.now a.ptr).rebuildSnapshot
  | missed (r : Request W) (idx : Nat) (hidx : r.index = some idx)
      (hget : h.actions[idx]? = none) : RequestEffect tick h r h
  | removed (idx : Nat) (a : Action W) (hget : h.actions[idx]? = some a) :
      RequestEffect tick h (.removeAction idx) (rebuildSnapshot { h.cancel a.ptr with
        actions := h.actions.eraseIdx idx, loop := (h.cancel a.ptr).loop.destroy a.ptr })
  | resumed (idx : Nat) (a : Action W) (hget : h.actions[idx]? = some a)
      (hpaused : a.paused = true) :
      RequestEffect tick h (.togglePause idx) (h.resume tick.now a.ptr).rebuildSnapshot
  | paused (idx : Nat) (a : Action W) (hget : h.actions[idx]? = some a)
      (hrunning : a.paused = false) :
      RequestEffect tick h (.togglePause idx) (h.pause tick.now a.ptr).rebuildSnapshot
  | constant (idx : Nat) (param : Int) (value : ℚ) (a : Action W)
      (hget : h.actions[idx]? = some a) (hsin : a.sinParams = none) :
      RequestEffect tick h (.updateSinParam idx param value) h
  | sinParam (idx : Nat) (param : Int) (value : ℚ) (a : Action W)
      (hget : h.actions[idx]? = some a) (hsin : a.sinParams ≠ none) :
      RequestEffect tick h (.updateSinParam idx param value)
        (h.modify a.ptr (Action.setSinParam param value)).rebuildSnapshot
  | payload (idx : Nat) (payload : Bytes) (a : Action W) (hget : h.actions[idx]? = some a) :
      RequestEffect tick h (.updatePayload idx payload) (h.modify a.ptr (Action.setPayload payload))

theorem requestEffect_runRequest (tick : Tick) (h : ActionHandler W) (r : Request W) :
    RequestEffect tick h r (runRequest tick h r) := by
  cases r with
  | addAction a => exact .added a
  | addActionPaused a => exact .addedPaused a
  | removeAction idx =>
    rw [runRequest, runRemoveAction]
    split
    · next hget => exact .missed _ idx rfl hget
    · next a hget => exact .removed idx a hget
  | togglePause idx =>
    rw [runRequest, runTogglePause]
    split
    · next hget => exact .missed _ idx rfl hget
    · next a hget =>
      split
      · next hpaused => exact .resumed idx a hget hpaused
      · next hrunning => exact .paused idx a hget (Bool.eq_false_of_not_eq_true hrunning)
  | updateSinParam idx param value =>
    rw [runRequest, runUpdateSinParam]
    split
    · next hget => exact .missed _ idx rfl hget
    · next a hget =>
      split
      · next hsin => exact .constant idx param value a hget hsin
      · next p hsin => exact .sinParam idx param value a hget (by simp [hsin])
  | updatePayload idx payload =>
    rw [runRequest, runUpdatePayload]
    split
    · next hget => exact .missed _ idx rfl hget
    · next a hget => exact .payload idx payload a hget

/-- With which state and action a timer handler comes to send: a sin action's has encoded before. -/
inductive ReadyToSend (trig : Trig) (tick : Tick) (h : ActionHandler W) (a : Action W) :
    ActionHandler W → Action W → Prop where
  | constant (hsin : a.sinParams = none) : ReadyToSend trig tick h a h a
  | encoded (p : SinParams W) (hsin : a.sinParams = some p) :
      ReadyToSend trig tick h a (h.encodeSin trig tick a p).1 (h.encodeSin trig tick a p).2

/-- What a timer handler does. -/
inductive TimerEffect (trig : Trig) (tick : Tick) (h : ActionHandler W) (a : Action W) :
    ActionHandler W → Prop where
  | failed (g : ActionHandler W) (b : Action W) (hready : ReadyToSend trig tick h a g b)
      (hthrows : tick.throws = true) : TimerEffect trig tick h a (g.fire tick b)
  | done (hsin : a.sinParams = none) (hkind : a.kind = .single) (hsent : tick.throws = false) :
      TimerEffect trig tick h a ((h.fire tick a).onActionDone a.ptr)
  | rearmed (g : ActionHandler W) (b : Action W) (hready : ReadyToSend trig tick h a g b)
      (hkind : a.kind ≠ .single) (hsent : tick.throws = false) :
      TimerEffect trig tick h a ((g.fire tick b).schedule a.ptr)

theorem timerEffect_runTimer (trig : Trig) (tick : Tick) (h : ActionHandler W) (a : Action W) :
    TimerEffect trig tick h a (runTimer trig tick h a) := by
  cases hkind : a.kind with
  | single =>
    have hsin : a.sinParams = none := by rw [Action.sinParams, hkind]
    rw [runTimer, hkind]
    dsimp only
    split
    · next hthrows => exact .failed h a (.constant hsin) hthrows
    · next hsent => exact .done hsin hkind (Bool.eq_false_of_not_eq_true hsent)
  | periodic period =>
    have hsin : a.sinParams = none := by rw [Action.sinParams, hkind]
    rw [runTimer, hkind]
    dsimp only
    split
    · next hthrows => exact .failed h a (.constant hsin) hthrows
    · next hsent =>
      exact .rearmed h a (.constant hsin) (by simp [hkind]) (Bool.eq_false_of_not_eq_true hsent)
  | sin p =>
    have hsin : a.sinParams = some p := by rw [Action.sinParams, hkind]
    rw [runTimer, hkind]
    dsimp only
    split
    · next hthrows => exact .failed _ _ (.encoded p hsin) hthrows
    · next hsent =>
      exact .rearmed _ _ (.encoded p hsin) (by simp [hkind]) (Bool.eq_false_of_not_eq_true hsent)

/-! ### What each method leaves alone -/

section Frame

variable (h : ActionHandler W)

@[simp] theorem loop_rebuildSnapshot : h.rebuildSnapshot.loop = h.loop := rfl
@[simp] theorem actions_rebuildSnapshot : h.rebuildSnapshot.actions = h.actions := rfl
@[simp] theorem calls_rebuildSnapshot : h.rebuildSnapshot.calls = h.calls := rfl
@[simp] theorem nextPtr_rebuildSnapshot : h.rebuildSnapshot.nextPtr = h.nextPtr := rfl
@[simp] theorem dangling_rebuildSnapshot : h.rebuildSnapshot.dangling = h.dangling := rfl

variable (ptr : Nat) (f : Action W → Action W)

@[simp] theorem loop_modify : (h.modify ptr f).loop = h.loop := rfl
@[simp] theorem calls_modify : (h.modify ptr f).calls = h.calls := rfl
@[simp] theorem nextPtr_modify : (h.modify ptr f).nextPtr = h.nextPtr := rfl
@[simp] theorem dangling_modify : (h.modify ptr f).dangling = h.dangling := rfl

@[simp] theorem loop_pushBack (a : Action W) : (h.pushBack a).loop = h.loop := rfl
@[simp] theorem calls_pushBack (a : Action W) : (h.pushBack a).calls = h.calls := rfl
@[simp] theorem nextPtr_pushBack (a : Action W) : (h.pushBack a).nextPtr = h.nextPtr := rfl
@[simp] theorem dangling_pushBack (a : Action W) : (h.pushBack a).dangling = h.dangling := rfl

@[simp] theorem loop_schedule :
    (h.schedule ptr).loop = (h.loop.expiresAfter ptr).asyncWait ptr := rfl
@[simp] theorem actions_schedule : (h.schedule ptr).actions = h.actions := rfl
@[simp] theorem calls_schedule : (h.schedule ptr).calls = h.calls := rfl
@[simp] theorem nextPtr_schedule : (h.schedule ptr).nextPtr = h.nextPtr := rfl
@[simp] theorem dangling_schedule : (h.schedule ptr).dangling = h.dangling := rfl

@[simp] theorem loop_cancel : (h.cancel ptr).loop = h.loop.cancel ptr := rfl
@[simp] theorem actions_cancel : (h.cancel ptr).actions = h.actions := rfl
@[simp] theorem calls_cancel : (h.cancel ptr).calls = h.calls := rfl
@[simp] theorem nextPtr_cancel : (h.cancel ptr).nextPtr = h.nextPtr := rfl
@[simp] theorem dangling_cancel : (h.cancel ptr).dangling = h.dangling := rfl

variable (tick : Tick) (a : Action W)

@[simp] theorem loop_fire : (fire tick h a).loop = h.loop := by
  unfold fire; dsimp only; split <;> rfl
@[simp] theorem nextPtr_fire : (fire tick h a).nextPtr = h.nextPtr := by
  unfold fire; dsimp only; split <;> rfl
@[simp] theorem dangling_fire : (fire tick h a).dangling = h.dangling := by
  unfold fire; dsimp only; split <;> rfl
@[simp] theorem calls_fire :
    (fire tick h a).calls = h.calls ++ [SendCall.ofAction a tick.throws] := by
  unfold fire; dsimp only; split <;> rfl

end Frame

/-! ### Identities and paused flags -/

def ptrs (h : ActionHandler W) : List Nat := h.actions.map (·.ptr)

/-- Every action with its paused flag. -/
def flags (h : ActionHandler W) : List (Nat × Bool) := h.actions.map fun a => (a.ptr, a.paused)

theorem map_fst_flags (h : ActionHandler W) : h.flags.map Prod.fst = h.ptrs := by
  simp [flags, ptrs]

@[simp] theorem flags_rebuildSnapshot (h : ActionHandler W) :
    h.rebuildSnapshot.flags = h.flags := rfl

@[simp] theorem flags_pushBack (h : ActionHandler W) (a : Action W) :
    (h.pushBack a).flags = h.flags ++ [(a.ptr, a.paused)] := by
  simp [flags, pushBack]

@[simp] theorem flags_schedule (h : ActionHandler W) (ptr : Nat) :
    (h.schedule ptr).flags = h.flags := rfl

@[simp] theorem flags_cancel (h : ActionHandler W) (ptr : Nat) :
    (h.cancel ptr).flags = h.flags := rfl

/-- Set the paused flag of one action. -/
def setFlag (ptr : Nat) (paused : Bool) (flags : List (Nat × Bool)) : List (Nat × Bool) :=
  flags.map fun x => if x.1 = ptr then (ptr, paused) else x

@[simp] theorem map_fst_setFlag (ptr : Nat) (paused : Bool) (flags : List (Nat × Bool)) :
    (setFlag ptr paused flags).map Prod.fst = flags.map Prod.fst := by
  rw [setFlag, List.map_map]
  apply List.map_congr_left
  intro x _
  by_cases hx : x.1 = ptr <;> simp [hx]

theorem flags_modify_keep (h : ActionHandler W) (ptr : Nat) {f : Action W → Action W}
    (hptr : ∀ a, (f a).ptr = a.ptr) (hpaused : ∀ a, (f a).paused = a.paused) :
    (h.modify ptr f).flags = h.flags := by
  rw [flags, flags, modify, List.map_map]
  apply List.map_congr_left
  intro a _
  by_cases ha : a.ptr = ptr <;> simp [ha, hptr, hpaused]

theorem flags_modify_set (h : ActionHandler W) (ptr : Nat) {f : Action W → Action W}
    {paused : Bool} (hptr : ∀ a, (f a).ptr = a.ptr) (hpaused : ∀ a, (f a).paused = paused) :
    (h.modify ptr f).flags = setFlag ptr paused h.flags := by
  rw [flags, flags, modify, setFlag, List.map_map, List.map_map]
  apply List.map_congr_left
  intro a _
  by_cases ha : a.ptr = ptr <;> simp [ha, hptr, hpaused]

@[simp] theorem flags_fire (tick : Tick) (h : ActionHandler W) (a : Action W) :
    (fire tick h a).flags = h.flags := by
  unfold fire
  dsimp only
  split
  · rfl
  · rw [flags_rebuildSnapshot, flags_modify_keep _ _ (Action.ptr_sent _) (Action.paused_sent _)]
    rfl

@[simp] theorem flags_pause (now : ℚ) (h : ActionHandler W) (ptr : Nat) :
    (h.pause now ptr).flags = setFlag ptr true h.flags := by
  rw [pause, flags_cancel, flags_modify_set _ _ (Action.ptr_pause now) (Action.paused_pause now)]

@[simp] theorem flags_resume (now : ℚ) (h : ActionHandler W) (ptr : Nat) :
    (h.resume now ptr).flags = setFlag ptr false h.flags := by
  rw [resume, flags_schedule,
    flags_modify_set _ _ (Action.ptr_resume now) (Action.paused_resume now)]

@[simp] theorem flags_onActionDone (h : ActionHandler W) (ptr : Nat) :
    (h.onActionDone ptr).flags = h.flags.filter fun x => x.1 ≠ ptr := by
  simp [onActionDone, flags, List.filter_map, Function.comp_def]

/-! ### Before a timer handler sends -/

namespace ReadyToSend

variable {trig : Trig} {tick : Tick} {h g : ActionHandler W} {a b : Action W}

theorem flags (hready : ReadyToSend trig tick h a g b) : g.flags = h.flags := by
  cases hready with
  | constant hsin => rfl
  | encoded p hsin =>
    exact flags_modify_keep _ _ (Action.ptr_setPayload _) (Action.paused_setPayload _)

theorem loop (hready : ReadyToSend trig tick h a g b) : g.loop = h.loop := by
  cases hready <;> rfl

theorem nextPtr (hready : ReadyToSend trig tick h a g b) : g.nextPtr = h.nextPtr := by
  cases hready <;> rfl

theorem calls (hready : ReadyToSend trig tick h a g b) : g.calls = h.calls := by
  cases hready <;> rfl

theorem dangling (hready : ReadyToSend trig tick h a g b) : g.dangling = h.dangling := by
  cases hready <;> rfl

theorem ptr (hready : ReadyToSend trig tick h a g b) : b.ptr = a.ptr := by
  cases hready <;> rfl

end ReadyToSend

theorem mem_flags_of_find {h : ActionHandler W} {ptr : Nat} {a : Action W}
    (hfind : h.find ptr = some a) : a.ptr = ptr ∧ (a.ptr, a.paused) ∈ h.flags := by
  have hptr : a.ptr = ptr := by simpa using List.find?_some hfind
  exact ⟨hptr, List.mem_map_of_mem (List.mem_of_find?_eq_some hfind)⟩

theorem find_eq_none_iff {h : ActionHandler W} {ptr : Nat} :
    h.find ptr = none ↔ ptr ∉ h.ptrs := by
  simp [find, ptrs]

end ActionHandler

end Caneo
