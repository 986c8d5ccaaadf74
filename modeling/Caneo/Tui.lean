import Caneo.CanFrame
import Caneo.FrontEnd
import Mathlib.Data.List.Sort

/-!
# `TuiDataFrameSet`

The text user interface (`src/gui/TuiDataFrameSet.cpp`): its state, and what the lambda passed to
`CatchEvent` does with a key. The lambda is a cascade of editors, shortcuts and views; each of them
is a definition here, in the order of the source, and `onEvent` is the cascade. Whether an event
was handled (the lambda's result) only tells ftxui to go on looking for a component, so it is left
out, as is everything that is only drawn.

The state contains the action handler, whose world are the TUI's `send_models_`. A step is a key,
a frame from a socket, or a move of the io thread.
-/

namespace Caneo

open BitField EventLoop Runs Containers

inductive Event where
  | Return
  | Escape
  | Backspace
  | Delete
  | ArrowLeft
  | ArrowRight
  | ArrowUp
  | ArrowDown
  | Character (c : Char)
  | Other
deriving DecidableEq

inductive PeriodicStep where
  | None
  | Period
  | TypeSelect
  | SinAmplitude
  | SinPeriod
  | SinOffset
  | SinReady
deriving DecidableEq

/-! ### The playback controller -/

structure PlaybackController where
  states : List (String × Bool)
  messages : UnorderedMap String (List (String × Bool))

namespace PlaybackController

def new (interfaces : List String) : PlaybackController where
  states := interfaces.map fun iface => (iface, false)
  messages := UnorderedMap.empty

def setMessages (ctrl : PlaybackController) (iface : String) (names : List String) :
    PlaybackController :=
  { ctrl with messages := ctrl.messages.set iface (names.map fun n => (n, true)) }

def toggle (ctrl : PlaybackController) (iface : String) : PlaybackController :=
  match ctrl.states.findIdx? fun p => p.1 = iface with
  | none => ctrl
  | some i => { ctrl with states := ctrl.states.modify i fun p => (p.1, !p.2) }

/-- Index 0 stands for all messages, and the messages count from 1. -/
def toggleMessage (ctrl : PlaybackController) (iface : String) (idx : Nat) : PlaybackController :=
  match ctrl.messages iface with
  | none => ctrl
  | some names =>
    let toggled :=
      if idx = 0 then
        let any := names.any (·.2)
        names.map fun p => (p.1, !any)
      else names.modify (idx - 1) fun p => (p.1, !p.2)
    { ctrl with messages := ctrl.messages.set iface toggled }

def messageSnapshot (ctrl : PlaybackController) (iface : String) : List (String × Bool) :=
  (ctrl.messages iface).getD []

end PlaybackController

/-! ### The state -/

/-- `sets` has the interfaces from which frames came, in order, and the ids of these frames. -/
structure TuiDataFrameSet where
  interfaces : List String
  handler : ActionHandler SendModels
  playbackCtrl : Option PlaybackController := .none
  modelTabEnabled : Bool := false
  exited : Bool := false
  navLevel : Nat := 0
  mainTab : Nat := 0
  playbackCursor : Nat := 0
  playbackMsgCursor : Nat := 0
  subTabTrace : Nat := 0
  subTabSend : Nat := 0
  sendMsgCursor : Nat := 0
  sendSigCursor : Nat := 0
  actionsCursor : Nat := 0
  actionsSigCursor : Nat := 0
  sendEditing : Bool := false
  sendEditBuf : String := ""
  actionsEditing : Bool := false
  actionsEditBuf : String := ""
  periodicStep : PeriodicStep := .None
  periodicIntervalBuf : String := ""
  periodicIntervalMs : Int := 0
  periodicTypeCursor : Nat := 0
  sinAmplitudeBuf : String := ""
  sinPeriodBuf : String := ""
  sinOffsetBuf : String := ""
  traceSearching : Bool := false
  traceSearchBuf : List UInt8 := []
  traceCursor : Nat := 0
  sets : List (String × List (BitVec 32)) := []

inductive TuiDataFrameSet.Label where
  | key (event : Event) (now : ℚ)
  | frame (frame : CanFrame)
  | expire (timer : Nat)
  | run (tick : Tick)

namespace TuiDataFrameSet

def models (t : TuiDataFrameSet) : SendModels := t.handler.world

def snapshot (t : TuiDataFrameSet) : List ActionInfo := t.handler.snapshot

def playbackTabIdx (t : TuiDataFrameSet) : Nat := if t.modelTabEnabled then 4 else 3

/-- `pop_back`, on a buffer of ASCII characters. -/
def popBack (buf : String) : String := String.ofList buf.toList.dropLast

def setValue (t : TuiDataFrameSet) (i mi k : Nat) (v : ℚ) : TuiDataFrameSet :=
  { t with handler := { t.handler with world := t.models.setValue i mi k v } }

/-! ### The selected message -/

def selectedSendIface (t : TuiDataFrameSet) : String :=
  ((clampCursor t.subTabSend t.interfaces.length).bind fun i => t.interfaces[i]?).getD ""

/-- The selected model, by its position, and its messages. -/
def selectedSendModel (t : TuiDataFrameSet) : Option (Nat × List SendMessage) :=
  (t.models.find t.selectedSendIface).bind fun i =>
    (t.models.model i).map fun model => (i, model.messages)

/-- The model and the message under the cursor, by their positions, and the message. -/
def selectedMsg (t : TuiDataFrameSet) : Option (Nat × Nat × SendMessage) :=
  t.selectedSendModel.bind fun p =>
    (clampCursor t.sendMsgCursor p.2.length).bind fun mi =>
      (p.2[mi]?).map fun msg => (p.1, mi, msg)

/-- The first message with the id of an entry of the snapshot, in the model of its interface. -/
def messageOf (t : TuiDataFrameSet) (info : ActionInfo) : Option (Nat × Nat × SendMessage) :=
  t.models.messageOf info.interface info.msgId

section Keys

variable (env : Env)

def post (t : TuiDataFrameSet) (r : Request SendModels) : TuiDataFrameSet :=
  { t with handler := ActionHandler.step env.trig t.handler (.request r) }

/-! ### Creating actions -/

def createSingleAction (t : TuiDataFrameSet) : TuiDataFrameSet :=
  match t.selectedMsg with
  | none => t
  | some (i, mi, msg) =>
    t.post env (.addAction (Action.newSingle t.selectedSendIface msg.id msg.name
      (t.models.encode env.casts i mi)))

def createPeriodicAction (t : TuiDataFrameSet) (period : Int) : TuiDataFrameSet :=
  match t.selectedMsg with
  | none => t
  | some (i, mi, msg) =>
    t.post env (.addAction (Action.newPeriodic t.selectedSendIface msg.id msg.name
      (t.models.encode env.casts i mi) period))

/-- The `encode_fn` of a sin action; it runs on the io thread and changes the shared model. -/
def sinEncodeFn (casts : BitCasts) (i mi k : Nat) (v : ℚ) (models : SendModels) :
    Bytes × SendModels :=
  let set := models.setValue i mi k v
  (set.encode casts i mi, set)

def createSinAction (t : TuiDataFrameSet) (now amplitude : ℚ) (sinPeriod : Int) (offset : ℚ) :
    TuiDataFrameSet :=
  match t.selectedMsg with
  | none => t
  | some (i, mi, msg) =>
    match clampCursor t.sendSigCursor msg.signals.length with
    | none => t
    | some k =>
      t.post env (.addAction (Action.newSin now t.selectedSendIface msg.id msg.name
        t.periodicIntervalMs (sinEncodeFn env.casts i mi k) amplitude sinPeriod offset))

/-! ### Editors -/

/-- Commit a value to an action that is not a sin: set it in the model of the interface, and give
the action the payload that the model now encodes. -/
def commitPayload (t : TuiDataFrameSet) (info : ActionInfo) (v : Option ℚ) : TuiDataFrameSet :=
  match t.messageOf info with
  | none => t
  | some (i, mi, msg) =>
    match clampCursor t.actionsSigCursor msg.signals.length, v with
    | some k, some v =>
      let set := t.setValue i mi k v
      set.post env (.updatePayload t.actionsCursor (set.models.encode env.casts i mi))
    | _, _ => t

def commitActionsEdit (t : TuiDataFrameSet) : TuiDataFrameSet :=
  match t.snapshot[t.actionsCursor]? with
  | none => t
  | some info =>
    if t.actionsEditBuf.isEmpty then t
    else if info.typeName = "Sin" then
      match env.stod t.actionsEditBuf with
      | none => t
      | some v => t.post env (.updateSinParam t.actionsCursor t.actionsSigCursor v)
    else t.commitPayload env info (env.stod t.actionsEditBuf)

/-- A character that an editor for a signal's value accepts. -/
def isValueChar (c : Char) : Bool := c.isDigit || c == '.' || c == '-'

def actionsEdit (t : TuiDataFrameSet) : Event → TuiDataFrameSet
  | .Return | .ArrowLeft =>
    { t.commitActionsEdit env with actionsEditing := false, actionsEditBuf := "" }
  | .Escape => { t with actionsEditing := false, actionsEditBuf := "" }
  | .Backspace => { t with actionsEditBuf := popBack t.actionsEditBuf }
  | .Character c =>
    if isValueChar c then { t with actionsEditBuf := t.actionsEditBuf.push c } else t
  | .Delete | .ArrowRight | .ArrowUp | .ArrowDown | .Other => t

def resetPeriodic (t : TuiDataFrameSet) : TuiDataFrameSet :=
  { t with
    periodicStep := .None
    periodicIntervalBuf := ""
    periodicIntervalMs := 0
    periodicTypeCursor := 0
    sinAmplitudeBuf := ""
    sinPeriodBuf := ""
    sinOffsetBuf := "" }

def handleNum (event : Event) (buf : String) (allowDecimal : Bool) : String :=
  match event with
  | .Backspace => popBack buf
  | .Character c =>
    if c.isDigit then buf.push c
    else if allowDecimal && c == '.' && !buf.contains '.' then buf.push c
    else if allowDecimal && c == '-' && buf.isEmpty then buf.push c
    else buf
  | _ => buf

def periodEdit (t : TuiDataFrameSet) : Event → TuiDataFrameSet
  | .Return | .ArrowRight =>
    if t.periodicIntervalBuf.isEmpty then t
    else match env.stol t.periodicIntervalBuf with
      | none => t
      | some ms =>
        { t with
          periodicIntervalMs := ms
          periodicStep := if 0 < ms then .TypeSelect else t.periodicStep }
  | .Backspace => { t with periodicIntervalBuf := popBack t.periodicIntervalBuf }
  | .Character c =>
    if c.isDigit then { t with periodicIntervalBuf := t.periodicIntervalBuf.push c } else t
  | _ => t

def typeSelect (t : TuiDataFrameSet) : Event → TuiDataFrameSet
  | .ArrowLeft | .ArrowRight => { t with periodicTypeCursor := 1 - t.periodicTypeCursor }
  | .Return =>
    if t.periodicTypeCursor = 0 then
      (t.createPeriodicAction env t.periodicIntervalMs).resetPeriodic
    else { t with periodicStep := .SinAmplitude }
  | .ArrowUp => { t with periodicStep := .Period }
  | _ => t

/-- `buf.empty() ? fallback : parse(buf)` -/
def parseOr {α : Type} (parse : String → Option α) (fallback : α) (buf : String) : Option α :=
  if buf.isEmpty then some fallback else parse buf

/-- The button that starts the sin action. -/
def startSin (t : TuiDataFrameSet) (now : ℚ) : TuiDataFrameSet :=
  match parseOr env.stod 0 t.sinAmplitudeBuf, parseOr env.stol 1000 t.sinPeriodBuf,
    parseOr env.stod 0 t.sinOffsetBuf with
  | some amp, some spMs, some offset =>
    if 0 < spMs then t.createSinAction env now amp spMs offset else t
  | _, _, _ => t

def periodicEdit (t : TuiDataFrameSet) (event : Event) (now : ℚ) : TuiDataFrameSet :=
  if event = .Escape then t.resetPeriodic
  else match t.periodicStep, event with
    | .None, _ => t
    | .Period, event => t.periodEdit env event
    | .TypeSelect, event => t.typeSelect env event
    | .SinAmplitude, .Return | .SinAmplitude, .ArrowDown => { t with periodicStep := .SinPeriod }
    | .SinAmplitude, .ArrowUp => { t with periodicStep := .TypeSelect }
    | .SinAmplitude, event =>
      { t with sinAmplitudeBuf := handleNum event t.sinAmplitudeBuf true }
    | .SinPeriod, .Return | .SinPeriod, .ArrowDown => { t with periodicStep := .SinOffset }
    | .SinPeriod, .ArrowUp => { t with periodicStep := .SinAmplitude }
    | .SinPeriod, event => { t with sinPeriodBuf := handleNum event t.sinPeriodBuf false }
    | .SinOffset, .Return | .SinOffset, .ArrowDown => { t with periodicStep := .SinReady }
    | .SinOffset, .ArrowUp => { t with periodicStep := .SinPeriod }
    | .SinOffset, event => { t with sinOffsetBuf := handleNum event t.sinOffsetBuf true }
    | .SinReady, .Return | .SinReady, .ArrowRight => (t.startSin env now).resetPeriodic
    | .SinReady, .ArrowUp => { t with periodicStep := .SinOffset }
    | .SinReady, _ => t

def commitSendEdit (t : TuiDataFrameSet) : TuiDataFrameSet :=
  if t.sendEditBuf.isEmpty then t
  else match t.selectedMsg, env.stod t.sendEditBuf with
    | some (i, mi, msg), some v =>
      match clampCursor t.sendSigCursor msg.signals.length with
      | none => t
      | some k => t.setValue i mi k v
    | _, _ => t

def sendEdit (t : TuiDataFrameSet) : Event → TuiDataFrameSet
  | .Return | .ArrowLeft => { t.commitSendEdit env with sendEditing := false, sendEditBuf := "" }
  | .Escape => { t with sendEditing := false, sendEditBuf := "" }
  | .Backspace => { t with sendEditBuf := popBack t.sendEditBuf }
  | .Character c => if isValueChar c then { t with sendEditBuf := t.sendEditBuf.push c } else t
  | .Delete | .ArrowRight | .ArrowUp | .ArrowDown | .Other => t

/-- `pop_back` takes one byte of the search text. -/
def traceSearch (t : TuiDataFrameSet) : Event → TuiDataFrameSet
  | .Escape => { t with traceSearching := false, traceSearchBuf := [] }
  | .Backspace => { t with traceSearchBuf := t.traceSearchBuf.dropLast }
  | .Character c => { t with traceSearchBuf := t.traceSearchBuf ++ String.utf8EncodeChar c }
  | _ => t

/-! ### Views -/

/-- Open the editor of the signal under the cursor, or press the button below the signals. -/
def openSignal (t : TuiDataFrameSet) : TuiDataFrameSet :=
  match t.selectedMsg with
  | none => t
  | some (_, _, msg) =>
    match msg.signals[t.sendSigCursor]? with
    | some sig => { t with sendEditBuf := env.formatG sig.value, sendEditing := true }
    | none =>
      if t.sendSigCursor = msg.signals.length then t.createSingleAction env
      else { t with periodicStep := .Period, periodicIntervalBuf := "" }

def sigList (t : TuiDataFrameSet) : Event → TuiDataFrameSet
  | .ArrowLeft => { t with navLevel := 2 }
  | .ArrowRight | .Return => t.openSignal env
  | .ArrowUp => { t with sendSigCursor := t.sendSigCursor - 1 }
  | .ArrowDown =>
    let maxIdx := (t.selectedMsg.map fun p => p.2.2.signals.length + 1).getD 1
    if t.sendSigCursor < maxIdx then { t with sendSigCursor := t.sendSigCursor + 1 } else t
  | .Character '1' => t.createSingleAction env
  | .Character '2' =>
    { t with
      sendSigCursor := (t.selectedMsg.map fun p => p.2.2.signals.length + 1).getD t.sendSigCursor
      periodicStep := .Period
      periodicIntervalBuf := "" }
  | _ => t

def playbackFilter (t : TuiDataFrameSet) (ctrl : PlaybackController) : Event → TuiDataFrameSet
  | .ArrowLeft => { t with navLevel := 1 }
  | .ArrowUp => { t with playbackMsgCursor := t.playbackMsgCursor - 1 }
  | .ArrowDown =>
    match ctrl.states[t.playbackCursor]? with
    | none => t
    | some (iface, _) =>
      if t.playbackMsgCursor < (ctrl.messageSnapshot iface).length then
        { t with playbackMsgCursor := t.playbackMsgCursor + 1 }
      else t
  | .Return =>
    match ctrl.states[t.playbackCursor]? with
    | none => t
    | some (iface, _) =>
      { t with playbackCtrl := some (ctrl.toggleMessage iface t.playbackMsgCursor) }
  | _ => t

/-- The text with which the editor of a sin parameter is opened. -/
def sinParamText (t : TuiDataFrameSet) (info : ActionInfo) : String :=
  match t.actionsSigCursor with
  | 0 => env.formatG info.sinAmplitude
  | 1 => toString info.sinPeriodMs
  | 2 => env.formatG info.sinOffset
  | _ => t.actionsEditBuf

/-- The value with which the editor of an action's signal is opened: that of the shared model, for
the first message with the action's id that has signals. -/
def shownSignal (t : TuiDataFrameSet) (info : ActionInfo) : Option SendSignal := do
  let i ← t.models.find info.interface
  let model ← t.models.model i
  let msg ← model.messages.find? fun msg => msg.id = info.msgId ∧ ¬ msg.signals.isEmpty
  let k ← clampCursor t.actionsSigCursor msg.signals.length
  msg.signals[k]?

def actionSignals (t : TuiDataFrameSet) : Event → TuiDataFrameSet
  | .ArrowLeft => { t with navLevel := 1 }
  | .ArrowRight | .Return =>
    match t.snapshot[t.actionsCursor]? with
    | none => t
    | some info =>
      if info.typeName = "Sin" then
        { t with actionsEditBuf := t.sinParamText env info, actionsEditing := true }
      else match t.shownSignal info with
        | none => t
        | some sig => { t with actionsEditBuf := env.formatG sig.value, actionsEditing := true }
  | .ArrowUp => { t with actionsSigCursor := t.actionsSigCursor - 1 }
  | .ArrowDown =>
    match t.snapshot[t.actionsCursor]? with
    | none => t
    | some info =>
      let count :=
        if info.typeName = "Sin" then 3
        else ((t.messageOf info).map fun p => p.2.2.signals.length).getD 0
      if t.actionsSigCursor + 1 < count then { t with actionsSigCursor := t.actionsSigCursor + 1 }
      else t
  | _ => t

def msgList (t : TuiDataFrameSet) : Event → TuiDataFrameSet
  | .ArrowLeft => { t with navLevel := 1 }
  | .ArrowRight | .Return =>
    match t.selectedSendModel with
    | none => t
    | some (_, messages) =>
      if messages.isEmpty then t else { t with sendSigCursor := 0, navLevel := 3 }
  | .ArrowUp => { t with sendMsgCursor := t.sendMsgCursor - 1 }
  | .ArrowDown =>
    match t.selectedSendModel with
    | none => t
    | some (_, messages) =>
      if t.sendMsgCursor + 1 < messages.length then { t with sendMsgCursor := t.sendMsgCursor + 1 }
      else t
  | _ => t

def playbackList (t : TuiDataFrameSet) (ctrl : PlaybackController) : Event → TuiDataFrameSet
  | .ArrowUp =>
    if 0 < t.playbackCursor then { t with playbackCursor := t.playbackCursor - 1 }
    else { t with navLevel := 0 }
  | .ArrowDown =>
    if t.playbackCursor + 1 < ctrl.states.length then
      { t with playbackCursor := t.playbackCursor + 1 }
    else t
  | .Return =>
    match ctrl.states[t.playbackCursor]? with
    | none => t
    | some (iface, _) => { t with playbackCtrl := some (ctrl.toggle iface) }
  | .ArrowRight =>
    if t.playbackCursor < ctrl.states.length then { t with playbackMsgCursor := 0, navLevel := 2 }
    else t
  | _ => t

def removeSelected (t : TuiDataFrameSet) : TuiDataFrameSet :=
  match t.snapshot[t.actionsCursor]? with
  | none => t
  | some info => { t.post env (.removeAction info.idx) with actionsCursor := t.actionsCursor - 1 }

def actionList (t : TuiDataFrameSet) : Event → TuiDataFrameSet
  | .ArrowUp =>
    if 0 < t.actionsCursor then { t with actionsCursor := t.actionsCursor - 1 }
    else { t with navLevel := 0 }
  | .ArrowDown =>
    if t.actionsCursor + 1 < t.snapshot.length then { t with actionsCursor := t.actionsCursor + 1 }
    else t
  | .ArrowRight | .Return =>
    if t.actionsCursor < t.snapshot.length then { t with actionsSigCursor := 0, navLevel := 2 }
    else t
  | .Character ' ' =>
    match t.snapshot[t.actionsCursor]? with
    | none => t
    | some info => t.post env (.togglePause info.idx)
  | .Delete | .Backspace => t.removeSelected env
  | _ => t

/-- How many frames the shown interface has. -/
def traceCount (t : TuiDataFrameSet) : Nat :=
  ((clampCursor t.subTabTrace t.sets.length).bind fun i => t.sets[i]?).elim 0 fun p => p.2.length

/-- Turn a tab strip of `count` tabs by `turn` tabs. -/
def turnTab (tab turn count : Nat) : Nat := if count = 0 then tab else (tab + turn) % count

def subTabs (t : TuiDataFrameSet) : Event → TuiDataFrameSet
  | .ArrowUp =>
    if t.mainTab = 0 ∧ 0 < t.traceCursor then { t with traceCursor := t.traceCursor - 1 }
    else { t with navLevel := 0 }
  | .ArrowDown =>
    if t.mainTab = 0 then
      if t.traceCursor + 1 < t.traceCount then { t with traceCursor := t.traceCursor + 1 } else t
    else if t.mainTab = 1 then
      match t.selectedSendModel with
      | none => t
      | some (_, messages) =>
        if messages.isEmpty then t else { t with sendMsgCursor := 0, navLevel := 2 }
    else t
  | .ArrowRight => turned t 1
  | .ArrowLeft => turned t (if t.mainTab = 0 then t.sets.length - 1 else t.interfaces.length - 1)
  | _ => t
where
  turned (t : TuiDataFrameSet) (turn : Nat) : TuiDataFrameSet :=
    if t.mainTab = 0 then
      if t.sets.isEmpty then t
      else { t with subTabTrace := turnTab t.subTabTrace turn t.sets.length, traceCursor := 0 }
    else { t with subTabSend := turnTab t.subTabSend turn t.interfaces.length }

def tabCount (t : TuiDataFrameSet) : Nat :=
  3 + (if t.modelTabEnabled then 1 else 0) + (if t.playbackCtrl.isSome then 1 else 0)

def mainTabs (t : TuiDataFrameSet) : Event → TuiDataFrameSet
  | .ArrowDown => { t with navLevel := 1 }
  | .ArrowRight => { t with mainTab := turnTab t.mainTab 1 t.tabCount }
  | .ArrowLeft => { t with mainTab := turnTab t.mainTab (t.tabCount - 1) t.tabCount }
  | _ => t

/-- The view that has the keys. -/
def view (t : TuiDataFrameSet) (event : Event) : TuiDataFrameSet :=
  match t.navLevel, t.playbackCtrl with
  | 3, _ => t.sigList env event
  | 2, some ctrl =>
    if t.mainTab = t.playbackTabIdx then t.playbackFilter ctrl event
    else if t.mainTab = 2 then t.actionSignals env event
    else t.msgList event
  | 2, none => if t.mainTab = 2 then t.actionSignals env event else t.msgList event
  | 1, some ctrl =>
    if t.mainTab = t.playbackTabIdx then t.playbackList ctrl event
    else if t.mainTab = 2 then t.actionList env event
    else t.subTabs event
  | 1, none => if t.mainTab = 2 then t.actionList env event else t.subTabs event
  | _, _ => t.mainTabs event

/-- The shortcuts; `none` if the event is not one. -/
def shortcut (t : TuiDataFrameSet) : Event → Option TuiDataFrameSet
  | .Escape | .Character 'q' => some { t with exited := true }
  | .Character 't' => some { t with mainTab := 0, navLevel := 1 }
  | .Character 's' => some { t with mainTab := 1, navLevel := 1 }
  | .Character 'a' => some { t with mainTab := 2, navLevel := 1 }
  | .Character 'm' => if t.modelTabEnabled then some { t with mainTab := 3, navLevel := 1 } else none
  | .Character 'p' =>
    if t.playbackCtrl.isSome then some { t with mainTab := t.playbackTabIdx, navLevel := 1 }
    else none
  | .Character 'f' => if t.mainTab = 0 then some { t with traceSearching := true } else none
  | _ => none

/-- The lambda passed to `CatchEvent`. -/
def onEvent (t : TuiDataFrameSet) (event : Event) (now : ℚ) : TuiDataFrameSet :=
  if t.actionsEditing then t.actionsEdit env event
  else if t.periodicStep ≠ .None then t.periodicEdit env event now
  else if t.sendEditing then t.sendEdit env event
  else if t.traceSearching then t.traceSearch event
  else (t.shortcut event).getD (t.view env event)

/-! ### Steps -/

/-- `update`, called for every frame that a socket delivers. -/
def update (t : TuiDataFrameSet) (frame : CanFrame) : TuiDataFrameSet :=
  let iface := frame.header.interface
  let sets :=
    if t.sets.any fun p => p.1 = iface then t.sets
    else t.sets.orderedInsert (fun p q => p.1 ≤ q.1) (iface, [])
  { t with sets := sets.map fun p => if p.1 = iface then (p.1, insertId frame.header.id p.2) else p }
where
  insertId (id : BitVec 32) (ids : List (BitVec 32)) : List (BitVec 32) :=
    if id ∈ ids then ids else ids.orderedInsert (fun a b => a ≤ b) id

def step (t : TuiDataFrameSet) : Label → TuiDataFrameSet
  | .key event now => if t.exited || t.handler.terminated then t else t.onEvent env event now
  | .frame frame => t.update frame
  | .expire timer =>
    { t with handler := ActionHandler.step env.trig t.handler (.expire timer) }
  | .run tick => { t with handler := ActionHandler.step env.trig t.handler (.run tick) }

end Keys

/-! ### The start -/

/-- `run_tui`, up to the event loop. -/
def runTui (env : Env) (now : ℚ) (modelTabEnabled : Bool) (cfgs : List InterfaceConfig) :
    Except String TuiDataFrameSet := do
  let handler ← env.loadPresets now (ActionHandler.init (env.sendModels cfgs)) cfgs
  return { interfaces := cfgs.map (·.name), handler := handler, modelTabEnabled := modelTabEnabled }

/-- `run_playback` in TUI mode, given the messages found in the log; presets are not loaded. -/
def runPlayback (env : Env) (messages : List (String × List String))
    (cfgs : List InterfaceConfig) : TuiDataFrameSet where
  interfaces := cfgs.map (·.name)
  handler := ActionHandler.init (env.sendModels cfgs)
  playbackCtrl := some (messages.foldl (fun ctrl p => ctrl.setMessages p.1 p.2)
    (PlaybackController.new (cfgs.map (·.name))))

/-! ### Commits -/

/-- A value that the user commits for a signal: the positions of the model, the message and the
signal, and the value. -/
structure Commit where
  model : Nat
  message : Nat
  signal : Nat
  value : ℚ
deriving DecidableEq

/-- The models after a key that commits a value, or none. -/
def afterCommit (models : SendModels) : Option Commit → SendModels
  | none => models
  | some c => models.setValue c.model c.message c.signal c.value

/-- What `commitActionsEdit` commits to the models. -/
def actionsCommit (env : Env) (t : TuiDataFrameSet) : Option Commit := do
  let info ← t.snapshot[t.actionsCursor]?
  if t.actionsEditBuf.isEmpty || info.typeName = "Sin" then none
  else
    let (i, mi, msg) ← t.messageOf info
    let k ← clampCursor t.actionsSigCursor msg.signals.length
    return ⟨i, mi, k, ← env.stod t.actionsEditBuf⟩

/-- What `commitSendEdit` commits to the models. -/
def sendCommit (env : Env) (t : TuiDataFrameSet) : Option Commit :=
  if t.sendEditBuf.isEmpty then none
  else do
    let (i, mi, msg) ← t.selectedMsg
    let v ← env.stod t.sendEditBuf
    let k ← clampCursor t.sendSigCursor msg.signals.length
    return ⟨i, mi, k, v⟩

/-- The keys that end an editor with a commit. -/
def ifCommitKey (event : Event) (c : Option Commit) : Option Commit :=
  if event = .Return ∨ event = .ArrowLeft then c else none

/-- What a key commits: the editor of the actions tab comes first, then that of the send tab. -/
def keyCommit (env : Env) (t : TuiDataFrameSet) (event : Event) : Option Commit :=
  if t.actionsEditing then ifCommitKey event (t.actionsCommit env)
  else if t.periodicStep ≠ .None then none
  else if t.sendEditing then ifCommitKey event (t.sendCommit env)
  else none

/-- What a step commits. -/
def commit (env : Env) (t : TuiDataFrameSet) : Label → Option Commit
  | .key event _ => if t.exited || t.handler.terminated then none else t.keyCommit env event
  | .frame _ | .expire _ | .run _ => none

/-! ### What a key does to the handler -/

/-- The handler after the value is set. -/
def committed (t : TuiDataFrameSet) (c : Option Commit) : ActionHandler SendModels :=
  { t.handler with world := afterCommit t.models c }

/-- What the TUI requests: the payloads are encoded from the models, and a sin action sets its signal
in them. -/
def Requests (casts : BitCasts) (models : SendModels) : Request SendModels → Prop
  | .addAction a =>
    match a.sinParams with
    | some p => ∃ i mi k, p.encodeFn = sinEncodeFn casts i mi k
    | none => ∃ i mi, a.payload = models.encode casts i mi
  | .updatePayload _ payload => ∃ i mi, payload = models.encode casts i mi
  | .addActionPaused _ => False
  | .removeAction _ | .togglePause _ | .updateSinParam .. => True

/-- A key commits `c`, and posts one request at most. -/
def Effect (env : Env) (t : TuiDataFrameSet) (c : Option Commit) (t' : TuiDataFrameSet) : Prop :=
  t'.handler = t.committed c ∨
    ∃ r, Requests env.casts (afterCommit t.models c) r ∧
      t'.handler = ActionHandler.step env.trig (t.committed c) (.request r)

theorem Requests.encodeFn {casts : BitCasts} {models : SendModels} {r : Request SendModels}
    (h : Requests casts models r) {a : Action SendModels} (ha : r.action = some a)
    {f : ℚ → SendModels → Bytes × SendModels} (hf : a.encodeFn = some f) :
    ∃ i mi k, f = sinEncodeFn casts i mi k := by
  cases r with
  | addAction b =>
    cases ha
    obtain ⟨p, hsin, rfl⟩ := Option.map_eq_some_iff.mp hf
    rwa [Requests, hsin] at h
  | addActionPaused b => exact h.elim
  | _ => cases ha

section Effect

variable {env : Env} {t : TuiDataFrameSet}

/-- A key that leaves the handler alone. -/
theorem Effect.quiet {t' : TuiDataFrameSet} (he : t'.handler = t.handler) :
    Effect env t none t' := Or.inl he

theorem Effect.post {c : Option Commit} {t₁ : TuiDataFrameSet} (he : t₁.handler = t.committed c)
    {r : Request SendModels} (hr : Requests env.casts (afterCommit t.models c) r) :
    Effect env t c (t₁.post env r) := by
  refine Or.inr ⟨r, hr, ?_⟩
  rw [← he]
  rfl

theorem effect_createSingleAction : Effect env t none (t.createSingleAction env) := by
  unfold createSingleAction
  split
  · exact Effect.quiet rfl
  · next i mi _ _ => exact Effect.post rfl ⟨i, mi, rfl⟩

theorem effect_createPeriodicAction (period : Int) :
    Effect env t none (t.createPeriodicAction env period) := by
  unfold createPeriodicAction
  split
  · exact Effect.quiet rfl
  · next i mi _ _ => exact Effect.post rfl ⟨i, mi, rfl⟩

theorem effect_createSinAction (now amplitude : ℚ) (sinPeriod : Int) (offset : ℚ) :
    Effect env t none (t.createSinAction env now amplitude sinPeriod offset) := by
  unfold createSinAction
  split
  · exact Effect.quiet rfl
  · next i mi _ _ =>
    split
    · exact Effect.quiet rfl
    · next k _ => exact Effect.post rfl ⟨i, mi, k, rfl⟩

theorem effect_commitActionsEdit :
    Effect env t (t.actionsCommit env) (t.commitActionsEdit env) := by
  unfold actionsCommit commitActionsEdit
  cases t.snapshot[t.actionsCursor]? with
  | none => exact Effect.quiet rfl
  | some info =>
    by_cases hempty : t.actionsEditBuf.isEmpty = true
    · simp only [hempty, if_true, Bool.true_or, Option.bind_eq_bind, Option.bind_some]
      exact Effect.quiet rfl
    · by_cases hsin : info.typeName = "Sin"
      · simp only [hempty, hsin, if_false, if_true, decide_true, Bool.or_true, Option.bind_eq_bind,
          Option.bind_some, Bool.false_eq_true]
        split
        · exact Effect.quiet rfl
        · exact Effect.post rfl trivial
      · simp only [hempty, hsin, if_false, decide_false, Bool.or_false, Option.bind_eq_bind,
          Option.bind_some, Bool.false_eq_true, commitPayload]
        cases t.messageOf info with
        | none => exact Effect.quiet rfl
        | some p =>
          obtain ⟨i, mi, msg⟩ := p
          dsimp only [Option.bind_some]
          cases clampCursor t.actionsSigCursor msg.signals.length with
          | none => exact Effect.quiet rfl
          | some k =>
            cases env.stod t.actionsEditBuf with
            | none => exact Effect.quiet rfl
            | some v => exact Effect.post rfl ⟨i, mi, rfl⟩

theorem effect_actionsEdit (event : Event) :
    Effect env t (ifCommitKey event (t.actionsCommit env)) (t.actionsEdit env event) := by
  cases event with
  | Return => exact effect_commitActionsEdit
  | ArrowLeft => exact effect_commitActionsEdit
  | Character c =>
    refine Effect.quiet ?_
    rw [actionsEdit]
    split <;> rfl
  | _ => exact Effect.quiet rfl

theorem handler_periodEdit (event : Event) : (t.periodEdit env event).handler = t.handler := by
  unfold periodEdit
  repeat' split
  all_goals rfl

theorem effect_typeSelect (event : Event) : Effect env t none (t.typeSelect env event) := by
  cases event with
  | Return =>
    rw [typeSelect]
    split
    · exact effect_createPeriodicAction _
    · exact Effect.quiet rfl
  | _ => exact Effect.quiet rfl

theorem effect_startSin (now : ℚ) : Effect env t none (t.startSin env now) := by
  unfold startSin
  split
  · split
    · exact effect_createSinAction _ _ _ _
    · exact Effect.quiet rfl
  · exact Effect.quiet rfl

theorem effect_periodicEdit (event : Event) (now : ℚ) :
    Effect env t none (t.periodicEdit env event now) := by
  unfold periodicEdit
  split
  · exact Effect.quiet rfl
  · cases t.periodicStep with
    | Period => exact Effect.quiet (handler_periodEdit event)
    | TypeSelect => exact effect_typeSelect event
    | SinReady =>
      cases event with
      | Return => exact effect_startSin now
      | ArrowRight => exact effect_startSin now
      | _ => exact Effect.quiet rfl
    | _ => cases event <;> exact Effect.quiet rfl

theorem effect_commitSendEdit : Effect env t (t.sendCommit env) (t.commitSendEdit env) := by
  unfold sendCommit commitSendEdit
  split
  · exact Effect.quiet rfl
  · cases t.selectedMsg with
    | none => exact Effect.quiet rfl
    | some p =>
      obtain ⟨i, mi, msg⟩ := p
      cases env.stod t.sendEditBuf with
      | none => exact Effect.quiet rfl
      | some v =>
        dsimp only [Option.bind_eq_bind, Option.bind_some]
        cases clampCursor t.sendSigCursor msg.signals.length with
        | none => exact Effect.quiet rfl
        | some k => exact Or.inl rfl

theorem effect_sendEdit (event : Event) :
    Effect env t (ifCommitKey event (t.sendCommit env)) (t.sendEdit env event) := by
  cases event with
  | Return => exact effect_commitSendEdit
  | ArrowLeft => exact effect_commitSendEdit
  | Character c =>
    refine Effect.quiet ?_
    rw [sendEdit]
    split <;> rfl
  | _ => exact Effect.quiet rfl

theorem handler_traceSearch (event : Event) : (t.traceSearch event).handler = t.handler := by
  unfold traceSearch
  split <;> rfl

theorem effect_openSignal : Effect env t none (t.openSignal env) := by
  unfold openSignal
  split
  · exact Effect.quiet rfl
  · split
    · exact Effect.quiet rfl
    · split
      · exact effect_createSingleAction
      · exact Effect.quiet rfl

theorem effect_sigList (event : Event) : Effect env t none (t.sigList env event) := by
  unfold sigList
  split
  · exact Effect.quiet rfl
  · exact effect_openSignal
  · exact effect_openSignal
  · exact Effect.quiet rfl
  · refine Effect.quiet ?_
    dsimp only
    split <;> rfl
  · exact effect_createSingleAction
  · exact Effect.quiet rfl
  · exact Effect.quiet rfl

theorem handler_playbackFilter (ctrl : PlaybackController) (event : Event) :
    (t.playbackFilter ctrl event).handler = t.handler := by
  unfold playbackFilter
  repeat' split
  all_goals rfl

theorem handler_actionSignals (event : Event) :
    (t.actionSignals env event).handler = t.handler := by
  unfold actionSignals
  dsimp only
  repeat' split
  all_goals rfl

theorem handler_msgList (event : Event) : (t.msgList event).handler = t.handler := by
  unfold msgList
  repeat' split
  all_goals rfl

theorem handler_playbackList (ctrl : PlaybackController) (event : Event) :
    (t.playbackList ctrl event).handler = t.handler := by
  unfold playbackList
  repeat' split
  all_goals rfl

theorem effect_removeSelected : Effect env t none (t.removeSelected env) := by
  unfold removeSelected
  split
  · exact Effect.quiet rfl
  · next info _ => exact Effect.post (r := .removeAction info.idx) rfl trivial

theorem effect_actionList (event : Event) : Effect env t none (t.actionList env event) := by
  unfold actionList
  split
  · refine Effect.quiet ?_
    split <;> rfl
  · refine Effect.quiet ?_
    split <;> rfl
  · refine Effect.quiet ?_
    split <;> rfl
  · refine Effect.quiet ?_
    split <;> rfl
  · split
    · exact Effect.quiet rfl
    · next info _ => exact Effect.post (r := .togglePause info.idx) rfl trivial
  · exact effect_removeSelected
  · exact effect_removeSelected
  · exact Effect.quiet rfl

theorem handler_subTabs (event : Event) : (t.subTabs event).handler = t.handler := by
  unfold subTabs subTabs.turned
  repeat' split
  all_goals rfl

theorem handler_mainTabs (event : Event) : (t.mainTabs event).handler = t.handler := by
  unfold mainTabs
  split <;> rfl

theorem effect_view (event : Event) : Effect env t none (t.view env event) := by
  unfold view
  split
  · exact effect_sigList event
  · split
    · exact Effect.quiet (handler_playbackFilter _ event)
    · split
      · exact Effect.quiet (handler_actionSignals event)
      · exact Effect.quiet (handler_msgList event)
  · split
    · exact Effect.quiet (handler_actionSignals event)
    · exact Effect.quiet (handler_msgList event)
  · split
    · exact Effect.quiet (handler_playbackList _ event)
    · split
      · exact effect_actionList event
      · exact Effect.quiet (handler_subTabs event)
  · split
    · exact effect_actionList event
    · exact Effect.quiet (handler_subTabs event)
  · exact Effect.quiet (handler_mainTabs event)

theorem handler_shortcut {event : Event} {t' : TuiDataFrameSet} (h : t.shortcut event = some t') :
    t'.handler = t.handler := by
  unfold shortcut at h
  repeat' split at h
  all_goals cases h
  all_goals rfl

theorem effect_onEvent (event : Event) (now : ℚ) :
    Effect env t (t.keyCommit env event) (t.onEvent env event now) := by
  unfold keyCommit onEvent
  split
  · exact effect_actionsEdit event
  · split
    · exact effect_periodicEdit event now
    · split
      · exact effect_sendEdit event
      · split
        · exact Effect.quiet (handler_traceSearch event)
        · cases hs : t.shortcut event with
          | none => exact effect_view event
          | some t' => exact Effect.quiet (handler_shortcut hs)

variable (env t) in
/-- What a step does to the handler. -/
theorem step_effect (l : Label) :
    (∃ event now, l = .key event now ∧ Effect env t (t.commit env l) (t.step env l)) ∨
    (t.commit env l = none ∧
      ((∃ frame, l = .frame frame ∧ (t.step env l).handler = t.handler) ∨
      (∃ timer, l = .expire timer ∧
        (t.step env l).handler = ActionHandler.step env.trig t.handler (.expire timer)) ∨
      ∃ tick, l = .run tick ∧
        (t.step env l).handler = ActionHandler.step env.trig t.handler (.run tick))) := by
  cases l with
  | key event now =>
    refine Or.inl ⟨event, now, rfl, ?_⟩
    rw [commit, step]
    split
    · exact Effect.quiet rfl
    · exact effect_onEvent event now
  | frame frame => exact Or.inr ⟨rfl, Or.inl ⟨frame, rfl, rfl⟩⟩
  | expire timer => exact Or.inr ⟨rfl, Or.inr (Or.inl ⟨timer, rfl, rfl⟩)⟩
  | run tick => exact Or.inr ⟨rfl, Or.inr (Or.inr ⟨tick, rfl, rfl⟩)⟩

end Effect

/-! ### The states of the handler -/

/-- The handler of a TUI that shows the interfaces `cfgs`. -/
def Sound (env : Env) (cfgs : List InterfaceConfig) (t : TuiDataFrameSet) : Prop :=
  t.handler.Reached env.trig (env.Presents cfgs)

/-! What setting values keeps, the models keep. -/

section Reached

variable {env : Env} {P : SendModels → Prop} {t : TuiDataFrameSet}

theorem reached_effect (hP : ∀ models i mi k v, P models → P (SendModels.setValue models i mi k v))
    (h : t.handler.Reached env.trig P) {c : Option Commit} {t' : TuiDataFrameSet}
    (he : Effect env t c t') : t'.handler.Reached env.trig P := by
  have hcommitted : (t.committed c).Reached env.trig P := by
    refine h.change ?_
    cases c with
    | none => exact h.worldKept.world
    | some c => exact hP _ _ _ _ _ h.worldKept.world
  rcases he with he | ⟨r, hr, he⟩
  · rw [he]
    exact hcommitted
  · rw [he]
    refine hcommitted.request ?_
    intro a ha f hf v models hmodels
    obtain ⟨i, mi, k, rfl⟩ := hr.encodeFn ha hf
    exact hP _ i mi k v hmodels

theorem reached_step (hP : ∀ models i mi k v, P models → P (SendModels.setValue models i mi k v))
    (h : t.handler.Reached env.trig P) (l : Label) :
    (t.step env l).handler.Reached env.trig P := by
  rcases step_effect env t l with ⟨_, _, _, he⟩ |
    ⟨-, ⟨_, _, he⟩ | ⟨timer, _, he⟩ | ⟨tick, _, he⟩⟩
  · exact reached_effect hP h he
  · rw [he]
    exact h
  · rw [he]
    exact h.expire timer
  · rw [he]
    exact h.run tick

end Reached

section Sound

variable {env : Env} {cfgs : List InterfaceConfig} {t : TuiDataFrameSet}

theorem Sound.step (h : t.Sound env cfgs) (l : Label) : (t.step env l).Sound env cfgs :=
  reached_step (P := env.Presents cfgs)
    (fun _ i mi k v hmodels => SendModels.Present.setValue hmodels i mi k v) h l

theorem Sound.run (h : t.Sound env cfgs) (ls : List Label) :
    (Runs.run (TuiDataFrameSet.step env) t ls).Sound env cfgs :=
  run_invariant (P := fun t : TuiDataFrameSet => t.Sound env cfgs) (fun _ l h => h.step l) h ls

end Sound

theorem exists_of_runTui {env : Env} {now : ℚ} {modelTabEnabled : Bool}
    {cfgs : List InterfaceConfig} {t : TuiDataFrameSet}
    (h : runTui env now modelTabEnabled cfgs = .ok t) :
    ∃ handler, env.loadPresets now (ActionHandler.init (env.sendModels cfgs)) cfgs = .ok handler ∧
      t =
        { interfaces := cfgs.map (·.name)
          handler := handler
          modelTabEnabled := modelTabEnabled } := by
  obtain ⟨handler, hload, hreturn⟩ := YAML.exists_of_bind_eq_ok h
  cases hreturn
  exact ⟨handler, hload, rfl⟩

/-- `run_tui` starts with such a handler. -/
theorem sound_runTui {env : Env} {now : ℚ} {modelTabEnabled : Bool} {cfgs : List InterfaceConfig}
    {t : TuiDataFrameSet} (h : runTui env now modelTabEnabled cfgs = .ok t) : t.Sound env cfgs := by
  obtain ⟨handler, hload, rfl⟩ := exists_of_runTui h
  refine env.reached_loadPresets (.init ?_) hload
  rw [Env.Presents, env.sendModels_eq]
  exact SendModels.present_ofNetworks _ _

/-- So does `run_playback`. -/
theorem sound_runPlayback (env : Env) (messages : List (String × List String))
    (cfgs : List InterfaceConfig) : (runPlayback env messages cfgs).Sound env cfgs := by
  refine .init ?_
  rw [Env.Presents, env.sendModels_eq]
  exact SendModels.present_ofNetworks _ _

end TuiDataFrameSet

end Caneo
