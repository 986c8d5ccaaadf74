import Caneo.CanFrame

/-!
# `GraphWindow`

The plots of the GUI (`src/gui/GraphWindow.cpp`): tabs of series, each fed by one signal of one
message of one interface. Times are nanoseconds since the window was opened.
-/

namespace Caneo

structure SignalSeries where
  interface : String
  msgId : BitVec 32
  signalName : String
  label : String
  yMin : ℚ := 0
  yMax : ℚ := 0
  yAxis : Int := 0
  xs : List ℚ := []
  ys : List ℚ := []
deriving DecidableEq

structure GraphTab where
  name : String
  series : List SignalSeries := []
deriving DecidableEq

structure GraphWindow where
  graphs : List GraphTab := []
  start : Int

namespace SignalSeries

def MAX : Nat := 10000

def push (s : SignalSeries) (t v : ℚ) : SignalSeries :=
  let xs := s.xs ++ [t]
  let ys := s.ys ++ [v]
  if MAX < xs.length then { s with xs := xs.tail, ys := ys.tail } else { s with xs := xs, ys := ys }

/-- The series is of the frame's interface and id. -/
def listensTo (s : SignalSeries) (frame : CanFrame) : Bool :=
  s.interface = frame.header.interface && s.msgId = frame.header.id

def update (t : ℚ) (frame : CanFrame) (s : SignalSeries) : SignalSeries :=
  if s.listensTo frame then
    match frame.decoded.find? fun sig => sig.name = s.signalName with
    | some sig => s.push t sig.value
    | none => s
  else s

end SignalSeries

namespace GraphWindow

def seconds (ns : Int) : ℚ := ns / 1000000000

def update (w : GraphWindow) (frame : CanFrame) : GraphWindow :=
  let t := seconds (frame.timestamp - w.start)
  { w with graphs := w.graphs.map fun tab =>
      { tab with series := tab.series.map (SignalSeries.update t frame) } }

def addGraph (w : GraphWindow) (name : String) : GraphWindow :=
  let name := if name.isEmpty then "graph" ++ toString (w.graphs.length + 1) else name
  { w with graphs := w.graphs ++ [{ name := name }] }

def addSignal (w : GraphWindow) (graphIdx : Nat) (interface : String) (msgId : BitVec 32)
    (signalName : String) (yMin yMax : ℚ) (yAxis : Int) (label : String) : GraphWindow :=
  { w with graphs := w.graphs.modify graphIdx fun tab =>
      if tab.series.any fun s =>
          s.interface = interface && s.msgId = msgId && s.signalName = signalName then tab
      else { tab with series := tab.series ++
        [{ interface := interface, msgId := msgId, signalName := signalName,
           label := if label.isEmpty then signalName else label,
           yMin := yMin, yMax := yMax, yAxis := yAxis }] } }

/-- The loop over a tab's series ends at the first that is pushed to. -/
def pushFirst (p : SignalSeries → Bool) (t v : ℚ) : List SignalSeries → List SignalSeries
  | [] => []
  | s :: series => if p s then s.push t v :: series else s :: pushFirst p t v series

/-- A value that comes without a frame; its series have id 0. -/
def pushValue (w : GraphWindow) (interface signalName : String) (value : ℚ) (now : Int) :
    GraphWindow :=
  let t := seconds (now - w.start)
  let fits := fun s : SignalSeries =>
    s.interface = interface && s.msgId = 0 && s.signalName = signalName
  { w with graphs := w.graphs.map fun tab =>
      { tab with series := pushFirst fits t value tab.series } }

end GraphWindow

/-! ### The context menu of a series -/

structure PendingSeriesCtx where
  tabIdx : Nat
  seriesIdx : Nat
  signalName : String
  currentAxis : Int
deriving DecidableEq

/-- The window with the series its context menu is open for. -/
structure GraphMenu where
  window : GraphWindow
  pendingSeriesCtx : Option PendingSeriesCtx := none

namespace GraphMenu

/-- A right click on the legend, where only series with samples have an entry. -/
def openSeriesCtx (m : GraphMenu) (tabIdx seriesIdx : Nat) : GraphMenu :=
  match m.window.graphs[tabIdx]?.bind fun tab => tab.series[seriesIdx]? with
  | none => m
  | some s =>
    if s.xs.isEmpty then m
    else { m with pendingSeriesCtx := some ⟨tabIdx, seriesIdx, s.signalName, s.yAxis⟩ }

/-- The axis chosen among the menu's items, of which the current one does nothing. -/
def newAxis (currentAxis : Int) (clicked : Int → Bool) : Option Int :=
  ([0, 1, 2] : List Int).foldl
    (fun new a => if clicked a && currentAxis ≠ a then some a else new) none

/-- The menu while it is open. The series may be gone, or another may be in its place. -/
def seriesMenu (m : GraphMenu) (clicked : Int → Bool) (doRemove : Bool) : GraphMenu :=
  match m.pendingSeriesCtx with
  | none => m
  | some ctx =>
    let changed := newAxis ctx.currentAxis clicked
    if changed.isSome || doRemove then
      { window := { m.window with graphs := m.window.graphs.modify ctx.tabIdx fun tab =>
          if doRemove then { tab with series := tab.series.eraseIdx ctx.seriesIdx }
          else { tab with series := tab.series.modify ctx.seriesIdx fun s =>
            { s with yAxis := changed.getD ctx.currentAxis } } } }
    else m

end GraphMenu

end Caneo
