import Caneo.FrameReceivers
import Caneo.GraphSeries
import Caneo.KeyedTable

/-!
# The outputs of a model

What a model's `run()` returns goes to the log and to a callback (`ModelEngine::on_frame`), which
shows it: the GUI in a table with a row for each name (`ModelWindow::push`) and in the graphs that
have a series of it (`GraphWindow::push_value`), the TUI in a map (`push_model_output`).

They all show what is logged: table and map the last value of each name, and a series the values
since it was added (`model_outputs_agree`), whatever else the user does with the graphs.
-/

namespace Caneo

open Containers KeyedTable Runs

variable {pb : Protobuf} {Lua : Type}

/-! ### The views -/

/-- What the callback is called with for a frame. -/
def callbackOutputs (engine : Option (ModelEngine Lua)) (frame : CanFrame) : List (String × ℚ) :=
  engine.elim [] fun engine => (engine.run frame).2.elim [] ModelEngine.outputs

def ModelWindow.IFACE : String := "__model__"

/-- The state of `run_gui` with the model window (`values`) and the graph window. -/
structure GuiViews (Lua : Type) where
  gui : run_gui Lua
  values : List (String × ℚ) := []
  graphs : GraphMenu

/-- `plotClock` is the clock when each output is plotted. -/
inductive GuiViews.Label where
  | frame (incoming : Incoming) (plotClock : String → Int)
  | user (op : GraphOp)

/-- `ModelWindow::push` -/
def GuiViews.push (plotClock : String → Int) (s : GuiViews Lua) (output : String × ℚ) :
    GuiViews Lua :=
  { s with
    values := upsert output.1 output.2 s.values
    graphs := s.graphs.step (.pushValue ModelWindow.IFACE output.1 output.2 (plotClock output.1)) }

def GuiViews.step (env : ReceiveEnv pb) (s : GuiViews Lua) : GuiViews.Label → GuiViews Lua
  | .frame incoming plotClock =>
    let frame := env.decoded incoming.frame
    (callbackOutputs s.gui.engine frame).foldl (GuiViews.push plotClock)
      { s with gui := s.gui.onFrame env incoming, graphs := s.graphs.step (.update frame) }
  | .user op => { s with graphs := s.graphs.step op }

structure TuiViews (Lua : Type) where
  tui : run_tui Lua
  modelOutputs : UnorderedMap String ℚ := UnorderedMap.empty

def TuiViews.onFrame (env : ReceiveEnv pb) (s : TuiViews Lua) (incoming : Incoming) : TuiViews Lua where
  tui := s.tui.onFrame env incoming
  modelOutputs := (callbackOutputs s.tui.engine (env.decoded incoming.frame)).foldl
    (fun m output => m.set output.1 output.2) s.modelOutputs

/-- What the user can do with the graphs; the rest comes from frames. -/
def GraphOp.isUser : GraphOp → Bool
  | .addGraph _ | .addSignal .. | .openSeriesCtx .. | .seriesMenu .. => true
  | .update _ | .pushValue .. => false

def GuiViews.Label.incoming : GuiViews.Label → Option Incoming
  | .frame incoming _ => some incoming
  | .user _ => none

/-! ### The outputs of a run -/

/-- The outputs for a sequence of frames, with a model that has seen others before. -/
def outputsFrom (env : ReceiveEnv pb) (engine : Option (ModelEngine Lua)) :
    List Incoming → List (String × ℚ)
  | [] => []
  | incoming :: incomings =>
    let frame := env.decoded incoming.frame
    callbackOutputs engine frame ++ outputsFrom env (runModel engine frame).1 incomings

/-- The model after them. -/
def engineAfter (env : ReceiveEnv pb) (engine : Option (ModelEngine Lua))
    (incomings : List Incoming) : Option (ModelEngine Lua) :=
  run (fun engine incoming => (runModel engine (env.decoded incoming.frame)).1) engine incomings

/-- The scalars that were logged, in their order. -/
def LogCall.scalar : LogCall pb → Option (String × ℚ)
  | .logFrame .. => none
  | .logScalar topic value _ => some (topic, value)

def scalarRows (calls : List (LogCall pb)) : List (String × ℚ) := calls.filterMap LogCall.scalar

theorem scalarRows_append (calls calls' : List (LogCall pb)) :
    scalarRows (calls ++ calls') = scalarRows calls ++ scalarRows calls' := List.filterMap_append

section Outputs

variable (env : ReceiveEnv pb)

theorem outputsFrom_append (engine : Option (ModelEngine Lua)) (incomings incomings' : List Incoming) :
    outputsFrom env engine (incomings ++ incomings') =
      outputsFrom env engine incomings ++
        outputsFrom env (engineAfter env engine incomings) incomings' := by
  induction incomings generalizing engine with
  | nil => rfl
  | cons incoming incomings ih =>
    simp only [List.cons_append, outputsFrom, ih, List.append_assoc]
    rfl

theorem path_runModel {engine : Option (ModelEngine Lua)} {path : String}
    (h : ∀ e ∈ engine, e.script.path = path) (frame : CanFrame) :
    ∀ e ∈ (runModel engine frame).1, e.script.path = path := by
  cases engine with
  | none => exact h
  | some engine =>
    intro e he
    cases he
    exact h engine rfl

/-- What is logged for a frame, in terms of what the callback is called with. -/
theorem outputs_runModel {engine : Option (ModelEngine Lua)} {path : String}
    (h : ∀ e ∈ engine, e.script.path = path) (frame : CanFrame) :
    (runModel engine frame).2 = (callbackOutputs engine frame).map fun output =>
      (ModelEngine.topic path output.1, output.2) := by
  cases engine with
  | none => rfl
  | some engine =>
    rw [← h engine rfl]
    rfl

/-- The scalars of the log are the outputs, each under its topic. -/
theorem scalarRows_run {path : String} (incomings : List Incoming) (s : Reception pb Lua)
    (h : ∀ e ∈ s.engine, e.script.path = path) :
    scalarRows (run (Reception.onFrame env) s incomings).calls =
      scalarRows s.calls ++ (outputsFrom env s.engine incomings).map fun output =>
        (ModelEngine.topic path output.1, output.2) := by
  induction incomings generalizing s with
  | nil => simp [outputsFrom]
  | cons incoming incomings ih =>
    have hpath := path_runModel h (env.decoded incoming.frame)
    have hscalars : ∀ (clock : String → Int) (outputs : List (String × ℚ)),
        scalarRows (Reception.scalarCalls clock outputs : List (LogCall pb)) = outputs := by
      intro clock outputs
      simp [scalarRows, Reception.scalarCalls, List.filterMap_map, Function.comp_def, LogCall.scalar]
    have hcalls : scalarRows (s.onFrame env incoming).calls =
        scalarRows s.calls ++ (runModel s.engine (env.decoded incoming.frame)).2 := by
      change scalarRows (s.calls ++ Reception.scalarCalls incoming.clock
        (runModel s.engine (env.decoded incoming.frame)).2 ++
          [s.frameCall env (env.decoded incoming.frame)]) = _
      rw [scalarRows_append, scalarRows_append, hscalars]
      exact List.append_nil _
    rw [run_cons, ih (s.onFrame env incoming) hpath, hcalls, outputs_runModel h]
    simp only [outputsFrom, List.map_append, List.append_assoc]
    rfl

theorem topic_injective (path : String) : Function.Injective (ModelEngine.topic path) := by
  intro name name' h
  simp only [ModelEngine.topic, String.append_right_inj] at h
  exact h

end Outputs

/-! ### The run of the GUI -/

section Views

variable (env : ReceiveEnv pb)

/-- What the graph window does. -/
def opsFrom (engine : Option (ModelEngine Lua)) : List GuiViews.Label → List GraphOp
  | [] => []
  | .frame incoming plotClock :: ls =>
    let frame := env.decoded incoming.frame
    .update frame :: (callbackOutputs engine frame).map (fun output =>
        .pushValue ModelWindow.IFACE output.1 output.2 (plotClock output.1)) ++
      opsFrom (runModel engine frame).1 ls
  | .user op :: ls => op :: opsFrom engine ls

def incomingsOf (ls : List GuiViews.Label) : List Incoming := ls.filterMap GuiViews.Label.incoming

/-- The pushes of one frame, in the table and in the graphs. -/
theorem foldl_push (plotClock : String → Int) (outputs : List (String × ℚ)) (s : GuiViews Lua) :
    outputs.foldl (GuiViews.push plotClock) s =
      { s with
        values := writes s.values outputs
        graphs := run GraphMenu.step s.graphs (outputs.map fun output =>
          .pushValue ModelWindow.IFACE output.1 output.2 (plotClock output.1)) } := by
  induction outputs generalizing s with
  | nil => rfl
  | cons output outputs ih =>
    rw [List.foldl_cons, ih]
    rfl

/-- The run of the GUI, one part at a time. -/
theorem run_views (s : GuiViews Lua) (ls : List GuiViews.Label) :
    run (GuiViews.step env) s ls =
      { gui := run (run_gui.onFrame env) s.gui (incomingsOf ls)
        values := writes s.values (outputsFrom env s.gui.engine (incomingsOf ls))
        graphs := run GraphMenu.step s.graphs (opsFrom env s.gui.engine ls) } := by
  induction ls generalizing s with
  | nil => rfl
  | cons l ls ih =>
    rw [run_cons, ih]
    cases l with
    | user op => rfl
    | frame incoming plotClock =>
      have hincomings : incomingsOf (.frame incoming plotClock :: ls) = incoming :: incomingsOf ls :=
        rfl
      simp only [GuiViews.step, foldl_push, hincomings, outputsFrom, opsFrom, List.cons_append,
        run_cons, run_append, writes_append]
      rfl

theorem run_tuiViews (s : TuiViews Lua) (incomings : List Incoming) :
    (run (TuiViews.onFrame env) s incomings).modelOutputs =
      (outputsFrom env s.tui.engine incomings).foldl (fun m output => m.set output.1 output.2)
        s.modelOutputs := by
  induction incomings generalizing s with
  | nil => rfl
  | cons incoming incomings ih =>
    rw [run_cons, ih, outputsFrom, List.foldl_append]
    rfl

end Views

/-! ### The series of an output -/

section Series

variable (env : ReceiveEnv pb)

/-- What an output's series is fed with: the values of the output. -/
theorem delivered_opsFrom (start : Int) (name : String) (ls : List GuiViews.Label)
    (engine : Option (ModelEngine Lua))
    (huser : ∀ op, GuiViews.Label.user op ∈ ls → op.isUser = true)
    (hiface : ∀ incoming ∈ incomingsOf ls,
      incoming.frame.header.interface ≠ ModelWindow.IFACE) :
    ((opsFrom env engine ls).flatMap
        (GraphOp.delivered start (ModelWindow.IFACE, 0, name))).map Prod.snd =
      ((outputsFrom env engine (incomingsOf ls)).filter fun output => output.1 = name).map
        Prod.snd := by
  induction ls generalizing engine with
  | nil => rfl
  | cons l ls ih =>
    have huser' : ∀ op, GuiViews.Label.user op ∈ ls → op.isUser = true :=
      fun op hop => huser op (List.mem_cons_of_mem _ hop)
    cases l with
    | user op =>
      have hnone : GraphOp.delivered start (ModelWindow.IFACE, 0, name) op = [] := by
        have hop := huser op List.mem_cons_self
        cases op <;> first | rfl | cases hop
      rw [opsFrom, List.flatMap_cons, hnone, List.nil_append, ih _ huser' hiface]
      rfl
    | frame incoming plotClock =>
      have hother := hiface incoming List.mem_cons_self
      have hrest := ih (runModel engine (env.decoded incoming.frame)).1 huser'
        fun incoming' hincoming' => hiface incoming' (List.mem_cons_of_mem _ hincoming')
      have hframe : GraphOp.delivered start (ModelWindow.IFACE, 0, name)
          (.update (env.decoded incoming.frame)) = [] := by
        simp [GraphOp.delivered, Reception.header_decoded, hother]
      have hpushes : ∀ outputs : List (String × ℚ), ((outputs.map fun output =>
          GraphOp.pushValue ModelWindow.IFACE output.1 output.2 (plotClock output.1)).flatMap
            (GraphOp.delivered start (ModelWindow.IFACE, 0, name))).map Prod.snd =
          (outputs.filter fun output => output.1 = name).map Prod.snd := by
        intro outputs
        induction outputs with
        | nil => rfl
        | cons output outputs ih' =>
          rw [List.map_cons, List.flatMap_cons, List.map_append, ih']
          by_cases hname : output.1 = name <;> simp [GraphOp.delivered, hname]
      have hincomings : incomingsOf (.frame incoming plotClock :: ls) = incoming :: incomingsOf ls :=
        rfl
      rw [opsFrom, List.cons_append, List.flatMap_cons, hframe, List.nil_append,
        List.flatMap_append, List.map_append, hpushes, hrest, hincomings, outputsFrom,
        List.filter_append, List.map_append]

/-- A series is added by the user. -/
theorem exists_user_of_opsFrom {ls : List GuiViews.Label} {engine : Option (ModelEngine Lua)}
    {before after : List GraphOp} {ti : Nat} {interface : String} {msgId : BitVec 32}
    {signalName : String} {yMin yMax : ℚ} {yAxis : Int} {label : String}
    (h : opsFrom env engine ls =
      before ++ .addSignal ti interface msgId signalName yMin yMax yAxis label :: after) :
    ∃ ls₁ ls₂,
      ls = ls₁ ++ .user (.addSignal ti interface msgId signalName yMin yMax yAxis label) :: ls₂ ∧
        after = opsFrom env (engineAfter env engine (incomingsOf ls₁)) ls₂ := by
  induction ls generalizing engine before with
  | nil =>
    cases before <;> cases h
  | cons l ls ih =>
    cases l with
    | user op =>
      rw [opsFrom] at h
      cases before with
      | nil =>
        cases h
        exact ⟨[], ls, rfl, rfl⟩
      | cons op' before =>
        obtain ⟨rfl, hrest⟩ := List.cons.inj h
        obtain ⟨ls₁, ls₂, rfl, hafter⟩ := ih hrest
        exact ⟨.user op :: ls₁, ls₂, rfl, hafter⟩
    | frame incoming plotClock =>
      rw [opsFrom, List.cons_append] at h
      cases before with
      | nil => cases (List.cons.inj h).1
      | cons op' before =>
        obtain ⟨-, hrest⟩ := List.cons.inj h
        -- The addition is not among the pushes.
        rcases List.append_eq_append_iff.mp hrest with ⟨more, hbefore, hmore⟩ | ⟨more, hpush, hmore⟩
        · obtain ⟨ls₁, ls₂, rfl, hafter⟩ := ih hmore
          exact ⟨.frame incoming plotClock :: ls₁, ls₂, rfl, hafter⟩
        · cases more with
          | nil =>
            rw [List.nil_append] at hmore
            obtain ⟨ls₁, ls₂, rfl, hafter⟩ := ih (hmore.symm.trans (List.nil_append _).symm)
            exact ⟨.frame incoming plotClock :: ls₁, ls₂, rfl, hafter⟩
          | cons op'' more =>
            obtain ⟨rfl, -⟩ := List.cons.inj hmore
            have hmem : GraphOp.addSignal ti interface msgId signalName yMin yMax yAxis label ∈
                (callbackOutputs engine (env.decoded incoming.frame)).map fun output =>
                  GraphOp.pushValue ModelWindow.IFACE output.1 output.2 (plotClock output.1) := by
              rw [hpush]
              exact List.mem_append_right _ List.mem_cons_self
            obtain ⟨output, -, houtput⟩ := List.mem_map.mp hmem
            cases houtput

/-- A user's change of the graphs brings no frame. -/
theorem incomingsOf_user (ls₁ ls₂ : List GuiViews.Label) (op : GraphOp) :
    incomingsOf (ls₁ ++ .user op :: ls₂) = incomingsOf ls₁ ++ incomingsOf ls₂ := by
  rw [incomingsOf, List.filterMap_append]
  rfl

/-- A series has been added by the user, and has what was delivered to it since then. -/
theorem exists_addSignal (now : Int) (engine : Option (ModelEngine Lua)) {ls : List GuiViews.Label}
    {ti : Nat} {s : SignalSeries}
    (hs : s ∈ (run GraphMenu.step { window := { start := now } } (opsFrom env engine ls)).series ti) :
    ∃ ls₁ yMin yMax yAxis label ls₂,
      ls = ls₁ ++
        .user (.addSignal ti s.interface s.msgId s.signalName yMin yMax yAxis label) :: ls₂ ∧
      s.ys = (((opsFrom env (engineAfter env engine (incomingsOf ls₁)) ls₂).flatMap
        (GraphOp.delivered now s.key)).map Prod.snd).rtake 10000 := by
  obtain ⟨-, hheld⟩ := GraphMenu.heldSince_run
    (m := { window := { start := now } }) (fun ti => by simp [GraphMenu.series])
    (opsFrom env engine ls)
  obtain ⟨before, yMin, yMax, yAxis, label, after, hops, -, -, -, hys⟩ := hheld ti s hs
  obtain ⟨ls₁, ls₂, rfl, rfl⟩ := exists_user_of_opsFrom env hops
  refine ⟨ls₁, yMin, yMax, yAxis, label, ls₂, rfl, ?_⟩
  rw [hys]
  simp [List.rtake, List.map_drop, SignalSeries.MAX]

end Series

/-! ### The views agree with the log -/

/-- The value that was logged last on a topic. -/
def lastLogged (calls : List (LogCall pb)) (topic : String) : Option ℚ :=
  lookup (scalarRows calls).reverse topic

def GuiViews.start (names : List String) (engine : Option (ModelEngine Lua))
    (logController : LogController) (now : Int) : GuiViews Lua where
  gui := run_gui.start names engine logController
  graphs := { window := { start := now } }

def TuiViews.start (engine : Option (ModelEngine Lua)) (logMode : Bool) : TuiViews Lua where
  tui := run_tui.start engine logMode

/-- The rows of one name are those of its topic. -/
theorem lookup_topic (path : String) (rows : List (String × ℚ)) (name : String) :
    lookup (rows.map fun row => (ModelEngine.topic path row.1, row.2)) (ModelEngine.topic path name) =
      lookup rows name := by
  induction rows with
  | nil => rfl
  | cons row rows ih =>
    simp only [lookup, List.map_cons, List.find?_cons] at ih ⊢
    by_cases hname : row.1 = name
    · simp [hname]
    · have htopic : ModelEngine.topic path row.1 ≠ ModelEngine.topic path name :=
        fun h => hname (topic_injective path h)
      simpa [hname, htopic] using ih

theorem filter_topic (path : String) (rows : List (String × ℚ)) (name : String) :
    (((rows.map fun row => (ModelEngine.topic path row.1, row.2)).filter fun row =>
        row.1 = ModelEngine.topic path name).map Prod.snd) =
      (rows.filter fun row => row.1 = name).map Prod.snd := by
  rw [List.filter_map, List.map_map]
  have hsame : (fun row : String × ℚ => decide (row.1 = name)) =
      (fun row => decide (row.1 = ModelEngine.topic path name)) ∘
        fun row => (ModelEngine.topic path row.1, row.2) := by
    funext row
    simp [(topic_injective path).eq_iff]
  rw [hsame]
  rfl

/-- **What a model puts out.** In every run of a GUI and of a TUI with the same frames, whatever the
user does with the graphs in between: the table of the GUI has one row for each name; it and the map
of the TUI have, for each name, the value that was logged last on the topic of the name; and a series
of an output holds the last 10000 values that were logged on the topic since the user added it. -/
theorem model_outputs_agree (env : ReceiveEnv pb) (engine : ModelEngine Lua) (names : List String)
    (logController : LogController) (logMode : Bool) (now : Int) {ls : List GuiViews.Label}
    (huser : ∀ op, GuiViews.Label.user op ∈ ls → op.isUser = true)
    (hiface : ∀ incoming ∈ incomingsOf ls,
      incoming.frame.header.interface ≠ ModelWindow.IFACE) :
    let topic := ModelEngine.topic engine.script.path
    let callsOf := fun ls => (Reception.ofFrames env (some engine) (incomingsOf ls)).calls
    let views := run (GuiViews.step env) (GuiViews.start names (some engine) logController now) ls
    let tui := run (TuiViews.onFrame env) (TuiViews.start (some engine) logMode) (incomingsOf ls)
    (views.values.map Prod.fst).Nodup ∧
      (∀ name, lookup views.values name = lastLogged (callsOf ls) (topic name) ∧
        tui.modelOutputs name = lastLogged (callsOf ls) (topic name)) ∧
      ∀ ti, ∀ s ∈ views.graphs.series ti, s.interface = ModelWindow.IFACE → s.msgId = 0 →
        ∃ ls₁ yMin yMax yAxis label ls₂,
          ls = ls₁ ++ .user (.addSignal ti s.interface s.msgId s.signalName yMin yMax yAxis
            label) :: ls₂ ∧
          s.ys = ((((scalarRows (callsOf ls)).drop (scalarRows (callsOf ls₁)).length).filter
            fun row => row.1 = topic s.signalName).map Prod.snd).rtake 10000 := by
  intro topic callsOf views tui
  have hpath : ∀ e ∈ some engine, e.script.path = engine.script.path := by
    intro e he
    cases he
    rfl
  have hrows : ∀ ls', scalarRows (callsOf ls') =
      (outputsFrom env (some engine) (incomingsOf ls')).map fun output =>
        (topic output.1, output.2) :=
    fun ls' => scalarRows_run env (incomingsOf ls') { engine := some engine } hpath
  have hviews : views = _ := run_views env _ ls
  have hlast : ∀ name, lookup (outputsFrom env (some engine) (incomingsOf ls)).reverse name =
      lastLogged (callsOf ls) (topic name) := by
    intro name
    rw [lastLogged, hrows, ← List.map_reverse]
    exact (lookup_topic _ _ _).symm
  refine ⟨?_, ?_, ?_⟩
  · rw [hviews]
    have hempty : (([] : List (String × ℚ)).map Prod.fst).Nodup := List.nodup_nil
    exact nodup_writes hempty _
  · intro name
    constructor
    · rw [hviews, ← hlast]
      exact (lookup_writes _ _ _).trans (Option.or_none)
    · have htui : tui.modelOutputs = _ := run_tuiViews env _ _
      rw [htui, ← hlast]
      exact (foldl_set_eq_lookup _ _ _).trans (Option.or_none)
  · intro ti s hs hmodel hid
    rw [hviews] at hs
    obtain ⟨ls₁, yMin, yMax, yAxis, label, ls₂, rfl, hys⟩ :=
      exists_addSignal env now (some engine) hs
    refine ⟨ls₁, yMin, yMax, yAxis, label, ls₂, rfl, ?_⟩
    have hkey : s.key = (ModelWindow.IFACE, 0, s.signalName) := by
      rw [SignalSeries.key, hmodel, hid]
    have hvalues := delivered_opsFrom env now s.signalName ls₂
      (engineAfter env (some engine) (incomingsOf ls₁))
      (fun op hop => huser op (List.mem_append_right _ (List.mem_cons_of_mem _ hop)))
      (fun incoming hincoming => hiface incoming
        (by rw [incomingsOf_user]; exact List.mem_append_right _ hincoming))
    have hlater : (scalarRows (callsOf (ls₁ ++ .user (.addSignal ti s.interface s.msgId s.signalName
        yMin yMax yAxis label) :: ls₂))).drop (scalarRows (callsOf ls₁)).length =
        (outputsFrom env (engineAfter env (some engine) (incomingsOf ls₁)) (incomingsOf ls₂)).map
          fun output => (topic output.1, output.2) := by
      rw [hrows, hrows, incomingsOf_user, outputsFrom_append, List.map_append, List.drop_left]
    rw [hys, hkey, hvalues, hlater]
    exact congrArg (List.rtake · 10000) (filter_topic _ _ _).symm

/-- A script that counts the frames. -/
def countingEngine : ModelEngine Nat where
  script := { path := "models/count.lua", run := fun n _ => (n + 1, some (.number n)) }
  lua := 0

/-- The count is added to a graph after the first frame. -/
def countedFrames : List GuiViews.Label :=
  (crossing.take 1).map (GuiViews.Label.frame · fun _ => 0) ++
    [.user (.addGraph ""), .user (.addSignal 0 ModelWindow.IFACE 0 "output" 0 0 0 "")] ++
    (crossing.drop 1).map (GuiViews.Label.frame · fun _ => 0)

theorem model_outputs_agree_counted :
    let views := run (GuiViews.step crossingEnv)
      (GuiViews.start ["vcan0", "vcan1"] (some countingEngine) {} 0) countedFrames
    let tui := run (TuiViews.onFrame crossingEnv) (TuiViews.start (some countingEngine) true) crossing
    lookup views.values "output" = some 2 ∧ tui.modelOutputs "output" = some 2 := by
  intro views tui
  have huser : ∀ op, GuiViews.Label.user op ∈ countedFrames → op.isUser = true := by
    intro op hop
    simp [countedFrames, crossing] at hop
    rcases hop with rfl | rfl <;> rfl
  have hiface : ∀ incoming ∈ incomingsOf countedFrames,
      incoming.frame.header.interface ≠ ModelWindow.IFACE := by
    intro incoming hincoming
    have hcrossing : incomingsOf countedFrames = crossing := rfl
    simp only [hcrossing, crossing, List.mem_cons, List.not_mem_nil, or_false] at hincoming
    rcases hincoming with rfl | rfl | rfl <;> decide
  obtain ⟨-, hlast, -⟩ := model_outputs_agree crossingEnv countingEngine ["vcan0", "vcan1"] {} true 0
    huser hiface
  obtain ⟨hvalues, htui⟩ := hlast "output"
  refine ⟨hvalues.trans ?_, htui.trans ?_⟩
  · decide +kernel
  · decide +kernel

end Caneo
