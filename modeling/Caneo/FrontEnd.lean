import Caneo.ActionPreset
import Caneo.ActionRequests
import Caneo.SendModels

/-!
# Starting a front end

Both front ends start alike (`src/modes/run_tui.cpp`, `run_gui.cpp`): the presets of every interface
are posted to the action handler, a `SendModel` is made for every interface with a DBC, and then the
UI thread and the io thread work on the handler and the models. The models are the world of the
handler: the encode functions of some actions change them.

`Reached` is what both have in common from then on. In each of its states the handler's objects are
distinct, its snapshot is in step with its actions, and the models present the DBCs.
-/

namespace Caneo

open BitField EventLoop Runs Containers

/-- What the program takes from its files, its libraries and the C++ runtime. -/
structure Env where
  casts : BitCasts
  trig : Trig
  srt : RangesSort
  conv : YAML.Conversions
  dbcFiles : String → DbcFile
  yamlFiles : String → Except String YAML.Node
  /-- `std::stod` and `std::stol`; `none` where they throw. -/
  stod : String → Option ℚ
  stol : String → Option Int
  atoi : String → Int
  /-- `std::format("{:.6g}", v)` -/
  formatG : ℚ → String

namespace Env

variable (env : Env)

/-- Every signal of every DBC file has dbcppp's documented access to its bits. -/
def BitAccess : Prop :=
  ∀ path network, env.dbcFiles path = .network network →
    ∀ msg ∈ network.messages, ∀ sig ∈ msg.signals, sig.BitAccess

/-! ### The models -/

/-- The DBC of an interface, if it has one that can be parsed. -/
def network (cfg : InterfaceConfig) : Option (String × INetwork) :=
  if cfg.dbc.isEmpty then none
  else match env.dbcFiles cfg.dbc with
    | .network network => some (cfg.name, network)
    | .missing | .unparsable => none

def networks (cfgs : List InterfaceConfig) : List (String × INetwork) :=
  cfgs.filterMap env.network

/-- `send_models_` of the TUI, whose constructor catches the exceptions of `SendModel`'s. -/
def sendModels (cfgs : List InterfaceConfig) : SendModels :=
  cfgs.filterMap fun cfg =>
    if cfg.dbc.isEmpty then none
    else (SendModel.load env.srt env.dbcFiles cfg.dbc).toOption.map fun model => (cfg.name, model)

/-- `ifaces_` of the GUI's send window, whose constructor does not. -/
def ifaces : List InterfaceConfig → Except String SendModels
  | [] => .ok []
  | cfg :: cfgs =>
    if cfg.dbc.isEmpty then ifaces cfgs
    else do
      let model ← SendModel.load env.srt env.dbcFiles cfg.dbc
      return (cfg.name, model) :: (← ifaces cfgs)

theorem sendModels_eq (cfgs : List InterfaceConfig) :
    env.sendModels cfgs = SendModels.ofNetworks env.srt (env.networks cfgs) := by
  rw [sendModels, networks, SendModels.ofNetworks, List.map_filterMap]
  congr 1
  funext cfg
  rw [network]
  by_cases hdbc : cfg.dbc.isEmpty = true
  · rw [if_pos hdbc, if_pos hdbc]
    rfl
  · rw [if_neg hdbc, if_neg hdbc, SendModel.load]
    cases env.dbcFiles cfg.dbc <;> rfl

theorem ifaces_eq {cfgs : List InterfaceConfig} {models : SendModels}
    (h : env.ifaces cfgs = .ok models) :
    models = SendModels.ofNetworks env.srt (env.networks cfgs) := by
  induction cfgs generalizing models with
  | nil =>
    cases h
    rfl
  | cons cfg cfgs ih =>
    rw [ifaces] at h
    rw [networks, List.filterMap_cons, network]
    by_cases hdbc : cfg.dbc.isEmpty = true
    · rw [if_pos hdbc] at h ⊢
      exact ih h
    · rw [if_neg hdbc, SendModel.load] at h
      rw [if_neg hdbc]
      cases hfile : env.dbcFiles cfg.dbc with
      | missing =>
        rw [hfile] at h
        cases h
      | unparsable =>
        rw [hfile] at h
        cases h
      | network network =>
        rw [hfile, YAML.ok_bind] at h
        cases hrest : env.ifaces cfgs with
        | error e =>
          rw [hrest] at h
          cases h
        | ok rest =>
          rw [hrest, YAML.ok_bind] at h
          cases h
          rw [ih hrest]
          rfl

/-! ### The presets -/

/-- The loop over the interfaces; an exception of `load_action_presets` ends the program. -/
def loadPresets (now : ℚ) (h : ActionHandler SendModels) :
    List InterfaceConfig → Except String (ActionHandler SendModels)
  | [] => .ok h
  | cfg :: cfgs =>
    let loaded :=
      loadActionPresets env.casts env.conv env.srt env.dbcFiles env.yamlFiles now cfg
    match loaded.2 with
    | some e => .error e
    | none =>
      loadPresets now (run (ActionHandler.step env.trig) h (loaded.1.map .request)) cfgs

/-- The closures that are posted for the interfaces. -/
def presetRequests (now : ℚ) (cfgs : List InterfaceConfig) : List (Request SendModels) :=
  cfgs.flatMap fun cfg =>
    (loadActionPresets env.casts env.conv env.srt env.dbcFiles env.yamlFiles now cfg).1

theorem loadPresets_eq {now : ℚ} {h h' : ActionHandler SendModels} {cfgs : List InterfaceConfig}
    (hload : env.loadPresets now h cfgs = .ok h') :
    h' = run (ActionHandler.step env.trig) h ((env.presetRequests now cfgs).map .request) := by
  induction cfgs generalizing h with
  | nil =>
    cases hload
    rfl
  | cons cfg cfgs ih =>
    rw [loadPresets] at hload
    split at hload
    · cases hload
    · have hcons : env.presetRequests now (cfg :: cfgs) =
          (loadActionPresets env.casts env.conv env.srt env.dbcFiles env.yamlFiles now cfg).1 ++
            env.presetRequests now cfgs := List.flatMap_cons
      rw [ih hload, hcons, List.map_append, run_append]

end Env

/-! ### The states of the handler -/

namespace ActionHandler

variable {W : Type}

/-- The UI thread may change the world within `P` and post requests whose actions keep `P`, and the
io thread runs. -/
inductive Reached (trig : Trig) (P : W → Prop) : ActionHandler W → Prop where
  | init {world : W} : P world → Reached trig P (init world)
  | change {h : ActionHandler W} {world : W} :
      Reached trig P h → P world → Reached trig P { h with world := world }
  | step {h : ActionHandler W} {l : Label W} : Reached trig P h →
      (∀ r a, l = .request r → r.action = some a → a.Keeps P) → Reached trig P (step trig h l)

variable {trig : Trig} {P : W → Prop} {h : ActionHandler W}

theorem Reached.identities (hr : Reached trig P h) : Identities h := by
  induction hr with
  | init _ => exact identities_init _
  | change _ _ ih => exact ⟨ih.nodup, ih.lt_nextPtr⟩
  | step _ _ ih => exact ih.preserved trig _

theorem Reached.synced (hr : Reached trig P h) : Synced h := by
  induction hr with
  | init _ => rfl
  | change _ _ ih => exact ih
  | step _ _ ih => exact ih.preserved trig _

theorem Reached.worldKept (hr : Reached trig P h) : WorldKept P h := by
  induction hr with
  | init hworld => exact WorldKept.init hworld
  | change _ hworld ih => exact ⟨hworld, ih.actions, ih.arriving⟩
  | step _ hl ih => exact ih.preserved trig hl

theorem Reached.request {r : Request W} (hr : Reached trig P h)
    (hkeeps : ∀ a, r.action = some a → a.Keeps P) :
    Reached trig P (ActionHandler.step trig h (.request r)) := by
  refine hr.step ?_
  intro r' a he ha
  cases he
  exact hkeeps a ha

theorem Reached.expire (hr : Reached trig P h) (timer : Nat) :
    Reached trig P (ActionHandler.step trig h (.expire timer)) := by
  refine hr.step ?_
  intro r a he
  cases he

theorem Reached.run (hr : Reached trig P h) (tick : Tick) :
    Reached trig P (ActionHandler.step trig h (.run tick)) := by
  refine hr.step ?_
  intro r a he
  cases he

/-- Requests that add no action. -/
theorem Reached.other {r : Request W} (hr : Reached trig P h) (hnone : r.action = none) :
    Reached trig P (ActionHandler.step trig h (.request r)) := by
  refine hr.request ?_
  intro a ha
  rw [hnone] at ha
  cases ha

end ActionHandler

/-! ### The handler at the start -/

theorem Action.keeps_newSingle {W : Type} (P : W → Prop) (interface : String) (msgId : BitVec 64)
    (msgName : String) (payload : Bytes) :
    (Action.newSingle interface msgId msgName payload).Keeps P := by
  intro f hf
  cases hf

theorem Action.keeps_newPeriodic {W : Type} (P : W → Prop) (interface : String) (msgId : BitVec 64)
    (msgName : String) (payload : Bytes) (period : Int) :
    (Action.newPeriodic interface msgId msgName payload period).Keeps P := by
  intro f hf
  cases hf

theorem Action.keeps_newSin {W : Type} {P : W → Prop} {now : ℚ} {interface : String}
    {msgId : BitVec 64} {msgName : String} {interval : Int} {encodeFn : ℚ → W → Bytes × W}
    {amplitude : ℚ} {sinPeriod : Int} {offset : ℚ}
    (h : ∀ v w, P w → P (encodeFn v w).2) :
    (Action.newSin now interface msgId msgName interval encodeFn amplitude sinPeriod
      offset).Keeps P := by
  intro f hf
  cases hf
  exact h

/-- The actions of a preset leave the world alone. -/
theorem Preset.keeps_action {W : Type} (P : W → Prop) (now : ℚ) (interface : String) (p : Preset) :
    (p.action now interface : Action W).Keeps P := by
  unfold Preset.action
  cases p.kind with
  | periodic periodMs => exact Action.keeps_newPeriodic P _ _ _ _ _
  | sin isig yLo yHi amplitude periodMs offset intervalMs =>
    exact Action.keeps_newSin fun _ _ hw => hw

/-- `load_action_presets` adds paused actions only. -/
theorem mem_loadActionPresets {W : Type} {casts : BitCasts} {conv : YAML.Conversions}
    {srt : RangesSort} {dbcFiles : String → DbcFile} {yamlFiles : String → Except String YAML.Node}
    {now : ℚ} {cfg : InterfaceConfig} {r : Request W}
    (hr : r ∈ (loadActionPresets casts conv srt dbcFiles yamlFiles now cfg).1) :
    ∃ a, r = .addActionPaused a ∧ ∀ P, a.Keeps P := by
  unfold loadActionPresets at hr
  split at hr
  · cases hr
  · split at hr
    · cases hr
    · split at hr
      · cases hr
      · obtain ⟨p, -, rfl⟩ := List.mem_map.mp hr
        exact ⟨_, rfl, fun P => p.keeps_action P now cfg.name⟩
    · cases hr

/-- The world of a front end: models that present the DBCs of the interfaces. -/
def Env.Presents (env : Env) (cfgs : List InterfaceConfig) (models : SendModels) : Prop :=
  models.Present env.srt (env.networks cfgs)

/-- What the requests of the presets keep, holds when they are loaded. -/
theorem Env.loadPresets_invariant_mem (env : Env) {I : ActionHandler SendModels → Prop} {now : ℚ}
    {h h' : ActionHandler SendModels} {cfgs : List InterfaceConfig}
    (hstep : ∀ h, ∀ cfg ∈ cfgs, ∀ r ∈ (loadActionPresets env.casts env.conv env.srt env.dbcFiles
      env.yamlFiles now cfg).1, I h → I (ActionHandler.step env.trig h (.request r)))
    (hi : I h) (hload : env.loadPresets now h cfgs = .ok h') : I h' := by
  rw [env.loadPresets_eq hload]
  refine run_invariant_mem ?_ hi
  intro h l hl hi
  obtain ⟨r, hr, rfl⟩ := List.mem_map.mp hl
  obtain ⟨cfg, hcfg, hr⟩ := List.mem_flatMap.mp hr
  exact hstep h cfg hcfg r hr hi

/-- What the request of a preset action keeps, holds when the presets are loaded. -/
theorem Env.loadPresets_invariant (env : Env) {I : ActionHandler SendModels → Prop}
    (hstep : ∀ (h : ActionHandler SendModels) (a : Action SendModels), I h → (∀ P, a.Keeps P) →
      I (ActionHandler.step env.trig h (.request (.addActionPaused a))))
    {now : ℚ} {h h' : ActionHandler SendModels} (hi : I h) {cfgs : List InterfaceConfig}
    (hload : env.loadPresets now h cfgs = .ok h') : I h' := by
  refine env.loadPresets_invariant_mem ?_ hi hload
  intro h cfg _ r hr hi
  obtain ⟨a, rfl, hkeeps⟩ := mem_loadActionPresets hr
  exact hstep h a hi hkeeps

theorem Env.reached_loadPresets (env : Env) {P : SendModels → Prop} {now : ℚ}
    {h h' : ActionHandler SendModels} (hr : h.Reached env.trig P) {cfgs : List InterfaceConfig}
    (hload : env.loadPresets now h cfgs = .ok h') : h'.Reached env.trig P := by
  refine env.loadPresets_invariant ?_ hr hload
  intro h a hr hkeeps
  refine hr.request ?_
  rintro b ⟨⟩
  exact hkeeps P

/-- The signals of a front end's messages have documented access to their bits. -/
theorem Env.Presents.bitAccess {env : Env} {cfgs : List InterfaceConfig} {models : SendModels}
    (h : env.Presents cfgs models) (hdbc : env.BitAccess) {i mi : Nat} {sm : SendMessage}
    (hsm : models.message i mi = some sm) : sm.BitAccess := by
  obtain ⟨net, hnet, msg, hmsg, hpres⟩ := SendModels.Present.exists_msg h hsm
  obtain ⟨cfg, -, hcfg⟩ := List.mem_filterMap.mp hnet
  rw [Env.network] at hcfg
  split at hcfg
  · cases hcfg
  · split at hcfg
    · next hfile =>
      cases hcfg
      exact hpres.bitAccess (hdbc _ _ hfile msg hmsg)
    · cases hcfg
    · cases hcfg

end Caneo
