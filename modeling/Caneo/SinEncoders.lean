import Caneo.Gui
import Caneo.MuxRoundTrip
import Caneo.PresetActions
import Caneo.SinPayloads

/-!
# The frames of sin actions

The encode function of a sin action that the send window or a preset makes replaces one signal in a
payload of its message, in every state that the program can reach (`Env.Makes.encodesSignal`). So what
holds of such a payload holds of every frame that these actions send.

The TUI's own sin actions are not meant here: they set the value in the send model and encode the
whole message.
-/

namespace Caneo

open BitField Runs

/-! ### Where the encode functions come from -/

/-- The encode functions of the GUI's actions, in any state that it reaches, and of presets. -/
inductive Env.Makes (env : Env) : (ℚ → SendModels → Bytes × SendModels) → Prop where
  | gui {now : ℚ} {cfgs : List InterfaceConfig} {g₀ : Gui} {ls : List Gui.Label}
      {a : Action SendModels} {f : ℚ → SendModels → Bytes × SendModels} :
      Gui.runGui env now cfgs = .ok g₀ → a ∈ (run (Gui.step env) g₀ ls).handler.actions →
      a.encodeFn = some f → Makes env f
  | preset {now : ℚ} {cfg : InterfaceConfig} {r : Request SendModels} {a : Action SendModels}
      {f : ℚ → SendModels → Bytes × SendModels} :
      r ∈ (loadActionPresets env.casts env.conv env.srt env.dbcFiles env.yamlFiles now cfg).1 →
      r.action = some a → a.encodeFn = some f → Makes env f

/-- It replaces one signal in a payload of a message of one of the DBC files. -/
def Env.Patches (env : Env) (f : ℚ → SendModels → Bytes × SendModels) : Prop :=
  ∃ path network, env.dbcFiles path = .network network ∧ EncodesSignal env.casts network f

theorem Env.exists_path {env : Env} {cfgs : List InterfaceConfig} {net : String × INetwork}
    (h : net ∈ env.networks cfgs) : ∃ path, env.dbcFiles path = .network net.2 := by
  obtain ⟨cfg, -, hcfg⟩ := List.mem_filterMap.mp h
  rw [Env.network] at hcfg
  split at hcfg
  · cases hcfg
  · split at hcfg
    · next hfile =>
      cases hcfg
      exact ⟨cfg.dbc, hfile⟩
    · cases hcfg
    · cases hcfg

theorem Env.patches_of_preset {env : Env} {now : ℚ} {cfg : InterfaceConfig}
    {r : Request SendModels}
    (hr : r ∈ (loadActionPresets env.casts env.conv env.srt env.dbcFiles env.yamlFiles now cfg).1)
    {a : Action SendModels} (ha : r.action = some a) {f : ℚ → SendModels → Bytes × SendModels}
    (hf : a.encodeFn = some f) : env.Patches f := by
  obtain ⟨network, _, -, hfile, -, entry, -, p, hfrom, rfl⟩ := mem_loadActionPresets_from hr
  cases ha
  exact ⟨cfg.dbc, network, hfile, hfrom.encodesSignal hf⟩

namespace Gui

variable {env : Env} {cfgs : List InterfaceConfig}

theorem Asks.patches {models : SendModels} (hpres : env.Presents cfgs models)
    {r : Request SendModels} (h : Asks env models r) {a : Action SendModels}
    (ha : r.action = some a) {f : ℚ → SendModels → Bytes × SendModels}
    (hf : a.encodeFn = some f) : env.Patches f := by
  cases h with
  | @sin _ _ _ _ _ _ _ _ i mi k sm ss hsm hss _ _ =>
    cases ha
    cases hf
    obtain ⟨net, hnet, msg, hmsg, hpresents⟩ := SendModels.Present.exists_msg hpres hsm
    obtain ⟨path, hpath⟩ := Env.exists_path hnet
    exact ⟨path, net.2, hpath, msg, hmsg, sm, hpresents, k, ss, hss, rfl⟩
  | single =>
    cases ha
    cases hf
  | periodic =>
    cases ha
    cases hf
  | updateSinParam | updatePayload | togglePause | removeAction => cases ha

/-- The invariant: the models present the DBC files, and every encode function, of an action in the
list or on its way there, replaces one signal in a payload. -/
structure Patching (env : Env) (cfgs : List InterfaceConfig) (h : ActionHandler SendModels) : Prop where
  reached : h.Reached env.trig (env.Presents cfgs)
  fns : h.FnsKept env.Patches

theorem Patching.step {h : ActionHandler SendModels} (hp : Patching env cfgs h)
    {l : ActionHandler.Label SendModels} (hl : ∀ r, l ≠ .request r) :
    Patching env cfgs (ActionHandler.step env.trig h l) where
  reached := hp.reached.step fun r _ he => absurd he (hl r)
  fns := hp.fns.preserved env.trig fun r _ he => absurd he (hl r)

theorem keptByAsks_patching (env : Env) (cfgs : List InterfaceConfig) :
    KeptByAsks env (Patching env cfgs) where
  setValues h i mi values hp :=
    ⟨(keptByFrames_reached env cfgs).setValues h i mi values hp.reached,
      hp.fns.actions, hp.fns.arriving⟩
  request h r hasks hp := by
    refine ⟨(keptByFrames_reached env cfgs).request h r hasks.keeps hp.reached, ?_⟩
    apply hp.fns.preserved env.trig
    rintro r' a ⟨⟩ ha f hf
    exact hasks.patches hp.reached.worldKept.world ha hf

theorem patching_runGui {now : ℚ} {g : Gui} (h : runGui env now cfgs = .ok g) :
    Patching env cfgs g.handler := by
  refine ⟨sound_runGui h, ?_⟩
  obtain ⟨handler, models, hload, -, rfl⟩ := exists_of_runGui h
  have hfns : handler.FnsKept env.Patches := by
    refine env.loadPresets_invariant_mem ?_ (ActionHandler.FnsKept.init _) hload
    intro h cfg _ r hr hk
    apply hk.preserved env.trig
    rintro r' a ⟨⟩ ha f hf
    exact Env.patches_of_preset hr ha hf
  exact ⟨hfns.actions, hfns.arriving⟩

theorem patching_run {now : ℚ} {g : Gui} (h : runGui env now cfgs = .ok g) (ls : List Label) :
    Patching env cfgs (run (Gui.step env) g ls).handler := by
  refine run_invariant (P := fun g : Gui => Patching env cfgs g.handler) ?_ (patching_runGui h) ls
  intro g l hp
  apply (keptByAsks_patching env cfgs).step
  · exact fun h timer hp => hp.step (by simp)
  · exact fun h tick hp => hp.step (by simp)
  · exact hp

end Gui

theorem Env.Makes.patches {env : Env} {f : ℚ → SendModels → Bytes × SendModels}
    (h : env.Makes f) : env.Patches f := by
  cases h with
  | @gui now cfgs g₀ ls a f hrun ha hf =>
    apply (Gui.patching_run hrun ls).fns.actions
    rw [← hf]
    exact List.mem_map_of_mem ha
  | preset hr ha hf => exact Env.patches_of_preset hr ha hf

/-! ### What the frames hold -/

/-- dbcppp's documented behaviour, for the signals of the DBC files. -/
structure Env.Documented (env : Env) : Prop where
  bitAccess : env.BitAccess
  linear : ∀ path network, env.dbcFiles path = .network network →
    ∀ msg ∈ network.messages, ∀ sig ∈ msg.signals, sig.LinearPhys
  truncates : ∀ path network, env.dbcFiles path = .network network →
    ∀ msg ∈ network.messages, ∀ sig ∈ msg.signals, sig.TruncatesPhys
  floats : ∀ path network, env.dbcFiles path = .network network →
    ∀ msg ∈ network.messages, ∀ sig ∈ msg.signals, sig.FloatPhys env.casts

/-- **The two encoders.** The encode functions replace one signal in a payload of `SendModel`, and
what they build is the payload that `SendModel` encodes with that value, if and only if the signal is
an integer or the scaled value has the same bits as the value itself. -/
theorem sin_encoders_agree_iff (env : Env) (hdoc : env.Documented) :
    (∀ f, env.Makes f → env.Patches f) ∧
    ∀ path network, env.dbcFiles path = .network network → ∀ msg ∈ network.messages, msg.Apart →
      ∀ (model : SendModel) (idx : Nat) (sm : SendMessage), model.messages[idx]? = some sm →
      sm.Presents msg → ∀ (k : Nat) (ss : SendSignal), sm.signals[k]? = some ss → ∀ v : ℚ,
      (ss.sig.minimum < ss.sig.maximum → ss.sig.minimum ≤ v ∧ v ≤ ss.sig.maximum) →
        ((model.setValue idx k v).encode env.casts idx =
            some (Preset.encodeFn (sm.encode env.casts) ss.sig ss.minVal ss.maxVal v) ↔
          ss.sig.SameBits env.casts v) := by
  refine ⟨fun f hf => hf.patches, ?_⟩
  intro path network hpath msg hmsg hapart model idx sm hidx hpres k ss hk v hv
  exact SendModel.encodeFn_eq_encode_iff hapart (hdoc.bitAccess path network hpath msg hmsg)
    (hdoc.floats path network hpath msg hmsg) hidx hpres hk hv

/-- **The range of a sin action.** Whatever value a sin action of the send window or of a preset
encodes, the decoder reports a value in the signal's range, and for the signals on other bits what the
base payload has. -/
theorem sin_frame_in_range (env : Env) (hdoc : env.Documented)
    (f : ℚ → SendModels → Bytes × SendModels) (hf : env.Makes f) :
    ∃ path network, env.dbcFiles path = .network network ∧ ∃ msg ∈ network.messages,
      ∃ sig ∈ msg.signals, ∃ base : Bytes, base.length = msg.messageSize ∧
        (f = fun v w => (Preset.encodeFn base sig sig.minimum sig.maximum v, w)) ∧
        (sig.RawRange → (∀ s ∈ msg.signals, s.field.Within msg.messageSize) → ∀ v w,
          DbcPppWrapper.Replaces env.casts (DbcPppWrapper.ofNetwork network) msg sig base
            (f v w).1) := by
  obtain ⟨path, network, hpath, msg, hmsg, sm, hpres, k, ss, hk, rfl⟩ := hf.patches
  have hss := List.mem_of_getElem? hk
  have hsig := hpres.sig_mem hss
  have hacc := hdoc.bitAccess path network hpath msg hmsg
  obtain ⟨-, -, hmin, hmax⟩ := hpres.labels ss hss
  have hbase : (sm.encode env.casts).length = msg.messageSize := by
    rw [SendMessage.length_encode (hpres.bitAccess hacc), hpres.dlc_eq]
  refine ⟨path, network, hpath, msg, hmsg, ss.sig, hsig, sm.encode env.casts, hbase, ?_, ?_⟩
  · rw [hmin, hmax]
  · intro hrange hwithin v w
    rw [hmin, hmax]
    exact DbcPppWrapper.replaces_encodeFn env.casts _ hwithin hacc hsig
      (hdoc.linear path network hpath msg hmsg _ hsig)
      (hdoc.truncates path network hpath msg hmsg _ hsig) hrange hbase v

/-! ### A sweep over the range

The unsigned `ERROR` of the repository's `vcan0.dbc`, and a sin preset for it. -/

def sweepEntry : YAML.Node :=
  .map [(.scalar "type", .scalar "sin"), (.scalar "msg", .scalar "ERROR_MSG"),
    (.scalar "signal", .scalar "ERROR"), (.scalar "amplitude", .scalar "60000")]

def sweepNetwork : INetwork := ⟨[errorMsg .Unsigned]⟩

def sweepEnv : Env where
  casts := .zero
  trig := ActionHandler.flatTrig
  srt := .insertion
  conv := .decimal
  dbcFiles path := if path = "error.dbc" then .network sweepNetwork else .missing
  yamlFiles path := if path = "sweep.yaml" then .ok (.sequence [sweepEntry]) else .error "bad file"
  stod := YAML.Conversions.decimal.asDouble
  stol := YAML.Conversions.decimal.asInt
  atoi text := (YAML.Conversions.decimal.asInt text).getD 0
  formatG v := toString v.num

theorem sweepEnv_network {path : String} {network : INetwork}
    (h : sweepEnv.dbcFiles path = .network network) : network = sweepNetwork := by
  simp only [sweepEnv] at h
  split at h
  · cases h
    rfl
  · cases h

theorem sweepNetwork_signals {msg : IMessage} (hmsg : msg ∈ sweepNetwork.messages) {sig : ISignal}
    (hsig : sig ∈ msg.signals) : msg = errorMsg .Unsigned ∧ sig = ERROR .Unsigned := by
  obtain rfl := List.mem_singleton.mp hmsg
  exact ⟨rfl, List.mem_singleton.mp hsig⟩

theorem sweepEnv_documented : sweepEnv.Documented where
  bitAccess path network h msg hmsg sig hsig := by
    obtain rfl := sweepEnv_network h
    obtain ⟨-, rfl⟩ := sweepNetwork_signals hmsg hsig
    exact ISignal.ofLine_bitAccess _
  linear path network h msg hmsg sig hsig := by
    obtain rfl := sweepEnv_network h
    obtain ⟨-, rfl⟩ := sweepNetwork_signals hmsg hsig
    exact ISignal.ofLine_linearPhys _
  truncates path network h msg hmsg sig hsig := by
    obtain rfl := sweepEnv_network h
    obtain ⟨-, rfl⟩ := sweepNetwork_signals hmsg hsig
    exact ISignal.ofLine_truncatesPhys _
  floats path network h msg hmsg sig hsig := by
    obtain rfl := sweepEnv_network h
    obtain ⟨-, rfl⟩ := sweepNetwork_signals hmsg hsig
    exact fun hne => absurd rfl hne

theorem ERROR_rawRange : (ERROR .Unsigned).RawRange where
  integer := rfl
  bitSize_lt := by decide
  factor_pos := (ERROR_nonNegative .Unsigned).factor_pos
  range := (ERROR_nonNegative .Unsigned).range
  minimum_raw := ⟨0, Or.inr ⟨rfl, by decide, by decide⟩, by decide +kernel⟩
  maximum_raw := ⟨60000, Or.inr ⟨rfl, by decide, by decide⟩, by decide +kernel⟩

theorem errorMsg_apart : (errorMsg .Unsigned).Apart where
  disjoint := List.pairwise_singleton _ _
  within sig hsig := by
    obtain rfl := List.mem_singleton.mp hsig
    exact (ERROR_decodes .Unsigned).within

/-- The preset creates a sin action. -/
theorem sweepEnv_makes : ∃ f, sweepEnv.Makes f := by
  let cfg : InterfaceConfig := ⟨"vcan0", "error.dbc", "sweep.yaml"⟩
  have hsome : ((loadActionPresets sweepEnv.casts sweepEnv.conv sweepEnv.srt sweepEnv.dbcFiles
      sweepEnv.yamlFiles 0 cfg).1.any fun r : Request SendModels =>
        (r.action.bind Action.encodeFn).isSome) = true := by
    decide +kernel
  obtain ⟨r, hr, hr'⟩ := List.any_eq_true.mp hsome
  obtain ⟨f, hf⟩ := Option.isSome_iff_exists.mp hr'
  obtain ⟨a, ha, hf⟩ := Option.bind_eq_some_iff.mp hf
  exact ⟨f, .preset hr ha hf⟩

/-- The value 5 of `ERROR`, through both encoders. -/
theorem sin_encoders_agree_ERROR :
    ((SendModel.ofNetwork .insertion sweepNetwork).setValue 0 0 5).encode .zero 0 =
      some (Preset.encodeFn
        ((SendMessage.ofMessage .insertion (errorMsg .Unsigned)).encode .zero)
        (ERROR .Unsigned) 0 60000 5) := by
  have h := (sin_encoders_agree_iff sweepEnv sweepEnv_documented).2 "error.dbc" sweepNetwork rfl
    (errorMsg .Unsigned) List.mem_cons_self errorMsg_apart
    (SendModel.ofNetwork .insertion sweepNetwork) 0
    (SendMessage.ofMessage .insertion (errorMsg .Unsigned)) rfl
    (SendMessage.ofMessage_presents _ _) 0 (SendSignal.ofSignal (ERROR .Unsigned)) rfl 5
    (fun _ => by decide +kernel)
  exact h.mpr fun hne => absurd rfl hne

/-- Every frame of the sweep is in the range. -/
theorem sin_frame_in_range_sweep :
    ∃ f, sweepEnv.Makes f ∧ ∃ base : Bytes, base.length = 2 ∧ ∀ v w,
      DbcPppWrapper.Replaces .zero (DbcPppWrapper.ofNetwork sweepNetwork) (errorMsg .Unsigned)
        (ERROR .Unsigned) base (f v w).1 := by
  obtain ⟨f, hf⟩ := sweepEnv_makes
  obtain ⟨path, network, hpath, msg, hmsg, sig, hsig, base, hbase, -, hall⟩ :=
    sin_frame_in_range sweepEnv sweepEnv_documented f hf
  obtain rfl := sweepEnv_network hpath
  obtain ⟨rfl, rfl⟩ := sweepNetwork_signals hmsg hsig
  exact ⟨f, hf, base, hbase, hall ERROR_rawRange errorMsg_apart.within⟩

/-! ### A sweep over a multiplexer switch

A sin preset for the switch of a multiplexed message, with the speed's group selected in the base
payload. -/

namespace DriveState

def sweepEntry : YAML.Node :=
  .map [(.scalar "type", .scalar "sin"), (.scalar "msg", .scalar "DriveState"),
    (.scalar "signal", .scalar "Mode"),
    (.scalar "signals", .map [(.scalar "Speed", .scalar "1")])]

def env : Env :=
  { sweepEnv with
    dbcFiles := fun path => if path = "drive.dbc" then .network ⟨[message]⟩ else .missing
    yamlFiles := fun path =>
      if path = "sweep.yaml" then .ok (.sequence [sweepEntry]) else .error "bad file" }

theorem Mode_rawRange : Mode.RawRange where
  integer := rfl
  bitSize_lt := by decide
  factor_pos := by decide +kernel
  range := by decide +kernel
  minimum_raw := ⟨0, Or.inr ⟨rfl, by decide, by decide⟩, by decide +kernel⟩
  maximum_raw := ⟨255, Or.inr ⟨rfl, by decide, by decide⟩, by decide +kernel⟩

/-- The speed shares no bit with the switch, and is reported of the base payload but not of the frame
for the value 1. -/
theorem not_reported_as_in_base :
    (∃ f, env.Makes f ∧ (f 0 []).1 = [0, 1, 0] ∧ (f 1 []).1 = [1, 1, 0]) ∧
    Mode.RawRange ∧ Speed.field.Disjoint Mode.field ∧
    ((DbcPppWrapper.ofNetwork ⟨[message]⟩).decode .zero (frame [0, 1, 0])).decoded.map
      (fun s => (s.name, s.value)) = [("Mode", 0), ("Speed", 1)] ∧
    ((DbcPppWrapper.ofNetwork ⟨[message]⟩).decode .zero (frame [1, 1, 0])).decoded.map
      (fun s => (s.name, s.value)) = [("Mode", 1), ("Torque", 0)] := by
  refine ⟨?_, Mode_rawRange, by decide +kernel, by decide +kernel, by decide +kernel⟩
  let cfg : InterfaceConfig := ⟨"vcan0", "drive.dbc", "sweep.yaml"⟩
  have hsome : ((loadActionPresets env.casts env.conv env.srt env.dbcFiles env.yamlFiles 0 cfg).1.any
      fun r : Request SendModels => (r.action.bind Action.encodeFn).any fun f =>
        (f 0 []).1 = [0, 1, 0] ∧ (f 1 []).1 = [1, 1, 0]) = true := by
    decide +kernel
  obtain ⟨r, hr, hr'⟩ := List.any_eq_true.mp hsome
  obtain ⟨f, hf, hbytes⟩ := (Option.any_eq_true _ _).mp hr'
  obtain ⟨a, ha, hf⟩ := Option.bind_eq_some_iff.mp hf
  exact ⟨f, .preset hr ha hf, of_decide_eq_true hbytes⟩

end DriveState

/-! ### A scaled floating-point signal -/

/-- Correct for the values 0, 1 and 2. -/
def BitCasts.small : BitCasts where
  floatBits v := if v = 1 then 0x3F800000 else if v = 2 then 0x40000000 else 0
  ofFloatBits x := if x = 0x3F800000 then 1 else if x = 0x40000000 then 2 else 0
  doubleBits v := if v = 1 then 0x3FF0000000000000 else if v = 2 then 0x4000000000000000 else 0
  ofDoubleBits x := if x = 0x3FF0000000000000 then 1 else if x = 0x4000000000000000 then 2 else 0

/-- A signal of floating-point type that behaves as documented. -/
def ISignal.ofFloatLine (casts : BitCasts) (s : SignalLine) : ISignal :=
  { ISignal.ofLine s with
    physToRaw := fun v => (ISignal.ofLine s).floatRaw casts ((v - s.offset) / s.factor) }

theorem ISignal.ofFloatLine_bitAccess (casts : BitCasts) (s : SignalLine) :
    (ISignal.ofFloatLine casts s).BitAccess where
  encode_isWrite raw := s.field.isWrite_write raw.getLsbD
  decode_eq _ _ := rfl

theorem ISignal.ofFloatLine_floatPhys (casts : BitCasts) (s : SignalLine) :
    (ISignal.ofFloatLine casts s).FloatPhys casts :=
  fun _ _ => rfl

/-- A `float` signal with Factor 2, of the size and the layout of the repository's speed signals. -/
def SPEED : ISignal := ISignal.ofFloatLine .small
  { name := "SPEED", startBit := 0, bitSize := 32, valueType := .Signed,
    extendedValueType := .Float, factor := 2, minimum := 0, maximum := 0 }

def speedMsg : IMessage where
  id := 2
  name := "SPEED_MSG"
  messageSize := 4
  signals := [SPEED]

/-- For the value 2, `SendModel` encodes 2.0 (`00 00 00 40`) and the encode function 1.0
(`00 00 80 3F`). -/
theorem not_sin_encoders_agree_SPEED :
    SPEED.BitAccess ∧ SPEED.FloatPhys .small ∧ speedMsg.Apart ∧
    ((SendModel.ofNetwork .insertion ⟨[speedMsg]⟩).setValue 0 0 2).encode .small 0 ≠
      some (Preset.encodeFn ((SendMessage.ofMessage .insertion speedMsg).encode .small)
        SPEED 0 0 2) := by
  refine ⟨ISignal.ofFloatLine_bitAccess _ _, ISignal.ofFloatLine_floatPhys _ _, ⟨?_, ?_⟩, ?_⟩
  · exact List.pairwise_singleton _ _
  · decide +kernel
  · decide +kernel

end Caneo
