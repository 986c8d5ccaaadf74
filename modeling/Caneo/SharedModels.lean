import Caneo.PayloadEdit
import Caneo.SentPayloads

/-!
# The models that the TUI's actions share

All actions of the TUI are encoded from `send_models_`. The user changes the models by committing
values; but the encode function of a sin action that was created on the send tab sets its signal in
them too, every time it fires, and leaves the value there. (The GUI's sin actions, and those of a
preset file, have a payload of their own for this.)

So the commits alone determine the models, and with them every byte that is encoded, exactly as long
as no such action changes the value that its signal holds (`models_change_only_by_commits_iff`).
-/

namespace Caneo

open BitField EventLoop Runs Containers

/-! ### Held values -/

/-- The value that is held for a signal. -/
def SendModels.value (models : SendModels) (i mi k : Nat) : Option ℚ :=
  (models.message i mi).bind fun sm => (sm.signals[k]?).map (·.value)

/-- Setting a value changes nothing exactly if it is held already. -/
theorem SendModels.setValue_eq_self_iff {models : SendModels} {i mi k : Nat} {v : ℚ} :
    models.setValue i mi k v = models ↔ ∀ held, models.value i mi k = some held → held = v := by
  have hsignal : ∀ sm : SendMessage, sm.setValue k v = sm ↔
      ∀ held, (sm.signals[k]?).map (·.value) = some held → held = v := by
    intro sm
    have hlist := modify_eq_self_iff (l := sm.signals) (i := k)
      (f := fun ss => { ss with value := v })
    constructor
    · intro h held hheld
      obtain ⟨ss, hss, rfl⟩ := Option.map_eq_some_iff.mp hheld
      have hset := hlist.mp (congrArg SendMessage.signals h) ss hss
      exact (congrArg SendSignal.value hset).symm
    · intro h
      have hset : (sm.setValue k v).signals = sm.signals := by
        refine hlist.mpr ?_
        intro ss hss
        rw [← h ss.value (by rw [hss]; rfl)]
      change ({ sm with signals := (sm.setValue k v).signals } : SendMessage) = sm
      rw [hset]
  unfold SendModels.setValue SendModels.value SendModels.message SendModels.model
  rw [modify_eq_self_iff]
  cases models[i]? with
  | none => simp
  | some p =>
    have hmodel : p.2.setValue mi k v = p.2 ↔
        ∀ sm, p.2.messages[mi]? = some sm → sm.setValue k v = sm := by
      rw [← modify_eq_self_iff, SendModel.setValue]
      constructor
      · intro h
        exact congrArg SendModel.messages h
      · intro h
        rw [h]
    constructor
    · intro h held hheld
      obtain ⟨sm, hsm, hheld⟩ := Option.bind_eq_some_iff.mp hheld
      have hset := hmodel.mp (congrArg Prod.snd (h p rfl)) sm hsm
      exact (hsignal sm).mp hset held hheld
    · rintro h _ ⟨⟩
      have hset : p.2.setValue mi k v = p.2 := by
        refine hmodel.mpr ?_
        intro sm hsm
        refine (hsignal sm).mpr ?_
        intro held hheld
        refine h held ?_
        rw [Option.map_some, Option.bind_some, hsm]
        exact hheld
      rw [hset]

theorem SendModels.value_setValue {models : SendModels} {i mi k : Nat} {held : ℚ}
    (hheld : models.value i mi k = some held) (v : ℚ) :
    (models.setValue i mi k v).value i mi k = some v := by
  obtain ⟨sm, hsm, hheld⟩ := Option.bind_eq_some_iff.mp hheld
  obtain ⟨ss, hss, -⟩ := Option.map_eq_some_iff.mp hheld
  simp [value, message_setValue, hsm, SendMessage.setValue, hss]

/-- All the values that are held. -/
def SendModels.values (models : SendModels) : List (List (List ℚ)) :=
  models.map fun p => p.2.messages.map fun sm => sm.signals.map (·.value)

theorem SendModels.value_eq (models : SendModels) (i mi k : Nat) :
    models.value i mi k =
      ((models.values[i]?).bind fun rows => rows[mi]?).bind fun row => row[k]? := by
  unfold values value message model
  rw [List.getElem?_map]
  cases models[i]? with
  | none => rfl
  | some p =>
    simp only [Option.map_some, Option.bind_some, List.getElem?_map]
    cases p.2.messages[mi]? with
    | none => rfl
    | some sm => simp

namespace TuiDataFrameSet

variable (env : Env)

/-! ### One step -/

/-- The step changes the models as the user commits, and not otherwise. -/
def OnlyCommits (t : TuiDataFrameSet) (l : Label) : Prop :=
  (t.step env l).models = afterCommit t.models (t.commit env l)

/-- The sin action that fires in a step, and the clock reading it gets. -/
def sinFired (t : TuiDataFrameSet) : Label → Option (SinParams SendModels × ℚ)
  | .run tick => t.handler.sinFired (.run tick)
  | .key .. | .frame _ | .expire _ => none

/-- If a sin action of the send tab fires, its signal holds the wave's value already. -/
def SinHolds (t : TuiDataFrameSet) (l : Label) : Prop :=
  ∀ p now, t.sinFired l = some (p, now) → ∀ i mi k, p.encodeFn = sinEncodeFn env.casts i mi k →
    ∀ held, t.models.value i mi k = some held → held = p.value env.trig now

variable {env} {t : TuiDataFrameSet}

theorem Effect.models {c : Option Commit} {t' : TuiDataFrameSet} (he : Effect env t c t') :
    t'.models = afterCommit t.models c := by
  rcases he with he | ⟨r, -, he⟩
  · rw [TuiDataFrameSet.models, he]
    rfl
  · rw [TuiDataFrameSet.models, he, ActionHandler.world_step]
    rfl

variable (env t) in
/-- A step commits what the user commits, or a sin action that fires runs its encode function. -/
theorem models_step (l : Label) :
    (t.step env l).models = (t.sinFired l).elim (afterCommit t.models (t.commit env l))
      fun x => (x.1.encodeFn (x.1.value env.trig x.2) t.models).2 := by
  rcases step_effect env t l with ⟨_, _, rfl, he⟩ |
    ⟨hnone, ⟨_, rfl, he⟩ | ⟨timer, rfl, he⟩ | ⟨tick, rfl, he⟩⟩
  · exact he.models
  · rw [hnone, models, he]
    rfl
  · rw [hnone, models, he, ActionHandler.world_step]
    rfl
  · rw [hnone, models, he, ActionHandler.world_step]
    rfl

/-- Where all values stay, so does the one that a sin action sets. -/
theorem sinHolds_of_values {l : Label} (hsame : (t.step env l).models.values = t.models.values) :
    t.SinHolds env l := by
  intro p now hfired i mi k hfn held hheld
  have hstep : (t.step env l).models = t.models.setValue i mi k (p.value env.trig now) := by
    rw [models_step, hfired]
    simp [hfn, sinEncodeFn]
  have hafter : (t.step env l).models.value i mi k = some (p.value env.trig now) := by
    rw [hstep]
    exact SendModels.value_setValue hheld _
  rw [SendModels.value_eq, hsame, ← SendModels.value_eq, hheld] at hafter
  exact Option.some.inj hafter

/-! ### The start -/

/-- The bytes of the actions that are posted at the start: those of the preset files. -/
def OfPreset (t₀ : TuiDataFrameSet) (bytes : Bytes) : Prop :=
  ∃ r ∈ t₀.handler.loop.closures, ∃ a, r.action = some a ∧
    (bytes = a.payload ∨ ∃ f v models, a.encodeFn = some f ∧ bytes = (f v models).1)

/-- The encode functions of the TUI: a sin action of the send tab sets its signal in the models, and
one of a preset leaves them alone. -/
def EncodesAs (casts : BitCasts) (t₀ : TuiDataFrameSet) (f : ℚ → SendModels → Bytes × SendModels) :
    Prop :=
  (∃ i mi k, f = sinEncodeFn casts i mi k) ∨
    ∀ v models, (f v models).2 = models ∧ t₀.OfPreset (f v models).1

/-- Nothing has happened to the handler but requests for preset actions. -/
structure Untouched (models : SendModels) (h : ActionHandler SendModels) : Prop where
  world : h.world = models
  actions : h.actions = []
  calls : h.calls = []
  arriving : ∀ r ∈ h.loop.closures, ∃ a, r = .addActionPaused a ∧ ∀ P, a.Keeps P

theorem Untouched.init (models : SendModels) : Untouched models (ActionHandler.init models) where
  world := rfl
  actions := rfl
  calls := rfl
  arriving r hr := by cases hr

theorem Untouched.request {models : SendModels} {h : ActionHandler SendModels}
    (hu : Untouched models h) (trig : Trig) {a : Action SendModels} (ha : ∀ P, a.Keeps P) :
    Untouched models (ActionHandler.step trig h (.request (.addActionPaused a))) := by
  unfold ActionHandler.step
  split
  · exact hu
  · refine ⟨hu.world, hu.actions, hu.calls, ?_⟩
    intro r hr
    dsimp only at hr
    rw [Loop.closures_post, List.mem_append, List.mem_singleton] at hr
    rcases hr with hold | rfl
    · exact hu.arriving r hold
    · exact ⟨_, rfl, ha⟩

theorem Started.untouched {cfgs : List InterfaceConfig} {t₀ : TuiDataFrameSet}
    (h : t₀.Started env cfgs) : Untouched (env.sendModels cfgs) t₀.handler := by
  rcases h with ⟨now, modelTabEnabled, h⟩ | ⟨messages, rfl⟩
  · obtain ⟨handler, hload, rfl⟩ := exists_of_runTui h
    refine env.loadPresets_invariant ?_ (Untouched.init _) hload
    intro h a hu ha
    exact hu.request env.trig ha
  · exact Untouched.init _

theorem Untouched.fnsKept {models : SendModels} {t₀ : TuiDataFrameSet}
    (hu : Untouched models t₀.handler) (casts : BitCasts) :
    t₀.handler.FnsKept (EncodesAs casts t₀) where
  actions f hf := by
    rw [ActionHandler.fns, hu.actions] at hf
    cases hf
  arriving r hr a ha f hf := by
    refine Or.inr ?_
    intro v models
    obtain ⟨b, rfl, hb⟩ := hu.arriving r hr
    cases ha
    exact ⟨hb (· = models) f hf v models rfl, _, hr, _, rfl, Or.inr ⟨f, v, models, hf, rfl⟩⟩

theorem Untouched.payloadsKept {models : SendModels} {t₀ : TuiDataFrameSet}
    (hu : Untouched models t₀.handler) : t₀.handler.PayloadsKept t₀.OfPreset where
  actions a ha := by
    rw [hu.actions] at ha
    cases ha
  arriving r hr := by
    obtain ⟨a, rfl, -⟩ := hu.arriving r hr
    intro _
    exact ⟨_, hr, a, rfl, Or.inl rfl⟩
  calls c hc := by
    rw [hu.calls] at hc
    cases hc

/-! ### Encode functions in a run -/

theorem Requests.creates {casts : BitCasts} {models : SendModels} {r : Request SendModels}
    (hr : Requests casts models r) {t₀ : TuiDataFrameSet} {a : Action SendModels}
    (ha : r.action = some a) {f : ℚ → SendModels → Bytes × SendModels} (hf : a.encodeFn = some f) :
    EncodesAs casts t₀ f := Or.inl (hr.encodeFn ha hf)

theorem fnsKept_step {t₀ : TuiDataFrameSet} (h : t.handler.FnsKept (EncodesAs env.casts t₀))
    (l : Label) : (t.step env l).handler.FnsKept (EncodesAs env.casts t₀) := by
  rcases step_effect env t l with ⟨_, _, _, he⟩ |
    ⟨-, ⟨_, _, he⟩ | ⟨timer, _, he⟩ | ⟨tick, _, he⟩⟩
  · have hcommitted : ∀ c, (t.committed c).FnsKept (EncodesAs env.casts t₀) :=
      fun c => ⟨h.actions, h.arriving⟩
    rcases he with he | ⟨r, hr, he⟩
    · rw [he]
      exact hcommitted _
    · rw [he]
      refine (hcommitted _).preserved env.trig ?_
      rintro _ a ⟨⟩ ha f hf
      exact hr.creates ha hf
  · rwa [he]
  · rw [he]
    refine h.preserved env.trig ?_
    rintro r a ⟨⟩
  · rw [he]
    refine h.preserved env.trig ?_
    rintro r a ⟨⟩

/-- A sin action leaves its signal alone exactly if it holds the wave's value. -/
theorem onlyCommits_iff {t₀ : TuiDataFrameSet} (h : t.handler.FnsKept (EncodesAs env.casts t₀))
    (l : Label) : t.OnlyCommits env l ↔ t.SinHolds env l := by
  rw [OnlyCommits, models_step]
  cases hfired : t.sinFired l with
  | none =>
    refine iff_of_true rfl ?_
    intro p now hp
    rw [hfired] at hp
    cases hp
  | some x =>
    obtain ⟨p, now⟩ := x
    have hrun : ∃ tick, l = .run tick ∧ t.handler.sinFired (.run tick) = some (p, now) := by
      cases l with
      | run tick => exact ⟨tick, rfl, hfired⟩
      | _ => cases hfired
    obtain ⟨tick, rfl, hsin⟩ := hrun
    have hheld : t.SinHolds env (.run tick) ↔
        ∀ i mi k, p.encodeFn = sinEncodeFn env.casts i mi k →
          t.models.setValue i mi k (p.value env.trig now) = t.models := by
      constructor
      · intro hh i mi k hfn
        exact SendModels.setValue_eq_self_iff.mpr (hh p now hfired i mi k hfn)
      · intro hset p' now' hp'
        rw [hfired] at hp'
        cases hp'
        intro i mi k hfn
        exact SendModels.setValue_eq_self_iff.mp (hset i mi k hfn)
    rw [hheld]
    change (p.encodeFn (p.value env.trig now) t.models).2 = t.models ↔ _
    constructor
    · intro hsame i mi k hfn
      rwa [hfn] at hsame
    · intro hset
      rcases h.actions p.encodeFn (ActionHandler.mem_fns_of_sinFired hsin) with ⟨i, mi, k, hfn⟩ | hneutral
      · rw [hfn]
        exact hset i mi k hfn
      · exact (hneutral _ _).1

/-! ### Runs -/

/-- The values that are committed in a run. -/
def commits (env : Env) (t : TuiDataFrameSet) : List Label → List Commit
  | [] => []
  | l :: ls => (t.commit env l).toList ++ commits env (t.step env l) ls

/-- The models of the interfaces after these commits. -/
def modelsAfter (env : Env) (cfgs : List InterfaceConfig) (cs : List Commit) : SendModels :=
  cs.foldl (fun models c => afterCommit models (some c)) (env.sendModels cfgs)

theorem modelsAfter_append (env : Env) (cfgs : List InterfaceConfig) (cs : List Commit)
    (c : Option Commit) :
    modelsAfter env cfgs (cs ++ c.toList) = afterCommit (modelsAfter env cfgs cs) c := by
  rw [modelsAfter, List.foldl_append]
  cases c <;> rfl

/-- The bytes are encoded from the models after some of the commits, or a preset's. -/
def Determined (env : Env) (cfgs : List InterfaceConfig) (t₀ : TuiDataFrameSet) (cs : List Commit)
    (bytes : Bytes) : Prop :=
  (∃ cs', cs' <+: cs ∧ ∃ i mi, bytes = (modelsAfter env cfgs cs').encode env.casts i mi) ∨
    t₀.OfPreset bytes

theorem Determined.append {cfgs : List InterfaceConfig} {t₀ : TuiDataFrameSet} {cs : List Commit}
    {bytes : Bytes} (h : Determined env cfgs t₀ cs bytes) (cs' : List Commit) :
    Determined env cfgs t₀ (cs ++ cs') bytes := by
  rcases h with ⟨pre, hpre, hbytes⟩ | hpreset
  · exact Or.inl ⟨pre, hpre.trans (List.prefix_append _ _), hbytes⟩
  · exact Or.inr hpreset

theorem determined_encode {cfgs : List InterfaceConfig} (t₀ : TuiDataFrameSet) (cs : List Commit)
    (i mi : Nat) : Determined env cfgs t₀ cs ((modelsAfter env cfgs cs).encode env.casts i mi) :=
  Or.inl ⟨cs, List.prefix_rfl, i, mi, rfl⟩

/-- After the commits `cs`, nothing has changed the models but these. -/
structure Clean (env : Env) (cfgs : List InterfaceConfig) (t₀ : TuiDataFrameSet) (cs : List Commit)
    (t : TuiDataFrameSet) : Prop where
  models : t.models = modelsAfter env cfgs cs
  fns : t.handler.FnsKept (EncodesAs env.casts t₀)
  payloads : t.handler.PayloadsKept (Determined env cfgs t₀ cs)

theorem Started.clean {cfgs : List InterfaceConfig} {t₀ : TuiDataFrameSet}
    (h : t₀.Started env cfgs) : Clean env cfgs t₀ [] t₀ where
  models := h.untouched.world
  fns := h.untouched.fnsKept env.casts
  payloads := h.untouched.payloadsKept.mono fun _ hbytes => Or.inr hbytes

theorem Requests.payloadHas {cfgs : List InterfaceConfig} {cs : List Commit}
    {r : Request SendModels} (hr : Requests env.casts (modelsAfter env cfgs cs) r)
    (t₀ : TuiDataFrameSet) : r.PayloadHas (Determined env cfgs t₀ cs) := by
  cases r with
  | addAction a =>
    intro hsin
    rw [Requests, hsin] at hr
    obtain ⟨i, mi, hpayload⟩ := hr
    rw [hpayload]
    exact determined_encode t₀ cs i mi
  | addActionPaused a => exact hr.elim
  | updatePayload idx payload =>
    obtain ⟨i, mi, rfl⟩ := hr
    exact determined_encode t₀ cs i mi
  | _ => trivial

/-- The bytes that a sin action encodes when it fires. -/
theorem Clean.determined_sin {cfgs : List InterfaceConfig} {t₀ : TuiDataFrameSet} {cs : List Commit}
    (h : Clean env cfgs t₀ cs t) {tick : Tick} (hholds : t.SinHolds env (.run tick))
    {p : SinParams SendModels} {now : ℚ} (hfired : t.handler.sinFired (.run tick) = some (p, now)) :
    Determined env cfgs t₀ cs (p.encodeFn (p.value env.trig now) t.models).1 := by
  rcases h.fns.actions p.encodeFn (ActionHandler.mem_fns_of_sinFired hfired) with
    ⟨i, mi, k, hfn⟩ | hneutral
  · have hset : t.models.setValue i mi k (p.value env.trig now) = t.models :=
      SendModels.setValue_eq_self_iff.mpr (hholds p now hfired i mi k hfn)
    have hbytes : (p.encodeFn (p.value env.trig now) t.models).1 =
        t.models.encode env.casts i mi := by
      rw [hfn, sinEncodeFn, hset]
    rw [hbytes, h.models]
    exact determined_encode t₀ cs i mi
  · exact Or.inr (hneutral _ _).2

theorem Clean.step {cfgs : List InterfaceConfig} {t₀ : TuiDataFrameSet} {cs : List Commit}
    (h : Clean env cfgs t₀ cs t) {l : Label} (hholds : t.SinHolds env l) :
    Clean env cfgs t₀ (cs ++ (t.commit env l).toList) (t.step env l) := by
  refine ⟨?_, fnsKept_step h.fns l, ?_⟩
  · have honly : (t.step env l).models = afterCommit t.models (t.commit env l) :=
      (onlyCommits_iff h.fns l).mpr hholds
    rw [honly, h.models, modelsAfter_append]
  · rcases step_effect env t l with ⟨_, _, _, he⟩ |
      ⟨hnone, ⟨_, _, he⟩ | ⟨timer, _, he⟩ | ⟨tick, rfl, he⟩⟩
    · have hold : (t.committed (t.commit env l)).PayloadsKept
          (Determined env cfgs t₀ (cs ++ (t.commit env l).toList)) := by
        have hmono := h.payloads.mono fun _ hbytes => hbytes.append (t.commit env l).toList
        exact ⟨hmono.actions, hmono.arriving, hmono.calls⟩
      rcases he with he | ⟨r, hr, he⟩
      · rw [he]
        exact hold
      · rw [he]
        refine hold.preserved env.trig ?_ ?_
        · rintro _ ⟨⟩
          rw [h.models, ← modelsAfter_append] at hr
          exact hr.payloadHas t₀
        · intro p now hfired
          cases hfired
    · rw [he, hnone, Option.toList_none, List.append_nil]
      exact h.payloads
    · rw [he, hnone, Option.toList_none, List.append_nil]
      refine h.payloads.preserved env.trig ?_ ?_
      · rintro r ⟨⟩
      · intro p now hfired
        cases hfired
    · rw [he, hnone, Option.toList_none, List.append_nil]
      refine h.payloads.preserved env.trig ?_ ?_
      · rintro r ⟨⟩
      · intro p now hfired
        exact h.determined_sin hholds hfired

theorem Clean.run {cfgs : List InterfaceConfig} {t₀ : TuiDataFrameSet} {cs : List Commit}
    (h : Clean env cfgs t₀ cs t) {ls : List Label}
    (hls : Meets (TuiDataFrameSet.step env) (SinHolds env) t ls) :
    Clean env cfgs t₀ (cs ++ t.commits env ls) (Runs.run (TuiDataFrameSet.step env) t ls) := by
  induction ls generalizing t cs with
  | nil =>
    rw [commits, List.append_nil]
    exact h
  | cons l ls ih =>
    obtain ⟨hl, hrest⟩ := hls
    rw [commits, ← List.append_assoc]
    exact ih (h.step hl) hrest

theorem meets_onlyCommits_iff {t₀ : TuiDataFrameSet}
    (h : t.handler.FnsKept (EncodesAs env.casts t₀)) (ls : List Label) :
    Meets (TuiDataFrameSet.step env) (OnlyCommits env) t ls ↔
      Meets (TuiDataFrameSet.step env) (SinHolds env) t ls := by
  induction ls generalizing t with
  | nil => exact Iff.rfl
  | cons l ls ih =>
    rw [meets_cons, meets_cons, onlyCommits_iff h l, ih (fnsKept_step h l)]

end TuiDataFrameSet

/-- **Who changes the models.** In every run of the TUI, nothing but commits changes a value that the
models hold if and only if no sin action of the send tab fires with another value than its signal
holds. In such a run the models are those of its commits, every byte string that was sent is encoded
from the models after some of its commits (or comes from a preset file), and another such run with
the same commits, whichever sin actions it has, has the same models to encode from. -/
theorem models_change_only_by_commits_iff (env : Env) (cfgs : List InterfaceConfig)
    (t₀ : TuiDataFrameSet) (hstart : t₀.Started env cfgs) (ls : List TuiDataFrameSet.Label) :
    (Meets (TuiDataFrameSet.step env) (TuiDataFrameSet.OnlyCommits env) t₀ ls ↔
      Meets (TuiDataFrameSet.step env) (TuiDataFrameSet.SinHolds env) t₀ ls) ∧
    (Meets (TuiDataFrameSet.step env) (TuiDataFrameSet.SinHolds env) t₀ ls →
      (run (TuiDataFrameSet.step env) t₀ ls).models =
        TuiDataFrameSet.modelsAfter env cfgs (t₀.commits env ls) ∧
      (∀ call ∈ (run (TuiDataFrameSet.step env) t₀ ls).handler.calls,
        TuiDataFrameSet.Determined env cfgs t₀ (t₀.commits env ls) call.data) ∧
      ∀ t₁ ls₁, t₁.Started env cfgs →
        Meets (TuiDataFrameSet.step env) (TuiDataFrameSet.SinHolds env) t₁ ls₁ →
        t₁.commits env ls₁ = t₀.commits env ls →
        (run (TuiDataFrameSet.step env) t₁ ls₁).models =
          (run (TuiDataFrameSet.step env) t₀ ls).models) := by
  refine ⟨TuiDataFrameSet.meets_onlyCommits_iff hstart.clean.fns ls, ?_⟩
  intro hls
  have hclean := hstart.clean.run hls
  rw [List.nil_append] at hclean
  refine ⟨hclean.models, hclean.payloads.calls, ?_⟩
  intro t₁ ls₁ hstart₁ hls₁ hsame
  have hclean₁ := hstart₁.clean.run hls₁
  rw [List.nil_append] at hclean₁
  rw [hclean₁.models, hclean.models, hsame]

/-! ### The steering controller's message

Its last signal is one bit, and all its signals are 0 at the start. -/

/-- On the send tab the user sets the last signal to 1 and creates a sin action with offset 1 and
amplitude 0 for it, and it fires. -/
def fireHeld : List TuiDataFrameSet.Label :=
  keys [.Character 's', .ArrowDown, .Return, .ArrowDown, .ArrowDown, .ArrowDown, .Return, .Backspace,
    .Character '1', .Return, .Character '2', .Character '1', .Character '0', .Return, .ArrowRight,
    .Return, .Return, .Return, .Character '1', .Return, .Return] ++
  [.run (ActionHandler.tickAt 0), .expire 0, .run (ActionHandler.tickAt 0)]

/-- The committed value is in the models, and the sin action sends it. -/
theorem models_change_only_by_commits_fireHeld :
    Meets (TuiDataFrameSet.step elmoEnv) (TuiDataFrameSet.OnlyCommits elmoEnv) plainTui fireHeld ∧
    (run (TuiDataFrameSet.step elmoEnv) plainTui fireHeld).models =
      TuiDataFrameSet.modelsAfter elmoEnv (elmoInterfaces "") [⟨0, 0, 3, 1⟩] ∧
    (∀ call ∈ (run (TuiDataFrameSet.step elmoEnv) plainTui fireHeld).handler.calls,
      TuiDataFrameSet.Determined elmoEnv (elmoInterfaces "") plainTui [⟨0, 0, 3, 1⟩] call.data) ∧
    (run (TuiDataFrameSet.step elmoEnv) plainTui fireHeld).handler.calls.map (·.data) =
      [[0x00, 0x00, 0x00, 0x00, 0x00, 0x00, 0x01, 0x00]] := by
  have hholds : Meets (TuiDataFrameSet.step elmoEnv) (TuiDataFrameSet.SinHolds elmoEnv) plainTui
      fireHeld := by
    have hsame : Meets (TuiDataFrameSet.step elmoEnv) (fun t l => (t.sinFired l).isNone = true ∨
        (t.step elmoEnv l).models.values = t.models.values) plainTui fireHeld := by decide +kernel
    apply hsame.mono
    rintro t l (hnone | hsame)
    · intro p now hfired
      rw [hfired] at hnone
      cases hnone
    · exact TuiDataFrameSet.sinHolds_of_values hsame
  have hcommits : plainTui.commits elmoEnv fireHeld = [⟨0, 0, 3, 1⟩] := by decide +kernel
  have hall := models_change_only_by_commits_iff elmoEnv (elmoInterfaces "") plainTui
    (Or.inl ⟨0, false, runTui_plainTui⟩) fireHeld
  obtain ⟨hmodels, hcalls, -⟩ := hall.2 hholds
  rw [hcommits] at hmodels hcalls
  exact ⟨hall.1.mpr hholds, hmodels, hcalls, by decide +kernel⟩

/-- On the send tab the user creates a sin action with offset 1 and amplitude 0 for the last signal,
and it fires. -/
def fireSin : List TuiDataFrameSet.Label :=
  keys [.Character 's', .ArrowDown, .Return, .Character '2', .Character '1', .Character '0', .Return,
    .ArrowRight, .Return, .Return, .Return, .Character '1', .Return, .Return] ++
  [.run (ActionHandler.tickAt 0), .expire 0, .run (ActionHandler.tickAt 0)]

/-- A single action is created, and it sends. -/
def sendSingle (timer : Nat) : List TuiDataFrameSet.Label :=
  keys [.Character 's', .ArrowDown, .Return, .Character '1'] ++
  [.run (ActionHandler.tickAt 0), .expire timer, .run (ActionHandler.tickAt 0)]

/-- Nobody has committed a value in either run, but the single action that is created after the sin
action fired sends other bytes. -/
theorem models_changed_by_sin :
    plainTui.Started elmoEnv (elmoInterfaces "") ∧
    ¬ Meets (TuiDataFrameSet.step elmoEnv) (TuiDataFrameSet.OnlyCommits elmoEnv) plainTui fireSin ∧
    plainTui.models.value 0 0 3 = some 0 ∧
    (run (TuiDataFrameSet.step elmoEnv) plainTui fireSin).models.value 0 0 3 = some 1 ∧
    plainTui.commits elmoEnv (fireSin ++ sendSingle 1) = [] ∧
    plainTui.commits elmoEnv (sendSingle 0) = [] ∧
    (run (TuiDataFrameSet.step elmoEnv) plainTui (fireSin ++ sendSingle 1)).handler.calls.map
        (fun call => (call.ptr, call.data)) =
      [(0, [0x00, 0x00, 0x00, 0x00, 0x00, 0x00, 0x01, 0x00]),
        (1, [0x00, 0x00, 0x00, 0x00, 0x00, 0x00, 0x01, 0x00])] ∧
    (run (TuiDataFrameSet.step elmoEnv) plainTui (sendSingle 0)).handler.calls.map
        (fun call => (call.ptr, call.data)) =
      [(0, [0x00, 0x00, 0x00, 0x00, 0x00, 0x00, 0x00, 0x00])] := by
  have hstart : plainTui.Started elmoEnv (elmoInterfaces "") :=
    Or.inl ⟨0, false, runTui_plainTui⟩
  have hafter : (run (TuiDataFrameSet.step elmoEnv) plainTui fireSin).models.value 0 0 3 = some 1 :=
    by decide +kernel
  refine ⟨hstart, ?_, by decide +kernel, hafter, by decide +kernel, by decide +kernel,
    by decide +kernel, by decide +kernel⟩
  intro honly
  have hholds := (TuiDataFrameSet.meets_onlyCommits_iff hstart.clean.fns fireSin).mp honly
  have hcommits : plainTui.commits elmoEnv fireSin = [] := by decide +kernel
  have hmodels := (hstart.clean.run hholds).models
  rw [hcommits] at hmodels
  rw [hmodels] at hafter
  have hzero : (TuiDataFrameSet.modelsAfter elmoEnv (elmoInterfaces "") ([] ++ [])).value 0 0 3 =
      some 0 := by decide +kernel
  rw [hzero] at hafter
  exact absurd (Option.some.inj hafter) (by decide)

end Caneo
