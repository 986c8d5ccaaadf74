import Caneo.EditSessions
import Caneo.FrameIdentity
import Caneo.GraphPreset
import Caneo.GuiEdits
import Caneo.SinEncoders
import Caneo.SocketCAN
import Caneo.SuitedActions
import Caneo.TuiEdits

/-!
# What is put on the bus

The payloads of the windows and views are encoded from the send models, which hold a message for each
message of the DBC of an interface; those of the presets are encoded the same way when they are
loaded; a sin action encodes one signal into such a payload. So every payload has the size of its
message, and no bit set outside its signals (`IMessage.Carries`). The actions carry these payloads to
`send_fn` under the id of their message, unless an edit goes to an action of another message, which
takes an action up to its position being erased while it is waiting (`HostEditsStay`). The file ends
with what a receiver that has loaded the same DBC files makes of the frames.
-/

namespace Caneo

open BitField EventLoop Runs Containers

/-! ### Payloads of a message -/

/-- The bytes have the message's size, and a bit that no signal covers is 0. -/
structure IMessage.Carries (msg : IMessage) (data : Bytes) : Prop where
  length : data.length = msg.messageSize
  unused : ∀ b, (∀ sig ∈ msg.signals, ¬ sig.field.Covers b) → getBit data b = false

section Carries

variable {msg : IMessage}

theorem SendMessage.Presents.withValues {sm : SendMessage} (h : sm.Presents msg)
    (vals : Nat → ℚ) : (sm.withValues vals).Presents msg := by
  have hsame := SendMessage.sameSignals_withValues sm sm.values vals
  rw [SendMessage.withValues_values] at hsame
  exact h.of_same hsame

theorem SendMessage.Presents.of_withValues {sm : SendMessage} {vals : Nat → ℚ}
    (h : (sm.withValues vals).Presents msg) : sm.Presents msg := by
  have hback := h.withValues sm.values
  rwa [SendMessage.withValues_withValues, SendMessage.withValues_values] at hback

theorem getBit_replicate_zero (n b : Nat) : getBit (List.replicate n 0) b = false := by
  by_cases hb : b / 8 < n <;> simp [getBit, hb]

theorem SendMessage.Presents.carries {sm : SendMessage} (h : sm.Presents msg)
    (hacc : ∀ sig ∈ msg.signals, sig.BitAccess) (casts : BitCasts) :
    msg.Carries (sm.encode casts) where
  length := (SendMessage.length_encode (h.bitAccess hacc)).trans h.dlc_eq
  unused b hb := by
    rw [SendMessage.encode_eq_runAll casts sm (h.bitAccess hacc), getBit_runAll_of_not_covers]
    · exact getBit_replicate_zero _ _
    · intro w hw
      obtain ⟨ss, hss, rfl⟩ := List.mem_pmap.mp hw
      exact hb ss.sig (h.sig_mem hss)

theorem IMessage.Carries.encodeFn {base : Bytes} (h : msg.Carries base) {sig : ISignal}
    (hsig : sig ∈ msg.signals) (hacc : sig.BitAccess) (yLo yHi v : ℚ) :
    msg.Carries (Preset.encodeFn base sig yLo yHi v) where
  length := (length_encodeFn hacc yLo yHi v).trans h.length
  unused b hb := by
    rw [getBit_encodeFn_of_not_covers hacc yLo yHi v (hb sig hsig)]
    exact h.unused b hb

end Carries

/-! ### The positions of a message in the models -/

namespace Env

variable (env : Env) (cfgs : List InterfaceConfig)

/-- The models are those that were loaded, but for the values. -/
def Laid (models : SendModels) : Prop :=
  (models.map fun p => (p.1, p.2.layout)) = SendModels.ofNetworks env.srt (env.networks cfgs)

/-- The message of the interface at these positions of the models, with all values 0. -/
def Slot (iface : String) (i mi : Nat) (sm : SendMessage) : Prop :=
  ∃ model, (SendModels.ofNetworks env.srt (env.networks cfgs))[i]? = some (iface, model) ∧
    model.messages[mi]? = some sm

/-- The bytes are those of a message of the interface's DBC with this id. -/
def OfDbc (target : String × BitVec 64) (data : Bytes) : Prop :=
  ∃ network, (target.1, network) ∈ env.networks cfgs ∧
    ∃ msg ∈ network.messages, msg.id = target.2 ∧ msg.Carries data

end Env

section Slot

variable {env : Env} {cfgs : List InterfaceConfig} {models : SendModels}

theorem SendMessage.withValues_setValue (sm : SendMessage) (k : Nat) (v : ℚ) (vals : Nat → ℚ) :
    (sm.setValue k v).withValues vals = sm.withValues vals := by
  conv_lhs => rw [← sm.withValues_values, setValue_withValues, withValues_withValues]

theorem SendModel.layout_setValue (model : SendModel) (mi k : Nat) (v : ℚ) :
    (model.setValue mi k v).layout = model.layout := by
  have hmessages : (model.setValue mi k v).layout.messages = model.layout.messages := by
    apply List.ext_getElem?
    intro j
    simp only [layout, List.getElem?_map, getElem?_setValue]
    by_cases hj : j = mi
    · subst hj
      cases model.messages[j]? <;> simp [SendMessage.withValues_setValue]
    · simp [hj]
  simpa [layout] using hmessages

theorem Env.laid_ofNetworks (env : Env) (cfgs : List InterfaceConfig) :
    env.Laid cfgs (SendModels.ofNetworks env.srt (env.networks cfgs)) := by
  simp [Env.Laid, SendModels.ofNetworks, layout_ofNetwork]

theorem Env.Laid.setValue (h : env.Laid cfgs models) (i mi k : Nat) (v : ℚ) :
    env.Laid cfgs (models.setValue i mi k v) := by
  rw [Env.Laid, ← h]
  apply List.ext_getElem?
  intro j
  rw [List.getElem?_map, List.getElem?_map, SendModels.setValue, List.getElem?_modify]
  cases models[j]? with
  | none => simp
  | some p =>
    by_cases hj : i = j <;> simp [hj, SendModel.layout_setValue]

theorem Env.Laid.setValues (h : env.Laid cfgs models) (i mi : Nat) (values : List ℚ) :
    env.Laid cfgs (models.setValues i mi values) := by
  unfold SendModels.setValues
  generalize values.zipIdx = l
  induction l generalizing models with
  | nil => exact h
  | cons vk l ih => exact ih (h.setValue i mi vk.2 vk.1)

/-- Where a message stands never changes. -/
theorem Env.Laid.slot (h : env.Laid cfgs models) {i mi : Nat} {p : String × SendModel}
    {sm : SendMessage} (hp : models[i]? = some p) (hsm : p.2.messages[mi]? = some sm) :
    env.Slot cfgs p.1 i mi (sm.withValues fun _ => 0) := by
  refine ⟨p.2.layout, ?_, ?_⟩
  · rw [← h, List.getElem?_map, hp]
    rfl
  · simp [SendModel.layout, hsm]

theorem Env.Slot.message {iface : String} {i mi : Nat} {sm₀ : SendMessage}
    (hslot : env.Slot cfgs iface i mi sm₀) (h : env.Laid cfgs models) :
    ∃ sm, models.message i mi = some sm ∧ sm.withValues (fun _ => 0) = sm₀ := by
  obtain ⟨model, hmodel, hmessage⟩ := hslot
  rw [← h, List.getElem?_map, Option.map_eq_some_iff] at hmodel
  obtain ⟨p, hp, hsame⟩ := hmodel
  cases hsame
  simp only [SendModel.layout, List.getElem?_map, Option.map_eq_some_iff] at hmessage
  obtain ⟨sm, hsm, hzero⟩ := hmessage
  refine ⟨sm, ?_, hzero⟩
  simp [SendModels.message, SendModels.model, hp, hsm]

theorem Env.Slot.presents {iface : String} {i mi : Nat} {sm : SendMessage}
    (hslot : env.Slot cfgs iface i mi sm) :
    ∃ network, (iface, network) ∈ env.networks cfgs ∧
      ∃ msg ∈ network.messages, sm.Presents msg := by
  obtain ⟨model, hmodel, hmessage⟩ := hslot
  obtain ⟨net, hnet, hsame⟩ := List.mem_map.mp (List.mem_of_getElem? hmodel)
  cases hsame
  exact ⟨net.2, hnet, SendModel.From.presents .new (List.mem_of_getElem? hmessage)⟩

theorem Env.BitAccess.of_mem_networks (hdbc : env.BitAccess) {net : String × INetwork}
    (hnet : net ∈ env.networks cfgs) {msg : IMessage} (hmsg : msg ∈ net.2.messages) :
    ∀ sig ∈ msg.signals, sig.BitAccess := by
  obtain ⟨path, hpath⟩ := Env.exists_path hnet
  exact hdbc path net.2 hpath msg hmsg

/-- What the models encode for a position is of the DBC, -/
theorem Env.Slot.ofDbc {iface : String} {i mi : Nat} {sm₀ : SendMessage}
    (hslot : env.Slot cfgs iface i mi sm₀) (hdbc : env.BitAccess) (h : env.Laid cfgs models) :
    env.OfDbc cfgs (iface, sm₀.id) (models.encode env.casts i mi) := by
  obtain ⟨network, hnet, msg, hmsg, hpres⟩ := hslot.presents
  obtain ⟨sm, hsm, rfl⟩ := hslot.message h
  refine ⟨network, hnet, msg, hmsg, hpres.id_eq.symm, ?_⟩
  rw [SendModels.encode, hsm]
  exact hpres.of_withValues.carries (hdbc.of_mem_networks hnet hmsg) _

/-- also with one of its signals replaced. -/
theorem Env.Slot.ofDbc_encodeFn {iface : String} {i mi : Nat} {msg : SendMessage}
    (hslot : env.Slot cfgs iface i mi (msg.withValues fun _ => 0)) (hdbc : env.BitAccess)
    (h : env.Laid cfgs models) {ss : SendSignal} (hss : ss ∈ msg.signals) (yLo yHi v : ℚ) :
    env.OfDbc cfgs (iface, msg.id)
      (Preset.encodeFn (models.encode env.casts i mi) ss.sig yLo yHi v) := by
  obtain ⟨network, hnet, m, hm, hpres⟩ := hslot.presents
  obtain ⟨sm, hsm, hzero⟩ := hslot.message h
  have hacc := hdbc.of_mem_networks hnet hm
  have hsig := hpres.of_withValues.sig_mem hss
  have hcarries : m.Carries (models.encode env.casts i mi) := by
    rw [SendModels.encode, hsm]
    exact (hzero ▸ hpres).of_withValues.carries hacc _
  exact ⟨network, hnet, m, hm, hpres.id_eq.symm, hcarries.encodeFn hsig (hacc _ hsig) _ _ _⟩

end Slot

/-! ### The UI thread -/

/-- The invariant, while the actions are `acts`. -/
structure Env.Serving (env : Env) (cfgs : List InterfaceConfig) (acts : List (Action SendModels))
    (h : ActionHandler SendModels) : Prop where
  reached : h.Reached env.trig (env.Laid cfgs)
  suited : h.Suited (env.Laid cfgs) (env.OfDbc cfgs)
  actions : h.actions = acts

namespace Env.Serving

variable {env : Env} {cfgs : List InterfaceConfig} {acts : List (Action SendModels)}
  {h : ActionHandler SendModels}

theorem laid (hs : env.Serving cfgs acts h) : env.Laid cfgs h.world := hs.reached.worldKept.world

theorem change (hs : env.Serving cfgs acts h) {models : SendModels}
    (hmodels : env.Laid cfgs models) : env.Serving cfgs acts { h with world := models } where
  reached := hs.reached.change hmodels
  suited := ⟨hs.suited.actions, fun r hr => (hs.suited.waiting r hr).congr rfl, hs.suited.calls⟩
  actions := hs.actions

theorem post (hs : env.Serving cfgs acts h) {r : Request SendModels}
    (hr : h.RequestSuits (env.Laid cfgs) (env.OfDbc cfgs) r)
    (hkeeps : ∀ a, r.action = some a → a.Keeps (env.Laid cfgs)) :
    env.Serving cfgs acts (ActionHandler.step env.trig h (.request r)) where
  reached := hs.reached.request hkeeps
  suited := by
    refine hs.suited.preserved hs.reached.identities hs.laid env.trig ?_
      (ActionHandler.editsStay_request h r)
    rintro r' ⟨⟩
    exact hr
  actions := (ActionHandler.undisturbed_request env.trig h r).actions.trans hs.actions

/-- A request that brings nothing to send. -/
theorem post_other (hs : env.Serving cfgs acts h) {r : Request SendModels}
    (haction : r.action = none) (hedits : r.edits = none) :
    env.Serving cfgs acts (ActionHandler.step env.trig h (.request r)) := by
  refine hs.post (ActionHandler.requestSuits_other haction hedits) ?_
  intro a ha
  rw [haction] at ha
  cases ha

theorem post_single (hs : env.Serving cfgs acts h) {iface : String} {msgId : BitVec 64}
    {payload : Bytes} (hdata : env.OfDbc cfgs (iface, msgId) payload) (msgName : String) :
    env.Serving cfgs acts (ActionHandler.step env.trig h
      (.request (.addAction (Action.newSingle iface msgId msgName payload)))) := by
  refine hs.post (ActionHandler.requestSuits_addAction (Action.suits_newSingle hdata msgName)) ?_
  rintro a ⟨⟩
  exact Action.keeps_newSingle _ _ _ _ _

theorem post_periodic (hs : env.Serving cfgs acts h) {iface : String} {msgId : BitVec 64}
    {payload : Bytes} (hdata : env.OfDbc cfgs (iface, msgId) payload) (msgName : String)
    (period : Int) :
    env.Serving cfgs acts (ActionHandler.step env.trig h
      (.request (.addAction (Action.newPeriodic iface msgId msgName payload period)))) := by
  refine hs.post
    (ActionHandler.requestSuits_addAction (Action.suits_newPeriodic hdata msgName period)) ?_
  rintro a ⟨⟩
  exact Action.keeps_newPeriodic _ _ _ _ _ _

theorem post_sin (hs : env.Serving cfgs acts h) {iface : String} {msgId : BitVec 64}
    {f : ℚ → SendModels → Bytes × SendModels}
    (hdata : ∀ v w, env.Laid cfgs w → env.OfDbc cfgs (iface, msgId) (f v w).1)
    (hkeeps : ∀ v w, env.Laid cfgs w → env.Laid cfgs (f v w).2) (now : ℚ) (msgName : String)
    (interval : Int) (amplitude : ℚ) (sinPeriod : Int) (offset : ℚ) :
    env.Serving cfgs acts (ActionHandler.step env.trig h (.request (.addAction
      (Action.newSin now iface msgId msgName interval f amplitude sinPeriod offset)))) := by
  refine hs.post (ActionHandler.requestSuits_addAction
    (Action.suits_newSin hdata now msgName interval amplitude sinPeriod offset)) ?_
  rintro a ⟨⟩
  exact Action.keeps_newSin hkeeps

/-- An edit of the action at a position, which has this target. -/
theorem post_payload (hs : env.Serving cfgs acts h) {idx : Nat} {a : Action SendModels}
    (ha : acts[idx]? = some a) {payload : Bytes} (hdata : env.OfDbc cfgs a.target payload) :
    env.Serving cfgs acts
      (ActionHandler.step env.trig h (.request (.updatePayload idx payload))) := by
  refine hs.post (ActionHandler.requestSuits_updatePayload ⟨a, hs.actions ▸ ha, hdata⟩) ?_
  rintro b ⟨⟩

/-- The entries of the snapshot tell where the actions send. -/
theorem target_of_snapshot (hs : env.Serving cfgs acts h) {idx : Nat} {info : ActionInfo}
    (hinfo : h.snapshot[idx]? = some info) :
    info.idx = idx ∧ ∃ a, acts[idx]? = some a ∧ a.target = (info.interface, info.msgId) := by
  obtain ⟨a, ha, rfl⟩ := hs.reached.synced.exists_action hinfo
  exact ⟨rfl, a, hs.actions ▸ ha, rfl⟩

end Env.Serving

/-- The message that an entry of the snapshot names. -/
theorem Env.Laid.slot_of_messageOf {env : Env} {cfgs : List InterfaceConfig} {models : SendModels}
    (h : env.Laid cfgs models) {iface : String} {msgId : BitVec 64} {i mi : Nat}
    {sm : SendMessage} (hmessage : models.messageOf iface msgId = some (i, mi, sm)) :
    env.Slot cfgs iface i mi (sm.withValues fun _ => 0) ∧ sm.id = msgId := by
  simp only [SendModels.messageOf, SendModels.find, SendModels.findMsg, SendModels.message,
    SendModels.model, Option.bind_eq_some_iff, Option.map_eq_some_iff, Prod.mk.injEq] at hmessage
  obtain ⟨i', hi, mi', ⟨model, ⟨p, hp, rfl⟩, hfind⟩, sm', ⟨model', ⟨p', hp', rfl⟩, hsm⟩, rfl, rfl,
    rfl⟩ := hmessage
  obtain rfl : p = p' := Option.some.inj (hp.symm.trans hp')
  have hname : p.1 = iface := by simpa [hp] using List.of_findIdx?_eq_some hi
  have hid : sm'.id = msgId := by simpa [hsm] using List.of_findIdx?_eq_some hfind
  exact ⟨hname ▸ h.slot hp hsm, hid⟩

/-! ### The presets -/

/-- The preset is of a message of the network, and a sin replaces one of its signals. -/
def Preset.OfNetwork (network : INetwork) (p : Preset) : Prop :=
  ∃ msg ∈ network.messages, msg.id = p.msgId ∧ msg.Carries p.payload ∧
    ∀ isig yLo yHi amplitude periodMs offset intervalMs,
      p.kind = .sin isig yLo yHi amplitude periodMs offset intervalMs → isig ∈ msg.signals

section Presets

variable {casts : BitCasts} {conv : YAML.Conversions} {srt : RangesSort} {network : INetwork}

theorem SendModel.layout_assign (model : SendModel) (mi : Nat) (listed : List (Nat × ℚ)) :
    (model.assign mi listed).layout = model.layout := by
  induction listed generalizing model with
  | nil => rfl
  | cons kv listed ih =>
    have hcons : model.assign mi (kv :: listed) =
        (model.setValue mi kv.1 kv.2).assign mi listed := rfl
    rw [hcons, ih, layout_setValue]

/-- A message of a model that was loaded presents one of the network. -/
theorem SendModel.presents_of_layout {model : SendModel}
    (h : model.layout = SendModel.ofNetwork srt network) {mi : Nat} {sm : SendMessage}
    (hsm : model.messages[mi]? = some sm) :
    (SendModel.ofNetwork srt network).messages[mi]? = some (sm.withValues fun _ => 0) ∧
      ∃ msg ∈ network.messages, (sm.withValues fun _ => 0).Presents msg := by
  have hget : (SendModel.ofNetwork srt network).messages[mi]? =
      some (sm.withValues fun _ => 0) := by
    rw [← h]
    simp [layout, hsm]
  exact ⟨hget, SendModel.From.presents .new (List.mem_of_getElem? hget)⟩

theorem id_of_readEntry {model : SendModel} {entry : YAML.Node} {r : ReadEntry}
    (hr : readEntry conv model entry = .ok (some r)) {sm : SendMessage}
    (hsm : model.messages[r.msgIdx]? = some sm) : r.preset.msgId = sm.id := by
  unfold readEntry at hr
  obtain ⟨type, -, hr⟩ := YAML.exists_of_bind_eq_ok hr
  obtain ⟨msgName, -, hr⟩ := YAML.exists_of_bind_eq_ok hr
  split at hr
  · cases hr
  · next msgIdx _ =>
    split at hr
    · cases hr
    · next msg hmsg =>
      have hid : r.msgIdx = msgIdx ∧ r.preset.msgId = msg.id := by
        split at hr
        · unfold readPeriodic at hr
          obtain ⟨_, -, hr⟩ := YAML.exists_of_bind_eq_ok hr
          obtain ⟨_, -, hr⟩ := YAML.exists_of_bind_eq_ok hr
          obtain ⟨_, -, hr⟩ := YAML.exists_of_bind_eq_ok hr
          cases hr
          exact ⟨rfl, rfl⟩
        · split at hr
          · unfold readSin at hr
            obtain ⟨_, -, hr⟩ := YAML.exists_of_bind_eq_ok hr
            split at hr
            · cases hr
            · obtain ⟨_, -, hr⟩ := YAML.exists_of_bind_eq_ok hr
              obtain ⟨_, -, hr⟩ := YAML.exists_of_bind_eq_ok hr
              obtain ⟨_, -, hr⟩ := YAML.exists_of_bind_eq_ok hr
              obtain ⟨_, -, hr⟩ := YAML.exists_of_bind_eq_ok hr
              obtain ⟨_, -, hr⟩ := YAML.exists_of_bind_eq_ok hr
              obtain ⟨_, -, hr⟩ := YAML.exists_of_bind_eq_ok hr
              cases hr
              exact ⟨rfl, rfl⟩
          · cases hr
      rw [hid.1, hmsg] at hsm
      cases hsm
      exact hid.2

/-- What an entry creates is a preset of the message that it names. -/
theorem ofNetwork_loadEntry (hacc : ∀ msg ∈ network.messages, ∀ sig ∈ msg.signals, sig.BitAccess)
    {model : SendModel} (h : model.layout = SendModel.ofNetwork srt network) {entry : YAML.Node}
    {model' : SendModel} {preset : Option Preset}
    (hload : loadEntry casts conv model entry = .ok (model', preset)) :
    model'.layout = SendModel.ofNetwork srt network ∧
      ∀ p, preset = some p → p.OfNetwork network := by
  rw [loadEntry_eq] at hload
  cases hr : readEntry conv model entry with
  | error e =>
    rw [hr] at hload
    cases hload
  | ok r =>
    rw [hr] at hload
    cases r with
    | none =>
      cases hload
      exact ⟨h, fun p hp => by cases hp⟩
    | some r =>
      cases hload
      have hlayout := (model.layout_assign r.msgIdx r.listed).trans h
      refine ⟨hlayout, ?_⟩
      rintro p ⟨⟩
      obtain ⟨sm, hsm, hreads⟩ := readEntry_cases hr
      obtain ⟨hget, msg, hmsg, hpres⟩ := SendModel.presents_of_layout h hsm
      -- the message is at the same position after the values are set
      obtain ⟨sm', hsm', hzero⟩ : ∃ sm', (model.assign r.msgIdx r.listed).messages[r.msgIdx]? =
          some sm' ∧ sm'.withValues (fun _ => 0) = sm.withValues fun _ => 0 := by
        rw [← hlayout] at hget
        simpa [SendModel.layout] using hget
      refine ⟨msg, hmsg, ?_, ?_, ?_⟩
      · exact hpres.id_eq.symm.trans (id_of_readEntry hr hsm).symm
      · simp only [SendModel.encode, hsm', Option.map_some, Option.getD_some]
        exact (hzero ▸ hpres).of_withValues.carries (hacc msg hmsg) casts
      · intro isig yLo yHi amplitude periodMs offset intervalMs hkind
        simp only at hkind
        rw [hkind] at hreads
        cases hreads with
        | sin _ hk _ _ => exact hpres.of_withValues.sig_mem (List.mem_of_getElem? hk)

theorem ofNetwork_loadEntries
    (hacc : ∀ msg ∈ network.messages, ∀ sig ∈ msg.signals, sig.BitAccess) {load : PresetLoad}
    (h : load.model.layout = SendModel.ofNetwork srt network)
    (hpresets : ∀ p ∈ load.presets, p.OfNetwork network) {entries : List YAML.Node} :
    ∀ p ∈ (loadEntries casts conv load entries).1.presets, p.OfNetwork network := by
  induction entries generalizing load with
  | nil => exact hpresets
  | cons entry entries ih =>
    rw [loadEntries]
    cases hload : loadEntry casts conv load.model entry with
    | error e => exact hpresets
    | ok created =>
      obtain ⟨model, preset⟩ := created
      obtain ⟨hlayout, hpreset⟩ := ofNetwork_loadEntry hacc h hload
      apply @ih ⟨model, load.presets ++ preset.toList⟩ hlayout
      intro p hp
      rcases List.mem_append.mp hp with hold | hnew
      · exact hpresets p hold
      · exact hpreset p (Option.mem_toList.mp hnew)

/-- Every closure that `load_action_presets` posts adds the action of such a preset. -/
theorem mem_loadActionPresets_ofNetwork {env : Env} (hdbc : env.BitAccess)
    {cfgs : List InterfaceConfig} {cfg : InterfaceConfig} (hcfg : cfg ∈ cfgs) {now : ℚ}
    {r : Request SendModels}
    (hr : r ∈ (loadActionPresets env.casts env.conv env.srt env.dbcFiles env.yamlFiles now cfg).1) :
    ∃ network, (cfg.name, network) ∈ env.networks cfgs ∧
      ∃ p : Preset, p.OfNetwork network ∧ r = .addActionPaused (p.action now cfg.name) := by
  unfold loadActionPresets at hr
  split at hr
  · cases hr
  · next hfiles =>
    split at hr
    · cases hr
    · unfold SendModel.load at hr
      cases hfile : env.dbcFiles cfg.dbc with
      | missing =>
        rw [hfile] at hr
        cases hr
      | unparsable =>
        rw [hfile] at hr
        cases hr
      | network network =>
        rw [hfile] at hr
        obtain ⟨p, hp, rfl⟩ := List.mem_map.mp hr
        have hnet : (cfg.name, network) ∈ env.networks cfgs := by
          simp only [Bool.or_eq_true, not_or, Bool.not_eq_true] at hfiles
          exact List.mem_filterMap.mpr ⟨cfg, hcfg, by simp [Env.network, hfiles.2, hfile]⟩
        have hpreset := ofNetwork_loadEntries (fun msg hmsg => hdbc.of_mem_networks hnet hmsg)
          (layout_ofNetwork env.srt network) (fun p hp => by cases hp) p hp
        exact ⟨network, hnet, p, hpreset, rfl⟩
    · cases hr

end Presets

theorem Preset.OfNetwork.suits {env : Env} (hdbc : env.BitAccess) {cfgs : List InterfaceConfig}
    {iface : String} {network : INetwork} (hnet : (iface, network) ∈ env.networks cfgs)
    {p : Preset} (h : p.OfNetwork network) (P : SendModels → Prop) (now : ℚ) :
    (p.action now iface).Suits P (env.OfDbc cfgs) := by
  obtain ⟨msg, hmsg, hid, hcarries, hsig⟩ := h
  unfold Preset.action
  cases hkind : p.kind with
  | periodic periodMs =>
    exact Action.suits_newPeriodic ⟨network, hnet, msg, hmsg, hid, hcarries⟩ _ _
  | sin isig yLo yHi amplitude periodMs offset intervalMs =>
    have hmem := hsig _ _ _ _ _ _ _ hkind
    have hacc := hdbc.of_mem_networks hnet hmsg isig hmem
    refine Action.suits_newSin (fun v w _ => ?_) _ _ _ _ _ _
    exact ⟨network, hnet, msg, hmsg, hid, hcarries.encodeFn hmem hacc _ _ _⟩

/-- The actions of the presets send frames of the DBC. -/
theorem Env.Serving.loadPresets {env : Env} (hdbc : env.BitAccess) {cfgs : List InterfaceConfig}
    {acts : List (Action SendModels)} {now : ℚ} {h h' : ActionHandler SendModels}
    (hs : env.Serving cfgs acts h) (hload : env.loadPresets now h cfgs = .ok h') :
    env.Serving cfgs acts h' := by
  refine env.loadPresets_invariant_mem ?_ hs hload
  intro h cfg hcfg r hr hs
  obtain ⟨network, hnet, p, hpreset, rfl⟩ := mem_loadActionPresets_ofNetwork hdbc hcfg hr
  refine hs.post (ActionHandler.requestSuits_addActionPaused (hpreset.suits hdbc hnet _ now)) ?_
  rintro a ⟨⟩
  exact p.keeps_action _ now cfg.name

/-! ### The GUI -/

namespace Gui

variable {env : Env} {cfgs : List InterfaceConfig} {acts : List (Action SendModels)} {g : Gui}

theorem slot_of_popup (hs : env.Serving cfgs acts g.handler) {iface : String} {i mi : Nat}
    {msg : SendMessage} (h : g.popup = some (iface, i, mi, msg)) :
    env.Slot cfgs iface i mi (msg.withValues fun _ => 0) := by
  simp only [popup, Option.bind_eq_bind, Option.pure_def, Option.bind_eq_some_iff,
    Option.some.injEq, Prod.mk.injEq] at h
  obtain ⟨-, -, i', -, p, hp, mi', -, sm, hsm, rfl, rfl, rfl, rfl⟩ := h
  exact hs.laid.slot hp hsm

theorem serving_setValues (hs : env.Serving cfgs acts g.handler) (i mi : Nat) (values : List ℚ) :
    env.Serving cfgs acts (g.setValues i mi values).handler :=
  hs.change (hs.laid.setValues i mi values)

theorem serving_post (hs : env.Serving cfgs acts g.handler) {r : Request SendModels}
    (haction : r.action = none) (hedits : r.edits = none) :
    env.Serving cfgs acts (g.post env r).handler := hs.post_other haction hedits

section Send

variable {iface : String} {i mi : Nat} {msg : SendMessage}

theorem serving_sendOnce (hdbc : env.BitAccess) (hs : env.Serving cfgs acts g.handler)
    (hslot : env.Slot cfgs iface i mi (msg.withValues fun _ => 0)) :
    env.Serving cfgs acts (g.sendOnce env iface i mi msg).handler := by
  have hset := serving_setValues hs i mi g.sendWindow.editingValues
  exact hset.post_single (hslot.ofDbc hdbc hset.laid) msg.name

theorem serving_sendPeriodic (hdbc : env.BitAccess) (hs : env.Serving cfgs acts g.handler)
    (hslot : env.Slot cfgs iface i mi (msg.withValues fun _ => 0)) :
    env.Serving cfgs acts (g.sendPeriodic env iface i mi msg).handler := by
  have hset := serving_setValues hs i mi g.sendWindow.editingValues
  exact hset.post_periodic (hslot.ofDbc hdbc hset.laid) msg.name _

theorem serving_startSin (hdbc : env.BitAccess) (hs : env.Serving cfgs acts g.handler)
    (hslot : env.Slot cfgs iface i mi (msg.withValues fun _ => 0)) (now : ℚ) :
    env.Serving cfgs acts (g.startSin env now iface i mi msg).handler := by
  unfold startSin
  split
  · exact hs
  · next ssig hssig =>
    obtain ⟨k, -, hk⟩ := Option.bind_eq_some_iff.mp hssig
    have hset := serving_setValues hs i mi g.sendWindow.editingValues
    refine hset.post_sin (fun v w _ => ?_) (fun _ _ hw => hw) now msg.name _ _ _ _
    exact hslot.ofDbc_encodeFn hdbc hset.laid (List.mem_of_getElem? hk) _ _ _

theorem serving_sinSection (hdbc : env.BitAccess) (hs : env.Serving cfgs acts g.handler)
    (hslot : env.Slot cfgs iface i mi (msg.withValues fun _ => 0)) (input : SendWindow.Input)
    (now : ℚ) : env.Serving cfgs acts (g.sinSection env input now iface i mi msg).handler := by
  unfold sinSection
  dsimp only
  split
  · apply serving_startSin hdbc _ hslot
    exact hs
  · exact hs

end Send

/-- What a frame does only if a widget was used. -/
theorem serving_button (hs : env.Serving cfgs acts g.handler) (used : Bool) {f : Gui → Gui}
    (hf : ∀ g : Gui, env.Serving cfgs acts g.handler → env.Serving cfgs acts (f g).handler) :
    env.Serving cfgs acts (if used then f g else g).handler := by
  split
  · exact hf g hs
  · exact hs

theorem serving_renderSendEdit (hdbc : env.BitAccess) (hs : env.Serving cfgs acts g.handler)
    (input : SendWindow.Input) (now : ℚ) :
    env.Serving cfgs acts (g.renderSendEdit env input now).handler := by
  unfold renderSendEdit
  split
  · exact hs
  · next iface i mi msg hpopup =>
    have hslot := slot_of_popup hs hpopup
    dsimp only
    split
    · exact hs
    · refine serving_button (f := fun g => g.sinSection env input now iface i mi msg) ?_ _
        fun g h => serving_sinSection hdbc h hslot input now
      refine serving_button (f := fun g => g.sendPeriodic env iface i mi msg) ?_ input.sendPeriodic
        fun g h => serving_sendPeriodic hdbc h hslot
      refine serving_button (f := fun g => g.sendOnce env iface i mi msg) ?_ input.sendOnce
        fun g h => serving_sendOnce hdbc h hslot
      exact hs

theorem serving_renderSend (hdbc : env.BitAccess) (hs : env.Serving cfgs acts g.handler)
    (input : SendWindow.Input) (now : ℚ) :
    env.Serving cfgs acts (g.renderSend env input now).handler := by
  unfold renderSend
  dsimp only
  split
  · exact serving_renderSendEdit hdbc hs input now
  · apply serving_renderSendEdit hdbc
    unfold openPopup
    split <;> exact hs

/-- The payload of an edit is that of the message that the entry names, and the entry is for the
action at its position. -/
theorem serving_renderPayloadEdit (hdbc : env.BitAccess) (hs : env.Serving cfgs acts g.handler)
    (input : ActionsWindow.Input) {info : ActionInfo} {a : Action SendModels}
    (ha : acts[g.actionsWindow.editActionIdx]? = some a)
    (htarget : a.target = (info.interface, info.msgId)) :
    env.Serving cfgs acts (g.renderPayloadEdit env input info).handler := by
  unfold renderPayloadEdit
  split
  · exact hs
  · next i mi msg hmessage =>
    obtain ⟨hslot, hid⟩ := hs.laid.slot_of_messageOf hmessage
    dsimp only
    split
    · have hset := serving_setValues hs i mi
        (changeField input.field (shownValues g.actionsWindow msg))
      have hdata := hslot.ofDbc hdbc hset.laid
      refine hset.post_payload ha ?_
      rw [htarget, ← hid]
      exact hdata
    · exact hs

theorem serving_renderSinEdit (hs : env.Serving cfgs acts g.handler)
    (input : ActionsWindow.Input) :
    env.Serving cfgs acts (g.renderSinEdit env input).handler := by
  unfold renderSinEdit
  dsimp only
  split
  · apply serving_post _ rfl rfl
    apply serving_post _ rfl rfl
    apply serving_post _ rfl rfl
    exact hs
  · exact hs

/-- The entries of the snapshot that a frame shows are those of the actions. -/
theorem serving_renderActionEdit (hdbc : env.BitAccess) (hs : env.Serving cfgs acts g.handler)
    (input : ActionsWindow.Input) {actions : List ActionInfo}
    (hactions : ∀ info ∈ actions, ∃ a, acts[info.idx]? = some a ∧
      a.target = (info.interface, info.msgId)) :
    env.Serving cfgs acts (g.renderActionEdit env input actions).handler := by
  unfold renderActionEdit
  split
  · split
    · exact hs
    · next info hfind =>
      obtain ⟨a, ha, htarget⟩ := hactions info (List.mem_of_find?_eq_some hfind)
      have hidx : info.idx = g.actionsWindow.editActionIdx := by
        simpa using List.find?_some hfind
      dsimp only
      split
      · exact hs
      · split
        · apply serving_renderSinEdit
          exact hs
        · apply serving_renderPayloadEdit hdbc _ input _ htarget
          · exact hs
          · exact hidx ▸ ha
  · exact hs

theorem serving_onEntry (hs : env.Serving cfgs acts g.handler) (actions : List ActionInfo)
    (clicked : Option Nat) {f : Gui → ActionInfo → Gui}
    (hf : ∀ g : Gui, env.Serving cfgs acts g.handler → ∀ info,
      env.Serving cfgs acts (f g info).handler) :
    env.Serving cfgs acts (g.onEntry actions clicked f).handler := by
  unfold onEntry
  split
  · exact hs
  · exact hf g hs _

theorem serving_renderActions (hdbc : env.BitAccess) (hs : env.Serving cfgs acts g.handler)
    (input : ActionsWindow.Input) :
    env.Serving cfgs acts (g.renderActions env input).handler := by
  have hactions : ∀ info ∈ g.snapshot, ∃ a, acts[info.idx]? = some a ∧
      a.target = (info.interface, info.msgId) := by
    intro info hinfo
    obtain ⟨idx, hidx⟩ := List.mem_iff_getElem?.mp hinfo
    obtain ⟨rfl, htarget⟩ := hs.target_of_snapshot hidx
    exact htarget
  apply serving_renderActionEdit hdbc _ _ hactions
  apply serving_onEntry
  · apply serving_onEntry
    · apply serving_onEntry hs
      intro g h info
      unfold openEdit
      dsimp only
      split <;> exact h
    · intro g h info
      unfold toggleEntry
      split
      · exact serving_post h rfl rfl
      · exact h
  · intro g h info
    apply serving_post _ rfl rfl
    exact h

end Gui

/-! ### The TUI -/

namespace TuiDataFrameSet

variable {env : Env} {cfgs : List InterfaceConfig} {acts : List (Action SendModels)}
  {t : TuiDataFrameSet}

theorem slot_of_selectedMsg (hs : env.Serving cfgs acts t.handler) {i mi : Nat}
    {msg : SendMessage} (h : t.selectedMsg = some (i, mi, msg)) :
    env.Slot cfgs t.selectedSendIface i mi (msg.withValues fun _ => 0) := by
  simp only [selectedMsg, selectedSendModel, SendModels.find, SendModels.model,
    Option.bind_eq_some_iff, Option.map_eq_some_iff, Prod.mk.injEq] at h
  obtain ⟨_, ⟨i', hi, model, ⟨p, hp, rfl⟩, rfl⟩, mi', -, sm, hsm, rfl, rfl, rfl⟩ := h
  have hname : p.1 = t.selectedSendIface := by simpa [hp] using List.of_findIdx?_eq_some hi
  exact hname ▸ hs.laid.slot hp hsm

theorem serving_quiet (hs : env.Serving cfgs acts t.handler) {t' : TuiDataFrameSet}
    (he : t'.handler = t.handler) : env.Serving cfgs acts t'.handler := he ▸ hs

theorem serving_setValue (hs : env.Serving cfgs acts t.handler) (i mi k : Nat) (v : ℚ) :
    env.Serving cfgs acts (t.setValue i mi k v).handler :=
  hs.change (hs.laid.setValue i mi k v)

theorem serving_post (hs : env.Serving cfgs acts t.handler) {r : Request SendModels}
    (haction : r.action = none) (hedits : r.edits = none) :
    env.Serving cfgs acts (t.post env r).handler := hs.post_other haction hedits

theorem serving_createSingleAction (hdbc : env.BitAccess) (hs : env.Serving cfgs acts t.handler) :
    env.Serving cfgs acts (t.createSingleAction env).handler := by
  unfold createSingleAction
  split
  · exact hs
  · next i mi msg hsel =>
    exact hs.post_single ((slot_of_selectedMsg hs hsel).ofDbc hdbc hs.laid) msg.name

theorem serving_createPeriodicAction (hdbc : env.BitAccess)
    (hs : env.Serving cfgs acts t.handler) (period : Int) :
    env.Serving cfgs acts (t.createPeriodicAction env period).handler := by
  unfold createPeriodicAction
  split
  · exact hs
  · next i mi msg hsel =>
    exact hs.post_periodic ((slot_of_selectedMsg hs hsel).ofDbc hdbc hs.laid) msg.name period

/-- The encode function sets a value in whatever models it finds. -/
theorem serving_createSinAction (hdbc : env.BitAccess) (hs : env.Serving cfgs acts t.handler)
    (now amplitude : ℚ) (sinPeriod : Int) (offset : ℚ) :
    env.Serving cfgs acts (t.createSinAction env now amplitude sinPeriod offset).handler := by
  unfold createSinAction
  split
  · exact hs
  · next i mi msg hsel =>
    split
    · exact hs
    · next k _ =>
      have hslot := slot_of_selectedMsg hs hsel
      refine hs.post_sin (fun v w hw => ?_) (fun v w hw => hw.setValue i mi k v) now msg.name _ _ _ _
      exact hslot.ofDbc hdbc (hw.setValue i mi k v)

theorem serving_commitPayload (hdbc : env.BitAccess) (hs : env.Serving cfgs acts t.handler)
    {info : ActionInfo} {a : Action SendModels} (ha : acts[t.actionsCursor]? = some a)
    (htarget : a.target = (info.interface, info.msgId)) (v : Option ℚ) :
    env.Serving cfgs acts (t.commitPayload env info v).handler := by
  unfold commitPayload
  split
  · exact hs
  · next i mi msg hmessage =>
    obtain ⟨hslot, hid⟩ := hs.laid.slot_of_messageOf hmessage
    split
    · next k v _ =>
      have hset := serving_setValue hs i mi k v
      have hdata := hslot.ofDbc hdbc hset.laid
      refine hset.post_payload ha ?_
      rw [htarget, ← hid]
      exact hdata
    · exact hs

theorem serving_commitActionsEdit (hdbc : env.BitAccess) (hs : env.Serving cfgs acts t.handler) :
    env.Serving cfgs acts (t.commitActionsEdit env).handler := by
  unfold commitActionsEdit
  split
  · exact hs
  · next info hinfo =>
    obtain ⟨-, a, ha, htarget⟩ := hs.target_of_snapshot hinfo
    split
    · exact hs
    · split
      · split
        · exact hs
        · exact serving_post hs rfl rfl
      · exact serving_commitPayload hdbc hs ha htarget _

theorem serving_actionsEdit (hdbc : env.BitAccess) (hs : env.Serving cfgs acts t.handler)
    (event : Event) : env.Serving cfgs acts (t.actionsEdit env event).handler := by
  cases event with
  | Return => exact serving_commitActionsEdit hdbc hs
  | ArrowLeft => exact serving_commitActionsEdit hdbc hs
  | Character c =>
    apply serving_quiet hs
    rw [actionsEdit]
    split <;> rfl
  | _ => exact hs

theorem serving_periodicEdit (hdbc : env.BitAccess) (hs : env.Serving cfgs acts t.handler)
    (event : Event) (now : ℚ) :
    env.Serving cfgs acts (t.periodicEdit env event now).handler := by
  have hstart : env.Serving cfgs acts (t.startSin env now).handler := by
    unfold startSin
    split
    · split
      · exact serving_createSinAction hdbc hs _ _ _ _
      · exact hs
    · exact hs
  unfold periodicEdit
  split
  · exact hs
  · cases t.periodicStep with
    | Period => exact serving_quiet hs (handler_periodEdit event)
    | TypeSelect =>
      cases event with
      | Return =>
        dsimp only [typeSelect]
        split
        · exact serving_createPeriodicAction hdbc hs _
        · exact hs
      | _ => exact hs
    | SinReady =>
      cases event with
      | Return => exact hstart
      | ArrowRight => exact hstart
      | _ => exact hs
    | _ => cases event <;> exact hs

theorem serving_sendEdit (hs : env.Serving cfgs acts t.handler) (event : Event) :
    env.Serving cfgs acts (t.sendEdit env event).handler := by
  have hcommit : env.Serving cfgs acts (t.commitSendEdit env).handler := by
    unfold commitSendEdit
    split
    · exact hs
    · split
      · split
        · exact hs
        · exact serving_setValue hs _ _ _ _
      · exact hs
  cases event with
  | Return => exact hcommit
  | ArrowLeft => exact hcommit
  | Character c =>
    apply serving_quiet hs
    rw [sendEdit]
    split <;> rfl
  | _ => exact hs

theorem serving_sigList (hdbc : env.BitAccess) (hs : env.Serving cfgs acts t.handler)
    (event : Event) : env.Serving cfgs acts (t.sigList env event).handler := by
  have hopen : env.Serving cfgs acts (t.openSignal env).handler := by
    unfold openSignal
    split
    · exact hs
    · split
      · exact hs
      · split
        · exact serving_createSingleAction hdbc hs
        · exact hs
  unfold sigList
  split
  · exact hs
  · exact hopen
  · exact hopen
  · exact hs
  · apply serving_quiet hs
    dsimp only
    split <;> rfl
  · exact serving_createSingleAction hdbc hs
  · exact hs
  · exact hs

theorem serving_actionList (hs : env.Serving cfgs acts t.handler) (event : Event) :
    env.Serving cfgs acts (t.actionList env event).handler := by
  have hremove : env.Serving cfgs acts (t.removeSelected env).handler := by
    unfold removeSelected
    split
    · exact hs
    · exact serving_post (r := .removeAction _) hs rfl rfl
  unfold actionList
  split
  · split <;> exact hs
  · split <;> exact hs
  · split <;> exact hs
  · split <;> exact hs
  · split
    · exact hs
    · exact serving_post hs rfl rfl
  · exact hremove
  · exact hremove
  · exact hs

theorem serving_view (hdbc : env.BitAccess) (hs : env.Serving cfgs acts t.handler)
    (event : Event) : env.Serving cfgs acts (t.view env event).handler := by
  unfold view
  split
  · exact serving_sigList hdbc hs event
  · split
    · exact serving_quiet hs (handler_playbackFilter _ event)
    · split
      · exact serving_quiet hs (handler_actionSignals event)
      · exact serving_quiet hs (handler_msgList event)
  · split
    · exact serving_quiet hs (handler_actionSignals event)
    · exact serving_quiet hs (handler_msgList event)
  · split
    · exact serving_quiet hs (handler_playbackList _ event)
    · split
      · exact serving_actionList hs event
      · exact serving_quiet hs (handler_subTabs event)
  · split
    · exact serving_actionList hs event
    · exact serving_quiet hs (handler_subTabs event)
  · exact serving_quiet hs (handler_mainTabs event)

theorem serving_onEvent (hdbc : env.BitAccess) (hs : env.Serving cfgs acts t.handler)
    (event : Event) (now : ℚ) : env.Serving cfgs acts (t.onEvent env event now).handler := by
  unfold onEvent
  split
  · exact serving_actionsEdit hdbc hs event
  · split
    · exact serving_periodicEdit hdbc hs event now
    · split
      · exact serving_sendEdit hs event
      · split
        · exact serving_quiet hs (handler_traceSearch event)
        · cases hshortcut : t.shortcut event with
          | none => exact serving_view hdbc hs event
          | some t' => exact serving_quiet hs (handler_shortcut hshortcut)

end TuiDataFrameSet

/-! ### Runs -/

theorem Env.Serving.io {env : Env} {cfgs : List InterfaceConfig} {acts : List (Action SendModels)}
    {h : ActionHandler SendModels} (hs : env.Serving cfgs acts h)
    {l : ActionHandler.Label SendModels} (hl : ∀ r, l ≠ .request r) (hstay : h.EditsStay l) :
    env.Serving cfgs (ActionHandler.step env.trig h l).actions
      (ActionHandler.step env.trig h l) where
  reached := hs.reached.step fun r _ he => absurd he (hl r)
  suited := hs.suited.preserved hs.reached.identities hs.laid env.trig
    (fun r he => absurd he (hl r)) hstay
  actions := rfl

section Host

variable {S L : Type}

/-- A step of the io thread erases no action up to the position of an edit that is waiting. -/
def HostEditsStay (handler : S → ActionHandler SendModels)
    (io : L → Option (ActionHandler.Label SendModels)) (s : S) (l : L) : Prop :=
  ∀ x ∈ io l, (handler s).EditsStay x

instance (handler : S → ActionHandler SendModels)
    (io : L → Option (ActionHandler.Label SendModels)) (s : S) (l : L) :
    Decidable (HostEditsStay handler io s l) :=
  inferInstanceAs (Decidable (∀ x ∈ io l, (handler s).EditsStay x))

/-- A front end whose UI thread serves. -/
theorem ActionHandler.Hosts.serving_run {env : Env} {cfgs : List InterfaceConfig} {step : S → L → S}
    {handler : S → ActionHandler SendModels} {io : L → Option (ActionHandler.Label SendModels)}
    (hh : ActionHandler.Hosts env.trig step handler io) (hrequest : ∀ l r, io l ≠ some (.request r))
    (hui : ∀ s l acts, io l = none → env.Serving cfgs acts (handler s) →
      env.Serving cfgs acts (handler (step s l))) {s : S}
    (hs : env.Serving cfgs (handler s).actions (handler s)) {ls : List L}
    (hmeets : Meets step (HostEditsStay handler io) s ls) :
    env.Serving cfgs (handler (run step s ls)).actions (handler (run step s ls)) := by
  refine hmeets.invariant (P := fun s => env.Serving cfgs (handler s).actions (handler s)) ?_ hs
  intro s l hs hstay
  cases hl : io l with
  | none =>
    have hstep := hui s l _ hl hs
    rwa [← hstep.actions] at hstep
  | some x =>
    rw [hh.io s l x hl]
    exact hs.io (fun r he => hrequest l r (he ▸ hl)) (hstay x hl)

end Host

theorem Env.Serving.init {env : Env} {cfgs : List InterfaceConfig} :
    env.Serving cfgs [] (ActionHandler.init (env.sendModels cfgs)) where
  reached := .init (env.sendModels_eq cfgs ▸ env.laid_ofNetworks cfgs)
  suited := .init _
  actions := rfl

theorem Gui.serving_run {env : Env} (hdbc : env.BitAccess) {cfgs : List InterfaceConfig} {now : ℚ}
    {g : Gui} (hstart : runGui env now cfgs = .ok g) {ls : List Label}
    (hmeets : Meets (Gui.step env) (HostEditsStay (fun g => g.handler) io) g ls) :
    ∃ acts, env.Serving cfgs acts (run (Gui.step env) g ls).handler := by
  refine ⟨_, (hosts env).serving_run ?_ ?_ ?_ hmeets⟩
  · rintro (_ | _ | _ | _) r <;> rintro ⟨⟩
  · intro g l acts hl hs
    cases l with
    | send input now =>
      rw [Gui.step]
      split
      · exact hs
      · exact serving_renderSend hdbc hs input now
    | actions input =>
      rw [Gui.step]
      split
      · exact hs
      · exact serving_renderActions hdbc hs input
    | expire timer => cases hl
    | run tick => cases hl
  · obtain ⟨handler, models, hload, hmodels, rfl⟩ := exists_of_runGui hstart
    have hloaded := Env.Serving.init.loadPresets hdbc hload
    have hchanged := hloaded.change (env.ifaces_eq hmodels ▸ env.laid_ofNetworks cfgs)
    rwa [← hchanged.actions] at hchanged

theorem TuiDataFrameSet.serving_run {env : Env} (hdbc : env.BitAccess)
    {cfgs : List InterfaceConfig} {t : TuiDataFrameSet} (hstart : t.Started env cfgs)
    {ls : List Label}
    (hmeets : Meets (TuiDataFrameSet.step env) (HostEditsStay (fun t => t.handler) io) t ls) :
    ∃ acts, env.Serving cfgs acts (run (TuiDataFrameSet.step env) t ls).handler := by
  refine ⟨_, (hosts env).serving_run ?_ ?_ ?_ hmeets⟩
  · rintro (_ | _ | _ | _) r <;> rintro ⟨⟩
  · intro t l acts hl hs
    cases l with
    | key event now =>
      rw [TuiDataFrameSet.step]
      split
      · exact hs
      · exact serving_onEvent hdbc hs event now
    | frame frame => exact hs
    | expire timer => cases hl
    | run tick => cases hl
  · rcases hstart with ⟨now, modelTabEnabled, hrun⟩ | ⟨messages, rfl⟩
    · obtain ⟨handler, hload, rfl⟩ := exists_of_runTui hrun
      have hloaded := Env.Serving.init.loadPresets hdbc hload
      rwa [← hloaded.actions] at hloaded
    · exact Env.Serving.init

/-! ### The other end -/

section Heard

variable {pb : Protobuf} {env : Env} {cfgs : List InterfaceConfig} {receiver : ReceiveEnv pb}
  {grpcServer : Bool}

theorem Env.exists_cfg {net : String × INetwork} (h : net ∈ env.networks cfgs) :
    ∃ cfg ∈ cfgs, cfg.name = net.1 ∧ cfg.dbc ≠ "" ∧ env.dbcFiles cfg.dbc = .network net.2 := by
  obtain ⟨cfg, hcfg, hnet⟩ := List.mem_filterMap.mp h
  rw [Env.network] at hnet
  split at hnet
  · cases hnet
  · next hdbc =>
    split at hnet
    · next hfile =>
      cases hnet
      exact ⟨cfg, hcfg, rfl, by simpa using hdbc, hfile⟩
    · cases hnet
    · cases hnet

/-- With distinct names, every configuration counts. -/
theorem networkOf_of_mem {files : String → DbcFile} (hnodup : (cfgs.map (·.name)).Nodup)
    {cfg : InterfaceConfig} (hcfg : cfg ∈ cfgs) (hdbc : cfg.dbc ≠ "") {network : INetwork}
    (hfile : files cfg.dbc = .network network) : networkOf files cfgs cfg.name = some network := by
  have hmem : cfg ∈ (cfgs.filter fun cfg => cfg.dbc ≠ "").reverse := by simp [hcfg, hdbc]
  have hnames : (((cfgs.filter fun cfg => cfg.dbc ≠ "").reverse).map (·.name)).Nodup := by
    rw [List.map_reverse, List.nodup_reverse]
    exact hnodup.sublist (List.filter_sublist.map _)
  have hfind := find?_key_of_nodup (fun cfg : InterfaceConfig => cfg.name) hnames hmem
  rw [networkOf, hfind, Option.bind_some, hfile, DbcFile.parsed]

/-- A standard message of at most 8 bytes, sent and received. -/
theorem decoded_of_sent
    (henv : ReceiveEnv.ofConfig env.casts env.dbcFiles grpcServer cfgs = .ok receiver)
    {iface : String} {network : INetwork} (hnetwork : networkOf env.dbcFiles cfgs iface = some network)
    (hids : (network.messages.map (·.id)).Nodup) {msg : IMessage} (hmsg : msg ∈ network.messages)
    (hformat : msg.HasFormat .standard) (hsize : msg.messageSize ≤ 8) {data : Bytes}
    (hcarries : msg.Carries data) (now : Int) (control : List Cmsg) :
    ∃ frame, (SocketCAN.readFrame iface now ⟨16, SocketCAN.send msg.id data, control⟩).2 =
        some frame ∧
      (receiver.decoded frame).msgName = msg.name ∧
      (receiver.decoded frame).decoded =
        (msg.signals.filter fun sig => !DbcPppWrapper.skipped msg.muxSignal data sig).map
          (DbcPppWrapper.decodedSignal env.casts data) := by
  have hpayload : (SocketCAN.send msg.id data).data.take
      (SocketCAN.send msg.id data).canDlc.toNat = data :=
    SocketCAN.payload_send (hcarries.length ▸ hsize)
  have hheader : ((SocketCAN.send msg.id data).canId &&& CAN_EFF_MASK).setWidth 64 = msg.id := by
    rw [send_canId]
    exact (number_of_standard hformat).1
  refine ⟨_, rfl, ?_⟩
  rw [decoded_of_message henv hnetwork hids hmsg rfl hheader]
  dsimp only
  rw [hpayload, if_neg (by simp [hcarries.length]), DbcPppWrapper.decoded_decodeMessage]
  refine ⟨(DbcPppWrapper.header_decodeMessage _ _ _).2, ?_⟩
  simp

/-- The call sends a message of the DBC of a configured interface: its id, its size, and no bit set
that no signal covers. Where it is a standard message of at most 8 bytes, and its id is only one
message's, a receiver with the same DBC files decodes it by its name, with the signals that its
multiplexer selects. -/
def Env.Understood (env : Env) (cfgs : List InterfaceConfig) (receiver : ReceiveEnv pb)
    (c : SendCall) : Prop :=
  ∃ cfg ∈ cfgs, cfg.name = c.interface ∧ ∃ network, env.dbcFiles cfg.dbc = .network network ∧
    ∃ msg ∈ network.messages, msg.id = c.id ∧ msg.Carries c.data ∧
      ((network.messages.map (·.id)).Nodup → msg.HasFormat .standard → msg.messageSize ≤ 8 →
        ∀ now control, ∃ frame,
          (SocketCAN.readFrame c.interface now ⟨16, SocketCAN.send c.id c.data, control⟩).2 =
            some frame ∧
          (receiver.decoded frame).msgName = msg.name ∧
          (receiver.decoded frame).decoded =
            (msg.signals.filter fun sig => !DbcPppWrapper.skipped msg.muxSignal c.data sig).map
              (DbcPppWrapper.decodedSignal env.casts c.data))

theorem Env.OfDbc.understood
    (henv : ReceiveEnv.ofConfig env.casts env.dbcFiles grpcServer cfgs = .ok receiver)
    (hnodup : (cfgs.map (·.name)).Nodup) {c : SendCall} (h : env.OfDbc cfgs c.target c.data) :
    env.Understood cfgs receiver c := by
  obtain ⟨network, hnet, msg, hmsg, hid, hcarries⟩ := h
  obtain ⟨cfg, hcfg, hname, hdbc, hfile⟩ := Env.exists_cfg hnet
  refine ⟨cfg, hcfg, hname, network, hfile, msg, hmsg, hid, hcarries, ?_⟩
  intro hids hstandard hsize now control
  have hnetwork := networkOf_of_mem hnodup hcfg hdbc hfile
  have hsent : c.id = msg.id := hid.symm
  rw [hsent, ← show cfg.name = c.interface from hname]
  exact decoded_of_sent henv hnetwork hids hmsg hstandard hsize hcarries now control

/-- **What is put on the bus.** Whatever actions are made in the GUI or the TUI, by hand or by
presets, and whatever is edited, paused and removed meanwhile, on interfaces of distinct names: as long
as no action up to the position of an edit is erased while the edit is waiting, every frame that is
sent is understood. -/
theorem sent_frames (hdbc : env.BitAccess)
    (henv : ReceiveEnv.ofConfig env.casts env.dbcFiles grpcServer cfgs = .ok receiver)
    (hnodup : (cfgs.map (·.name)).Nodup) :
    (∀ now g ls, Gui.runGui env now cfgs = .ok g →
      Meets (Gui.step env) (HostEditsStay (fun g => g.handler) Gui.io) g ls →
        ∀ c ∈ (run (Gui.step env) g ls).handler.calls, env.Understood cfgs receiver c) ∧
    ∀ t ls, TuiDataFrameSet.Started env cfgs t →
      Meets (TuiDataFrameSet.step env) (HostEditsStay (fun t => t.handler) TuiDataFrameSet.io) t ls →
        ∀ c ∈ (run (TuiDataFrameSet.step env) t ls).handler.calls,
          env.Understood cfgs receiver c := by
  constructor
  · intro now g ls hstart hmeets c hc
    obtain ⟨acts, hs⟩ := Gui.serving_run hdbc hstart hmeets
    exact (hs.suited.calls c hc).understood henv hnodup
  · intro t ls hstart hmeets c hc
    obtain ⟨acts, hs⟩ := TuiDataFrameSet.serving_run hdbc hstart hmeets
    exact (hs.suited.calls c hc).understood henv hnodup

end Heard

/-! ### An edit of the first action, from either front end and from a preset -/

/-- The payload edit of the single action is delivered, and the action sends. -/
def editedSent : List Gui.Label :=
  threeSent ++ [.actions { select := some 1 }, .actions { field := some (0, 7), button := true },
    .run (ActionHandler.tickAt 0), .expire 1, .run (ActionHandler.tickAt 0)]

def editedStarted : List TuiDataFrameSet.Label :=
  threeStarted ++ keys [.ArrowRight, .Return, .Backspace, .Character '5', .Return] ++
    [.run (ActionHandler.tickAt 0), .expire 1, .run (ActionHandler.tickAt 0)]

/-- The GUI with the action of a preset. -/
def presetGui : Gui :=
  ((Gui.runGui elmoEnv 0 (elmoInterfaces "ss_elmo_actions.yaml")).toOption).getD plainGui

theorem runGui_presetGui :
    Gui.runGui elmoEnv 0 (elmoInterfaces "ss_elmo_actions.yaml") = .ok presetGui := by
  have hloaded : (Gui.runGui elmoEnv 0
      (elmoInterfaces "ss_elmo_actions.yaml")).toOption.isSome = true := by decide +kernel
  rw [presetGui]
  cases hrun : Gui.runGui elmoEnv 0 (elmoInterfaces "ss_elmo_actions.yaml") with
  | error e =>
    rw [hrun] at hloaded
    cases hloaded
  | ok g => rfl

/-- The action of the preset is started, its payload is edited, and it sends twice. -/
def presetSent : List Gui.Label :=
  [.run (ActionHandler.tickAt 0), .run (ActionHandler.tickAt 0), .actions { toggle := some 0 },
    .run (ActionHandler.tickAt 0), .expire 0, .run (ActionHandler.tickAt 0),
    .actions { select := some 0 }, .actions { field := some (0, 7), button := true },
    .run (ActionHandler.tickAt 0), .expire 0, .run (ActionHandler.tickAt 0)]

theorem sent_frames_elmo :
    ∃ receiver : ReceiveEnv Protobuf.wire,
      ReceiveEnv.ofConfig elmoEnv.casts elmoEnv.dbcFiles false (elmoInterfaces "") = .ok receiver ∧
      (run (Gui.step elmoEnv) plainGui editedSent).handler.calls.map (·.data) =
        [[7, 0, 0, 0, 0, 0, 0, 0]] ∧
      (run (TuiDataFrameSet.step elmoEnv) plainTui editedStarted).handler.calls.map (·.data) =
        [[5, 0, 0, 0, 0, 0, 0, 0]] ∧
      (run (Gui.step elmoEnv) presetGui presetSent).handler.calls.map (·.data) =
        [[0xC8, 0x32, 0xB8, 0x0B, 0x70, 0x17, 1, 0], [7, 0, 0, 0, 0, 0, 0, 0]] ∧
      (∀ c ∈ (run (Gui.step elmoEnv) plainGui editedSent).handler.calls,
        elmoEnv.Understood (elmoInterfaces "") receiver c) ∧
      (∀ c ∈ (run (TuiDataFrameSet.step elmoEnv) plainTui editedStarted).handler.calls,
        elmoEnv.Understood (elmoInterfaces "") receiver c) ∧
      ∀ c ∈ (run (Gui.step elmoEnv) presetGui presetSent).handler.calls,
        elmoEnv.Understood (elmoInterfaces "ss_elmo_actions.yaml") receiver c := by
  obtain ⟨receiver, henv⟩ : ∃ receiver : ReceiveEnv Protobuf.wire,
      ReceiveEnv.ofConfig elmoEnv.casts elmoEnv.dbcFiles false (elmoInterfaces "") = .ok receiver :=
    ⟨_, rfl⟩
  obtain ⟨hgui, htui⟩ := sent_frames elmoEnv_bitAccess henv (by decide)
  have henvPreset : ReceiveEnv.ofConfig elmoEnv.casts elmoEnv.dbcFiles false
      (elmoInterfaces "ss_elmo_actions.yaml") = .ok receiver := henv
  obtain ⟨hpreset, -⟩ := sent_frames elmoEnv_bitAccess henvPreset (by decide)
  refine ⟨receiver, henv, by decide +kernel, by decide +kernel, by decide +kernel, ?_, ?_, ?_⟩
  · exact hgui 0 plainGui editedSent runGui_plainGui (by decide +kernel)
  · exact htui plainTui editedStarted (Or.inl ⟨0, false, runTui_plainTui⟩) (by decide +kernel)
  · exact hpreset 0 presetGui presetSent runGui_presetGui (by decide +kernel)

end Caneo
