import Caneo.FrontEnd
import Caneo.PresetIsolation

/-!
# The actions that presets create

What the numbers and the signal of a preset action are (`readEntry_cases`), and that its payload is
one of the message that the entry names (`mem_loadActionPresets_cases`).
-/

namespace Caneo

open BitField Containers

section Read

variable {conv : YAML.Conversions} {model : SendModel} {entry : YAML.Node}

/-- The kind of the action of an entry, for a message with these signals. -/
inductive Preset.Kind.Reads (conv : YAML.Conversions) (entry : YAML.Node) (sm : SendMessage) :
    Preset.Kind → Prop where
  | periodic {periodMs : Int} :
      entry.getOr "type" YAML.Node.asString "" = .ok "periodic" →
      entry.getOr "period_ms" (YAML.Node.asInt conv) 100 = .ok periodMs →
      Reads conv entry sm (.periodic periodMs)
  | sin {k : Nat} {ssig : SendSignal} {amplitude offset : ℚ} {periodMs intervalMs : Int} :
      entry.getOr "type" YAML.Node.asString "" = .ok "sin" →
      sm.signals[k]? = some ssig →
      entry.getOr "sin_period_ms" (YAML.Node.asInt conv) 1000 = .ok periodMs →
      entry.getOr "interval_ms" (YAML.Node.asInt conv) 20 = .ok intervalMs →
      Reads conv entry sm (.sin ssig.sig ssig.minVal ssig.maxVal amplitude periodMs offset intervalMs)

theorem readPeriodic_cases {msgIdx : Nat} {msg : SendMessage} {r : ReadEntry}
    (htype : entry.getOr "type" YAML.Node.asString "" = .ok "periodic")
    (h : readPeriodic conv msgIdx msg entry = .ok (some r)) :
    r.msgIdx = msgIdx ∧ r.preset.kind.Reads conv entry msg := by
  unfold readPeriodic at h
  obtain ⟨periodMs, hperiod, h⟩ := YAML.exists_of_bind_eq_ok h
  obtain ⟨signals, -, h⟩ := YAML.exists_of_bind_eq_ok h
  obtain ⟨listed, -, h⟩ := YAML.exists_of_bind_eq_ok h
  cases h
  exact ⟨rfl, .periodic htype hperiod⟩

theorem readSin_cases {msgIdx : Nat} {msg : SendMessage} {r : ReadEntry}
    (htype : entry.getOr "type" YAML.Node.asString "" = .ok "sin")
    (h : readSin conv msgIdx msg entry = .ok (some r)) :
    r.msgIdx = msgIdx ∧ r.preset.kind.Reads conv entry msg := by
  unfold readSin at h
  obtain ⟨sigName, -, h⟩ := YAML.exists_of_bind_eq_ok h
  split at h
  · cases h
  · next ssig hssig =>
    obtain ⟨k, -, hk⟩ := Option.bind_eq_some_iff.mp hssig
    obtain ⟨amplitude, -, h⟩ := YAML.exists_of_bind_eq_ok h
    obtain ⟨offset, -, h⟩ := YAML.exists_of_bind_eq_ok h
    obtain ⟨periodMs, hperiod, h⟩ := YAML.exists_of_bind_eq_ok h
    obtain ⟨intervalMs, hinterval, h⟩ := YAML.exists_of_bind_eq_ok h
    obtain ⟨signals, -, h⟩ := YAML.exists_of_bind_eq_ok h
    obtain ⟨listed, -, h⟩ := YAML.exists_of_bind_eq_ok h
    cases h
    exact ⟨rfl, .sin htype hk hperiod hinterval⟩

/-- An entry that creates an action names a message of the model. -/
theorem readEntry_cases {r : ReadEntry} (h : readEntry conv model entry = .ok (some r)) :
    ∃ sm, model.messages[r.msgIdx]? = some sm ∧ r.preset.kind.Reads conv entry sm := by
  unfold readEntry at h
  obtain ⟨type, htype, h⟩ := YAML.exists_of_bind_eq_ok h
  obtain ⟨msgName, -, h⟩ := YAML.exists_of_bind_eq_ok h
  split at h
  · cases h
  · next msgIdx _ =>
    split at h
    · cases h
    · next sm hsm =>
      split at h
      · next hperiodic =>
        rw [hperiodic] at htype
        obtain ⟨rfl, hreads⟩ := readPeriodic_cases htype h
        exact ⟨sm, hsm, hreads⟩
      · split at h
        · next hsin =>
          rw [hsin] at htype
          obtain ⟨rfl, hreads⟩ := readSin_cases htype h
          exact ⟨sm, hsm, hreads⟩
        · cases h

end Read

/-! ### The payloads -/

/-- An encode function of the send window or of a preset: it replaces one signal in a payload of a
message of the network. -/
def EncodesSignal {W : Type} (casts : BitCasts) (network : INetwork) (f : ℚ → W → Bytes × W) :
    Prop :=
  ∃ msg ∈ network.messages, ∃ sm : SendMessage, sm.Presents msg ∧
    ∃ (k : Nat) (ss : SendSignal), sm.signals[k]? = some ss ∧
      f = fun v w => (Preset.encodeFn (sm.encode casts) ss.sig ss.minVal ss.maxVal v, w)

/-- What an entry creates: a preset of the kind that it reads, with a payload of its message. -/
structure Preset.From (casts : BitCasts) (conv : YAML.Conversions) (fresh : SendModel)
    (entry : YAML.Node) (p : Preset) : Prop where
  read : ∃ r, readEntry conv fresh entry = .ok (some r) ∧ p.kind = r.preset.kind
  payload : ∃ sm ∈ fresh.messages, p.kind.Reads conv entry sm ∧
    ∃ vals, p.payload = (sm.withValues vals).encode casts

section Created

variable {casts : BitCasts} {conv : YAML.Conversions} {srt : RangesSort} {network : INetwork}

theorem Left.from_loadEntry {done : List YAML.Node} {model model' : SendModel}
    (h : Left conv (SendModel.ofNetwork srt network) done model) {entry : YAML.Node} {p : Preset}
    (hload : loadEntry casts conv model entry = .ok (model', some p)) :
    p.From casts conv (SendModel.ofNetwork srt network) entry := by
  have hread : readEntry conv model entry =
      readEntry conv (SendModel.ofNetwork srt network) entry := by
    rw [← readEntry_layout, h.layout]
  have hcreated : created casts conv model entry = .ok (some p) := by
    rw [created, hload]
    rfl
  rw [loadEntry_eq, hread] at hload
  cases hr : readEntry conv (SendModel.ofNetwork srt network) entry with
  | error e =>
    rw [hr] at hload
    cases hload
  | ok r =>
    rw [hr] at hload
    cases r with
    | none => cases hload
    | some r =>
      obtain ⟨sm, hsm, hreads⟩ := readEntry_cases hr
      rw [created_eq h hr hsm] at hcreated
      cases hcreated
      exact ⟨⟨r, hr, rfl⟩, sm, List.mem_of_getElem? hsm, hreads, _, rfl⟩

theorem Left.mem_presets {done entries : List YAML.Node} {load : PresetLoad}
    (h : Left conv (SendModel.ofNetwork srt network) done load.model) {p : Preset}
    (hp : p ∈ (loadEntries casts conv load entries).1.presets) :
    p ∈ load.presets ∨
      ∃ entry ∈ entries, p.From casts conv (SendModel.ofNetwork srt network) entry := by
  induction entries generalizing done load with
  | nil => exact Or.inl hp
  | cons entry entries ih =>
    rw [loadEntries] at hp
    cases hload : loadEntry casts conv load.model entry with
    | error e =>
      rw [hload] at hp
      exact Or.inl hp
    | ok res =>
      obtain ⟨model, preset⟩ := res
      rw [hload] at hp
      have hleft : Left conv (SendModel.ofNetwork srt network) (done ++ [entry]) model := by
        have hread : readEntry conv load.model entry =
            readEntry conv (SendModel.ofNetwork srt network) entry := by
          rw [← readEntry_layout, h.layout]
        have hfinish := hload
        rw [loadEntry_eq, hread] at hfinish
        cases hr : readEntry conv (SendModel.ofNetwork srt network) entry with
        | error e =>
          rw [hr] at hfinish
          cases hfinish
        | ok r =>
          rw [hr, YAML.map_ok] at hfinish
          have hloaded : Left conv (SendModel.ofNetwork srt network) (done ++ [entry])
              (finish casts load.model r).1 := h.loaded hr
          rwa [Except.ok.inj hfinish] at hloaded
      rcases ih hleft hp with hold | ⟨entry', hentry', hfrom⟩
      · rcases List.mem_append.mp hold with hold | hnew
        · exact Or.inl hold
        · cases preset with
          | none => cases hnew
          | some q =>
            obtain rfl := List.mem_singleton.mp hnew
            exact Or.inr ⟨entry, List.mem_cons_self, h.from_loadEntry hload⟩
      · exact Or.inr ⟨entry', List.mem_cons_of_mem _ hentry', hfrom⟩

end Created

/-- Every closure that `load_action_presets` posts adds the action of an entry of the file. -/
theorem mem_loadActionPresets_from {W : Type} {casts : BitCasts} {conv : YAML.Conversions}
    {srt : RangesSort} {dbcFiles : String → DbcFile} {yamlFiles : String → Except String YAML.Node}
    {now : ℚ} {cfg : InterfaceConfig} {r : Request W}
    (hr : r ∈ (loadActionPresets casts conv srt dbcFiles yamlFiles now cfg).1) :
    ∃ network entries, cfg.dbc.isEmpty = false ∧ dbcFiles cfg.dbc = .network network ∧
      yamlFiles cfg.actionsFile = .ok (.sequence entries) ∧
      ∃ entry ∈ entries, ∃ p : Preset,
        p.From casts conv (SendModel.ofNetwork srt network) entry ∧
          r = .addActionPaused (p.action now cfg.name) := by
  unfold loadActionPresets at hr
  split at hr
  · cases hr
  · next hfiles =>
    split at hr
    · cases hr
    · next entries hyaml =>
      unfold SendModel.load at hr
      cases hdbc : dbcFiles cfg.dbc with
      | missing =>
        rw [hdbc] at hr
        cases hr
      | unparsable =>
        rw [hdbc] at hr
        cases hr
      | network network =>
        rw [hdbc] at hr
        obtain ⟨p, hp, rfl⟩ := List.mem_map.mp hr
        rcases left_fresh.mem_presets hp with hnone | ⟨entry, hentry, hfrom⟩
        · cases hnone
        · simp only [Bool.or_eq_true, not_or, Bool.not_eq_true] at hfiles
          exact ⟨network, entries, hfiles.2, rfl, hyaml, entry, hentry, p, hfrom, rfl⟩
    · cases hr

/-- The encode function of a sin preset. -/
theorem Preset.From.encodesSignal {W : Type} {casts : BitCasts} {conv : YAML.Conversions}
    {srt : RangesSort} {network : INetwork} {entry : YAML.Node} {p : Preset}
    (h : p.From casts conv (SendModel.ofNetwork srt network) entry) {now : ℚ} {interface : String}
    {f : ℚ → W → Bytes × W} (hf : (p.action now interface : Action W).encodeFn = some f) :
    EncodesSignal casts network f := by
  obtain ⟨sm, hsm, hreads, vals, hpayload⟩ := h.payload
  obtain ⟨msg, hmsg, hpres⟩ := SendModel.From.presents (.new : SendModel.From srt network _) hsm
  unfold Preset.action at hf
  cases hkind : p.kind with
  | periodic periodMs =>
    rw [hkind] at hf
    cases hf
  | sin isig yLo yHi amplitude periodMs offset intervalMs =>
    rw [hkind] at hf hreads
    cases hf
    cases hreads with
    | @sin k ssig _ _ _ _ _ hk _ _ =>
      have hsame := SendMessage.sameSignals_withValues sm sm.values vals
      rw [SendMessage.withValues_values] at hsame
      have hss : (sm.withValues vals).signals[k]? = some { ssig with value := vals k } := by
        rw [SendMessage.getElem?_withValues, hk]
        rfl
      exact ⟨msg, hmsg, sm.withValues vals, hpres.of_same hsame, k, _, hss, by rw [hpayload]⟩

end Caneo
