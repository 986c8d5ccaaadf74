import Caneo.ActionPreset
import Caneo.SignalRoundTrip

/-!
# What a preset entry owes to the entries before it

`loadEntry` is split into what the entry says, which depends on the layout of the model only
(`readEntry`), and what it does to the model (`finish`). So the model after some entries holds, for
every signal, the value that was listed last (`Left`), and the action of the next entry has the
payload of its own values exactly if every signal that it does not list was left with a value that
encodes like 0.
-/

namespace Caneo

open BitField Containers

/-! ### Sequences of `set_value` -/

/-- The value listed last for signal `k`. -/
def lastListed (listed : List (Nat × ℚ)) (k : Nat) : Option ℚ :=
  (listed.reverse.find? fun kv => kv.1 = k).map (·.2)

def SendModel.assign (model : SendModel) (msgIdx : Nat) (listed : List (Nat × ℚ)) : SendModel :=
  listed.foldl (fun model kv => model.setValue msgIdx kv.1 kv.2) model

/-- The model without its values. -/
def SendModel.layout (model : SendModel) : SendModel where
  messages := model.messages.map fun sm => sm.withValues fun _ => 0

theorem lastListed_append (l₁ l₂ : List (Nat × ℚ)) (k : Nat) :
    lastListed (l₁ ++ l₂) k = (lastListed l₂ k).or (lastListed l₁ k) := by
  rw [lastListed, List.reverse_append, List.find?_append]
  cases h : l₂.reverse.find? fun kv => kv.1 = k <;> simp [lastListed, h]

theorem getElem?_assign (model : SendModel) (msgIdx : Nat) (listed : List (Nat × ℚ)) (j : Nat) :
    (model.assign msgIdx listed).messages[j]? =
      if j = msgIdx then (model.messages[j]?).map fun sm =>
        sm.withValues fun k => (lastListed listed k).getD (sm.values k)
      else model.messages[j]? := by
  induction listed generalizing model with
  | nil =>
    have hnone : ∀ k, lastListed [] k = none := fun k => rfl
    cases hj : model.messages[j]? <;> simp [SendModel.assign, hnone, hj]
  | cons kv listed ih =>
    have hfold : model.assign msgIdx (kv :: listed) =
        (model.setValue msgIdx kv.1 kv.2).assign msgIdx listed := rfl
    rw [hfold, ih, SendModel.getElem?_setValue]
    by_cases hj : j = msgIdx
    · simp only [if_pos hj]
      cases model.messages[j]? with
      | none => rfl
      | some sm =>
        have hset := SendMessage.setValue_withValues sm sm.values kv.1 kv.2
        rw [SendMessage.withValues_values] at hset
        rw [Option.map_some, Option.map_some, hset, SendMessage.withValues_withValues,
          Option.map_some, Option.some.injEq]
        apply SendMessage.withValues_congr
        intro k hk
        rw [SendMessage.values_withValues _ hk, show kv :: listed = [kv] ++ listed from rfl,
          lastListed_append]
        cases lastListed listed k with
        | some v => rfl
        | none =>
          by_cases hkv : kv.1 = k
          · subst hkv
            simp [lastListed]
          · have hkv' : k ≠ kv.1 := fun e => hkv e.symm
            simp [lastListed, hkv, hkv']
    · simp [hj]

/-- The constructor leaves every value at 0. -/
theorem withValues_zero_ofNetwork {srt : RangesSort} {network : INetwork} {sm : SendMessage}
    (h : sm ∈ (SendModel.ofNetwork srt network).messages) : (sm.withValues fun _ => 0) = sm := by
  obtain ⟨msg, -, rfl⟩ := List.mem_map.mp ((srt.perm _ _).mem_iff.mp h)
  have hzero : ∀ k, (SendMessage.ofMessage srt msg).values k = 0 := by
    intro k
    rw [SendMessage.values]
    cases hk : (SendMessage.ofMessage srt msg).signals[k]? with
    | none => rfl
    | some ss =>
      have hmem := (srt.perm _ _).mem_iff.mp (List.mem_of_getElem? hk)
      obtain ⟨sig, -, rfl⟩ := List.mem_map.mp hmem
      rfl
  conv_rhs => rw [← SendMessage.withValues_values (SendMessage.ofMessage srt msg)]
  exact SendMessage.withValues_congr fun k _ => (hzero k).symm

theorem layout_ofNetwork (srt : RangesSort) (network : INetwork) :
    (SendModel.ofNetwork srt network).layout = SendModel.ofNetwork srt network := by
  have hmap : (SendModel.ofNetwork srt network).messages.map (fun sm => sm.withValues fun _ => 0) =
      (SendModel.ofNetwork srt network).messages := by
    conv_rhs => rw [← List.map_id (SendModel.ofNetwork srt network).messages]
    exact List.map_congr_left fun sm hsm => withValues_zero_ofNetwork hsm
  rw [SendModel.layout, hmap]

/-! ### What an entry says -/

structure ReadEntry where
  msgIdx : Nat
  /-- The `set_value` calls that the entry makes, in order. -/
  listed : List (Nat × ℚ)
  /-- All arguments of the action but its payload. -/
  preset : Preset

section Read

variable (conv : YAML.Conversions)

def readSignals (msg : SendMessage) : List (YAML.Node × YAML.Node) → Except String (List (Nat × ℚ))
  | [] => return []
  | kv :: rest => do
    match msg.findSigIdx (← kv.1.asString) with
    | none => readSignals msg rest
    | some k =>
      let v ← kv.2.asDouble conv
      return (k, v) :: (← readSignals msg rest)

def readPeriodic (msgIdx : Nat) (msg : SendMessage) (entry : YAML.Node) :
    Except String (Option ReadEntry) := do
  let periodMs ← entry.getOr "period_ms" (YAML.Node.asInt conv) 100
  let listed ← readSignals conv msg (signalPairs (← entry.get "signals"))
  return some ⟨msgIdx, listed, msg.id, msg.name, [], .periodic periodMs⟩

def readSin (msgIdx : Nat) (msg : SendMessage) (entry : YAML.Node) :
    Except String (Option ReadEntry) := do
  let sigName ← entry.getOr "signal" YAML.Node.asString ""
  match (msg.findSigIdx sigName).bind fun sigIdx => msg.signals[sigIdx]? with
  | none => return none
  | some ssig =>
    let amplitude ← entry.getOr "amplitude" (YAML.Node.asDouble conv) 1
    let offset ← entry.getOr "offset" (YAML.Node.asDouble conv) 0
    let periodMs ← entry.getOr "sin_period_ms" (YAML.Node.asInt conv) 1000
    let intervalMs ← entry.getOr "interval_ms" (YAML.Node.asInt conv) 20
    let listed ← readSignals conv msg (signalPairs (← entry.get "signals"))
    return some ⟨msgIdx, listed, msg.id, msg.name, [],
      .sin ssig.sig ssig.minVal ssig.maxVal amplitude periodMs offset intervalMs⟩

/-- The message, the listed values and the arguments of an entry; `none` if it is skipped. -/
def readEntry (model : SendModel) (entry : YAML.Node) : Except String (Option ReadEntry) := do
  let type ← entry.getOr "type" YAML.Node.asString ""
  let msgName ← entry.getOr "msg" YAML.Node.asString ""
  match model.findMsgIdx msgName with
  | none => return none
  | some msgIdx =>
    match model.messages[msgIdx]? with
    | none => return none
    | some msg =>
      if type = "periodic" then readPeriodic conv msgIdx msg entry
      else if type = "sin" then readSin conv msgIdx msg entry
      else return none

end Read

/-- What an entry does: set the listed values, and encode. -/
def finish (casts : BitCasts) (model : SendModel) : Option ReadEntry → SendModel × Option Preset
  | none => (model, none)
  | some r =>
    let model := model.assign r.msgIdx r.listed
    (model, some { r.preset with payload := (model.encode casts r.msgIdx).getD [] })

theorem foldlM_applySignal (conv : YAML.Conversions) (msgIdx : Nat) (msg : SendMessage)
    (pairs : List (YAML.Node × YAML.Node)) (model : SendModel) :
    pairs.foldlM (applySignal conv msgIdx msg) model =
      (fun listed => model.assign msgIdx listed) <$> readSignals conv msg pairs := by
  induction pairs generalizing model with
  | nil => rfl
  | cons kv pairs ih =>
    rw [List.foldlM_cons, applySignal, readSignals]
    cases kv.1.asString with
    | error e => rfl
    | ok name =>
      cases hidx : msg.findSigIdx name with
      | none => simp [hidx, ih]
      | some k =>
        cases kv.2.asDouble conv with
        | error e => simp [hidx]
        | ok v => simp [hidx, ih, SendModel.assign]

theorem loadPeriodic_eq (casts : BitCasts) (conv : YAML.Conversions) (model : SendModel)
    (msgIdx : Nat) (msg : SendMessage) (entry : YAML.Node) :
    loadPeriodic casts conv model msgIdx msg entry =
      finish casts model <$> readPeriodic conv msgIdx msg entry := by
  simp [loadPeriodic, readPeriodic, applySignalsAndEncode, foldlM_applySignal, finish]

theorem loadSin_eq (casts : BitCasts) (conv : YAML.Conversions) (model : SendModel)
    (msgIdx : Nat) (msg : SendMessage) (entry : YAML.Node) :
    loadSin casts conv model msgIdx msg entry =
      finish casts model <$> readSin conv msgIdx msg entry := by
  unfold loadSin readSin
  rw [map_bind]
  congr 1
  funext sigName
  cases (msg.findSigIdx sigName).bind fun sigIdx => msg.signals[sigIdx]? with
  | none => rfl
  | some ssig => simp [applySignalsAndEncode, foldlM_applySignal, finish]

/-- Loading an entry is doing what it says. -/
theorem loadEntry_eq (casts : BitCasts) (conv : YAML.Conversions) (model : SendModel)
    (entry : YAML.Node) :
    loadEntry casts conv model entry = finish casts model <$> readEntry conv model entry := by
  unfold loadEntry readEntry
  rw [map_bind]
  congr 1
  funext type
  rw [map_bind]
  congr 1
  funext msgName
  cases model.findMsgIdx msgName with
  | none => rfl
  | some msgIdx =>
    cases hmsg : model.messages[msgIdx]? with
    | none => simp [hmsg, finish]
    | some msg =>
      simp only [hmsg]
      split
      · exact loadPeriodic_eq casts conv model msgIdx msg entry
      · split
        · exact loadSin_eq casts conv model msgIdx msg entry
        · rfl

/-! ### Reading depends on the layout only -/

theorem findMsgIdx_layout (model : SendModel) (name : String) :
    model.layout.findMsgIdx name = model.findMsgIdx name := by
  unfold SendModel.findMsgIdx SendModel.layout
  rw [List.findIdx?_map]
  rfl

theorem findSigIdx_withValues (sm : SendMessage) (vals : Nat → ℚ) (name : String) :
    (sm.withValues vals).findSigIdx name = sm.findSigIdx name := by
  have hnames : (sm.withValues vals).signals.map (·.name) = sm.signals.map (·.name) := by
    apply List.ext_getElem?
    intro k
    rw [List.getElem?_map, List.getElem?_map, SendMessage.getElem?_withValues]
    cases sm.signals[k]? <;> rfl
  have hfind : ∀ l : List SendSignal, (l.findIdx? fun sig => sig.name = name) =
      (l.map (·.name)).findIdx? fun n => n = name := fun l => by rw [List.findIdx?_map]; rfl
  rw [SendMessage.findSigIdx, hfind, hnames, ← hfind]
  rfl

theorem readSignals_withValues (conv : YAML.Conversions) (msg : SendMessage) (vals : Nat → ℚ)
    (pairs : List (YAML.Node × YAML.Node)) :
    readSignals conv (msg.withValues vals) pairs = readSignals conv msg pairs := by
  induction pairs with
  | nil => rfl
  | cons kv pairs ih => simp only [readSignals, findSigIdx_withValues, ih]

theorem readEntry_layout (conv : YAML.Conversions) (model : SendModel) (entry : YAML.Node) :
    readEntry conv model.layout entry = readEntry conv model entry := by
  have hmsg : ∀ i, model.layout.messages[i]? =
      (model.messages[i]?).map fun sm : SendMessage => sm.withValues fun _ => 0 :=
    fun i => List.getElem?_map
  have hperiodic : ∀ i (msg : SendMessage), readPeriodic conv i (msg.withValues fun _ => 0) entry =
      readPeriodic conv i msg entry := by
    intro i msg
    simp [readPeriodic, readSignals_withValues]
  have hsin : ∀ i (msg : SendMessage), readSin conv i (msg.withValues fun _ => 0) entry =
      readSin conv i msg entry := by
    intro i msg
    unfold readSin
    congr 1
    funext sigName
    rw [findSigIdx_withValues]
    cases msg.findSigIdx sigName with
    | none => rfl
    | some k =>
      simp only [Option.bind_some, SendMessage.getElem?_withValues]
      cases msg.signals[k]? with
      | none => rfl
      | some ssig => simp [readSignals_withValues]
  unfold readEntry
  simp only [findMsgIdx_layout, hmsg]
  congr 1
  funext type
  congr 1
  funext msgName
  cases model.findMsgIdx msgName with
  | none => rfl
  | some i =>
    cases hi : model.messages[i]? with
    | none => simp [hi]
    | some msg => simp [hi, hperiodic, hsin]

/-! ### The values that earlier entries leave -/

/-- The values that the entries list for the signals of one message, in order. -/
def listedFor (conv : YAML.Conversions) (fresh : SendModel) (entries : List YAML.Node)
    (msgIdx : Nat) : List (Nat × ℚ) :=
  entries.flatMap fun entry =>
    match readEntry conv fresh entry with
    | .ok (some r) => if r.msgIdx = msgIdx then r.listed else []
    | _ => []

/-- The value that the entries leave for a signal: the one listed last, or 0. -/
def leftBy (conv : YAML.Conversions) (fresh : SendModel) (entries : List YAML.Node)
    (msgIdx k : Nat) : ℚ :=
  (lastListed (listedFor conv fresh entries msgIdx) k).getD 0

/-- The model is the fresh one with the values the entries have left. -/
def Left (conv : YAML.Conversions) (fresh : SendModel) (entries : List YAML.Node)
    (model : SendModel) : Prop :=
  ∀ i, model.messages[i]? =
    (fresh.messages[i]?).map fun sm : SendMessage => sm.withValues (leftBy conv fresh entries i)

theorem listedFor_append (conv : YAML.Conversions) (fresh : SendModel) (done : List YAML.Node)
    (entry : YAML.Node) (msgIdx : Nat) :
    listedFor conv fresh (done ++ [entry]) msgIdx =
      listedFor conv fresh done msgIdx ++ listedFor conv fresh [entry] msgIdx := by
  simp [listedFor]

section Run

variable {casts : BitCasts} {conv : YAML.Conversions} {srt : RangesSort} {network : INetwork}

theorem left_fresh :
    Left conv (SendModel.ofNetwork srt network) [] (SendModel.ofNetwork srt network) := by
  intro i
  cases hi : (SendModel.ofNetwork srt network).messages[i]? with
  | none => rfl
  | some sm =>
    have hzero := withValues_zero_ofNetwork (List.mem_of_getElem? hi)
    rw [Option.map_some, show leftBy conv (SendModel.ofNetwork srt network) [] i =
      fun _ => 0 from rfl, hzero]

theorem Left.layout {entries : List YAML.Node} {model : SendModel}
    (h : Left conv (SendModel.ofNetwork srt network) entries model) :
    model.layout = SendModel.ofNetwork srt network := by
  rw [← layout_ofNetwork srt network]
  unfold SendModel.layout
  congr 1
  apply List.ext_getElem?
  intro i
  rw [List.getElem?_map, List.getElem?_map, h i]
  cases (SendModel.ofNetwork srt network).messages[i]? <;> simp

/-- One entry. -/
theorem Left.loaded {done : List YAML.Node} {model : SendModel}
    (h : Left conv (SendModel.ofNetwork srt network) done model) {entry : YAML.Node}
    {r : Option ReadEntry}
    (hr : readEntry conv (SendModel.ofNetwork srt network) entry = .ok r) :
    Left conv (SendModel.ofNetwork srt network) (done ++ [entry]) (finish casts model r).1 := by
  intro i
  cases r with
  | none =>
    have hlisted : ∀ j, listedFor conv (SendModel.ofNetwork srt network) [entry] j = [] := by
      intro j
      simp [listedFor, hr]
    have hleft : leftBy conv (SendModel.ofNetwork srt network) (done ++ [entry]) i =
        leftBy conv (SendModel.ofNetwork srt network) done i := by
      funext k
      rw [leftBy, listedFor_append, hlisted, List.append_nil]
      rfl
    rw [hleft]
    exact h i
  | some r =>
    have hlisted : ∀ j, listedFor conv (SendModel.ofNetwork srt network) [entry] j =
        if r.msgIdx = j then r.listed else [] := by
      intro j
      simp [listedFor, hr]
    change (model.assign r.msgIdx r.listed).messages[i]? = _
    rw [getElem?_assign, h i]
    cases hi : (SendModel.ofNetwork srt network).messages[i]? with
    | none => simp
    | some sm =>
      by_cases hmsg : i = r.msgIdx
      · rw [if_pos hmsg, Option.map_some, Option.map_some, Option.map_some,
          SendMessage.withValues_withValues, Option.some.injEq]
        apply SendMessage.withValues_congr
        intro k hk
        rw [SendMessage.values_withValues _ hk, leftBy, leftBy, listedFor_append, hlisted,
          if_pos hmsg.symm, lastListed_append]
        cases lastListed r.listed k <;> rfl
      · have hmsg' : ¬ r.msgIdx = i := fun e => hmsg e.symm
        have hleft : leftBy conv (SendModel.ofNetwork srt network) (done ++ [entry]) i =
            leftBy conv (SendModel.ofNetwork srt network) done i := by
          funext k
          rw [leftBy, listedFor_append, hlisted, if_neg hmsg', List.append_nil]
          rfl
        rw [if_neg hmsg, hleft]

/-- A whole run of the loop. -/
theorem Left.run {done entries : List YAML.Node} {load load' : PresetLoad}
    (h : Left conv (SendModel.ofNetwork srt network) done load.model)
    (hload : loadEntries casts conv load entries = (load', none)) :
    Left conv (SendModel.ofNetwork srt network) (done ++ entries) load'.model := by
  induction entries generalizing done load with
  | nil =>
    cases hload
    rwa [List.append_nil]
  | cons entry entries ih =>
    have hlayout : readEntry conv load.model entry =
        readEntry conv (SendModel.ofNetwork srt network) entry := by
      rw [← readEntry_layout, h.layout]
    rw [loadEntries, loadEntry_eq, hlayout] at hload
    cases hr : readEntry conv (SendModel.ofNetwork srt network) entry with
    | error e =>
      rw [hr] at hload
      cases hload
    | ok r =>
      rw [hr] at hload
      have hloaded : Left conv (SendModel.ofNetwork srt network) (done ++ [entry])
          (finish casts load.model r).1 := h.loaded hr
      have hnext := ih hloaded hload
      rwa [List.append_assoc] at hnext

end Run

/-! ### The action of an entry -/

/-- The action that the entry creates in a model. -/
def created (casts : BitCasts) (conv : YAML.Conversions) (model : SendModel) (entry : YAML.Node) :
    Except String (Option Preset) :=
  Prod.snd <$> loadEntry casts conv model entry

/-- The action whose payload has the listed values, and 0 everywhere else. -/
def ReadEntry.own (casts : BitCasts) (r : ReadEntry) (sm : SendMessage) : Preset :=
  { r.preset with
    payload := (sm.withValues fun k => (lastListed r.listed k).getD 0).encode casts }

/-- The action that is created after `entries` encodes the entry's values over what they left. -/
theorem created_eq {casts : BitCasts} {conv : YAML.Conversions} {srt : RangesSort}
    {network : INetwork} {entries : List YAML.Node} {model : SendModel}
    (h : Left conv (SendModel.ofNetwork srt network) entries model) {entry : YAML.Node}
    {r : ReadEntry} (hr : readEntry conv (SendModel.ofNetwork srt network) entry = .ok (some r))
    {sm : SendMessage} (hsm : (SendModel.ofNetwork srt network).messages[r.msgIdx]? = some sm) :
    created casts conv model entry = .ok (some { r.preset with
      payload := (sm.withValues fun k => (lastListed r.listed k).getD
        (leftBy conv (SendModel.ofNetwork srt network) entries r.msgIdx k)).encode casts }) := by
  have hread : readEntry conv model entry = .ok (some r) := by
    rw [← readEntry_layout, h.layout, hr]
  have hmsg : (model.assign r.msgIdx r.listed).messages[r.msgIdx]? =
      some (sm.withValues fun k => (lastListed r.listed k).getD
        (leftBy conv (SendModel.ofNetwork srt network) entries r.msgIdx k)) := by
    rw [getElem?_assign, if_pos rfl, h r.msgIdx, hsm, Option.map_some, Option.map_some,
      SendMessage.withValues_withValues, Option.some.injEq]
    apply SendMessage.withValues_congr
    intro k hk
    rw [SendMessage.values_withValues _ hk]
  rw [created, loadEntry_eq, hread, YAML.map_ok, YAML.map_ok, finish, SendModel.encode, hmsg]
  rfl

/-- **The action of an entry.** In every preset file, the action that is created for an entry is
that of the entry alone, with every signal that it does not list at 0, if and only if each of those
signals was left by the entries before it with a value that has the visible bits of 0. -/
theorem own_iff (casts : BitCasts) (conv : YAML.Conversions) (srt : RangesSort)
    (network : INetwork) (haccess : ∀ msg ∈ network.messages, ∀ sig ∈ msg.signals, sig.BitAccess)
    (entries : List YAML.Node) (load : PresetLoad)
    (hload : loadEntries casts conv ⟨SendModel.ofNetwork srt network, []⟩ entries = (load, none))
    (entry : YAML.Node) (r : ReadEntry)
    (hr : readEntry conv (SendModel.ofNetwork srt network) entry = .ok (some r))
    (sm : SendMessage) (hsm : (SendModel.ofNetwork srt network).messages[r.msgIdx]? = some sm) :
    created casts conv load.model entry = .ok (some (r.own casts sm)) ↔
      ∀ k, lastListed r.listed k = none →
        sm.SameBits casts k (leftBy conv (SendModel.ofNetwork srt network) entries r.msgIdx k) 0 := by
  have hleft : Left conv (SendModel.ofNetwork srt network) ([] ++ entries) load.model :=
    Left.run left_fresh hload
  rw [List.nil_append] at hleft
  obtain ⟨msg, hmsg, hpres⟩ :=
    SendModel.From.presents (.new : SendModel.From srt network _) (List.mem_of_getElem? hsm)
  have hba := hpres.bitAccess (haccess msg hmsg)
  have hpayload : _ ↔ ∀ k, sm.SameBits casts k _ _ := SendMessage.encode_withValues_iff hba
    (fun k => (lastListed r.listed k).getD
      (leftBy conv (SendModel.ofNetwork srt network) entries r.msgIdx k))
    (fun k => (lastListed r.listed k).getD 0)
  have hsplit : created casts conv load.model entry = .ok (some (r.own casts sm)) ↔
      (sm.withValues fun k => (lastListed r.listed k).getD
        (leftBy conv (SendModel.ofNetwork srt network) entries r.msgIdx k)).encode casts =
      (sm.withValues fun k => (lastListed r.listed k).getD 0).encode casts := by
    rw [created_eq hleft hr hsm]
    constructor
    · intro heq
      exact congrArg Preset.payload (Option.some.inj (Except.ok.inj heq))
    · intro heq
      rw [heq, ReadEntry.own]
  rw [hsplit, hpayload]
  constructor
  · intro hall k hk
    have hbits := hall k
    rwa [hk] at hbits
  · intro hall k
    cases hk : lastListed r.listed k with
    | none => exact hall k hk
    | some v => exact SendMessage.SameBits.refl casts sm k v

/-! ### The steering controller's configuration

The message `SS_ELMO_CONFIG` of the repository's `vcan0.dbc` and its entry in
`ss_elmo_actions.yaml`. -/

def SS_ELMO_CONFIG : IMessage where
  id := 1026
  name := "SS_ELMO_CONFIG"
  messageSize := 8
  signals :=
    [signed "SS_ELMO_CONFIG_VALID" 48 1, signed "SS_ELMO_STATUS_LWS_MIN" 16 16,
      signed "SS_ELMO_STATUS_LWS_MIDDLE" 32 16, signed "SS_ELMO_STATUS_LWS_MAX" 0 16]
where
  signed (name : String) (startBit bitSize : Nat) : ISignal := ISignal.ofLine
    { name := name, startBit := startBit, bitSize := bitSize, valueType := .Signed,
      minimum := 0, maximum := 0 }

def elmoNetwork : INetwork := ⟨[SS_ELMO_CONFIG]⟩

def elmoEntry (signals : List (String × String)) : YAML.Node :=
  .map [(.scalar "type", .scalar "periodic"), (.scalar "msg", .scalar "SS_ELMO_CONFIG"),
    (.scalar "period_ms", .scalar "1"),
    (.scalar "signals", .map (signals.map fun kv => (.scalar kv.1, .scalar kv.2)))]

def elmoConfigEntry : YAML.Node := elmoEntry
  [("SS_ELMO_STATUS_LWS_MAX", "13000"), ("SS_ELMO_STATUS_LWS_MIN", "3000"),
    ("SS_ELMO_STATUS_LWS_MIDDLE", "6000"), ("SS_ELMO_CONFIG_VALID", "1")]

def elmoValidEntry : YAML.Node := elmoEntry [("SS_ELMO_CONFIG_VALID", "1")]

def elmoModel : SendModel := SendModel.ofNetwork .insertion elmoNetwork

theorem elmo_bitAccess : ∀ msg ∈ elmoNetwork.messages, ∀ sig ∈ msg.signals, sig.BitAccess := by
  intro msg hmsg sig hsig
  simp only [elmoNetwork, List.mem_singleton] at hmsg
  subst hmsg
  simp only [SS_ELMO_CONFIG, List.mem_cons, List.not_mem_nil, or_false] at hsig
  rcases hsig with rfl | rfl | rfl | rfl <;> exact ISignal.ofLine_bitAccess _

/-- An entry that lists every signal is not affected by the one before it. -/
theorem own_elmoConfigEntry : ∃ load r sm,
    loadEntries .zero .decimal ⟨elmoModel, []⟩ [elmoValidEntry] = (load, none) ∧
      readEntry .decimal elmoModel elmoConfigEntry = .ok (some r) ∧
      elmoModel.messages[r.msgIdx]? = some sm ∧
      created .zero .decimal load.model elmoConfigEntry = .ok (some (r.own .zero sm)) := by
  have hload : (loadEntries .zero .decimal ⟨elmoModel, []⟩ [elmoValidEntry]).2 = none := by
    decide +kernel
  have hread : (readEntry .decimal elmoModel elmoConfigEntry).toOption.join.map
      (fun r => (r.msgIdx, r.listed)) = some (0, [(0, 13000), (1, 3000), (2, 6000), (3, 1)]) := by
    decide +kernel
  have hlength : (elmoModel.messages[0]?).map (·.signals.length) = some 4 := by decide +kernel
  obtain ⟨r, hr, hr'⟩ := Option.map_eq_some_iff.mp hread
  obtain ⟨hidx, hlisted⟩ := Prod.mk.inj hr'
  obtain ⟨sm, hsm, hlen⟩ := Option.map_eq_some_iff.mp hlength
  have hread' : readEntry .decimal elmoModel elmoConfigEntry = .ok (some r) := by
    cases h : readEntry .decimal elmoModel elmoConfigEntry with
    | error e =>
      rw [h] at hr
      cases hr
    | ok o =>
      rw [h] at hr
      exact congrArg Except.ok hr
  rw [← hidx] at hsm
  refine ⟨_, r, sm, Prod.ext rfl hload, hread', hsm, ?_⟩
  refine (own_iff .zero .decimal .insertion elmoNetwork elmo_bitAccess [elmoValidEntry] _
    (Prod.ext rfl hload) elmoConfigEntry r hread' sm hsm).mpr ?_
  intro k hk ss hss
  have hlt : k < 4 := hlen ▸ (List.getElem?_eq_some_iff.mp hss).1
  have hall : ∀ k < 4, (lastListed r.listed k).isSome = true := by
    rw [hlisted]
    decide +kernel
  have hsome := hall k hlt
  rw [hk] at hsome
  cases hsome

/-- After the repository's entry, an entry that lists only `SS_ELMO_CONFIG_VALID` sends the limits of
the other one too. -/
theorem not_own_elmoValidEntry :
    let load := loadEntries .zero .decimal ⟨elmoModel, []⟩ [elmoConfigEntry]
    load.2 = none ∧
      ((created .zero .decimal load.1.model elmoValidEntry).toOption.join.map (·.payload)) =
        some [0xC8, 0x32, 0xB8, 0x0B, 0x70, 0x17, 0x01, 0x00] ∧
      ((created .zero .decimal elmoModel elmoValidEntry).toOption.join.map (·.payload)) =
        some [0x00, 0x00, 0x00, 0x00, 0x00, 0x00, 0x01, 0x00] := by
  decide +kernel

end Caneo
