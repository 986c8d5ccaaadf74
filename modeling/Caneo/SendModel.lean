import Caneo.Dbc
import Caneo.Containers

/-!
# `SendModel`

The values the user sets for the signals of each message, and the payload they encode to
(`src/send/SendModel.cpp`). The model is stored in id order, each message's signals in start-bit
order; `encode` writes the signals in that order into a zeroed buffer.

The payload is analysed through `BitField.runAll`: `getBit_encode` reads a bit of it off the last
signal that covers the bit, `encode_eq_iff` says when two assignments of values give the same
payload, and `read_encode` that bit-disjoint signals each keep their own raw value.
-/

namespace Caneo

open BitField Containers

structure SendSignal where
  name : String
  unit : String
  minVal : ℚ
  maxVal : ℚ
  value : ℚ := 0
  sig : ISignal

structure SendMessage where
  id : BitVec 64
  name : String
  dlc : Nat
  signals : List SendSignal

structure SendModel where
  messages : List SendMessage

/-! ### Construction -/

def SendSignal.ofSignal (sig : ISignal) : SendSignal where
  name := sig.name
  unit := sig.unit
  minVal := sig.minimum
  maxVal := sig.maximum
  sig := sig

def SendMessage.ofMessage (srt : RangesSort) (msg : IMessage) : SendMessage where
  id := msg.id
  name := msg.name
  dlc := msg.messageSize
  signals := srt.sort (fun s => s.sig.startBit) (msg.signals.map SendSignal.ofSignal)

def SendModel.ofNetwork (srt : RangesSort) (network : INetwork) : SendModel where
  messages := srt.sort (fun m => m.id.toNat) (network.messages.map (SendMessage.ofMessage srt))

/-- The constructor of `SendModel`, with its two exceptions. -/
def SendModel.load (srt : RangesSort) (files : String → DbcFile) (dbcPath : String) :
    Except String SendModel :=
  match files dbcPath with
  | .missing => .error ("Cannot open DBC: " ++ dbcPath)
  | .unparsable => .error ("Cannot parse DBC: " ++ dbcPath)
  | .network network => .ok (SendModel.ofNetwork srt network)

/-! ### Operations -/

def SendMessage.setValue (sm : SendMessage) (sigIdx : Nat) (value : ℚ) : SendMessage :=
  { sm with signals := sm.signals.modify sigIdx fun ss => { ss with value := value } }

def SendModel.setValue (model : SendModel) (msgIdx sigIdx : Nat) (value : ℚ) : SendModel :=
  { model with messages := model.messages.modify msgIdx fun sm => sm.setValue sigIdx value }

def SendSignal.raw (casts : BitCasts) (ss : SendSignal) : BitVec 64 :=
  match ss.sig.extendedValueType with
  | .Float => (casts.floatBits ss.value).setWidth 64
  | .Double => casts.doubleBits ss.value
  | .Integer => ss.sig.physToRaw ss.value

def SendMessage.encode (casts : BitCasts) (sm : SendMessage) : Bytes :=
  sm.signals.foldl (fun data ss => ss.sig.encode (ss.raw casts) data) (List.replicate sm.dlc 0)

/-- `SendModel::encode`; an index past the end is undefined behaviour (`none`). -/
def SendModel.encode (casts : BitCasts) (model : SendModel) (msgIdx : Nat) : Option Bytes :=
  model.messages[msgIdx]?.map (SendMessage.encode casts)

/-! ### The part of a model that setting values leaves alone -/

/-- `sm` presents the message `msg`: same id, name and size, and the message's signals in
start-bit order. -/
structure SendMessage.Presents (sm : SendMessage) (msg : IMessage) : Prop where
  id_eq : sm.id = msg.id
  name_eq : sm.name = msg.name
  dlc_eq : sm.dlc = msg.messageSize
  perm : (sm.signals.map (·.sig)).Perm msg.signals
  sorted : sm.signals.Pairwise fun a b => a.sig.startBit ≤ b.sig.startBit
  labels : ∀ ss ∈ sm.signals, ss.name = ss.sig.name ∧ ss.unit = ss.sig.unit ∧
    ss.minVal = ss.sig.minimum ∧ ss.maxVal = ss.sig.maximum

theorem SendMessage.ofMessage_presents (srt : RangesSort) (msg : IMessage) :
    (SendMessage.ofMessage srt msg).Presents msg where
  id_eq := rfl
  name_eq := rfl
  dlc_eq := rfl
  perm := by
    have h := (srt.perm (fun s => s.sig.startBit) (msg.signals.map SendSignal.ofSignal)).map (·.sig)
    simpa [SendMessage.ofMessage, SendSignal.ofSignal, Function.comp_def] using h
  sorted := srt.sorted _ _
  labels ss hss := by
    have hmem := (srt.perm _ _).mem_iff.mp hss
    obtain ⟨sig, _, rfl⟩ := List.mem_map.mp hmem
    exact ⟨rfl, rfl, rfl, rfl⟩

/-- Two lists of signals that differ in the stored values only. -/
def SameSignals (l₁ l₂ : List SendSignal) : Prop :=
  List.Forall₂ (fun a b => b = { a with value := b.value }) l₁ l₂

theorem SameSignals.refl (l : List SendSignal) : SameSignals l l :=
  List.forall₂_same.mpr fun _ _ => rfl

theorem SameSignals.trans {l₁ l₂ l₃ : List SendSignal} (h₁ : SameSignals l₁ l₂)
    (h₂ : SameSignals l₂ l₃) : SameSignals l₁ l₃ := by
  induction h₁ generalizing l₃ with
  | nil => exact h₂
  | cons hab _ ih =>
    cases h₂ with
    | cons hbc hrest =>
      refine List.Forall₂.cons ?_ (ih hrest)
      rw [hbc, hab]

theorem SameSignals.modify (l : List SendSignal) (k : Nat) (value : ℚ) :
    SameSignals l (l.modify k fun ss => { ss with value := value }) := by
  induction l generalizing k with
  | nil => cases k <;> exact List.Forall₂.nil
  | cons ss l ih =>
    cases k with
    | zero => exact List.Forall₂.cons rfl (SameSignals.refl l)
    | succ k => exact List.Forall₂.cons rfl (ih k)

theorem SameSignals.getElem? {l₁ l₂ : List SendSignal} (h : SameSignals l₁ l₂) {k : Nat}
    {a : SendSignal} (hk : l₁[k]? = some a) :
    ∃ b, l₂[k]? = some b ∧ b = { a with value := b.value } := by
  induction h generalizing k with
  | nil => cases hk
  | cons hab _ ih =>
    cases k with
    | zero =>
      cases hk
      exact ⟨_, rfl, hab⟩
    | succ k => exact ih hk

theorem SameSignals.map_eq {β : Type} {l₁ l₂ : List SendSignal} (h : SameSignals l₁ l₂)
    (g : SendSignal → β) (hg : ∀ ss v, g { ss with value := v } = g ss) : l₁.map g = l₂.map g := by
  induction h with
  | nil => rfl
  | @cons a b l₁ l₂ hab _ ih =>
    have hb : g b = g a := by
      rw [hab]
      exact hg a b.value
    rw [List.map_cons, List.map_cons, ih, hb]

theorem SendMessage.Presents.of_same {sm : SendMessage} {msg : IMessage} (h : sm.Presents msg)
    {l : List SendSignal} (hl : SameSignals sm.signals l) :
    SendMessage.Presents { sm with signals := l } msg where
  id_eq := h.id_eq
  name_eq := h.name_eq
  dlc_eq := h.dlc_eq
  perm := by
    have := hl.map_eq (·.sig) fun _ _ => rfl
    simpa [← this] using h.perm
  sorted := by
    have hmap := hl.map_eq (fun ss => ss.sig.startBit) fun _ _ => rfl
    have hsorted : (sm.signals.map fun ss => ss.sig.startBit).Pairwise (· ≤ ·) :=
      List.pairwise_map.mpr h.sorted
    exact List.pairwise_map.mp (hmap ▸ hsorted)
  labels ss hss := by
    have hmap := hl.map_eq (fun ss => (ss.name, ss.unit, ss.minVal, ss.maxVal, ss.sig))
      fun _ _ => rfl
    have hmem : (ss.name, ss.unit, ss.minVal, ss.maxVal, ss.sig) ∈
        sm.signals.map fun ss => (ss.name, ss.unit, ss.minVal, ss.maxVal, ss.sig) := by
      rw [hmap]; exact List.mem_map_of_mem hss
    obtain ⟨ss', hss', heq⟩ := List.mem_map.mp hmem
    simp only [Prod.mk.injEq] at heq
    obtain ⟨h1, h2, h3, h4, h5⟩ := heq
    have := h.labels ss' hss'
    rwa [h1, h2, h3, h4, h5] at this

/-- The models a front end can hold for a network: the constructor's, after any calls of
`set_value`. -/
inductive SendModel.From (srt : RangesSort) (network : INetwork) : SendModel → Prop where
  | new : From srt network (SendModel.ofNetwork srt network)
  | setValue {model : SendModel} (msgIdx sigIdx : Nat) (value : ℚ) :
      From srt network model → From srt network (model.setValue msgIdx sigIdx value)

/-- Every message of such a model presents a message of the network. -/
theorem SendModel.From.presents {srt : RangesSort} {network : INetwork} {model : SendModel}
    (h : SendModel.From srt network model) {sm : SendMessage} (hsm : sm ∈ model.messages) :
    ∃ msg ∈ network.messages, sm.Presents msg := by
  induction h generalizing sm with
  | new =>
    have hmem := (srt.perm _ _).mem_iff.mp hsm
    obtain ⟨msg, hmsg, rfl⟩ := List.mem_map.mp hmem
    exact ⟨msg, hmsg, SendMessage.ofMessage_presents srt msg⟩
  | setValue msgIdx sigIdx value _ ih =>
    obtain ⟨j, hj⟩ := List.mem_iff_getElem?.mp hsm
    simp only [SendModel.setValue, List.getElem?_modify] at hj
    cases hget : (_ : List SendMessage)[j]? with
    | none => rw [hget] at hj; simp at hj
    | some sm₀ =>
      obtain ⟨msg, hmsg, hpres⟩ := ih (List.mem_of_getElem? hget)
      rw [hget] at hj
      simp only [Option.map_eq_map, Option.map_some, Option.some.injEq] at hj
      refine ⟨msg, hmsg, ?_⟩
      subst hj
      split
      · exact hpres.of_same (SameSignals.modify _ _ _)
      · exact hpres

/-! ### The payload, bit by bit -/

/-- The write that `encode` performs for one signal. -/
def SendSignal.fieldWrite (casts : BitCasts) (ss : SendSignal) (h : ss.sig.BitAccess) :
    FieldWrite where
  field := ss.sig.field
  value := (ss.raw casts).getLsbD
  run := ss.sig.encode (ss.raw casts)
  isWrite := h.encode_isWrite _

namespace SendMessage

/-- All signals of the message have dbcppp's documented access to their bits. -/
abbrev BitAccess (sm : SendMessage) : Prop := ∀ ss ∈ sm.signals, ss.sig.BitAccess

def fieldWrites (casts : BitCasts) (sm : SendMessage) (h : sm.BitAccess) : List FieldWrite :=
  sm.signals.pmap (fun ss hss => ss.fieldWrite casts hss) h

theorem encode_eq_runAll (casts : BitCasts) (sm : SendMessage) (h : sm.BitAccess) :
    sm.encode casts = runAll (sm.fieldWrites casts h) (List.replicate sm.dlc 0) := by
  suffices hgen : ∀ (l : List SendSignal) (hl : ∀ ss ∈ l, ss.sig.BitAccess) (data : Bytes),
      l.foldl (fun data ss => ss.sig.encode (ss.raw casts) data) data =
        runAll (l.pmap (fun ss hss => ss.fieldWrite casts hss) hl) data from hgen _ h _
  intro l
  induction l with
  | nil => intro _ _; rfl
  | cons ss l ih =>
    intro hl data
    rw [List.foldl_cons, ih fun ss' hss' => hl ss' (List.mem_cons_of_mem _ hss')]
    rfl

theorem map_field_fieldWrites (casts : BitCasts) (sm : SendMessage) (h : sm.BitAccess) :
    (sm.fieldWrites casts h).map (·.field) = sm.signals.map fun ss => ss.sig.field := by
  unfold fieldWrites
  rw [List.map_pmap]
  exact List.pmap_eq_map _

theorem getElem?_fieldWrites (casts : BitCasts) {sm : SendMessage} (h : sm.BitAccess) {k : Nat}
    {ss : SendSignal} (hk : sm.signals[k]? = some ss) :
    ∃ hss, (sm.fieldWrites casts h)[k]? = some (ss.fieldWrite casts hss) := by
  refine ⟨h ss (List.mem_of_getElem? hk), ?_⟩
  simp [fieldWrites, List.getElem?_pmap, hk]

/-- Some signal written after signal `k` covers bit `b`. -/
def Shadowed (sm : SendMessage) (k b : Nat) : Prop :=
  ∃ ss ∈ sm.signals.drop (k + 1), ss.sig.field.Covers b

instance (sm : SendMessage) (k b : Nat) : Decidable (sm.Shadowed k b) :=
  inferInstanceAs (Decidable (∃ ss ∈ sm.signals.drop (k + 1), ss.sig.field.Covers b))

theorem not_shadowed_iff (casts : BitCasts) {sm : SendMessage} (h : sm.BitAccess) (k b : Nat) :
    ¬ sm.Shadowed k b ↔ ∀ w ∈ (sm.fieldWrites casts h).drop (k + 1), ¬ w.field.Covers b := by
  have hmap : ((sm.fieldWrites casts h).drop (k + 1)).map (·.field) =
      (sm.signals.drop (k + 1)).map fun ss => ss.sig.field := by
    rw [List.map_drop, map_field_fieldWrites, List.map_drop]
  have hall : ∀ ws : List FieldWrite, (∀ w ∈ ws, ¬ w.field.Covers b) ↔
      ∀ f ∈ ws.map (·.field), ¬ f.Covers b := by simp
  rw [hall, hmap]
  simp only [Shadowed, not_exists, not_and, List.mem_map, forall_exists_index, and_imp,
    forall_apply_eq_imp_iff₂]

@[simp] theorem length_encode {casts : BitCasts} {sm : SendMessage} (h : sm.BitAccess) :
    (sm.encode casts).length = sm.dlc := by
  rw [encode_eq_runAll casts sm h, length_runAll, List.length_replicate]

/-- A bit of the payload is the bit of the last signal, in start-bit order, that covers it. -/
theorem getBit_encode {casts : BitCasts} {sm : SendMessage} (h : sm.BitAccess) {k : Nat}
    {ss : SendSignal} (hk : sm.signals[k]? = some ss) {i : Nat} (hi : i < ss.sig.bitSize)
    (hb : ss.sig.field.pos i < 8 * sm.dlc) (hlast : ¬ sm.Shadowed k (ss.sig.field.pos i)) :
    getBit (sm.encode casts) (ss.sig.field.pos i) = (ss.raw casts).getLsbD i := by
  obtain ⟨hss, hw⟩ := getElem?_fieldWrites casts h hk
  rw [encode_eq_runAll casts sm h]
  exact getBit_runAll hw hi (by rw [List.length_replicate]; exact hb)
    ((not_shadowed_iff casts h _ _).mp hlast)

theorem shadowed_iff (sm : SendMessage) (k b : Nat) :
    sm.Shadowed k b ↔ ∃ k' ss', k < k' ∧ sm.signals[k']? = some ss' ∧ ss'.sig.field.Covers b := by
  constructor
  · rintro ⟨ss', hss', hcov⟩
    obtain ⟨j, hj⟩ := List.mem_iff_getElem?.mp hss'
    rw [List.getElem?_drop] at hj
    exact ⟨k + 1 + j, ss', by omega, hj, hcov⟩
  · rintro ⟨k', ss', hlt, hk', hcov⟩
    refine ⟨ss', List.mem_of_getElem? (i := k' - (k + 1)) ?_, hcov⟩
    rw [List.getElem?_drop, show k + 1 + (k' - (k + 1)) = k' by omega]
    exact hk'

/-- A shadowed bit belongs to the last signal written over it. -/
theorem Shadowed.exists_last {sm : SendMessage} {k b : Nat} (h : sm.Shadowed k b) :
    ∃ k' ss', k < k' ∧ sm.signals[k']? = some ss' ∧ ss'.sig.field.Covers b ∧
      ¬ sm.Shadowed k' b := by
  rcases BitField.exists_last (fun ss : SendSignal => ss.sig.field.Covers b)
    (sm.signals.drop (k + 1)) with hnone | ⟨j, ss', hj, hcov, hlast⟩
  · obtain ⟨ss', hss', hcov⟩ := h
    exact absurd hcov (hnone ss' hss')
  · rw [List.getElem?_drop] at hj
    refine ⟨k + 1 + j, ss', by omega, hj, hcov, ?_⟩
    rintro ⟨ss'', hss'', hcov''⟩
    refine hlast ss'' ?_ hcov''
    rwa [List.drop_drop]

/-- Signal `k` has the same raw value in `sm₁` and `sm₂`, on the bits that reach the payload. -/
def SameRaw (casts : BitCasts) (sm₁ sm₂ : SendMessage) (k : Nat) : Prop :=
  ∀ s₁ s₂, sm₁.signals[k]? = some s₁ → sm₂.signals[k]? = some s₂ →
    ∀ i < s₁.sig.bitSize, s₁.sig.field.pos i < 8 * sm₁.dlc → ¬ sm₁.Shadowed k (s₁.sig.field.pos i) →
      (s₁.raw casts).getLsbD i = (s₂.raw casts).getLsbD i

/-- Two assignments of values to the same signals encode to one payload exactly when every signal
has the same raw value in both, on the bits that reach the payload. -/
theorem encode_eq_iff {casts : BitCasts} {sm₁ sm₂ : SendMessage} (hdlc : sm₁.dlc = sm₂.dlc)
    (hsame : SameSignals sm₁.signals sm₂.signals) (h₁ : sm₁.BitAccess) (h₂ : sm₂.BitAccess) :
    sm₁.encode casts = sm₂.encode casts ↔ ∀ k, SameRaw casts sm₁ sm₂ k := by
  have hfields : (sm₁.fieldWrites casts h₁).map (·.field) =
      (sm₂.fieldWrites casts h₂).map (·.field) := by
    rw [map_field_fieldWrites, map_field_fieldWrites]
    exact hsame.map_eq (fun ss => ss.sig.field) fun _ _ => rfl
  rw [encode_eq_runAll casts sm₁ h₁, encode_eq_runAll casts sm₂ h₂, ← hdlc,
    runAll_eq_iff _ hfields]
  constructor
  · intro hagree k s₁ s₂ hk₁ hk₂ i hi hb hlast
    obtain ⟨hs₁, hw₁⟩ := getElem?_fieldWrites casts h₁ hk₁
    obtain ⟨hs₂, hw₂⟩ := getElem?_fieldWrites casts h₂ hk₂
    exact hagree k _ _ hw₁ hw₂ i hi (by rw [List.length_replicate]; exact hb)
      ((not_shadowed_iff casts h₁ _ _).mp hlast)
  · intro hraw k w₁ w₂ hw₁ hw₂ i hi hb hlast
    obtain ⟨hlt₁, -⟩ := List.getElem?_eq_some_iff.mp hw₁
    obtain ⟨hlt₂, -⟩ := List.getElem?_eq_some_iff.mp hw₂
    have hk₁ := List.getElem?_eq_getElem
      (show k < sm₁.signals.length by simpa [fieldWrites] using hlt₁)
    have hk₂ := List.getElem?_eq_getElem
      (show k < sm₂.signals.length by simpa [fieldWrites] using hlt₂)
    obtain ⟨hs₁, hw₁'⟩ := getElem?_fieldWrites casts h₁ hk₁
    obtain ⟨hs₂, hw₂'⟩ := getElem?_fieldWrites casts h₂ hk₂
    rw [hw₁', Option.some.injEq] at hw₁
    rw [hw₂', Option.some.injEq] at hw₂
    subst hw₁ hw₂
    rw [List.length_replicate] at hb
    exact hraw k _ _ hk₁ hk₂ i hi hb ((not_shadowed_iff casts h₁ _ _).mpr hlast)

/-! ### Bit-disjoint signals -/

def BitDisjoint (sm : SendMessage) : Prop :=
  sm.signals.Pairwise fun a b => a.sig.field.Disjoint b.sig.field

theorem BitDisjoint.not_shadowed {sm : SendMessage} (h : sm.BitDisjoint) {k : Nat}
    {ss : SendSignal} (hk : sm.signals[k]? = some ss) {i : Nat} (hi : i < ss.sig.bitSize) :
    ¬ sm.Shadowed k (ss.sig.field.pos i) := by
  rintro ⟨ss', hss', hcov⟩
  have hfields : (sm.signals.map fun ss => ss.sig.field).Pairwise Field.Disjoint :=
    List.pairwise_map.mpr h
  have hget : (sm.signals.map fun ss => ss.sig.field)[k]? = some ss.sig.field := by simp [hk]
  refine not_covers_drop_of_pairwise hfields hget ⟨i, hi, rfl⟩ ss'.sig.field ?_ hcov
  rw [← List.map_drop]
  exact List.mem_map_of_mem hss'

/-- A signal that no later one overlaps reads back as the low bits of its raw value. -/
theorem read_encode (casts : BitCasts) {sm : SendMessage} (h : sm.BitAccess) {k : Nat}
    {ss : SendSignal} (hk : sm.signals[k]? = some ss) (hwithin : ss.sig.field.Within sm.dlc)
    (hlast : ∀ i < ss.sig.bitSize, ¬ sm.Shadowed k (ss.sig.field.pos i)) :
    ss.sig.field.read (sm.encode casts) = (ss.raw casts).setWidth ss.sig.bitSize := by
  apply Field.read_eq_of_getBit
  intro i hi
  have hi' : i < ss.sig.bitSize := hi
  rw [getBit_encode h hk hi' (hwithin i hi) (hlast i hi')]
  simp [SignalLine.field, hi']

end SendMessage

end Caneo
