import Caneo.Assignments
import Caneo.EncodeFns
import Caneo.SignalRoundTrip

/-!
# The send models of a front end

Both front ends keep one `SendModel` for every interface that has a DBC (`send_models_` of the TUI,
`ifaces_` of the GUI's send window), and all their actions are encoded through these models. Setting
values never changes what a model presents (`Present`).
-/

namespace Caneo

open BitField Containers

abbrev SendModels := List (String × SendModel)

/-- `min(cursor, count - 1)`, unless there is nothing to select. -/
def clampCursor (cursor count : Nat) : Option Nat :=
  if count = 0 then none else some (min cursor (count - 1))

namespace SendModels

/-- The models that a front end starts with. -/
def ofNetworks (srt : RangesSort) (networks : List (String × INetwork)) : SendModels :=
  networks.map fun p => (p.1, SendModel.ofNetwork srt p.2)

def find (models : SendModels) (interface : String) : Option Nat :=
  models.findIdx? fun p => p.1 = interface

def model (models : SendModels) (i : Nat) : Option SendModel := (models[i]?).map (·.2)

def message (models : SendModels) (i mi : Nat) : Option SendMessage :=
  (models.model i).bind fun model => model.messages[mi]?

def setValue (models : SendModels) (i mi k : Nat) (v : ℚ) : SendModels :=
  models.modify i fun p => (p.1, p.2.setValue mi k v)

/-- Set the values of the first signals of a message. -/
def setValues (models : SendModels) (i mi : Nat) (values : List ℚ) : SendModels :=
  (values.zipIdx).foldl (fun models vk => models.setValue i mi vk.2 vk.1) models

/-- An index past the end is undefined behaviour; the callers have checked it. -/
def encode (casts : BitCasts) (models : SendModels) (i mi : Nat) : Bytes :=
  ((models.message i mi).map (SendMessage.encode casts)).getD []

/-- The first message with this id. -/
def findMsg (models : SendModels) (i : Nat) (msgId : BitVec 64) : Option Nat :=
  (models.model i).bind fun model => model.messages.findIdx? fun sm => sm.id = msgId

/-- The first message with this id in the model of this interface: the positions of the model and the
message, and the message. -/
def messageOf (models : SendModels) (interface : String) (msgId : BitVec 64) :
    Option (Nat × Nat × SendMessage) :=
  (models.find interface).bind fun i =>
    (models.findMsg i msgId).bind fun mi =>
      (models.message i mi).map fun msg => (i, mi, msg)

/-- Every model presents the network it was made from. -/
def Present (srt : RangesSort) (networks : List (String × INetwork)) (models : SendModels) : Prop :=
  List.Forall₂ (fun net p => SendModel.From srt net.2 p.2) networks models

/-! ### What setting values leaves alone -/

theorem present_ofNetworks (srt : RangesSort) (networks : List (String × INetwork)) :
    Present srt networks (ofNetworks srt networks) := by
  unfold Present ofNetworks
  rw [List.forall₂_map_right_iff]
  exact List.forall₂_same.mpr fun net _ => SendModel.From.new

theorem Present.setValue {srt : RangesSort} {networks : List (String × INetwork)}
    {models : SendModels} (h : Present srt networks models) (i mi k : Nat) (v : ℚ) :
    Present srt networks (models.setValue i mi k v) := by
  unfold SendModels.setValue
  unfold Present at h ⊢
  induction h generalizing i with
  | nil => cases i <;> exact List.Forall₂.nil
  | cons hp hrest ih =>
    cases i with
    | zero => exact List.Forall₂.cons (hp.setValue mi k v) hrest
    | succ i => exact List.Forall₂.cons hp (ih i)

theorem Present.setValues {srt : RangesSort} {networks : List (String × INetwork)}
    {models : SendModels} (h : Present srt networks models) (i mi : Nat) (values : List ℚ) :
    Present srt networks (models.setValues i mi values) := by
  unfold SendModels.setValues
  generalize values.zipIdx = l
  induction l generalizing models with
  | nil => exact h
  | cons vk l ih => exact ih (h.setValue i mi vk.2 vk.1)

/-- A message of such a model presents a message of the DBC. -/
theorem Present.exists_msg {srt : RangesSort} {networks : List (String × INetwork)}
    {models : SendModels} (h : Present srt networks models) {i mi : Nat} {sm : SendMessage}
    (hsm : models.message i mi = some sm) :
    ∃ net ∈ networks, ∃ msg ∈ net.2.messages, sm.Presents msg := by
  obtain ⟨model, hmodel, hget⟩ := Option.bind_eq_some_iff.mp hsm
  obtain ⟨p, hp, rfl⟩ := Option.map_eq_some_iff.mp hmodel
  obtain ⟨net, hnet, hfrom⟩ : ∃ net ∈ networks, SendModel.From srt net.2 p.2 := by
    unfold Present at h
    have hmem := List.mem_of_getElem? hp
    clear hp hsm hget hmodel
    induction h with
    | nil => cases hmem
    | cons hrel _ ih =>
      rcases List.mem_cons.mp hmem with rfl | hrest
      · exact ⟨_, List.mem_cons_self, hrel⟩
      · obtain ⟨net, hnet, hfrom⟩ := ih hrest
        exact ⟨net, List.mem_cons_of_mem _ hnet, hfrom⟩
  obtain ⟨msg, hmsg, hpres⟩ := hfrom.presents (List.mem_of_getElem? hget)
  exact ⟨net, hnet, msg, hmsg, hpres⟩

theorem exists_of_messageOf {models : SendModels} {interface : String} {msgId : BitVec 64}
    {sm : SendMessage} (h : (models.messageOf interface msgId).map (·.2.2) = some sm) :
    ∃ i mi, models.messageOf interface msgId = some (i, mi, sm) ∧ models.message i mi = some sm := by
  obtain ⟨⟨i, mi, sm'⟩, hmessage, hsm⟩ := Option.map_eq_some_iff.mp h
  obtain rfl : sm' = sm := hsm
  refine ⟨i, mi, hmessage, ?_⟩
  obtain ⟨i', -, h⟩ := Option.bind_eq_some_iff.mp hmessage
  obtain ⟨mi', -, h⟩ := Option.bind_eq_some_iff.mp h
  obtain ⟨sm, hget, h⟩ := Option.map_eq_some_iff.mp h
  cases h
  exact hget

theorem message_setValue (models : SendModels) (i mi k : Nat) (v : ℚ) :
    (models.setValue i mi k v).message i mi =
      (models.message i mi).map fun sm => sm.setValue k v := by
  unfold message model setValue
  rw [List.getElem?_modify]
  cases models[i]? with
  | none => rfl
  | some p => simp [SendModel.getElem?_setValue]

theorem foldl_setValue_zipIdx (sm : SendMessage) (values : List ℚ) (n : Nat) (vals : Nat → ℚ) :
    (values.zipIdx n).foldl (fun sm vk => sm.setValue vk.2 vk.1) (sm.withValues vals) =
      sm.withValues fun k => if n ≤ k then (values[k - n]?).getD (vals k) else vals k := by
  induction values generalizing n vals with
  | nil => simp
  | cons v values ih =>
    rw [List.zipIdx_cons, List.foldl_cons, SendMessage.setValue_withValues, ih]
    congr 1
    funext k
    rcases Nat.lt_trichotomy k n with hlt | rfl | hgt
    · have hne : k ≠ n := Nat.ne_of_lt hlt
      rw [if_neg (by omega), if_neg (by omega), Function.update_of_ne hne]
    · rw [if_neg (by omega), if_pos le_rfl, Function.update_self, Nat.sub_self]
      rfl
    · have hne : k ≠ n := Nat.ne_of_gt hgt
      obtain ⟨d, rfl⟩ : ∃ d, k = n + 1 + d := ⟨k - (n + 1), by omega⟩
      rw [if_pos (by omega), if_pos (by omega), Function.update_of_ne hne,
        Nat.add_sub_cancel_left, show n + 1 + d - n = d + 1 by omega, List.getElem?_cons_succ]

theorem message_foldl_setValue (models : SendModels) (i mi : Nat) (l : List (ℚ × Nat)) :
    (l.foldl (fun models vk => models.setValue i mi vk.2 vk.1) models).message i mi =
      (models.message i mi).map fun sm => l.foldl (fun sm vk => sm.setValue vk.2 vk.1) sm := by
  induction l generalizing models with
  | nil => simp
  | cons vk l ih =>
    rw [List.foldl_cons, ih, message_setValue, Option.map_map]
    rfl

/-- Setting all values of a message gives it these values. -/
theorem message_setValues {models : SendModels} {i mi : Nat} {sm : SendMessage}
    (hsm : models.message i mi = some sm) {values : List ℚ}
    (hlen : values.length = sm.signals.length) :
    (models.setValues i mi values).message i mi =
      some (sm.withValues fun k => values.getD k 0) := by
  rw [setValues, message_foldl_setValue, hsm, Option.map_some, Option.some.injEq]
  conv_lhs => rw [← SendMessage.withValues_values sm]
  rw [foldl_setValue_zipIdx]
  apply SendMessage.withValues_congr
  intro k hk
  have hk' : k < values.length := hlen ▸ hk
  simp [hk']

end SendModels

end Caneo
