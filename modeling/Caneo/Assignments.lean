import Caneo.SendModel

/-!
# Assignments of values to the signals of a message

A `SendMessage` is a layout (which signals, where) and a value for each signal. Here the two are
separated: `withValues` puts an assignment on a layout, `values` reads it off, and setting a value
updates it. Two assignments encode to one payload exactly when every signal has the same visible
bits under both (`encode_withValues_iff`).
-/

namespace Caneo

open BitField Containers

namespace SendMessage

def withValues (sm : SendMessage) (vals : Nat → ℚ) : SendMessage :=
  { sm with signals := sm.signals.mapIdx fun k ss => { ss with value := vals k } }

/-- The value of signal `k`; 0 for signals the message does not have. -/
def values (sm : SendMessage) (k : Nat) : ℚ := ((sm.signals[k]?).map (·.value)).getD 0

/-- Signal `k` is encoded to the same bits of the payload under both values. -/
def SameBits (casts : BitCasts) (sm : SendMessage) (k : Nat) (v₁ v₂ : ℚ) : Prop :=
  ∀ ss, sm.signals[k]? = some ss → ∀ i < ss.sig.bitSize, ss.sig.field.pos i < 8 * sm.dlc →
    ¬ sm.Shadowed k (ss.sig.field.pos i) →
      (SendSignal.raw casts { ss with value := v₁ }).getLsbD i =
        (SendSignal.raw casts { ss with value := v₂ }).getLsbD i

theorem SameBits.refl (casts : BitCasts) (sm : SendMessage) (k : Nat) (v : ℚ) :
    sm.SameBits casts k v v := fun _ _ _ _ _ _ => rfl

@[simp] theorem dlc_withValues (sm : SendMessage) (vals : Nat → ℚ) :
    (sm.withValues vals).dlc = sm.dlc := rfl

@[simp] theorem id_withValues (sm : SendMessage) (vals : Nat → ℚ) :
    (sm.withValues vals).id = sm.id := rfl

@[simp] theorem name_withValues (sm : SendMessage) (vals : Nat → ℚ) :
    (sm.withValues vals).name = sm.name := rfl

theorem getElem?_withValues (sm : SendMessage) (vals : Nat → ℚ) (k : Nat) :
    (sm.withValues vals).signals[k]? =
      (sm.signals[k]?).map fun ss => { ss with value := vals k } := by
  simp [withValues, List.getElem?_mapIdx]

@[simp] theorem length_signals_withValues (sm : SendMessage) (vals : Nat → ℚ) :
    (sm.withValues vals).signals.length = sm.signals.length := by
  simp [withValues]

/-- Assignments that agree on the message's signals give one message. -/
theorem withValues_congr {sm : SendMessage} {v₁ v₂ : Nat → ℚ}
    (h : ∀ k < sm.signals.length, v₁ k = v₂ k) : sm.withValues v₁ = sm.withValues v₂ := by
  unfold withValues
  congr 1
  apply List.ext_getElem?
  intro k
  rw [List.getElem?_mapIdx, List.getElem?_mapIdx]
  cases hk : sm.signals[k]? with
  | none => rfl
  | some ss => simp [h k (List.getElem?_eq_some_iff.mp hk).1]

@[simp] theorem withValues_values (sm : SendMessage) : sm.withValues sm.values = sm := by
  have hsignals : (sm.withValues sm.values).signals = sm.signals := by
    apply List.ext_getElem?
    intro k
    rw [getElem?_withValues]
    cases hk : sm.signals[k]? with
    | none => rfl
    | some ss => simp [values, hk]
  cases sm
  simpa [withValues] using hsignals

@[simp] theorem withValues_withValues (sm : SendMessage) (v₁ v₂ : Nat → ℚ) :
    (sm.withValues v₁).withValues v₂ = sm.withValues v₂ := by
  have hsignals : ((sm.withValues v₁).withValues v₂).signals = (sm.withValues v₂).signals := by
    apply List.ext_getElem?
    intro k
    rw [getElem?_withValues, getElem?_withValues, getElem?_withValues]
    cases sm.signals[k]? <;> rfl
  simpa [withValues] using hsignals

theorem values_withValues {sm : SendMessage} (vals : Nat → ℚ) {k : Nat}
    (hk : k < sm.signals.length) : (sm.withValues vals).values k = vals k := by
  rw [values, getElem?_withValues, List.getElem?_eq_getElem hk]
  rfl

/-- `set_value` updates the assignment. -/
theorem setValue_withValues (sm : SendMessage) (vals : Nat → ℚ) (k : Nat) (v : ℚ) :
    (sm.withValues vals).setValue k v = sm.withValues (Function.update vals k v) := by
  have hsignals : ((sm.withValues vals).setValue k v).signals =
      (sm.withValues (Function.update vals k v)).signals := by
    apply List.ext_getElem?
    intro j
    rw [setValue, List.getElem?_modify, getElem?_withValues, getElem?_withValues]
    by_cases hj : k = j
    · subst hj
      cases sm.signals[k]? <;> simp
    · have hj' : j ≠ k := fun e => hj e.symm
      cases sm.signals[j]? <;> simp [hj, hj']
  simpa [withValues, setValue] using hsignals

/-! ### Payloads -/

theorem sameSignals_withValues (sm : SendMessage) (v₁ v₂ : Nat → ℚ) :
    SameSignals (sm.withValues v₁).signals (sm.withValues v₂).signals := by
  rw [SameSignals, List.forall₂_iff_get]
  refine ⟨by simp, ?_⟩
  intro k h₁ h₂
  simp [withValues]

theorem bitAccess_withValues {sm : SendMessage} (h : sm.BitAccess) (vals : Nat → ℚ) :
    (sm.withValues vals).BitAccess := by
  intro ss hss
  obtain ⟨k, hk⟩ := List.mem_iff_getElem?.mp hss
  rw [getElem?_withValues] at hk
  obtain ⟨ss₀, hk₀, rfl⟩ := Option.map_eq_some_iff.mp hk
  exact h ss₀ (List.mem_of_getElem? hk₀)

theorem shadowed_withValues (sm : SendMessage) (vals : Nat → ℚ) (k b : Nat) :
    (sm.withValues vals).Shadowed k b ↔ sm.Shadowed k b := by
  rw [shadowed_iff, shadowed_iff]
  constructor
  · rintro ⟨k', ss', hlt, hk', hcov⟩
    rw [getElem?_withValues] at hk'
    obtain ⟨ss₀, hk₀, rfl⟩ := Option.map_eq_some_iff.mp hk'
    exact ⟨k', ss₀, hlt, hk₀, hcov⟩
  · rintro ⟨k', ss', hlt, hk', hcov⟩
    exact ⟨k', { ss' with value := vals k' }, hlt, by rw [getElem?_withValues, hk']; rfl, hcov⟩

theorem encode_withValues_iff {casts : BitCasts} {sm : SendMessage} (h : sm.BitAccess)
    (v₁ v₂ : Nat → ℚ) :
    (sm.withValues v₁).encode casts = (sm.withValues v₂).encode casts ↔
      ∀ k, sm.SameBits casts k (v₁ k) (v₂ k) := by
  have hdlc : (sm.withValues v₁).dlc = (sm.withValues v₂).dlc := rfl
  rw [encode_eq_iff hdlc (sameSignals_withValues sm v₁ v₂) (bitAccess_withValues h v₁)
    (bitAccess_withValues h v₂)]
  refine forall_congr' fun k => ?_
  constructor
  · intro hraw ss hk i hi hb hlast
    refine hraw _ _ (by rw [getElem?_withValues, hk]; rfl) (by rw [getElem?_withValues, hk]; rfl)
      i hi hb ?_
    rwa [shadowed_withValues]
  · intro hbits s₁ s₂ hk₁ hk₂ i hi hb hlast
    rw [getElem?_withValues] at hk₁ hk₂
    obtain ⟨ss, hk, rfl⟩ := Option.map_eq_some_iff.mp hk₁
    rw [hk, Option.map_some, Option.some.injEq] at hk₂
    subst hk₂
    rw [shadowed_withValues] at hlast
    exact hbits ss hk i hi hb hlast

end SendMessage

/-! ### Models -/

theorem SendModel.getElem?_setValue (model : SendModel) (msgIdx sigIdx : Nat) (v : ℚ) (j : Nat) :
    (model.setValue msgIdx sigIdx v).messages[j]? =
      if j = msgIdx then (model.messages[j]?).map fun sm => sm.setValue sigIdx v
      else model.messages[j]? := by
  rw [SendModel.setValue, List.getElem?_modify]
  by_cases hj : msgIdx = j
  · simp [hj]
  · have hj' : j ≠ msgIdx := fun e => hj e.symm
    cases model.messages[j]? <;> simp [hj, hj']

end Caneo
