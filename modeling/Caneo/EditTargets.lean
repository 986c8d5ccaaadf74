import Caneo.FrontEnd
import Caneo.KeyRequests
import Caneo.PayloadEdit

/-!
# Where an edit arrives

Both front ends remember the action that is being edited by its position, and load what the user edits
from it when it is opened. `Delivered` is what should come of it. A front end `Hosts` the action
handler: its UI thread leaves the list of actions alone, and the other steps are the handler's own; so
the position is governed by the erasures up to it (`Hosts.governs`), and the edit is delivered exactly
if there is none, or the action is gone and the index free (`Governs.delivered_iff`).
-/

namespace Caneo

open BitField EventLoop Runs Containers

/-- Whether an edit is one of a sin action's parameters. -/
def Request.editsSin {W : Type} : Request W → Bool
  | .updateSinParam .. => true
  | .updatePayload .. | .addAction _ | .addActionPaused _ | .removeAction _ | .togglePause _ => false

namespace ActionHandler

variable {W : Type}

/-- The closure of an edit that is about to run for index `idx` reaches the action `ptr`, with fields
that were loaded for it, or no action if this one is gone. -/
def Delivered (h : ActionHandler W) (idx ptr : Nat) (loadedFor : Option Nat) : Prop :=
  if ptr ∈ h.ptrs then h.ptrs[idx]? = some ptr ∧ loadedFor = some ptr else h.ptrs[idx]? = none

instance (h : ActionHandler W) (idx ptr : Nat) (loadedFor : Option Nat) :
    Decidable (h.Delivered idx ptr loadedFor) :=
  inferInstanceAs (Decidable
    (if ptr ∈ h.ptrs then h.ptrs[idx]? = some ptr ∧ loadedFor = some ptr else h.ptrs[idx]? = none))

/-- The request is posted on the way from `h` to `h'`. -/
def Posted (h h' : ActionHandler W) (r : Request W) : Prop :=
  ∃ rs, h'.loop.closures = h.loop.closures ++ rs ∧ r ∈ rs

/-- The action at `idx` is `ptr`, of this type. -/
def StandsAt (h : ActionHandler W) (idx ptr : Nat) (type : String) : Prop :=
  ∃ a, h.actions[idx]? = some a ∧ a.ptr = ptr ∧ a.typeName = type

/-! ### The UI thread -/

/-- What the UI thread does in a step: no action is changed, and no identity is given away. -/
structure Undisturbed (h h' : ActionHandler W) : Prop where
  actions : h'.actions = h.actions
  identities : Identities h → Identities h'
  known : Identities h → ∀ ptr, Known ptr h → Known ptr h'

section Undisturbed

variable {h h' h'' : ActionHandler W}

theorem Undisturbed.refl (h : ActionHandler W) : Undisturbed h h := ⟨rfl, id, fun _ _ hk => hk⟩

theorem Undisturbed.trans (h₁ : Undisturbed h h') (h₂ : Undisturbed h' h'') :
    Undisturbed h h'' where
  actions := h₂.actions.trans h₁.actions
  identities hid := h₂.identities (h₁.identities hid)
  known hid ptr hk := h₂.known (h₁.identities hid) ptr (h₁.known hid ptr hk)

theorem undisturbed_world (h : ActionHandler W) (world : W) :
    Undisturbed h { h with world := world } where
  actions := rfl
  identities hid := ⟨hid.nodup, hid.lt_nextPtr⟩
  known _ _ hk := ⟨hk.lt_nextPtr, hk.not_arriving⟩

theorem undisturbed_request (trig : Trig) (h : ActionHandler W) (r : Request W) :
    Undisturbed h (step trig h (.request r)) where
  actions := by
    rw [step]
    split <;> rfl
  identities hid := hid.preserved trig _
  known hid _ hk := hk.preserved hid trig _

theorem Undisturbed.ptrs (hu : Undisturbed h h') : h'.ptrs = h.ptrs := by
  rw [ActionHandler.ptrs, hu.actions, ActionHandler.ptrs]

theorem Undisturbed.standsAt (hu : Undisturbed h h') {idx ptr : Nat} {type : String}
    (hstands : h.StandsAt idx ptr type) : h'.StandsAt idx ptr type := by
  rw [StandsAt, hu.actions]
  exact hstands

end Undisturbed

theorem StandsAt.ptrs {h : ActionHandler W} {idx ptr : Nat} {type : String}
    (hstands : h.StandsAt idx ptr type) : h.ptrs[idx]? = some ptr := by
  obtain ⟨a, ha, rfl, -⟩ := hstands
  exact getElem?_ptrs ha

/-- The type of an action never changes. -/
theorem StandsAt.step {h : ActionHandler W} (hid : Identities h) (trig : Trig) {l : Label W}
    {idx ptr : Nat} {type : String} (hstands : h.StandsAt idx ptr type)
    (hkeep : h.KeepsUpTo idx l) : (step trig h l).StandsAt idx ptr type := by
  have hptr := getElem?_ptrs_step hid trig hstands.ptrs hkeep
  rw [ActionHandler.ptrs, List.getElem?_map, Option.map_eq_some_iff] at hptr
  obtain ⟨b, hb, hbptr⟩ := hptr
  obtain ⟨a, ha, haptr, rfl⟩ := hstands
  refine ⟨b, hb, hbptr, ?_⟩
  exact hid.fixed Action.fixed_typeName (List.mem_of_getElem? ha) (List.mem_of_getElem? hb)
    (hbptr.trans haptr.symm)

/-! ### Front ends -/

section Hosts

variable {S L : Type}

/-- The steps with a label of the handler are the handler's, and the others are the UI thread's. -/
structure Hosts (trig : Trig) (step : S → L → S) (handler : S → ActionHandler W)
    (io : L → Option (Label W)) : Prop where
  ui : ∀ s l, io l = none → Undisturbed (handler s) (handler (step s l))
  io : ∀ s l x, io l = some x → handler (step s l) = ActionHandler.step trig (handler s) x

/-- The step erases no action at a position up to `idx`. -/
def HostKeepsUpTo (handler : S → ActionHandler W) (io : L → Option (Label W)) (idx : Nat) (s : S)
    (l : L) : Prop := ∀ x ∈ io l, (handler s).KeepsUpTo idx x

instance (handler : S → ActionHandler W) (io : L → Option (Label W)) (idx : Nat) (s : S) (l : L) :
    Decidable (HostKeepsUpTo handler io idx s l) :=
  inferInstanceAs (Decidable (∀ x ∈ io l, _))

variable {trig : Trig} {step : S → L → S} {handler : S → ActionHandler W}
  {io : L → Option (Label W)}

theorem Hosts.governs (hh : Hosts trig step handler io) (idx : Nat) :
    Governs step handler idx (HostKeepsUpTo handler io idx) where
  identities s l hid := by
    cases hl : io l with
    | none => exact (hh.ui s l hl).identities hid
    | some x =>
      rw [hh.io s l x hl]
      exact hid.preserved trig x
  stays s l ptr hid hkeep hptr := by
    cases hl : io l with
    | none => rwa [(hh.ui s l hl).ptrs]
    | some x =>
      rw [hh.io s l x hl]
      exact getElem?_ptrs_step hid trig hptr (hkeep x hl)
  moves s l ptr hid hkeep hptr := by
    unfold HostKeepsUpTo at hkeep
    push Not at hkeep
    obtain ⟨x, hl, hkeep⟩ := hkeep
    rw [hh.io s l x hl]
    exact Moved.of_erased hid trig hptr hkeep
  moved s l ptr hid hm := by
    cases hl : io l with
    | none =>
      refine ⟨(hh.ui s l hl).known hid ptr hm.known, ?_⟩
      rw [(hh.ui s l hl).ptrs]
      exact hm.place
    | some x =>
      rw [hh.io s l x hl]
      exact hm.preserved hid trig x

theorem Hosts.standsAt_step (hh : Hosts trig step handler io) {s : S} (hid : Identities (handler s))
    {l : L} {idx ptr : Nat} {type : String} (hstands : (handler s).StandsAt idx ptr type)
    (hkeep : HostKeepsUpTo handler io idx s l) :
    (handler (step s l)).StandsAt idx ptr type := by
  cases hl : io l with
  | none => exact (hh.ui s l hl).standsAt hstands
  | some x =>
    rw [hh.io s l x hl]
    exact hstands.step hid trig (hkeep x hl)

end Hosts

/-- If the fields are loaded for the action while it is in place, the edit is delivered exactly as
long as it is, or if it is gone and nothing has taken its index. -/
theorem Governs.delivered_iff {S L : Type} {step : S → L → S} {handler : S → ActionHandler W}
    {idx : Nat} {C : S → L → Prop} (hg : Governs step handler idx C) {s : S}
    (hid : Identities (handler s)) {ptr : Nat} (hptr : (handler s).ptrs[idx]? = some ptr)
    {ls : List L} {h : ActionHandler W} (hh : h = handler (run step s ls)) {loadedFor : Option Nat}
    (hload : Meets step C s ls → loadedFor = some ptr) :
    h.Delivered idx ptr loadedFor ↔
      Meets step C s ls ∨ (ptr ∉ h.ptrs ∧ h.actions.length ≤ idx) := by
  have hiff := hg.addresses_iff hid hptr hh
  unfold Delivered
  by_cases hmem : ptr ∈ h.ptrs
  · rw [if_pos hmem] at hiff ⊢
    rw [← hiff]
    refine and_iff_left_of_imp fun hsame => hload ?_
    exact (hiff.mp hsame).resolve_right fun hgone => hgone.1 hmem
  · rw [if_neg hmem] at hiff ⊢
    exact hiff

end ActionHandler

end Caneo
