import Caneo.ActionTimers
import Caneo.Containers

/-!
# Requests that carry an index

The front ends show the `snapshot` of the action list and send requests about one of its entries
back by position. The position is resolved on the io thread when the posted closure runs, after
handlers that may have erased other actions. `request_addresses_entry_iff` says which interleavings
leave the position pointing at the action the entry described.

The snapshot itself is never out of date between two handlers (`Synced`).
-/

namespace Caneo

open BitField EventLoop Runs Containers

/-- What a request does to the action it is about; `none` is its erasure. -/
def Request.effect {W : Type} (now : ℚ) (r : Request W) (a : Action W) : Option (Action W) :=
  match r with
  | .addAction _ | .addActionPaused _ => some a
  | .removeAction _ => none
  | .togglePause _ => some (if a.paused then a.resume now else a.pause now)
  | .updateSinParam _ param value => some (a.setSinParam param value)
  | .updatePayload _ payload => some (a.setPayload payload)

namespace ActionHandler

variable {W : Type}

/-! ### The snapshot is in step with the actions -/

def infos (h : ActionHandler W) : List ActionInfo := h.actions.mapIdx ActionInfo.ofAction

def Synced (h : ActionHandler W) : Prop := h.snapshot = h.infos

theorem synced_rebuildSnapshot (h : ActionHandler W) : Synced h.rebuildSnapshot := rfl

/-- A change to an action that its entry does not show. -/
theorem infos_modify (h : ActionHandler W) (ptr : Nat) {f : Action W → Action W}
    (hf : ∀ idx a, ActionInfo.ofAction idx (f a) = ActionInfo.ofAction idx a) :
    (h.modify ptr f).infos = h.infos := by
  apply List.ext_getElem?
  intro i
  simp only [infos, modify, List.getElem?_mapIdx, List.getElem?_map, Option.map_map]
  congr 1
  funext a
  by_cases ha : a.ptr = ptr <;> simp [ha, hf]

theorem ofAction_setPayload (payload : Bytes) (idx : Nat) (a : Action W) :
    ActionInfo.ofAction idx (a.setPayload payload) = ActionInfo.ofAction idx a := rfl

theorem Synced.setPayload {h : ActionHandler W} (hs : Synced h) (ptr : Nat) (payload : Bytes) :
    Synced (h.modify ptr (Action.setPayload payload)) :=
  Eq.trans hs (infos_modify h ptr (ofAction_setPayload payload)).symm

theorem Synced.fire {h : ActionHandler W} (hs : Synced h) (tick : Tick) (a : Action W) :
    Synced (fire tick h a) := by
  unfold ActionHandler.fire
  dsimp only
  split
  · exact hs
  · exact synced_rebuildSnapshot _

theorem Synced.readyToSend {h g : ActionHandler W} (hs : Synced h) {trig : Trig} {tick : Tick}
    {a b : Action W} (hready : ReadyToSend trig tick h a g b) : Synced g := by
  cases hready with
  | constant hsin => exact hs
  | encoded p hsin => exact hs.setPayload _ _

theorem Synced.of_runTimer {h : ActionHandler W} (hs : Synced h) (trig : Trig) (tick : Tick)
    (a : Action W) : Synced (runTimer trig tick h a) := by
  have heffect := timerEffect_runTimer trig tick h a
  generalize runTimer trig tick h a = h' at heffect ⊢
  cases heffect with
  | failed g b hready hthrows => exact (hs.readyToSend hready).fire tick b
  | done hsin hkind hsent => exact synced_rebuildSnapshot _
  | rearmed g b hready hkind hsent => exact (hs.readyToSend hready).fire tick b

theorem Synced.of_runRequest {h : ActionHandler W} (hs : Synced h) (tick : Tick) (r : Request W) :
    Synced (runRequest tick h r) := by
  have heffect := requestEffect_runRequest tick h r
  generalize runRequest tick h r = h' at heffect ⊢
  cases heffect with
  | missed r idx hidx hget => exact hs
  | constant idx param value a hget hsin => exact hs
  | payload idx payload a hget => exact hs.setPayload _ _
  | _ => exact synced_rebuildSnapshot _

theorem Synced.preserved {h : ActionHandler W} (hs : Synced h) (trig : Trig) (l : Label W) :
    Synced (step trig h l) := by
  rcases step_cases trig h l with ⟨he, -⟩ | ⟨r, -, -, he⟩ | ⟨timer, -, -, he⟩ |
    ⟨tick, x, rest, -, -, -, -, he⟩
  · rwa [he]
  · rw [he]
    exact hs
  · rw [he]
    exact hs
  · rw [he]
    have hpopped : Synced { h with loop := h.loop.popped rest } := hs
    cases x with
    | posted r => exact hpopped.of_runRequest tick r
    | completion ptr aborted =>
      cases aborted with
      | true => exact hpopped
      | false =>
        simp only [runReady]
        split
        · exact hpopped
        · exact hpopped.of_runTimer trig tick _

theorem synced_of_run (trig : Trig) (world : W) (ls : List (Label W)) :
    Synced (run (step trig) (init world) ls) :=
  run_invariant (P := Synced) (fun _ l hs => hs.preserved trig l) (s := init world) rfl ls

/-- An entry of the snapshot describes the action at its position. -/
theorem Synced.exists_action {h : ActionHandler W} (hs : Synced h) {idx : Nat} {entry : ActionInfo}
    (hentry : h.snapshot[idx]? = some entry) :
    ∃ a, h.actions[idx]? = some a ∧ entry = ActionInfo.ofAction idx a := by
  rw [hs, infos, List.getElem?_mapIdx, Option.map_eq_some_iff] at hentry
  obtain ⟨a, ha, rfl⟩ := hentry
  exact ⟨a, ha, rfl⟩

/-- **The snapshot mirrors the actions.** After any run it has one entry for every action, in order,
and the entry shows the action's position and each of its fields. -/
theorem snapshot_mirrors_actions (trig : Trig) (world : W) (ls : List (Label W)) :
    (run (step trig) (init world) ls).snapshot.length =
        (run (step trig) (init world) ls).actions.length ∧
      ∀ (i : Nat) (a : Action W), (run (step trig) (init world) ls).actions[i]? = some a →
        ∃ entry : ActionInfo, (run (step trig) (init world) ls).snapshot[i]? = some entry ∧
          entry.idx = i ∧ entry.msgId = a.msgId ∧ entry.msgName = a.msgName ∧
          entry.interface = a.interface ∧ entry.typeName = a.typeName ∧
          entry.isPeriodic = a.isPeriodic ∧ entry.paused = a.paused ∧
          (∀ p, a.kind = .sin p → entry.sinAmplitude = p.amplitude ∧
            entry.sinPeriodMs = p.sinPeriod ∧ entry.sinOffset = p.offset) ∧
          ((∀ p, a.kind ≠ .sin p) → entry.sinAmplitude = 0 ∧ entry.sinPeriodMs = 0 ∧
            entry.sinOffset = 0) ∧
          entry.period = a.period ∧ entry.lastSent = a.lastSent ∧ entry.everSent = a.everSent := by
  have hs := synced_of_run trig world ls
  constructor
  · rw [hs, infos, List.length_mapIdx]
  · intro i a ha
    refine ⟨ActionInfo.ofAction i a, ?_, rfl, rfl, rfl, rfl, rfl, rfl, rfl, ?_, ?_, rfl, rfl, rfl⟩
    · rw [hs, infos, List.getElem?_mapIdx, ha]
      rfl
    · intro p hkind
      simp [ActionInfo.ofAction, Action.sinParams, hkind]
    · intro hkind
      have hnone : a.sinParams = none := by
        unfold Action.sinParams
        split
        · next p hp => exact absurd hp (hkind p)
        · rfl
        · rfl
      simp [ActionInfo.ofAction, hnone]

/-! ### What a request does -/

theorem getElem?_ptrs {h : ActionHandler W} {idx : Nat} {a : Action W}
    (ha : h.actions[idx]? = some a) : h.ptrs[idx]? = some a.ptr := by
  simp [ptrs, ha]

/-- In a list of distinct objects, the object found by identity stands at its position. -/
theorem find_eq_of_getElem? {h : ActionHandler W} (hnodup : h.ptrs.Nodup) {idx : Nat}
    {a b : Action W} (ha : h.actions[idx]? = some a) (hb : h.find a.ptr = some b) : b = a := by
  obtain ⟨hptr, -⟩ := mem_flags_of_find hb
  exact List.inj_on_of_nodup_map hnodup (List.mem_of_find?_eq_some hb) (List.mem_of_getElem? ha) hptr

theorem find_modify (h : ActionHandler W) (ptr q : Nat) {f : Action W → Action W}
    (hf : ∀ a, (f a).ptr = a.ptr) :
    (h.modify ptr f).find q = (h.find q).map fun a => if q = ptr then f a else a := by
  have hpred : ((fun a : Action W => decide (a.ptr = q)) ∘
      fun a => if a.ptr = ptr then f a else a) = fun a => decide (a.ptr = q) := by
    funext a
    by_cases ha : a.ptr = ptr <;> simp [ha, hf]
  rw [find, modify, List.find?_map, hpred, ← find]
  cases hfind : h.find q with
  | none => rfl
  | some a =>
    obtain ⟨rfl, -⟩ := mem_flags_of_find hfind
    rfl

theorem find_eraseIdx {h : ActionHandler W} (hnodup : h.ptrs.Nodup) {idx : Nat} {a : Action W}
    (ha : h.actions[idx]? = some a) (q : Nat) :
    (h.actions.eraseIdx idx).find? (fun b => b.ptr = q) =
      if q = a.ptr then none else h.find q := by
  rw [eraseIdx_eq_filter hnodup ha, List.find?_filter]
  by_cases hq : q = a.ptr
  · subst hq
    simp
  · rw [if_neg hq, find]
    congr 1
    funext b
    by_cases hb : b.ptr = q
    · simp [hb, hq]
    · simp [hb]

theorem find_modify_of_find {h : ActionHandler W} {q : Nat} {a : Action W}
    (hfind : h.find q = some a) (ptr : Nat) {f : Action W → Action W}
    (hf : ∀ a, (f a).ptr = a.ptr) :
    (h.modify ptr f).find q = if ptr = q then some (f a) else some a := by
  rw [find_modify h _ _ hf, hfind]
  by_cases hq : ptr = q
  · simp [hq]
  · have hq' : ¬ q = ptr := fun e => hq e.symm
    simp [hq, hq']

/-- Setting a sin parameter of another action does nothing. -/
theorem setSinParam_of_constant {a : Action W} (hsin : a.sinParams = none) (param : Int) (value : ℚ) :
    a.setSinParam param value = a := by
  unfold Action.setSinParam
  cases hkind : a.kind <;> simp [Action.sinParams, hkind] at hsin ⊢

/-- A request acts on the action at its index and leaves every other one alone. -/
theorem find_runRequest (tick : Tick) {h : ActionHandler W} (hnodup : h.ptrs.Nodup) {r : Request W}
    {idx : Nat} (hidx : r.index = some idx) {q : Nat} {a : Action W} (hfind : h.find q = some a) :
    (runRequest tick h r).find q =
      if h.ptrs[idx]? = some q then r.effect tick.now a else some a := by
  have heffect := requestEffect_runRequest tick h r
  generalize runRequest tick h r = h' at heffect ⊢
  -- if the index addresses `q`, the two lookups give one object
  have hsame : ∀ b, h.actions[idx]? = some b → b.ptr = q → a = b := by
    rintro b hget rfl
    exact find_eq_of_getElem? hnodup hget hfind
  cases heffect with
  | added c => cases hidx
  | addedPaused c => cases hidx
  | missed r i hi hget =>
    obtain rfl : i = idx := Option.some.inj (hi.symm.trans hidx)
    have hptr : h.ptrs[i]? ≠ some q := by simp [ptrs, hget]
    rw [if_neg hptr]
    exact hfind
  | removed i b hget =>
    cases hidx
    simp only [getElem?_ptrs hget, Option.some.injEq]
    refine (find_eraseIdx hnodup hget q).trans ?_
    by_cases hq : b.ptr = q
    · rw [if_pos hq, if_pos hq.symm]
      rfl
    · rw [if_neg hq, if_neg fun e => hq e.symm, hfind]
  | resumed i b hget hpaused =>
    cases hidx
    simp only [getElem?_ptrs hget, Option.some.injEq]
    refine (find_modify_of_find hfind b.ptr (Action.ptr_resume tick.now)).trans ?_
    by_cases hq : b.ptr = q
    · rw [if_pos hq, if_pos hq, Request.effect, hsame b hget hq, if_pos hpaused]
    · rw [if_neg hq, if_neg hq]
  | paused i b hget hrunning =>
    cases hidx
    simp only [getElem?_ptrs hget, Option.some.injEq]
    refine (find_modify_of_find hfind b.ptr (Action.ptr_pause tick.now)).trans ?_
    by_cases hq : b.ptr = q
    · rw [if_pos hq, if_pos hq, Request.effect, hsame b hget hq, if_neg (by simp [hrunning])]
    · rw [if_neg hq, if_neg hq]
  | constant i param value b hget hsin =>
    cases hidx
    simp only [getElem?_ptrs hget, Option.some.injEq]
    by_cases hq : b.ptr = q
    · rw [if_pos hq, Request.effect, hsame b hget hq, setSinParam_of_constant hsin, ← hsame b hget hq]
      exact hfind
    · rw [if_neg hq]
      exact hfind
  | sinParam i param value b hget hsin =>
    cases hidx
    simp only [getElem?_ptrs hget, Option.some.injEq]
    exact find_modify_of_find hfind b.ptr (Action.ptr_setSinParam param value)
  | payload i payload b hget =>
    cases hidx
    simp only [getElem?_ptrs hget, Option.some.injEq]
    exact find_modify_of_find hfind b.ptr (Action.ptr_setPayload payload)

/-- What the closure of a request does when it is the next handler. -/
theorem find_step_posted (trig : Trig) (tick : Tick) {h : ActionHandler W} (hid : Identities h)
    (halive : h.terminated = false) {r : Request W} {rest : List (Ready (Request W))}
    (hready : h.loop.ready = .posted r :: rest) {idx : Nat} (hidx : r.index = some idx) {q : Nat}
    {a : Action W} (hfind : h.find q = some a) :
    (step trig h (.run tick)).find q =
      if h.ptrs[idx]? = some q then r.effect tick.now a else some a := by
  have hstep : step trig h (.run tick) =
      runRequest tick { h with loop := h.loop.popped rest } r := by
    simp [step, halive, hready, runReady]
  rw [hstep]
  exact find_runRequest (h := { h with loop := h.loop.popped rest }) tick hid.nodup_ptrs hidx hfind

/-! ### Positions along a run -/

/-- The next handler erases no action at a position up to `idx`. -/
def KeepsUpTo (idx : Nat) (h : ActionHandler W) (l : Label W) : Prop :=
  ∀ ptr ∈ (h.nextChange l).erases, ∀ i ≤ idx, h.ptrs[i]? ≠ some ptr

instance (idx : Nat) (h : ActionHandler W) (l : Label W) : Decidable (h.KeepsUpTo idx l) :=
  inferInstanceAs (Decidable (∀ ptr ∈ (h.nextChange l).erases, ∀ i ≤ idx, _))

/-- A step erases one action, or else it keeps the list or appends to it. -/
theorem ptrs_step {h : ActionHandler W} (hid : Identities h) (trig : Trig) (l : Label W) :
    (∃ ptr, (h.nextChange l).erases = some ptr ∧
        (step trig h l).ptrs = h.ptrs.filter fun q => q ≠ ptr) ∨
      ((h.nextChange l).erases = none ∧
        ((step trig h l).ptrs = h.ptrs ∨
          ∃ ptr ∈ h.arriving, (step trig h l).ptrs = h.ptrs ++ [ptr])) := by
  rcases step_cases trig h l with ⟨hs, hc⟩ | ⟨r, -, hc, hs⟩ | ⟨timer, -, hc, hs⟩ |
    ⟨tick, x, rest, rfl, -, hready, hc, hs⟩
  · exact Or.inr ⟨by rw [hc]; rfl, Or.inl (by rw [hs])⟩
  · exact Or.inr ⟨by rw [hc]; rfl, Or.inl (by rw [hs]; rfl)⟩
  · exact Or.inr ⟨by rw [hc]; rfl, Or.inl (by rw [hs]; rfl)⟩
  · have hlife := hid.life_of_run trig tick hready
    have hptrs : (step trig h (.run tick)).ptrs =
        ((change tick h x).flags h.flags).map Prod.fst := by
      rw [hs, ← map_fst_flags, hlife.flags]
      rfl
    rw [hptrs, hc, ← map_fst_flags]
    cases hchange : change tick h x with
    | nothing => exact Or.inr ⟨rfl, Or.inl rfl⟩
    | added ptr flag waits =>
      obtain ⟨r, rfl, hadded⟩ := change_added hchange
      have harriving := mem_arriving_of_ready hready hadded
      exact Or.inr ⟨rfl, Or.inr ⟨ptr, harriving, by simp [Change.flags]⟩⟩
    | erased ptr =>
      refine Or.inl ⟨ptr, rfl, ?_⟩
      rw [Change.flags, List.filter_map]
      rfl
    | paused ptr => exact Or.inr ⟨rfl, Or.inl (by rw [Change.flags, map_fst_setFlag])⟩
    | resumed ptr => exact Or.inr ⟨rfl, Or.inl (by rw [Change.flags, map_fst_setFlag])⟩
    | rearmed ptr => exact Or.inr ⟨rfl, Or.inl rfl⟩

/-- While nothing up to `idx` is erased, the action at `idx` stays there. -/
theorem getElem?_ptrs_step {h : ActionHandler W} (hid : Identities h) (trig : Trig) {l : Label W}
    {idx ptr : Nat} (hptr : h.ptrs[idx]? = some ptr) (hkeep : h.KeepsUpTo idx l) :
    (step trig h l).ptrs[idx]? = some ptr := by
  rcases ptrs_step hid trig l with ⟨q, hq, hs⟩ | ⟨-, hs | ⟨q, -, hs⟩⟩
  · rw [hs, getElem?_filter_ne (hkeep q hq)]
    exact hptr
  · rwa [hs]
  · rw [hs, List.getElem?_append_left (List.getElem?_eq_some_iff.mp hptr).1]
    exact hptr

/-- `ptr` is gone for good, or stands before `idx`. -/
structure Moved (idx ptr : Nat) (h : ActionHandler W) : Prop where
  known : Known ptr h
  place : ptr ∉ h.ptrs ∨ ∃ i < idx, h.ptrs[i]? = some ptr

/-- An erasure up to position `idx` takes the action at `idx` or moves it forward. -/
theorem Moved.of_erased {h : ActionHandler W} (hid : Identities h) (trig : Trig) {l : Label W}
    {idx ptr : Nat} (hptr : h.ptrs[idx]? = some ptr) (hkeep : ¬ h.KeepsUpTo idx l) :
    Moved idx ptr (step trig h l) := by
  refine ⟨(hid.known (List.mem_of_getElem? hptr)).preserved hid trig l, ?_⟩
  -- the step erases some action `q` at a position `i` up to `idx`
  unfold KeepsUpTo at hkeep
  push Not at hkeep
  obtain ⟨q, hq, i, hi, hget⟩ := hkeep
  rcases ptrs_step hid trig l with ⟨q', hq', hs⟩ | ⟨hnone, -⟩
  · obtain rfl : q = q' := Option.some.inj (hq.symm.trans hq')
    rw [hs]
    by_cases hpq : ptr = q
    · exact Or.inl (by simp [hpq])
    · obtain ⟨j, -, hj, hstrict⟩ := exists_getElem?_filter_ne hpq hptr
      have hlt : i < idx := by
        refine lt_of_le_of_ne hi ?_
        rintro rfl
        exact hpq (Option.some.inj (hptr.symm.trans hget))
      exact Or.inr ⟨j, hstrict ⟨i, hlt, hget⟩, hj⟩
  · rw [hnone] at hq
    cases hq

theorem Moved.preserved {h : ActionHandler W} {idx ptr : Nat} (hm : Moved idx ptr h)
    (hid : Identities h) (trig : Trig) (l : Label W) : Moved idx ptr (step trig h l) := by
  refine ⟨hm.known.preserved hid trig l, ?_⟩
  have hplace := hm.place
  rcases ptrs_step hid trig l with ⟨q, -, hs⟩ | ⟨-, hs | ⟨q, harriving, hs⟩⟩
  · rw [hs]
    by_cases hpq : ptr = q
    · exact Or.inl (by simp [hpq])
    · rcases hplace with hgone | ⟨i, hi, hget⟩
      · exact Or.inl fun hmem => hgone (List.mem_of_mem_filter hmem)
      · obtain ⟨j, hj, hget', -⟩ := exists_getElem?_filter_ne hpq hget
        exact Or.inr ⟨j, lt_of_le_of_lt hj hi, hget'⟩
  · rwa [hs]
  · rw [hs]
    rcases hplace with hgone | ⟨i, hi, hget⟩
    · left
      intro hmem
      rcases List.mem_append.mp hmem with hold | hlast
      · exact hgone hold
      · exact hm.known.not_arriving (List.mem_singleton.mp hlast ▸ harriving)
    · right
      refine ⟨i, hi, ?_⟩
      rw [List.getElem?_append_left (List.getElem?_eq_some_iff.mp hget).1]
      exact hget

/-- `C` says which steps of a system that has an action handler leave the action at `idx` where it
is; any other takes it from there for good. -/
structure Governs {S L : Type} (step : S → L → S) (handler : S → ActionHandler W) (idx : Nat)
    (C : S → L → Prop) : Prop where
  identities : ∀ s l, Identities (handler s) → Identities (handler (step s l))
  stays : ∀ s l ptr, Identities (handler s) → C s l → (handler s).ptrs[idx]? = some ptr →
    (handler (step s l)).ptrs[idx]? = some ptr
  moves : ∀ s l ptr, Identities (handler s) → ¬ C s l → (handler s).ptrs[idx]? = some ptr →
    Moved idx ptr (handler (step s l))
  moved : ∀ s l ptr, Identities (handler s) → Moved idx ptr (handler s) →
    Moved idx ptr (handler (step s l))

theorem governs_keepsUpTo (trig : Trig) (idx : Nat) :
    Governs (step trig) (fun h : ActionHandler W => h) idx (KeepsUpTo idx) where
  identities _ l hid := hid.preserved trig l
  stays _ _ _ hid hkeep hptr := getElem?_ptrs_step hid trig hptr hkeep
  moves _ _ _ hid hkeep hptr := Moved.of_erased hid trig hptr hkeep
  moved _ l _ hid hm := hm.preserved hid trig l

section Governs

variable {S L : Type} {step : S → L → S} {handler : S → ActionHandler W} {idx : Nat}
  {C : S → L → Prop}

theorem Governs.identities_run (hg : Governs step handler idx C) {s : S}
    (hid : Identities (handler s)) (ls : List L) : Identities (handler (run step s ls)) :=
  run_invariant (P := fun s => Identities (handler s)) hg.identities hid ls

/-- Along a run, the action at `idx` stays there exactly as long as every step meets the
condition. -/
theorem Governs.run_cases (hg : Governs step handler idx C) {s : S} (hid : Identities (handler s))
    {ptr : Nat} (hptr : (handler s).ptrs[idx]? = some ptr) (mid : List L) :
    (Meets step C s mid ∧ (handler (run step s mid)).ptrs[idx]? = some ptr) ∨
      (¬ Meets step C s mid ∧ Moved idx ptr (handler (run step s mid))) := by
  induction mid generalizing s with
  | nil => exact Or.inl ⟨trivial, hptr⟩
  | cons l mid ih =>
    have hid' := hg.identities s l hid
    by_cases hkeep : C s l
    · rcases ih hid' (hg.stays s l ptr hid hkeep hptr) with ⟨hmeets, hget⟩ | ⟨hnot, hmoved⟩
      · exact Or.inl ⟨⟨hkeep, hmeets⟩, hget⟩
      · exact Or.inr ⟨fun hm => hnot hm.2, hmoved⟩
    · refine Or.inr ⟨fun hm => hkeep hm.1, ?_⟩
      have hmoved := hg.moves s l ptr hid hkeep hptr
      have hboth : Moved idx ptr (handler (run step (step s l) mid)) ∧
          Identities (handler (run step (step s l) mid)) :=
        run_invariant (P := fun s => Moved idx ptr (handler s) ∧ Identities (handler s))
          (fun s l ⟨hm, hi⟩ => ⟨hg.moved s l ptr hi hm, hg.identities s l hi⟩) ⟨hmoved, hid'⟩ mid
      exact hboth.1

/-- After the run, the index still addresses the action that was there, or no action if this one is
gone, exactly if every step met the condition, or it is gone and nothing has taken its index. -/
theorem Governs.addresses_iff (hg : Governs step handler idx C) {s : S}
    (hid : Identities (handler s)) {ptr : Nat} (hptr : (handler s).ptrs[idx]? = some ptr)
    {mid : List L} {h : ActionHandler W} (hh : h = handler (run step s mid)) :
    h.ptrs[idx]? = (if ptr ∈ h.ptrs then some ptr else none) ↔
      Meets step C s mid ∨ (ptr ∉ h.ptrs ∧ h.actions.length ≤ idx) := by
  have hid' : Identities h := hh ▸ hg.identities_run hid mid
  have hcases := hg.run_cases hid hptr mid
  rw [← hh] at hcases
  have hlength : h.ptrs[idx]? = none ↔ h.actions.length ≤ idx := by
    rw [List.getElem?_eq_none_iff, ptrs, List.length_map]
  rcases hcases with ⟨hmeets, hget⟩ | ⟨hnot, hmoved⟩
  · rw [if_pos (List.mem_of_getElem? hget)]
    exact ⟨fun _ => Or.inl hmeets, fun _ => hget⟩
  · rcases hmoved.place with hgone | ⟨i, hi, hget⟩
    · rw [if_neg hgone, hlength]
      exact ⟨fun hle => Or.inr ⟨hgone, hle⟩, fun hor => (hor.resolve_left hnot).2⟩
    · have hmem := List.mem_of_getElem? hget
      rw [if_pos hmem]
      constructor
      · intro hsame
        -- one identity cannot stand at two positions
        have hij := (List.getElem?_inj (List.getElem?_eq_some_iff.mp hget).1
          hid'.nodup_ptrs).mp (hget.trans hsame.symm)
        exact absurd hij (ne_of_lt hi)
      · rintro (hmeets | ⟨hgone, -⟩)
        · exact absurd hmeets hnot
        · exact absurd hmem hgone

end Governs

/-! ### Requests -/

/-- **Which requests reach the action they are about.** The UI reads an entry of the snapshot in
any reachable state; it describes one action. Let anything happen, until a request with that
index is about to run. It acts on the action now at the index and on no other. That is the action
the entry described (or none, if this one is gone) exactly when no action up to the index was
erased in between, or the action itself was and nothing has taken its index. An edit of a sin
parameter is resolved by the index like any other; where it then finds an action of another kind, it
changes nothing. -/
theorem request_addresses_entry_iff (trig : Trig) (world : W) (before : List (Label W)) (idx : Nat)
    (entry : ActionInfo)
    (hentry : (run (step trig) (init world) before).snapshot[idx]? = some entry) :
    ∃ a, (run (step trig) (init world) before).actions[idx]? = some a ∧
      entry = ActionInfo.ofAction idx a ∧
      ∀ (mid : List (Label W)) (h : ActionHandler W) (r : Request W)
        (rest : List (Ready (Request W))) (tick : Tick),
        h = run (step trig) (run (step trig) (init world) before) mid → h.terminated = false →
        h.loop.ready = .posted r :: rest → r.index = some idx →
        (∀ q b, h.find q = some b → (step trig h (.run tick)).find q =
          if h.ptrs[idx]? = some q then r.effect tick.now b else some b) ∧
        (h.ptrs[idx]? = (if a.ptr ∈ h.ptrs then some a.ptr else none) ↔
          Meets (step trig) (KeepsUpTo idx) (run (step trig) (init world) before) mid ∨
            (a.ptr ∉ h.ptrs ∧ h.actions.length ≤ idx)) := by
  obtain ⟨a, ha, hinfo⟩ := (synced_of_run trig world before).exists_action hentry
  refine ⟨a, ha, hinfo, ?_⟩
  intro mid h r rest tick hh halive hready hidx
  have hid := identities_of_run trig world before
  have hg : Governs (step trig) (fun h : ActionHandler W => h) idx (KeepsUpTo idx) :=
    governs_keepsUpTo trig idx
  constructor
  · intro q b hfind
    have hid' : Identities h := hh ▸ hg.identities_run hid mid
    exact find_step_posted trig tick hid' halive hready hidx hfind
  · exact hg.addresses_iff hid (getElem?_ptrs ha) hh

/-! Three actions; the first sends once and then erases itself. -/

def threeActions : List (Label Unit) :=
  [.request (.addAction (Action.newSingle "vcan0" 256 "Wake" [1])),
    .request (.addActionPaused (Action.newPeriodic "vcan0" 512 "Speed" [2] 100)),
    .request (.addActionPaused (Action.newPeriodic "vcan0" 768 "Brake" [3] 100)),
    .run (tickAt 0), .run (tickAt 0), .run (tickAt 0)]

def shownThree : ActionHandler Unit := run (step flatTrig) (init ()) threeActions

def speedEntry : ActionInfo where
  idx := 1
  msgId := 512
  msgName := "Speed"
  typeName := "Periodic"
  interface := "vcan0"
  isPeriodic := true
  paused := true
  sinAmplitude := 0
  sinPeriodMs := 0
  sinOffset := 0
  period := 100
  lastSent := 0
  everSent := false

def pressUpdate : List (Label Unit) :=
  [.request (.updatePayload 1 [9]), .run (tickAt 1), .run (tickAt 1)]

theorem request_addresses_speed :
    (run (step flatTrig) shownThree pressUpdate).ptrs[1]? =
      if 1 ∈ (run (step flatTrig) shownThree pressUpdate).ptrs then some 1 else none := by
  obtain ⟨a, ha, -, hall⟩ :=
    request_addresses_entry_iff flatTrig () threeActions 1 speedEntry (by decide +kernel)
  have hptr : shownThree.actions[1]?.map (·.ptr) = some a.ptr := congrArg (Option.map (·.ptr)) ha
  have hone : shownThree.actions[1]?.map (·.ptr) = some 1 := by decide +kernel
  have hreach := (hall pressUpdate _ (.updatePayload 1 [9]) [] (tickAt 1) rfl (by decide +kernel)
    rfl rfl).2.mpr (Or.inl (by decide +kernel))
  rwa [Option.some.inj (hptr.symm.trans hone)] at hreach

/-- The entry that is shown at index 1 is the speed; when the request runs, the wake-up frame has
been sent and erased, and the brake's payload is overwritten. -/
theorem request_hits_brake :
    (shownThree.snapshot[1]?.map fun entry => entry.msgName) = some "Speed" ∧
    (run (step flatTrig) shownThree
        [.expire 0, .request (.updatePayload 1 [9]), .run (tickAt 1), .run (tickAt 1),
          .run (tickAt 1), .run (tickAt 1)]).actions.map (fun a => (a.msgName, a.payload)) =
      [("Speed", [2]), ("Brake", [9])] := by
  decide +kernel

end ActionHandler

end Caneo
