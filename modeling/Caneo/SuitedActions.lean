import Caneo.ActionObjects
import Caneo.ActionRequests

/-!
# What actions send, and where

An action sends to one interface and with one id, which no method changes. `Q` says which bytes suit
such a target. A sin action encodes its bytes anew each time; any other sends its payload, which is
what it was made with, or what was sent to its position by an edit. So all that is ever sent suits its
target if the actions are made with payloads that do, and every edit brings a payload that suits the
action at its position, when it is posted and when it runs (`Suited.preserved`).

The action that stands at the position stays there unless one up to it is erased while the edit is
waiting (`EditsStay`).
-/

namespace Caneo

open BitField EventLoop Runs

variable {W : Type}

/-- The interface and the id that an action sends to. -/
def Action.target (a : Action W) : String × BitVec 64 := (a.interface, a.msgId)

def SendCall.target (c : SendCall) : String × BitVec 64 := (c.interface, c.id)

/-- The position whose payload a request sets. -/
def Request.edits : Request W → Option Nat
  | .updatePayload idx _ => some idx
  | .addAction _ | .addActionPaused _ | .removeAction _ | .togglePause _ | .updateSinParam .. => none

/-- What the action sends suits its target, as long as the world has `P`. -/
structure Action.Suits (P : W → Prop) (Q : String × BitVec 64 → Bytes → Prop) (a : Action W) :
    Prop where
  plain : a.encodeFn = none → Q a.target a.payload
  encoded : ∀ f, a.encodeFn = some f → ∀ v w, P w → Q a.target (f v w).1

variable {P : W → Prop} {Q : String × BitVec 64 → Bytes → Prop}

namespace Action

theorem target_pause (now : ℚ) (a : Action W) : (a.pause now).target = a.target := by
  cases hkind : a.kind <;> simp [target, pause, hkind]

theorem target_resume (now : ℚ) (a : Action W) : (a.resume now).target = a.target := by
  cases hkind : a.kind <;> simp [target, resume, hkind]

theorem target_setSinParam (param : Int) (value : ℚ) (a : Action W) :
    (a.setSinParam param value).target = a.target := by
  cases hkind : a.kind <;> simp [target, setSinParam, hkind]

theorem fixed_target : Fixed (target : Action W → String × BitVec 64) where
  pause := target_pause
  resume := target_resume
  setPayload _ _ := rfl
  sent _ _ := rfl
  setSinParam := target_setSinParam

theorem payload_pause (now : ℚ) (a : Action W) : (a.pause now).payload = a.payload := by
  cases hkind : a.kind <;> simp [pause, hkind]

theorem payload_resume (now : ℚ) (a : Action W) : (a.resume now).payload = a.payload := by
  cases hkind : a.kind <;> simp [resume, hkind]

theorem payload_setSinParam (param : Int) (value : ℚ) (a : Action W) :
    (a.setSinParam param value).payload = a.payload := by
  cases hkind : a.kind <;> simp [setSinParam, hkind]

/-- What sends the same to the same target. -/
theorem Suits.congr {a b : Action W} (h : a.Suits P Q) (htarget : b.target = a.target)
    (hfn : b.encodeFn = a.encodeFn) (hpayload : b.payload = a.payload) : b.Suits P Q where
  plain hnone := by
    rw [htarget, hpayload]
    exact h.plain (hfn ▸ hnone)
  encoded f hf := by
    rw [htarget]
    exact h.encoded f (hfn ▸ hf)

theorem Suits.pause {a : Action W} (h : a.Suits P Q) (now : ℚ) : (a.pause now).Suits P Q :=
  h.congr (target_pause now a) (encodeFn_pause now a) (payload_pause now a)

theorem Suits.resume {a : Action W} (h : a.Suits P Q) (now : ℚ) : (a.resume now).Suits P Q :=
  h.congr (target_resume now a) (encodeFn_resume now a) (payload_resume now a)

theorem Suits.sent {a : Action W} (h : a.Suits P Q) (now : ℚ) : (a.sent now).Suits P Q :=
  h.congr rfl rfl rfl

theorem Suits.setSinParam {a : Action W} (h : a.Suits P Q) (param : Int) (value : ℚ) :
    (a.setSinParam param value).Suits P Q :=
  h.congr (target_setSinParam param value a) (encodeFn_setSinParam param value a)
    (payload_setSinParam param value a)

theorem Suits.setPayload {a : Action W} (h : a.Suits P Q) {payload : Bytes}
    (hpayload : Q a.target payload) : (a.setPayload payload).Suits P Q :=
  ⟨fun _ => hpayload, h.encoded⟩

theorem suits_newSingle {interface : String} {msgId : BitVec 64} {payload : Bytes}
    (h : Q (interface, msgId) payload) (msgName : String) :
    (newSingle interface msgId msgName payload : Action W).Suits P Q where
  plain _ := h
  encoded f hf := by cases hf

theorem suits_newPeriodic {interface : String} {msgId : BitVec 64} {payload : Bytes}
    (h : Q (interface, msgId) payload) (msgName : String) (period : Int) :
    (newPeriodic interface msgId msgName payload period : Action W).Suits P Q where
  plain _ := h
  encoded f hf := by cases hf

theorem suits_newSin {interface : String} {msgId : BitVec 64} {f : ℚ → W → Bytes × W}
    (h : ∀ v w, P w → Q (interface, msgId) (f v w).1) (now : ℚ) (msgName : String) (interval : Int)
    (amplitude : ℚ) (sinPeriod : Int) (offset : ℚ) :
    (newSin now interface msgId msgName interval f amplitude sinPeriod offset).Suits P Q where
  plain hnone := by cases hnone
  encoded g hg := by
    cases hg
    exact h

end Action

namespace ActionHandler

/-- The edit brings a payload that suits the action at its position. -/
def EditSuits (Q : String × BitVec 64 → Bytes → Prop) (h : ActionHandler W) (idx : Nat)
    (payload : Bytes) : Prop := ∃ a, h.actions[idx]? = some a ∧ Q a.target payload

/-- What a request adds or sets. -/
structure RequestSuits (P : W → Prop) (Q : String × BitVec 64 → Bytes → Prop) (h : ActionHandler W)
    (r : Request W) : Prop where
  action : ∀ a, r.action = some a → a.Suits P Q
  edit : ∀ idx payload, r = .updatePayload idx payload → h.EditSuits Q idx payload

/-- The invariant: all actions, all requests that are waiting, and all that was sent. -/
structure Suited (P : W → Prop) (Q : String × BitVec 64 → Bytes → Prop) (h : ActionHandler W) :
    Prop where
  actions : ∀ a ∈ h.actions, a.Suits P Q
  waiting : ∀ r ∈ h.loop.closures, h.RequestSuits P Q r
  calls : ∀ c ∈ h.calls, Q c.target c.data

/-- The next handler erases no action up to the position of an edit that is waiting. -/
def EditsStay (h : ActionHandler W) (l : Label W) : Prop :=
  ∀ r ∈ h.loop.closures, ∀ idx ∈ r.edits, h.KeepsUpTo idx l

instance (h : ActionHandler W) (l : Label W) : Decidable (h.EditsStay l) :=
  inferInstanceAs (Decidable (∀ r ∈ h.loop.closures, ∀ idx ∈ r.edits, h.KeepsUpTo idx l))

/-- Only the io thread erases. -/
theorem editsStay_request (h : ActionHandler W) (r : Request W) : h.EditsStay (.request r) := by
  intro r' _ idx _
  simp [KeepsUpTo, nextChange, Change.erases]

theorem Suited.init (world : W) : (init world).Suited P Q where
  actions a ha := by cases ha
  waiting r hr := by cases hr
  calls c hc := by cases hc

variable {h : ActionHandler W}

theorem EditSuits.getElem? {idx : Nat} {payload : Bytes} (he : h.EditSuits Q idx payload)
    {a : Action W} (ha : h.actions[idx]? = some a) : Q a.target payload := by
  obtain ⟨b, hb, hpayload⟩ := he
  obtain rfl : b = a := Option.some.inj (hb.symm.trans ha)
  exact hpayload

/-- Only the actions matter for the edits. -/
theorem RequestSuits.congr {r : Request W} (hr : h.RequestSuits P Q r) {h' : ActionHandler W}
    (hactions : h'.actions = h.actions) : h'.RequestSuits P Q r where
  action := hr.action
  edit idx payload he := by
    rw [EditSuits, hactions]
    exact hr.edit idx payload he

theorem RequestSuits.allocate {r : Request W} (hr : h.RequestSuits P Q r) (ptr : Nat) :
    h.RequestSuits P Q (r.allocate ptr).1 := by
  cases r with
  | addAction a =>
    refine ⟨?_, fun _ _ he => by cases he⟩
    rintro b ⟨⟩
    exact (hr.action a rfl).congr rfl rfl rfl
  | addActionPaused a =>
    refine ⟨?_, fun _ _ he => by cases he⟩
    rintro b ⟨⟩
    exact (hr.action a rfl).congr rfl rfl rfl
  | _ => exact hr

theorem requestSuits_addAction {a : Action W} (ha : a.Suits P Q) :
    h.RequestSuits P Q (.addAction a) where
  action b hb := by
    cases hb
    exact ha
  edit idx payload he := by cases he

theorem requestSuits_addActionPaused {a : Action W} (ha : a.Suits P Q) :
    h.RequestSuits P Q (.addActionPaused a) where
  action b hb := by
    cases hb
    exact ha
  edit idx payload he := by cases he

theorem requestSuits_updatePayload {idx : Nat} {payload : Bytes}
    (he : h.EditSuits Q idx payload) : h.RequestSuits P Q (.updatePayload idx payload) where
  action a ha := by cases ha
  edit i p hsame := by
    cases hsame
    exact he

/-- Requests that bring nothing to send. -/
theorem requestSuits_other {r : Request W} (haction : r.action = none) (hedits : r.edits = none) :
    h.RequestSuits P Q r where
  action a ha := by
    rw [haction] at ha
    cases ha
  edit idx payload he := by
    subst he
    cases hedits

/-! ### The objects -/

theorem suits_modify (hs : ∀ a ∈ h.actions, a.Suits P Q) {ptr : Nat} {f : Action W → Action W}
    (hf : ∀ a ∈ h.actions, a.ptr = ptr → (f a).Suits P Q) :
    ∀ b ∈ (h.modify ptr f).actions, b.Suits P Q := by
  intro b hb
  obtain ⟨a, ha, ⟨hptr, rfl⟩ | ⟨-, rfl⟩⟩ := mem_modify hb
  · exact hf a ha hptr
  · exact hs b ha

/-- The closure of a request changes no other payload than the one at its position. -/
theorem suits_runRequest (tick : Tick) (hnodup : h.ptrs.Nodup)
    (hs : ∀ a ∈ h.actions, a.Suits P Q) {r : Request W} (hr : h.RequestSuits P Q r) :
    ∀ b ∈ (runRequest tick h r).actions, b.Suits P Q := by
  have heffect := requestEffect_runRequest tick h r
  generalize runRequest tick h r = h' at heffect ⊢
  have hpush : ∀ a, r.action = some a → ∀ b ∈ (h.pushBack a).actions, b.Suits P Q := by
    intro a ha b hb
    rcases List.mem_append.mp hb with hold | hnew
    · exact hs b hold
    · rw [List.mem_singleton.mp hnew]
      exact hr.action a ha
  cases heffect with
  | added a => exact hpush a rfl
  | addedPaused a =>
    exact suits_modify (h := h.pushBack a) (hpush a rfl) fun b hb _ => (hpush a rfl b hb).pause _
  | missed r idx hidx hget => exact hs
  | removed idx a hget => exact fun b hb => hs b (List.mem_of_mem_eraseIdx hb)
  | resumed idx a hget hpaused => exact suits_modify hs fun b hb _ => (hs b hb).resume _
  | paused idx a hget hrunning => exact suits_modify hs fun b hb _ => (hs b hb).pause _
  | constant idx param value a hget hsin => exact hs
  | sinParam idx param value a hget hsin =>
    exact suits_modify hs fun b hb _ => (hs b hb).setSinParam param value
  | payload idx payload a hget =>
    refine suits_modify hs fun b hb hptr => (hs b hb).setPayload ?_
    rw [eq_of_getElem?_of_ptr hnodup hget hb hptr]
    exact (hr.edit idx payload rfl).getElem? hget

theorem suits_readyToSend (hs : ∀ a ∈ h.actions, a.Suits P Q) (hworld : P h.world)
    (hnodup : h.ptrs.Nodup) {trig : Trig} {tick : Tick} {g : ActionHandler W} {a b : Action W}
    (ha : a ∈ h.actions) (hready : ReadyToSend trig tick h a g b) :
    (∀ c ∈ g.actions, c.Suits P Q) ∧ Q b.target b.payload := by
  cases hready with
  | constant hsin =>
    refine ⟨hs, (hs a ha).plain ?_⟩
    rw [Action.encodeFn, hsin, Option.map_none]
  | encoded p hsin =>
    have hfn : a.encodeFn = some p.encodeFn := by rw [Action.encodeFn, hsin, Option.map_some]
    have hpayload := (hs a ha).encoded p.encodeFn hfn (p.value trig tick.now) h.world hworld
    refine ⟨suits_modify (h := { h with world := _ }) hs fun c hc hptr => ?_, hpayload⟩
    obtain rfl : c = a := List.inj_on_of_nodup_map hnodup hc ha hptr
    exact (hs c hc).setPayload hpayload

theorem suits_fire (hs : ∀ a ∈ h.actions, a.Suits P Q) (tick : Tick) (a : Action W) :
    ∀ b ∈ (fire tick h a).actions, b.Suits P Q := by
  intro b hb
  obtain ⟨c, hc, rfl | rfl⟩ := mem_fire hb
  · exact hs b hc
  · exact (hs c hc).sent _

theorem calls_fire_suit (hcalls : ∀ c ∈ h.calls, Q c.target c.data) (tick : Tick) {a : Action W}
    (ha : Q a.target a.payload) : ∀ c ∈ (fire tick h a).calls, Q c.target c.data := by
  intro c hc
  rw [calls_fire, List.mem_append, List.mem_singleton] at hc
  rcases hc with hold | rfl
  · exact hcalls c hold
  · exact ha

/-- A timer handler sends what suits. -/
theorem suits_runTimer (hs : ∀ a ∈ h.actions, a.Suits P Q)
    (hcalls : ∀ c ∈ h.calls, Q c.target c.data) (hworld : P h.world) (hnodup : h.ptrs.Nodup)
    (trig : Trig) (tick : Tick) {a : Action W} (ha : a ∈ h.actions) :
    (∀ b ∈ (runTimer trig tick h a).actions, b.Suits P Q) ∧
      ∀ c ∈ (runTimer trig tick h a).calls, Q c.target c.data := by
  have heffect := timerEffect_runTimer trig tick h a
  generalize runTimer trig tick h a = h' at heffect ⊢
  have hfired : ∀ g b, ReadyToSend trig tick h a g b →
      (∀ c ∈ (fire tick g b).actions, c.Suits P Q) ∧
        ∀ c ∈ (fire tick g b).calls, Q c.target c.data := by
    intro g b hready
    obtain ⟨hg, hb⟩ := suits_readyToSend hs hworld hnodup ha hready
    exact ⟨suits_fire hg tick b, calls_fire_suit (hready.calls ▸ hcalls) tick hb⟩
  cases heffect with
  | failed g b hready hthrows => exact hfired g b hready
  | done hsin hkind hsent =>
    obtain ⟨hactions, hcalls'⟩ := hfired h a (.constant hsin)
    exact ⟨fun b hb => hactions b (List.mem_of_mem_filter hb), hcalls'⟩
  | rearmed g b hready hkind hsent => exact hfired g b hready

/-- The same for the next handler, whichever it is. -/
theorem suits_runReady (hid : Identities h) (hsuited : h.Suited P Q) (hworld : P h.world)
    (trig : Trig) (tick : Tick) {x : Ready (Request W)} {rest : List (Ready (Request W))}
    (hready : h.loop.ready = x :: rest) :
    (∀ b ∈ (runReady trig tick { h with loop := h.loop.popped rest } x).actions, b.Suits P Q) ∧
      ∀ c ∈ (runReady trig tick { h with loop := h.loop.popped rest } x).calls,
        Q c.target c.data := by
  rcases x with r | ⟨ptr, aborted⟩
  · have hwaiting : r ∈ h.loop.closures := by simp [Loop.closures_of_posted hready]
    have hcalls : (runRequest tick { h with loop := h.loop.popped rest } r).calls = h.calls :=
      (runRequest_frame tick { h with loop := h.loop.popped rest } r).1
    refine ⟨suits_runRequest (h := { h with loop := h.loop.popped rest }) tick hid.nodup_ptrs
      hsuited.actions ((hsuited.waiting r hwaiting).congr rfl), ?_⟩
    simp only [runReady]
    rw [hcalls]
    exact hsuited.calls
  · cases aborted with
    | true => exact ⟨hsuited.actions, hsuited.calls⟩
    | false =>
      simp only [runReady]
      split
      · exact ⟨hsuited.actions, hsuited.calls⟩
      · next a hfind =>
        exact suits_runTimer (h := { h with loop := h.loop.popped rest }) hsuited.actions
          hsuited.calls hworld hid.nodup_ptrs trig tick (List.mem_of_find?_eq_some hfind)

/-! ### Steps -/

/-- While nothing up to its position is erased, a waiting edit suits the action there. -/
theorem EditSuits.step (hid : Identities h) (trig : Trig) {l : Label W} {idx : Nat}
    {payload : Bytes} (he : h.EditSuits Q idx payload) (hkeep : h.KeepsUpTo idx l) :
    (step trig h l).EditSuits Q idx payload := by
  obtain ⟨a, ha, hpayload⟩ := he
  have hptr := getElem?_ptrs_step hid trig (getElem?_ptrs ha) hkeep
  rw [ptrs, List.getElem?_map, Option.map_eq_some_iff] at hptr
  obtain ⟨b, hb, hbptr⟩ := hptr
  refine ⟨b, hb, ?_⟩
  rwa [hid.fixed Action.fixed_target (List.mem_of_getElem? ha) (List.mem_of_getElem? hb) hbptr]

/-- Every step keeps the invariant, if requests suit when they are posted and the actions that waiting
edits are for stay where they are. -/
theorem Suited.preserved (hid : Identities h) (hsuited : h.Suited P Q) (hworld : P h.world)
    (trig : Trig) {l : Label W} (hl : ∀ r, l = .request r → h.RequestSuits P Q r)
    (hstay : h.EditsStay l) : (step trig h l).Suited P Q := by
  have hwaiting : ∀ r ∈ (step trig h l).loop.closures, (step trig h l).RequestSuits P Q r := by
    intro r hr
    have hold : h.RequestSuits P Q r ∧ ∀ idx ∈ r.edits, h.KeepsUpTo idx l := by
      rcases closures_step hid trig l hr with hold | ⟨r', rfl, rfl⟩
      · exact ⟨hsuited.waiting r hold, hstay r hold⟩
      · refine ⟨(hl r' rfl).allocate _, fun idx _ => ?_⟩
        simp [KeepsUpTo, nextChange, Change.erases]
    refine ⟨hold.1.action, ?_⟩
    rintro idx payload rfl
    exact (hold.1.edit idx payload rfl).step hid trig (hold.2 idx rfl)
  have hrest : (∀ a ∈ (step trig h l).actions, a.Suits P Q) ∧
      ∀ c ∈ (step trig h l).calls, Q c.target c.data := by
    rcases step_cases trig h l with ⟨he, -⟩ | ⟨r, -, -, he⟩ | ⟨timer, -, -, he⟩ |
      ⟨tick, x, rest, -, -, hready, -, he⟩
    · rw [he]
      exact ⟨hsuited.actions, hsuited.calls⟩
    · rw [he]
      exact ⟨hsuited.actions, hsuited.calls⟩
    · rw [he]
      exact ⟨hsuited.actions, hsuited.calls⟩
    · rw [he]
      exact suits_runReady hid hsuited hworld trig tick hready
  exact ⟨hrest.1, hwaiting, hrest.2⟩

end ActionHandler

end Caneo
