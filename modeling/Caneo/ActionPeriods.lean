import Caneo.ActionObjects
import Caneo.EditTargets

/-!
# Periods and intervals

The sin timer handler divides by the sin period, and all timers are armed with an interval; both
should be at least one millisecond (`Action.PeriodsOk`). No method of an action checks it, so an
action has the periods it was made with, and the sin period of the last edit. A step of the handler
keeps it exactly if the closure that it runs brings no other (`periodsOk_step_iff`), and so does a
front end (`Hosts.periodsOk_run_iff`).
-/

namespace Caneo

open BitField EventLoop Runs

variable {W : Type}

/-- The interval of a periodic or sin action and the period of a sin are at least 1 ms. -/
def Action.PeriodsOk (a : Action W) : Prop :=
  (a.isPeriodic = true → 1 ≤ a.period) ∧ ∀ p, a.sinParams = some p → 1 ≤ p.sinPeriod

/-- The numbers that an edit may set the sin period to: from 1 on, as far as a `long` reaches. -/
def IsSinPeriod (v : ℚ) : Prop := 1 ≤ v ∧ v < 2 ^ 63

instance (v : ℚ) : Decidable (IsSinPeriod v) := inferInstanceAs (Decidable (_ ∧ _))

/-- The conversion to `long` makes a period of at least 1 ms of exactly these. -/
theorem one_le_toLong_iff (v : ℚ) : 1 ≤ toLong v ↔ IsSinPeriod v := by
  have hlow : 1 ≤ truncate v ↔ 1 ≤ v := by
    rw [← not_iff_not, not_le, not_le, truncate_lt_iff (by decide), Int.cast_one]
  have hhigh : truncate v < 2 ^ 63 ↔ v < 2 ^ 63 := by
    rw [truncate_lt_iff (by decide)]
    norm_num
  rw [IsSinPeriod, ← hlow, ← hhigh, toLong]
  split
  · next hrange => exact ⟨fun hone => ⟨hone, hrange.2⟩, And.left⟩
  · omega

def ActionHandler.PeriodsOk (h : ActionHandler W) : Prop := ∀ a ∈ h.actions, a.PeriodsOk

instance (a : Action W) : Decidable a.PeriodsOk :=
  inferInstanceAs (Decidable (_ ∧ ∀ p ∈ a.sinParams, 1 ≤ p.sinPeriod))

namespace Action

/-- The divisor of the sin timer handler. -/
theorem PeriodsOk.divisor_pos {a : Action W} (h : a.PeriodsOk) {p : SinParams W}
    (hp : a.sinParams = some p) : (0 : ℚ) < p.sinPeriod / 1000 := by
  have hperiod : (1 : ℚ) ≤ p.sinPeriod := by exact_mod_cast h.2 p hp
  linarith

/-! ### The methods -/

/-- Everything that the periods are read from. -/
def timing (a : Action W) : Option (Int × Option Int) :=
  match a.kind with
  | .single => none
  | .periodic period => some (period, none)
  | .sin p => some (p.interval, some p.sinPeriod)

theorem periodsOk_iff (a : Action W) :
    a.PeriodsOk ↔ ∀ interval sinPeriod, a.timing = some (interval, sinPeriod) →
      1 ≤ interval ∧ ∀ s, sinPeriod = some s → 1 ≤ s := by
  unfold PeriodsOk isPeriodic period sinParams timing
  cases a.kind with
  | single => simp
  | periodic period => simp
  | sin p => simp

theorem periodsOk_congr {a b : Action W} (h : b.timing = a.timing) :
    b.PeriodsOk ↔ a.PeriodsOk := by
  rw [periodsOk_iff, periodsOk_iff, h]

theorem timing_pause (now : ℚ) (a : Action W) : (a.pause now).timing = a.timing := by
  unfold timing pause
  cases a.kind <;> simp

theorem timing_resume (now : ℚ) (a : Action W) : (a.resume now).timing = a.timing := by
  unfold timing resume
  cases a.kind <;> simp

theorem periodsOk_newSingle (interface : String) (msgId : BitVec 64) (msgName : String)
    (payload : Bytes) : (newSingle interface msgId msgName payload : Action W).PeriodsOk := by
  simp [periodsOk_iff, timing, newSingle]

theorem periodsOk_newPeriodic (interface : String) (msgId : BitVec 64) (msgName : String)
    (payload : Bytes) (period : Int) :
    (newPeriodic interface msgId msgName payload period : Action W).PeriodsOk ↔ 1 ≤ period := by
  simp [periodsOk_iff, timing, newPeriodic]

theorem periodsOk_newSin (now : ℚ) (interface : String) (msgId : BitVec 64) (msgName : String)
    (interval : Int) (encodeFn : ℚ → W → Bytes × W) (amplitude : ℚ) (sinPeriod : Int)
    (offset : ℚ) :
    (newSin now interface msgId msgName interval encodeFn amplitude sinPeriod offset).PeriodsOk ↔
      1 ≤ interval ∧ 1 ≤ sinPeriod := by
  simp [periodsOk_iff, timing, newSin]

theorem periodsOk_setSinParam {a : Action W} (h : a.PeriodsOk) (param : Int) (value : ℚ) :
    (a.setSinParam param value).PeriodsOk ↔
      (param = 1 → a.sinParams.isSome = true → IsSinPeriod value) := by
  cases hkind : a.kind with
  | single => simpa [setSinParam, sinParams, hkind] using h
  | periodic period => simpa [setSinParam, sinParams, hkind] using h
  | sin p =>
    have hold : 1 ≤ p.interval ∧ 1 ≤ p.sinPeriod := by
      simpa [periodsOk_iff, timing, hkind] using h
    have hset : (a.setSinParam param value).PeriodsOk ↔
        1 ≤ (p.setParam param value).interval ∧ 1 ≤ (p.setParam param value).sinPeriod := by
      simp [periodsOk_iff, timing, setSinParam, hkind]
    have hinterval : (p.setParam param value).interval = p.interval := by
      unfold SinParams.setParam
      repeat' split
      all_goals rfl
    have hsome : a.sinParams.isSome = true := by
      rw [sinParams, hkind]
      rfl
    rw [hset, hinterval]
    by_cases hparam : param = 1
    · have hperiod : (p.setParam param value).sinPeriod = toLong value := by
        rw [SinParams.setParam, if_neg (by omega), if_pos hparam]
      rw [hperiod, one_le_toLong_iff]
      exact ⟨fun hok _ _ => hok.2, fun hv => ⟨hold.1, hv hparam hsome⟩⟩
    · have hperiod : (p.setParam param value).sinPeriod = p.sinPeriod := by
        rw [SinParams.setParam, if_neg hparam]
        split
        · rfl
        · split <;> rfl
      rw [hperiod]
      exact ⟨fun _ heq => absurd heq hparam, fun _ => hold⟩

theorem PeriodsOk.touched {a b : Action W} (h : a.PeriodsOk) {now : ℚ}
    {x : Ready (Request W)} (htouched : Touched now x a b)
    (hx : ∀ idx param value, x ≠ .posted (.updateSinParam idx param value)) : b.PeriodsOk := by
  rcases htouched with _ | _ | _ | _ | ⟨idx, param, value⟩ | _ | _
  · exact h
  · exact h
  · exact h
  · exact h
  · exact absurd rfl (hx idx param value)
  · exact (periodsOk_congr (timing_pause now a)).mpr h
  · exact (periodsOk_congr (timing_resume now a)).mpr h

end Action

/-- The position and the new sin period of an edit. -/
def Request.sinPeriodEdit : Request W → Option (Nat × ℚ)
  | .updateSinParam idx param value => if param = 1 then some (idx, value) else none
  | .addAction _ | .addActionPaused _ | .removeAction _ | .togglePause _ | .updatePayload .. => none

/-- No sin action gets a period below 1 ms from the closure `r`. -/
def Request.SinEditOk (h : ActionHandler W) (r : Request W) : Prop :=
  ∀ edit ∈ r.sinPeriodEdit, ∀ a ∈ h.actions[edit.1]?, a.sinParams.isSome = true →
    IsSinPeriod edit.2

instance (h : ActionHandler W) (r : Request W) : Decidable (r.SinEditOk h) :=
  inferInstanceAs (Decidable (∀ edit ∈ r.sinPeriodEdit, ∀ a ∈ h.actions[edit.1]?, _ →
    IsSinPeriod edit.2))

/-- The closure `r` adds only actions that have their periods. -/
def Request.AddsOk (r : Request W) : Prop := ∀ a ∈ r.action, a.PeriodsOk

/-- Running the closure `r` keeps the periods. -/
def Request.OkFor (h : ActionHandler W) (r : Request W) : Prop := r.AddsOk ∧ r.SinEditOk h

section Requests

variable {r : Request W}

theorem Request.addsOk_of_none (h : r.action = none) : r.AddsOk := by
  intro a ha
  rw [h] at ha
  cases ha

theorem Request.sinEditOk_of_none (h : ActionHandler W) (hnone : r.sinPeriodEdit = none) :
    r.SinEditOk h := by
  intro edit hedit
  rw [hnone] at hedit
  cases hedit

theorem Request.addsOk_allocate (r : Request W) (ptr : Nat) :
    (r.allocate ptr).1.AddsOk ↔ r.AddsOk := by
  have hptr : ∀ a : Action W, ({ a with ptr := ptr } : Action W).PeriodsOk ↔ a.PeriodsOk :=
    fun a => Action.periodsOk_congr rfl
  cases r with
  | addAction a => simpa [Request.AddsOk, Request.allocate, Request.action] using hptr a
  | addActionPaused a => simpa [Request.AddsOk, Request.allocate, Request.action] using hptr a
  | removeAction idx => rfl
  | togglePause idx => rfl
  | updateSinParam idx param value => rfl
  | updatePayload idx payload => rfl

theorem Request.okFor_addAction (h : ActionHandler W) (a : Action W) :
    (Request.addAction a).OkFor h ↔ a.PeriodsOk := by
  simp [OkFor, AddsOk, SinEditOk, action, sinPeriodEdit]

theorem Request.okFor_addActionPaused (h : ActionHandler W) (a : Action W) :
    (Request.addActionPaused a).OkFor h ↔ a.PeriodsOk := by
  simp [OkFor, AddsOk, SinEditOk, action, sinPeriodEdit]

theorem Request.okFor_updateSinParam (h : ActionHandler W) (idx : Nat) (param : Int) (value : ℚ) :
    (Request.updateSinParam idx param value).OkFor h ↔
      (param = 1 → ∀ a ∈ h.actions[idx]?, a.sinParams.isSome = true → IsSinPeriod value) := by
  by_cases hparam : param = 1
  · simp [OkFor, AddsOk, SinEditOk, action, sinPeriodEdit, hparam]
  · simp [OkFor, AddsOk, SinEditOk, action, sinPeriodEdit, hparam]

theorem Request.sinPeriodEdit_allocate (r : Request W) (ptr : Nat) :
    (r.allocate ptr).1.sinPeriodEdit = r.sinPeriodEdit := by
  cases r <;> rfl

end Requests

namespace ActionHandler

/-! ### One closure -/

section Closure

variable {h : ActionHandler W}

theorem periodsOk_runAddAction (hok : h.PeriodsOk) (a : Action W) :
    (h.runAddAction a).PeriodsOk ↔ a.PeriodsOk := by
  have hactions : (h.runAddAction a).actions = h.actions ++ [a] := rfl
  unfold PeriodsOk
  rw [hactions]
  constructor
  · exact fun hall => hall a (List.mem_append_right _ List.mem_cons_self)
  · intro ha b hb
    rcases List.mem_append.mp hb with hold | hnew
    · exact hok b hold
    · rwa [List.mem_singleton.mp hnew]

theorem periodsOk_runAddActionPaused (hok : h.PeriodsOk) (now : ℚ) {a : Action W}
    (hnew : a.ptr ∉ h.ptrs) : (h.runAddActionPaused now a).PeriodsOk ↔ a.PeriodsOk := by
  have hpause : (a.pause now).PeriodsOk ↔ a.PeriodsOk :=
    Action.periodsOk_congr (Action.timing_pause now a)
  rw [← hpause]
  constructor
  · intro hall
    apply hall
    apply List.mem_map.mpr
    exact ⟨a, List.mem_append_right _ List.mem_cons_self, if_pos rfl⟩
  · intro ha b hb
    obtain ⟨c, hc, hb⟩ := mem_modify hb
    rcases List.mem_append.mp hc with hold | hlast
    · rcases hb with ⟨hptr, -⟩ | ⟨-, rfl⟩
      · exact absurd (List.mem_map.mpr ⟨c, hold, hptr⟩) hnew
      · exact hok _ hold
    · obtain rfl := List.mem_singleton.mp hlast
      rcases hb with ⟨-, rfl⟩ | ⟨hptr, -⟩
      · exact ha
      · exact absurd rfl hptr

theorem periodsOk_runUpdateSinParam (hok : h.PeriodsOk) (hnodup : h.ptrs.Nodup) (idx : Nat)
    (param : Int) (value : ℚ) :
    (h.runUpdateSinParam idx param value).PeriodsOk ↔
      (param = 1 → ∀ a ∈ h.actions[idx]?, a.sinParams.isSome = true → IsSinPeriod value) := by
  unfold runUpdateSinParam
  split
  · next hnone =>
    refine iff_of_true hok ?_
    intro _ a ha
    rw [hnone] at ha
    cases ha
  · next a ha =>
    have hmem := List.mem_of_getElem? ha
    split
    · next hsin =>
      refine iff_of_true hok ?_
      intro _ b hb hsome
      obtain rfl := Option.some.inj (ha.symm.trans hb)
      rw [hsin] at hsome
      cases hsome
    · next p hsin =>
      have hset := Action.periodsOk_setSinParam (hok a hmem) param value
      constructor
      · intro hall hparam b hb hsome
        obtain rfl := Option.some.inj (ha.symm.trans hb)
        refine hset.mp ?_ hparam hsome
        apply hall
        exact List.mem_map.mpr ⟨a, hmem, if_pos rfl⟩
      · intro hvalue b hb
        obtain ⟨c, hc, hb⟩ := mem_modify hb
        rcases hb with ⟨hptr, rfl⟩ | ⟨-, rfl⟩
        · obtain rfl := eq_of_getElem?_of_ptr hnodup ha hc hptr
          exact hset.mpr fun hparam hsome => hvalue hparam _ ha hsome
        · exact hok _ hc

end Closure

/-! ### A step -/

/-- The closure that a step runs. -/
def posted (h : ActionHandler W) : Label W → Option (Request W)
  | .run _ =>
    match h.terminated, h.loop.ready with
    | false, .posted r :: _ => some r
    | _, _ => none
  | .request _ | .expire _ => none

/-- The periods are kept by the closure that the step runs. -/
def KeepsPeriods (h : ActionHandler W) (l : Label W) : Prop := ∀ r, h.posted l = some r → r.OkFor h

theorem periodsOk_runRequest_iff {h : ActionHandler W} (hid : Identities h) (hok : h.PeriodsOk)
    (trig : Trig) (tick : Tick) {r : Request W} {rest : List (Ready (Request W))}
    (hready : h.loop.ready = .posted r :: rest) :
    (runReady trig tick { h with loop := h.loop.popped rest } (.posted r)).PeriodsOk ↔
      r.OkFor h := by
  have hother : (∀ idx param value, r ≠ .updateSinParam idx param value) →
      (∀ b, ¬ Added tick.now (.posted r) b) →
      (runReady trig tick { h with loop := h.loop.popped rest } (.posted r)).PeriodsOk := by
    intro hupdate hadd b hb
    rcases touched_runReady hid trig tick hready hb with ⟨a, ha, htouched⟩ | hadded
    · apply (hok a ha).touched htouched
      intro idx param value he
      exact hupdate idx param value (Ready.posted.inj he)
    · exact absurd hadded (hadd b)
  cases r with
  | addAction a =>
    rw [Request.okFor_addAction]
    exact periodsOk_runAddAction (h := { h with loop := h.loop.popped rest }) hok a
  | addActionPaused a =>
    rw [Request.okFor_addActionPaused]
    apply periodsOk_runAddActionPaused (h := { h with loop := h.loop.popped rest }) hok
    exact hid.not_mem_ptrs (mem_arriving_of_ready hready rfl)
  | updateSinParam idx param value =>
    rw [Request.okFor_updateSinParam]
    exact periodsOk_runUpdateSinParam (h := { h with loop := h.loop.popped rest }) hok
      hid.nodup_ptrs idx param value
  | removeAction idx =>
    apply iff_of_true
    · apply hother
      · rintro _ _ _ ⟨⟩
      · rintro _ ⟨⟩
    · exact ⟨Request.addsOk_of_none rfl, Request.sinEditOk_of_none h rfl⟩
  | togglePause idx =>
    apply iff_of_true
    · apply hother
      · rintro _ _ _ ⟨⟩
      · rintro _ ⟨⟩
    · exact ⟨Request.addsOk_of_none rfl, Request.sinEditOk_of_none h rfl⟩
  | updatePayload idx payload =>
    apply iff_of_true
    · apply hother
      · rintro _ _ _ ⟨⟩
      · rintro _ ⟨⟩
    · exact ⟨Request.addsOk_of_none rfl, Request.sinEditOk_of_none h rfl⟩

theorem exists_of_posted {h : ActionHandler W} {l : Label W} {r : Request W}
    (hr : h.posted l = some r) :
    ∃ tick rest, l = .run tick ∧ h.terminated = false ∧ h.loop.ready = .posted r :: rest := by
  cases l with
  | request r' => cases hr
  | expire timer => cases hr
  | run tick =>
    unfold posted at hr
    dsimp only at hr
    split at hr
    · next rest halive hready =>
      cases hr
      exact ⟨tick, rest, rfl, halive, hready⟩
    · cases hr

theorem posted_run {h : ActionHandler W} (halive : h.terminated = false) {r : Request W}
    {rest : List (Ready (Request W))} (hready : h.loop.ready = .posted r :: rest) (tick : Tick) :
    h.posted (.run tick) = some r := by
  rw [posted, halive, hready]

/-- **The periods through a step.** They are kept exactly if the closure that is run keeps them. -/
theorem periodsOk_step_iff {h : ActionHandler W} (hid : Identities h) (hok : h.PeriodsOk)
    (trig : Trig) (l : Label W) : (step trig h l).PeriodsOk ↔ h.KeepsPeriods l := by
  cases hposted : h.posted l with
  | none =>
    apply iff_of_true
    · intro b hb
      rcases touched_step hid trig l hb with hold | ⟨tick, x, rest, rfl, halive, hready, hx⟩
      · exact hok b hold
      · cases x with
        | posted r =>
          rw [posted_run halive hready] at hposted
          cases hposted
        | completion ptr aborted =>
          rcases hx with ⟨a, ha, htouched⟩ | hadded
          · apply (hok a ha).touched htouched
            rintro idx param value ⟨⟩
          · cases hadded
    · intro r hr
      rw [hposted] at hr
      cases hr
  | some r =>
    obtain ⟨tick, rest, rfl, halive, hready⟩ := exists_of_posted hposted
    have hstep : step trig h (.run tick) =
        runReady trig tick { h with loop := h.loop.popped rest } (.posted r) := by
      unfold step
      rw [halive, hready]
      rfl
    rw [hstep, periodsOk_runRequest_iff hid hok trig tick hready]
    constructor
    · intro hr r' hr'
      rwa [← Option.some.inj (hposted.symm.trans hr')]
    · exact fun hkeeps => hkeeps r hposted

/-! ### Actions on their way -/

/-- The closures that are to be run add only actions with such periods. -/
def ArrivalsOk (h : ActionHandler W) : Prop := ∀ r ∈ h.loop.closures, r.AddsOk

/-- All actions have their periods, those that are still to be added included. -/
def AllPeriodsOk (h : ActionHandler W) : Prop := h.PeriodsOk ∧ h.ArrivalsOk

instance (h : ActionHandler W) : Decidable h.AllPeriodsOk :=
  inferInstanceAs (Decidable ((∀ a ∈ h.actions, a.PeriodsOk) ∧
    ∀ r ∈ h.loop.closures, ∀ a ∈ r.action, a.PeriodsOk))

/-- No edit that is run sets the period of a sin action below 1 ms. -/
def SinEditOk (h : ActionHandler W) (l : Label W) : Prop := ∀ r ∈ h.posted l, r.SinEditOk h

instance (h : ActionHandler W) (l : Label W) : Decidable (h.SinEditOk l) :=
  inferInstanceAs (Decidable (∀ r ∈ h.posted l, r.SinEditOk h))

theorem periodsOk_of_nil {h : ActionHandler W} (hnil : h.actions = []) : h.PeriodsOk := by
  intro a ha
  rw [hnil] at ha
  cases ha

theorem mem_closures_of_posted {h : ActionHandler W} {l : Label W} {r : Request W}
    (hposted : h.posted l = some r) : r ∈ h.loop.closures := by
  obtain ⟨tick, rest, -, -, hready⟩ := exists_of_posted hposted
  rw [Loop.closures_of_posted hready]
  exact List.mem_cons_self

theorem ArrivalsOk.keepsPeriods_iff {h : ActionHandler W} (hok : h.ArrivalsOk) (l : Label W) :
    h.KeepsPeriods l ↔ h.SinEditOk l := by
  constructor
  · exact fun hkeeps r hposted => (hkeeps r hposted).2
  · exact fun hedit r hposted => ⟨hok r (mem_closures_of_posted hposted), hedit r hposted⟩

/-- A request is posted unless the loop is gone. -/
theorem closures_request (trig : Trig) (h : ActionHandler W) (r : Request W) :
    (step trig h (.request r)).loop.closures =
      if h.terminated then h.loop.closures
      else h.loop.closures ++ [(r.allocate h.nextPtr).1] := by
  unfold step
  dsimp only
  split
  · rfl
  · exact Loop.closures_post _ _

theorem terminated_request (trig : Trig) (h : ActionHandler W) (r : Request W) :
    (step trig h (.request r)).terminated = h.terminated := by
  unfold step
  dsimp only
  split <;> rfl

theorem arrivalsOk_request_iff (trig : Trig) {h : ActionHandler W} (halive : h.terminated = false)
    (r : Request W) : (step trig h (.request r)).ArrivalsOk ↔ h.ArrivalsOk ∧ r.AddsOk := by
  unfold ArrivalsOk
  rw [closures_request, halive, if_neg (by simp), List.forall_mem_append, List.forall_mem_singleton,
    Request.addsOk_allocate]

/-- Requests that are posted one after the other. -/
theorem arrivalsOk_requests_iff (trig : Trig) {h : ActionHandler W} (halive : h.terminated = false)
    (rs : List (Request W)) :
    (run (step trig) h (rs.map .request)).ArrivalsOk ↔ h.ArrivalsOk ∧ ∀ r ∈ rs, r.AddsOk := by
  induction rs generalizing h with
  | nil => simp
  | cons r rs ih =>
    rw [List.map_cons, run_cons, ih ((terminated_request trig h r).trans halive),
      arrivalsOk_request_iff trig halive, and_assoc, List.forall_mem_cons]

/-- Only requests add to the closures. -/
theorem ArrivalsOk.step {h : ActionHandler W} (hid : Identities h) (hok : h.ArrivalsOk) (trig : Trig)
    {l : Label W} (hl : ∀ r, l ≠ .request r) : (ActionHandler.step trig h l).ArrivalsOk := by
  intro r hr
  rcases closures_step hid trig l hr with hold | ⟨r', hrequest, -⟩
  · exact hok r hold
  · exact absurd hrequest (hl r')

/-! ### Front ends -/

section Hosts

variable {S L : Type} {trig : Trig} {step : S → L → S} {handler : S → ActionHandler W}
  {io : L → Option (Label W)}

/-- The periods are kept by the closure that the step of a front end runs. -/
def HostKeepsPeriods (handler : S → ActionHandler W) (io : L → Option (Label W)) (s : S) (l : L) :
    Prop := ∀ x, io l = some x → (handler s).KeepsPeriods x

/-- A step of the UI thread keeps the periods, as it changes no action itself. -/
theorem Hosts.periodsOk_step_iff (hh : Hosts trig step handler io) {s : S}
    (hid : Identities (handler s)) (hok : (handler s).PeriodsOk) (l : L) :
    (handler (step s l)).PeriodsOk ↔ HostKeepsPeriods handler io s l := by
  cases hio : io l with
  | none =>
    apply iff_of_true
    · intro a ha
      rw [(hh.ui s l hio).actions] at ha
      exact hok a ha
    · intro x hx
      rw [hio] at hx
      cases hx
  | some x =>
    rw [hh.io s l x hio, ActionHandler.periodsOk_step_iff hid hok trig x]
    constructor
    · intro hkeeps y hy
      rwa [← Option.some.inj (hio.symm.trans hy)]
    · exact fun hkeeps => hkeeps x hio

/-- **The periods through a run** of a front end, which has an invariant `J` of its own. -/
theorem Hosts.periodsOk_run_iff (hh : Hosts trig step handler io) {J : S → Prop}
    (hJ : ∀ s l, J s → J (step s l)) (hid : ∀ s, J s → Identities (handler s)) {C : S → L → Prop}
    (hC : ∀ s l, J s → (HostKeepsPeriods handler io s l ↔ C s l)) {s : S} (hs : J s)
    (hok : (handler s).PeriodsOk) (ls : List L) :
    (∀ k, (handler (run step s (ls.take k))).PeriodsOk) ↔ Meets step C s ls := by
  apply forall_take_iff (I := J) (P := fun s => (handler s).PeriodsOk) hJ ?_ hs hok
  intro s l hs hok
  rw [hh.periodsOk_step_iff (hid s hs) hok, hC s l hs]

end Hosts

end ActionHandler

end Caneo
