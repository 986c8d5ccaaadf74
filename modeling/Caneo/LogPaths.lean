import Caneo.LogController
import Caneo.Runs

/-!
# The files of the log sessions

A log session writes to the file that its start named after the local time, and opening the file
empties it. The name is the only thing that keeps sessions apart: a name says all of the local time
(`logName_injective`), so the files of a run are distinct exactly if no session is started in the
local second of an earlier one (`opened_nodup_iff`). A clock that does not go back does not exclude
this: two starts may fall into one second, or into the hour that is repeated when summer time ends.
-/

namespace Caneo

open BitField Containers Runs

/-! ### Names -/

theorem digitChar_injective {a b : Nat} (ha : a < 10) (hb : b < 10)
    (h : a.digitChar = b.digitChar) : a = b := by
  have hall : ∀ a < 10, ∀ b < 10, a.digitChar = b.digitChar → a = b := by decide
  exact hall a ha b hb h

theorem twoDigits_injective {m n : Nat} (hm : m < 100) (hn : n < 100)
    (h : twoDigits m = twoDigits n) : m = n := by
  obtain ⟨htens, hones⟩ := List.cons.inj h
  have htens := digitChar_injective (by omega) (by omega) htens
  have hones := digitChar_injective (Nat.mod_lt m (by decide)) (Nat.mod_lt n (by decide))
    (List.cons.inj hones).1
  omega

theorem toDigits_injective {m n : Nat} (h : Nat.toDigits 10 m = Nat.toDigits 10 n) : m = n := by
  have hvalue := congrArg (fun digits => Nat.ofDigitChars 10 digits 0) h
  simpa only [Nat.ofDigitChars_ten_toDigits] using hvalue

/-- A field of two digits, and what follows it. -/
theorem twoDigits_append_inj {m n : Nat} (hm : m < 100) (hn : n < 100) {s t : List Char}
    (h : twoDigits m ++ s = twoDigits n ++ t) : m = n ∧ s = t := by
  obtain ⟨hdigits, hrest⟩ := List.append_inj h rfl
  exact ⟨twoDigits_injective hm hn hdigits, hrest⟩

/-- The part of the name behind the year. -/
theorem fields_injective {m m' d d' h h' n n' s s' : Nat} (hm : m < 100 ∧ m' < 100)
    (hd : d < 100 ∧ d' < 100) (hh : h < 100 ∧ h' < 100) (hn : n < 100 ∧ n' < 100)
    (hs : s < 100 ∧ s' < 100) {ext : List Char}
    (heq : twoDigits m ++ twoDigits d ++ ['_'] ++ twoDigits h ++ twoDigits n ++ twoDigits s ++ ext =
      twoDigits m' ++ twoDigits d' ++ ['_'] ++ twoDigits h' ++ twoDigits n' ++ twoDigits s' ++ ext) :
    m = m' ∧ d = d' ∧ h = h' ∧ n = n' ∧ s = s' := by
  simp only [List.append_assoc] at heq
  obtain ⟨hmon, heq⟩ := twoDigits_append_inj hm.1 hm.2 heq
  obtain ⟨hday, heq⟩ := twoDigits_append_inj hd.1 hd.2 heq
  obtain ⟨hhour, heq⟩ := twoDigits_append_inj hh.1 hh.2 (List.append_cancel_left heq)
  obtain ⟨hmin, heq⟩ := twoDigits_append_inj hn.1 hn.2 heq
  obtain ⟨hsec, -⟩ := twoDigits_append_inj hs.1 hs.2 heq
  exact ⟨hmon, hday, hhour, hmin, hsec⟩

/-- Local times that differ have different names. -/
theorem logName_injective {a b : Tm} (h : a.logName = b.logName) : a = b := by
  unfold Tm.logName at h
  have hrest := List.append_cancel_left (String.ofList_injective h)
  -- All fields behind the year have the same width.
  have hwidth : ∀ n, (twoDigits n).length = 2 := fun _ => rfl
  obtain ⟨hyear, hrest⟩ := List.append_inj' hrest (by simp only [List.length_append, hwidth])
  obtain ⟨year, mon, mday, hour, min, sec⟩ := a
  obtain ⟨year', mon', mday', hour', min', sec'⟩ := b
  dsimp only at hyear hrest
  obtain ⟨hmon, hmday, hhour, hmin, hsec⟩ := fields_injective ⟨by omega, by omega⟩
    ⟨by omega, by omega⟩ ⟨by omega, by omega⟩ ⟨by omega, by omega⟩ ⟨by omega, by omega⟩ hrest
  have hmon : mon = mon' := Fin.ext (by omega)
  rw [toDigits_injective hyear, hmon, Fin.ext hmday, Fin.ext hhour, Fin.ext hmin, Fin.ext hsec]

theorem joinPath_injective {dir m n : String} (h : joinPath dir m = joinPath dir n) : m = n := by
  unfold joinPath at h
  split at h
  · have hchars := congrArg String.toList h
    rw [String.toList_append, String.toList_append] at hchars
    exact String.toList_inj.mp (List.append_cancel_left hchars)
  · have hchars := congrArg String.toList h
    simp only [String.toList_append] at hchars
    exact String.toList_inj.mp (List.append_cancel_left hchars)

/-- Two clock readings name one file exactly if they are the same local second. -/
theorem makeLogPath_eq_iff (env : LogEnv) (t now : Int) :
    env.makeLogPath t = env.makeLogPath now ↔
      env.localtime (toTimeT t) = env.localtime (toTimeT now) := by
  constructor
  · intro h
    exact logName_injective (joinPath_injective h)
  · intro h
    rw [LogEnv.makeLogPath, LogEnv.makeLogPath, h]

/-! ### Runs -/

/-- The controller, the files it has opened for writing, and the times at which it did. -/
structure LogSessions where
  controller : LogController := {}
  opened : List String := []
  startedAt : List Int := []

section Runs

variable {pb : Protobuf} (env : LogEnv) (proto : String → Option (ProtoLog pb))

namespace LogSessions

def step (s : LogSessions) (op : LogOp) : LogSessions :=
  let s' := { s with controller := op.apply env proto s.controller }
  match op with
  | .start now _ opening =>
    if !s.controller.isLogging && opening = .opened then
      { s' with
        opened := s.opened ++ [env.makeLogPath now]
        startedAt := s.startedAt ++ [now] }
    else s'
  | _ => s'

/-- If the call starts a session, it does so in a local second in which none was started before. -/
def FreshSecond (s : LogSessions) : LogOp → Prop
  | .start now _ opening => s.controller.isLogging = false → opening = .opened →
      ∀ t ∈ s.startedAt, env.localtime (toTimeT t) ≠ env.localtime (toTimeT now)
  | _ => True

instance (s : LogSessions) (op : LogOp) : Decidable (s.FreshSecond env op) :=
  match op with
  | .start .. => inferInstanceAs (Decidable (_ → _ → ∀ t ∈ s.startedAt, _))
  | .stop => inferInstanceAs (Decidable True)
  | .logCanFrame _ => inferInstanceAs (Decidable True)

/-! ### The files of a run -/

/-- The files are those that the times of the starts name. -/
def Named (s : LogSessions) : Prop := s.opened = s.startedAt.map env.makeLogPath

variable {env}

theorem Named.step {s : LogSessions} (h : s.Named env) (op : LogOp) :
    (s.step env proto op).Named env := by
  cases op with
  | stop => exact h
  | logCanFrame frame => exact h
  | start now steadyNow opening =>
    unfold LogSessions.step
    dsimp only
    split
    · rw [Named, List.map_append, ← h]
      rfl
    · exact h

/-- One call keeps the files distinct exactly if it does not repeat a local second. -/
theorem nodup_step_iff {s : LogSessions} (h : s.Named env) (op : LogOp) :
    (s.step env proto op).opened.Nodup ↔ s.opened.Nodup ∧ s.FreshSecond env op := by
  cases op with
  | stop => exact (and_iff_left trivial).symm
  | logCanFrame frame => exact (and_iff_left trivial).symm
  | start now steadyNow opening =>
    by_cases hopens : s.controller.isLogging = false ∧ opening = .opened
    · obtain ⟨hidle, rfl⟩ := hopens
      have hfiles : (s.step env proto (.start now steadyNow .opened)).opened =
          s.opened ++ [env.makeLogPath now] := by
        simp only [LogSessions.step, hidle]
        rfl
      have hnew : env.makeLogPath now ∉ s.opened ↔
          ∀ t ∈ s.startedAt, env.localtime (toTimeT t) ≠ env.localtime (toTimeT now) := by
        rw [h, List.mem_map]
        constructor
        · intro hnot t ht hsame
          exact hnot ⟨t, ht, (makeLogPath_eq_iff env t now).mpr hsame⟩
        · rintro hfresh ⟨t, ht, hsame⟩
          exact hfresh t ht ((makeLogPath_eq_iff env t now).mp hsame)
      rw [hfiles, ← List.concat_eq_append, List.nodup_concat, hnew, and_comm]
      constructor
      · rintro ⟨hnodup, hfresh⟩
        exact ⟨hnodup, fun _ _ => hfresh⟩
      · rintro ⟨hnodup, hfresh⟩
        exact ⟨hnodup, hfresh hidle rfl⟩
    · have hfiles : (s.step env proto (.start now steadyNow opening)).opened = s.opened := by
        unfold LogSessions.step
        dsimp only
        rw [if_neg]
        simpa using hopens
      rw [hfiles]
      constructor
      · intro hnodup
        exact ⟨hnodup, fun hidle hopened => absurd ⟨hidle, hopened⟩ hopens⟩
      · intro hboth
        exact hboth.1

theorem nodup_run_iff {s : LogSessions} (h : s.Named env) (ops : List LogOp) :
    (run (step env proto) s ops).opened.Nodup ↔
      s.opened.Nodup ∧ Meets (step env proto) (FreshSecond env) s ops := by
  induction ops generalizing s with
  | nil => exact (and_iff_left trivial).symm
  | cons op ops ih =>
    rw [run_cons, ih (h.step proto op), nodup_step_iff proto h op, meets_cons, and_assoc]

end LogSessions

/-- **No log is overwritten, when.** In a run of starts, stops and frames, at any clock readings and
whatever the file system answers, the files of the sessions are distinct if and only if no session
is started in the same second of local time as an earlier one. -/
theorem opened_nodup_iff (ops : List LogOp) :
    (run (LogSessions.step env proto) {} ops).opened.Nodup ↔
      Meets (LogSessions.step env proto) (LogSessions.FreshSecond env) {} ops := by
  have hinit : LogSessions.Named env {} := rfl
  rw [LogSessions.nodup_run_iff proto hinit]
  exact and_iff_right List.nodup_nil

end Runs

/-! ### Two sessions in one second -/

/-- UTC, on 1 January 2025. -/
def newYear (t : Int) : Tm :=
  let s := (t - 1735689600).toNat
  { year := 2025
    mon := 0
    mday := 1
    hour := ⟨s / 3600 % 24, Nat.mod_lt _ (by decide)⟩
    min := ⟨s / 60 % 60, Nat.mod_lt _ (by decide)⟩
    sec := ⟨s % 60, by omega⟩ }

def newYearEnv : LogEnv := ⟨some "/var/log/caneo", "/", newYear⟩

/-- A log is started at noon, stopped, and started again 0.4 seconds later. -/
def restarted : List LogOp :=
  [.start 1735732800100000000 0 .opened, .stop, .start 1735732800500000000 400000000 .opened]

/-- Both sessions write to the same file. -/
theorem not_nodup_restarted :
    (run (LogSessions.step newYearEnv (fun _ => (none : Option (ProtoLog Protobuf.wire)))) {}
        restarted).opened = ["/var/log/caneo/caneo_20250101_120000.mcap",
          "/var/log/caneo/caneo_20250101_120000.mcap"] ∧
      ¬ (run (LogSessions.step newYearEnv (fun _ => (none : Option (ProtoLog Protobuf.wire)))) {}
        restarted).opened.Nodup := by
  refine ⟨by decide +kernel, by decide +kernel⟩

end Caneo
