import Caneo.ActionRequests

/-!
# Sends that fail

`SocketCAN::send` throws when the kernel rejects a frame. `fire` has no handler for the exception,
nor have the timer handlers, and the thread of the io context is nothing but `io.run()`
(`src/modes/run_gui.cpp`, `run_tui.cpp`, `run_playback.cpp`). So the exception leaves the thread
function, after `fire` has skipped the callback that rebuilds the snapshot and the timer handler
what would have re-armed or erased the action.

`Contained` says what a failure that stays with its action would leave behind.
-/

namespace Caneo

open BitField EventLoop Runs

namespace ActionHandler

variable {W : Type}

/-- A step from `h` to `h'`, in which the action `a` failed to send, concerns `a` alone: the other
actions and their waits are as before, `a` is re-armed (or erased, if it sends only once), the
snapshot shows this, and the io thread goes on. -/
structure Contained (h h' : ActionHandler W) (a : Action W) : Prop where
  others : ∀ b ∈ h.actions, b.ptr ≠ a.ptr →
    b ∈ h'.actions ∧ h'.loop.pending b.ptr = h.loop.pending b.ptr
  rearmed : a.isPeriodic = true → a.ptr ∈ h'.ptrs ∧ h'.loop.pending a.ptr = 1
  erased : a.isPeriodic = false → a.ptr ∉ h'.ptrs
  synced : Synced h'
  running : h'.terminated = false

/-! ### Where the exception leaves the state -/

theorem terminated_fire {tick : Tick} (hthrows : tick.throws = true) (h : ActionHandler W)
    (a : Action W) : (fire tick h a).terminated = true := by
  simp [fire, hthrows]

/-- The timer handler of a failing action has sent and done nothing more. -/
theorem runTimer_of_throws (trig : Trig) {tick : Tick} (hthrows : tick.throws = true)
    (h : ActionHandler W) (a : Action W) :
    (runTimer trig tick h a).terminated = true ∧ (runTimer trig tick h a).flags = h.flags ∧
      (runTimer trig tick h a).loop = h.loop ∧ (runTimer trig tick h a).snapshot = h.snapshot := by
  have heffect := timerEffect_runTimer trig tick h a
  generalize runTimer trig tick h a = h' at heffect ⊢
  cases heffect with
  | failed g b hready hthrows =>
    have hsnapshot : g.snapshot = h.snapshot := by cases hready <;> rfl
    refine ⟨terminated_fire hthrows g b, ?_, ?_, ?_⟩
    · rw [flags_fire, hready.flags]
    · rw [loop_fire, hready.loop]
    · simp [fire, hthrows, hsnapshot]
  | done hsin hkind hsent =>
    rw [hthrows] at hsent
    cases hsent
  | rearmed g b hready hkind hsent =>
    rw [hthrows] at hsent
    cases hsent

/-- Once an exception has left the io thread, nothing happens any more. -/
theorem run_of_terminated (trig : Trig) {h : ActionHandler W} (hterm : h.terminated = true)
    (ls : List (Label W)) : run (step trig) h ls = h := by
  induction ls with
  | nil => rfl
  | cons l ls ih =>
    have hl : step trig h l = h := by simp [step, hterm]
    rw [run_cons, hl]
    exact ih

/-- **A failed send is never contained.** Take any state in which the next handler makes an action
send, and let the send throw. Afterwards the action is neither re-armed nor erased, and no handler
runs any more. -/
theorem failed_send_never_contained (trig : Trig) {h : ActionHandler W} {tick : Tick} {ptr : Nat}
    {rest : List (Ready (Request W))} {a : Action W} (halive : h.terminated = false)
    (hready : h.loop.ready = .completion ptr false :: rest) (hfind : h.find ptr = some a)
    (hthrows : tick.throws = true) :
    ¬ Contained h (step trig h (.run tick)) a ∧
      (step trig h (.run tick)).ptrs = h.ptrs ∧
      (∀ q, (step trig h (.run tick)).loop.pending q = h.loop.pending q) ∧
      ∀ ls, run (step trig) (step trig h (.run tick)) ls = step trig h (.run tick) := by
  have hstep : step trig h (.run tick) =
      runTimer trig tick { h with loop := h.loop.popped rest } a := by
    have hrun : step trig h (.run tick) =
        runReady trig tick { h with loop := h.loop.popped rest } (.completion ptr false) := by
      simp [step, halive, hready]
    have hfind' : find { h with loop := h.loop.popped rest } ptr = some a := hfind
    rw [hrun]
    simp only [runReady, hfind']
  obtain ⟨hterm, hflags, hloop, -⟩ :=
    runTimer_of_throws trig hthrows { h with loop := h.loop.popped rest } a
  rw [← hstep] at hterm hflags hloop
  refine ⟨?_, ?_, ?_, ?_⟩
  · intro hcontained
    rw [hcontained.running] at hterm
    cases hterm
  · rw [← map_fst_flags, hflags]
    exact map_fst_flags h
  · intro q
    rw [hloop]
    rfl
  · exact run_of_terminated trig hterm

/-! Two periodic actions; the transmit queue is full when the first one fires. -/

def twoHeartbeats : ActionHandler Unit :=
  run (step flatTrig) (init ())
    [.request (.addAction heartbeat), .request (.addAction heartbeat), .run (tickAt 0),
      .run (tickAt 0), .expire 0]

def queueFull : Tick where
  now := 1
  sentAt := 1
  throws := true

theorem failed_send_never_contained_heartbeat :
    ∃ a, twoHeartbeats.find 0 = some a ∧
      ¬ Contained twoHeartbeats (step flatTrig twoHeartbeats (.run queueFull)) a := by
  have hsome : (twoHeartbeats.find 0).isSome = true := by decide +kernel
  obtain ⟨a, ha⟩ := Option.isSome_iff_exists.mp hsome
  exact ⟨a, ha, (@failed_send_never_contained Unit flatTrig twoHeartbeats queueFull 0 [] a
    (by decide +kernel) rfl ha rfl).1⟩

/-- The second action's timer expires, but its handler never runs; nor does a request. -/
theorem failed_send_stops_heartbeats :
    let failed := step flatTrig twoHeartbeats (.run queueFull)
    let after := run (step flatTrig) failed
      [.expire 1, .run (tickAt 2), .request (.removeAction 0), .run (tickAt 3)]
    twoHeartbeats.terminated = false ∧ after.ptrs = [0, 1] ∧ after.loop.pending 0 = 0 ∧
      after.calls = [⟨0, "vcan0", 257, [1], true⟩] ∧
      ∀ a, twoHeartbeats.find 0 = some a → ¬ Contained twoHeartbeats failed a := by
  refine ⟨by decide +kernel, by decide +kernel, by decide +kernel, by decide +kernel, ?_⟩
  intro a _ hcontained
  have hterm : (step flatTrig twoHeartbeats (.run queueFull)).terminated = true := by
    decide +kernel
  rw [hcontained.running] at hterm
  cases hterm

end ActionHandler

end Caneo
