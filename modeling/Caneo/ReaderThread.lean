import Caneo.Runs
import Caneo.SocketGrpc

/-!
# Stopping the reader of a `SocketGrpc`

`SocketGrpc::start` runs a thread that subscribes to the server's frames, reads them, and subscribes
again when the stream has ended; `SocketGrpc::stop` clears `running_`, cancels the call that is going
on, and joins the thread (`src/socket/SocketGrpc.cpp`). The flag is atomic, and `ctx_mutex_` protects
the pointer to the context of the call.

A label says whose turn it is; a step is a lock region, an access to a flag, or a gRPC call.

The thread enters `Read` only after it has published its context and then seen the flag set. So a
stop that has cleared the flag and then cancels finds the context of any `Read` that is going on, and
no other can begin (`no_lost_stop`).
-/

namespace Caneo

open BitField Runs

/-! ### The thread -/

/-- A `ClientContext`. -/
structure ClientContext where
  alive : Bool := true
  cancelled : Bool := false
deriving DecidableEq

/-- Where the reader thread stands, and the context of its iteration. -/
inductive ReaderStage where
  /-- before the test of the outer loop -/
  | looping
  | creating
  /-- before `current_ctx_ = ctx.get()` -/
  | publishing (ctx : Nat)
  | subscribing (ctx : Nat)
  /-- before `connected_ = true` -/
  | connecting (ctx : Nat)
  /-- before the test of `running_` in the inner loop -/
  | testing (ctx : Nat)
  /-- in `Read` -/
  | reading (ctx : Nat)
  /-- before `connected_ = false` -/
  | disconnecting (ctx : Nat)
  /-- before `current_ctx_ = nullptr` -/
  | retracting (ctx : Nat)
  /-- before the test of `running_` that precedes the sleep -/
  | pausing (ctx : Nat)
  | sleeping (ctx : Nat)
  /-- at the end of the iteration, before the destructors -/
  | destroying (ctx : Nat)
  | exited
deriving DecidableEq

/-- Where a call of `stop` stands. -/
inductive StopStage where
  | called
  /-- the flag is cleared -/
  | flagged
  /-- past the lock region; in `join` -/
  | cancelled
  | joined
deriving DecidableEq

def StopStage.pastCancel : StopStage → Bool
  | .cancelled | .joined => true
  | _ => false

/-- The context that exists in an iteration. -/
def ReaderStage.ctx : ReaderStage → Option Nat
  | .publishing ctx | .subscribing ctx | .connecting ctx | .testing ctx | .reading ctx
  | .disconnecting ctx | .retracting ctx | .pausing ctx | .sleeping ctx | .destroying ctx => some ctx
  | .looping | .creating | .exited => none

/-- The context that the thread has made known. -/
def ReaderStage.published : ReaderStage → Option Nat
  | .subscribing ctx | .connecting ctx | .testing ctx | .reading ctx | .disconnecting ctx
  | .retracting ctx => some ctx
  | _ => none

theorem ReaderStage.ctx_of_published {r : ReaderStage} {ctx : Nat} (h : r.published = some ctx) :
    r.ctx = some ctx := by
  cases r with
  | subscribing k => exact h
  | connecting k => exact h
  | testing k => exact h
  | reading k => exact h
  | disconnecting k => exact h
  | retracting k => exact h
  | _ => cases h

theorem StopStage.ne_called_of_pastCancel {st : StopStage} (h : st.pastCancel = true) : st ≠ .called := by
  rintro rfl
  cases h

/-- The socket after `start`; `posted` are the frames that were handed to the io thread. -/
structure GrpcReader where
  running : Bool := true
  connected : Bool := false
  currentCtx : Option Nat := none
  contexts : List ClientContext := []
  reader : ReaderStage := .looping
  stops : List StopStage := []
  posted : List CanFrame := []

inductive ReaderLabel where
  /-- the thread's next step; in `Read` it waits, unless the context is cancelled -/
  | reader
  /-- `Read` returns a message -/
  | message (proto : RawCanFrame) (now : Int)
  /-- the stream has ended, and `Read` returns false -/
  | streamEnd
  | callStop
  | stop (i : Nat)

namespace GrpcReader

def isCancelled (s : GrpcReader) (ctx : Nat) : Bool := (s.contexts[ctx]?).any (·.cancelled)

def readerStep (s : GrpcReader) : GrpcReader :=
  match s.reader with
  | .looping => { s with reader := if s.running then .creating else .exited }
  | .creating =>
    { s with contexts := s.contexts ++ [{}], reader := .publishing s.contexts.length }
  | .publishing ctx => { s with currentCtx := some ctx, reader := .subscribing ctx }
  | .subscribing ctx => { s with reader := .connecting ctx }
  | .connecting ctx => { s with connected := true, reader := .testing ctx }
  | .testing ctx => { s with reader := if s.running then .reading ctx else .disconnecting ctx }
  | .reading ctx => if s.isCancelled ctx then { s with reader := .disconnecting ctx } else s
  | .disconnecting ctx => { s with connected := false, reader := .retracting ctx }
  | .retracting ctx => { s with currentCtx := none, reader := .pausing ctx }
  | .pausing ctx => { s with reader := if s.running then .sleeping ctx else .destroying ctx }
  | .sleeping ctx => { s with reader := .destroying ctx }
  | .destroying ctx =>
    { s with
      contexts := s.contexts.modify ctx fun c => { c with alive := false }
      reader := .looping }
  | .exited => s

/-- `TryCancel` -/
def tryCancel (s : GrpcReader) : GrpcReader :=
  match s.currentCtx with
  | some ctx => { s with contexts := s.contexts.modify ctx fun c => { c with cancelled := true } }
  | none => s

def stopStep (s : GrpcReader) (i : Nat) : StopStage → GrpcReader
  | .called => { s with running := false, stops := s.stops.set i .flagged }
  | .flagged => { s.tryCancel with stops := s.stops.set i .cancelled }
  | .cancelled => if s.reader = .exited then { s with stops := s.stops.set i .joined } else s
  | .joined => s

def step (iface : String) (s : GrpcReader) : ReaderLabel → GrpcReader
  | .reader => s.readerStep
  | .message proto now =>
    match s.reader with
    | .reading ctx =>
      if s.isCancelled ctx then s
      else
        { s with
          posted := s.posted ++ [SocketGrpc.frame iface now proto]
          reader := .testing ctx }
    | _ => s
  | .streamEnd =>
    match s.reader with
    | .reading ctx => { s with reader := .disconnecting ctx }
    | _ => s
  | .callStop => { s with stops := s.stops ++ [.called] }
  | .stop i =>
    match s.stops[i]? with
    | some stage => s.stopStep i stage
    | none => s

/-- The flag is cleared, a stop has had its chance to cancel, and the thread waits in a `Read` that
was not cancelled. -/
def StopLost (s : GrpcReader) : Prop :=
  s.running = false ∧ (∃ st ∈ s.stops, st.pastCancel = true) ∧
    ∃ ctx, s.reader = .reading ctx ∧ s.isCancelled ctx = false

/-- The pointer does not dangle. -/
def PointerAlive (s : GrpcReader) : Prop :=
  ∀ ctx, s.currentCtx = some ctx → ∃ c, s.contexts[ctx]? = some c ∧ c.alive = true

/-! ### The handshake -/

/-- The pointer is the context that the thread has published; it lives; the flag is cleared before
anything else is done to stop; and once a stop is past its cancelling, a `Read` is cancelled. -/
structure Handshake (s : GrpcReader) : Prop where
  current : s.currentCtx = s.reader.published
  alive : ∀ ctx, s.reader.ctx = some ctx → ∃ c, s.contexts[ctx]? = some c ∧ c.alive = true
  flagged : ∀ st ∈ s.stops, st ≠ .called → s.running = false
  cancelled : ∀ st ∈ s.stops, st.pastCancel = true →
    ∀ ctx, s.reader = .reading ctx → s.isCancelled ctx = true

theorem handshake_init : Handshake {} where
  current := rfl
  alive ctx h := by cases h
  flagged st h := by cases h
  cancelled st h := by cases h

/-- A step of the thread within its iteration. It may enter `Read` only while the flag is set. -/
theorem Handshake.move {s : GrpcReader} (hs : s.Handshake) {r : ReaderStage} {current : Option Nat}
    {connected : Bool} (hcurrent : current = r.published)
    (hctx : ∀ ctx, r.ctx = some ctx → s.reader.ctx = some ctx)
    (hread : ∀ ctx, r = .reading ctx → s.running = true) :
    Handshake { s with reader := r, currentCtx := current, connected := connected } where
  current := hcurrent
  alive ctx h := hs.alive ctx (hctx ctx h)
  flagged := hs.flagged
  cancelled st hst hpast ctx h := by
    have hcleared := hs.flagged st hst (StopStage.ne_called_of_pastCancel hpast)
    rw [hread ctx h] at hcleared
    cases hcleared

/-- A step of the thread that does not enter `Read`, but may set the pointer. -/
theorem Handshake.point {s : GrpcReader} (hs : s.Handshake) {r₀ r : ReaderStage}
    {current : Option Nat} {connected : Bool} (hr : s.reader = r₀) (hcurrent : current = r.published)
    (hctx : r.ctx = r₀.ctx) (hread : ∀ ctx, r ≠ .reading ctx) :
    Handshake { s with reader := r, currentCtx := current, connected := connected } := by
  apply hs.move hcurrent
  · intro ctx h
    rw [hr, ← hctx, h]
  · intro ctx h
    exact absurd h (hread ctx)

/-- A step of the thread that neither enters `Read` nor touches the pointer. -/
theorem Handshake.advance {s : GrpcReader} (hs : s.Handshake) {r₀ r : ReaderStage} {connected : Bool}
    (hr : s.reader = r₀) (hpublished : r.published = r₀.published) (hctx : r.ctx = r₀.ctx)
    (hread : ∀ ctx, r ≠ .reading ctx) :
    Handshake { s with reader := r, connected := connected } := by
  apply hs.point hr _ hctx hread
  rw [hs.current, hr, hpublished]

theorem Handshake.readerStep {s : GrpcReader} (hs : s.Handshake) : s.readerStep.Handshake := by
  cases hr : s.reader with
  | looping =>
    simp only [GrpcReader.readerStep, hr]
    split
    · exact hs.advance hr rfl rfl nofun
    · exact hs.advance hr rfl rfl nofun
  | creating =>
    simp only [GrpcReader.readerStep, hr]
    refine ⟨?_, ?_, hs.flagged, ?_⟩
    · rw [hs.current, hr]
      rfl
    · intro ctx h
      cases h
      exact ⟨{}, List.getElem?_concat_length, rfl⟩
    · intro st hst hpast ctx h
      cases h
  | publishing ctx =>
    simp only [GrpcReader.readerStep, hr]
    exact hs.point hr rfl rfl nofun
  | subscribing ctx =>
    simp only [GrpcReader.readerStep, hr]
    exact hs.advance hr rfl rfl nofun
  | connecting ctx =>
    simp only [GrpcReader.readerStep, hr]
    exact hs.advance hr rfl rfl nofun
  | testing ctx =>
    simp only [GrpcReader.readerStep, hr]
    split
    · next hrunning =>
      -- Here the thread enters `Read`: it has seen the flag set.
      apply hs.move
      · rw [hs.current, hr]
        rfl
      · intro k h
        rwa [hr]
      · exact fun _ _ => hrunning
    · exact hs.advance hr rfl rfl nofun
  | reading ctx =>
    simp only [GrpcReader.readerStep, hr]
    split
    · exact hs.advance hr rfl rfl nofun
    · exact hs
  | disconnecting ctx =>
    simp only [GrpcReader.readerStep, hr]
    exact hs.advance hr rfl rfl nofun
  | retracting ctx =>
    simp only [GrpcReader.readerStep, hr]
    exact hs.point hr rfl rfl nofun
  | pausing ctx =>
    simp only [GrpcReader.readerStep, hr]
    split
    · exact hs.advance hr rfl rfl nofun
    · exact hs.advance hr rfl rfl nofun
  | sleeping ctx =>
    simp only [GrpcReader.readerStep, hr]
    exact hs.advance hr rfl rfl nofun
  | destroying ctx =>
    simp only [GrpcReader.readerStep, hr]
    refine ⟨?_, ?_, hs.flagged, ?_⟩
    · rw [hs.current, hr]
      rfl
    · intro k h
      cases h
    · intro st hst hpast k h
      cases h
  | exited =>
    simp only [GrpcReader.readerStep, hr]
    exact hs

/-! ### Calls of `stop` -/

theorem isCancelled_modify {s : GrpcReader} {ctx k : Nat} (h : s.isCancelled k = true) :
    (((s.contexts.modify ctx fun c => { c with cancelled := true })[k]?).any (·.cancelled)) = true := by
  unfold isCancelled at h
  rw [List.getElem?_modify]
  cases hc : s.contexts[k]? with
  | none =>
    rw [hc] at h
    cases h
  | some c =>
    rw [hc] at h
    by_cases hk : ctx = k
    · simp [hk]
    · simpa [hk] using h

/-- What cancelling leaves as it was. -/
theorem tryCancel_keeps (s : GrpcReader) : s.tryCancel.running = s.running ∧
    s.tryCancel.currentCtx = s.currentCtx ∧ s.tryCancel.reader = s.reader ∧
    s.tryCancel.stops = s.stops := by
  unfold tryCancel
  split
  · exact ⟨rfl, rfl, rfl, rfl⟩
  · exact ⟨rfl, rfl, rfl, rfl⟩

theorem tryCancel_alive {s : GrpcReader} {ctx : Nat}
    (h : ∃ c, s.contexts[ctx]? = some c ∧ c.alive = true) :
    ∃ c, s.tryCancel.contexts[ctx]? = some c ∧ c.alive = true := by
  unfold tryCancel
  split
  · obtain ⟨c, hc, halive⟩ := h
    dsimp only
    rw [List.getElem?_modify, hc]
    refine ⟨_, rfl, ?_⟩
    split
    · exact halive
    · exact halive
  · exact h

/-- A cancelled context stays cancelled, and so is the one that is known. -/
theorem tryCancel_cancelled {s : GrpcReader} {ctx : Nat}
    (halive : ∃ c, s.contexts[ctx]? = some c ∧ c.alive = true)
    (h : s.currentCtx = some ctx ∨ s.isCancelled ctx = true) : s.tryCancel.isCancelled ctx = true := by
  unfold tryCancel
  rcases h with hcurrent | hcancelled
  · rw [hcurrent]
    obtain ⟨c, hc, -⟩ := halive
    unfold isCancelled
    dsimp only
    rw [List.getElem?_modify, hc]
    simp
  · split
    · exact isCancelled_modify hcancelled
    · exact hcancelled

theorem Handshake.stopStep {s : GrpcReader} (hs : s.Handshake) {i : Nat} {stage : StopStage}
    (hget : s.stops[i]? = some stage) : (s.stopStep i stage).Handshake := by
  cases stage with
  | called =>
    refine ⟨hs.current, hs.alive, fun _ _ _ => rfl, ?_⟩
    intro st hst hpast
    rcases List.mem_or_eq_of_mem_set hst with hst | rfl
    · exact hs.cancelled st hst hpast
    · cases hpast
  | flagged =>
    obtain ⟨hrunning, hcurrent, hreader, hstops⟩ := s.tryCancel_keeps
    have hcleared : s.running = false := hs.flagged _ (List.mem_of_getElem? hget) nofun
    constructor
    · exact (hcurrent.trans hs.current).trans (congrArg ReaderStage.published hreader.symm)
    · intro ctx h
      exact tryCancel_alive (hs.alive ctx (hreader ▸ h))
    · exact fun _ _ _ => hrunning.trans hcleared
    · intro st hst hpast ctx h
      -- Whichever call is past its cancelling, the context of a `Read` is the known one.
      have hreading : s.reader = .reading ctx := hreader.symm.trans h
      have hknown : s.currentCtx = some ctx := by
        rw [hs.current, hreading]
        rfl
      exact tryCancel_cancelled (hs.alive ctx (by rw [hreading]; rfl)) (Or.inl hknown)
  | cancelled =>
    unfold GrpcReader.stopStep
    dsimp only
    split
    · next hexited =>
      refine ⟨hs.current, hs.alive, ?_, ?_⟩
      · intro st _ _
        exact hs.flagged _ (List.mem_of_getElem? hget) nofun
      · intro st _ _ ctx h
        rw [show s.reader = .exited from hexited] at h
        cases h
    · exact hs
  | joined => exact hs

theorem Handshake.step {s : GrpcReader} (hs : s.Handshake) (iface : String) (l : ReaderLabel) :
    (s.step iface l).Handshake := by
  cases l with
  | reader => exact hs.readerStep
  | message proto now =>
    unfold GrpcReader.step
    dsimp only
    split
    · next ctx hr =>
      split
      · exact hs
      · have hnext : Handshake { s with reader := .testing ctx, connected := s.connected } :=
          hs.advance hr rfl rfl nofun
        exact ⟨hnext.current, hnext.alive, hnext.flagged, hnext.cancelled⟩
    · exact hs
  | streamEnd =>
    unfold GrpcReader.step
    dsimp only
    split
    · next ctx hr => exact hs.advance hr rfl rfl nofun
    · exact hs
  | callStop =>
    refine ⟨hs.current, hs.alive, ?_, ?_⟩
    · intro st hst hne
      rcases List.mem_append.mp hst with hst | hst
      · exact hs.flagged st hst hne
      · exact absurd (List.mem_singleton.mp hst) hne
    · intro st hst hpast
      rcases List.mem_append.mp hst with hst | hst
      · exact hs.cancelled st hst hpast
      · rw [List.mem_singleton.mp hst] at hpast
        cases hpast
  | stop i =>
    unfold GrpcReader.step
    dsimp only
    split
    · next stage hget => exact hs.stopStep hget
    · exact hs

theorem handshake_run (iface : String) (ls : List ReaderLabel) :
    (run (step iface) {} ls).Handshake :=
  run_invariant (P := Handshake) (fun _ l hs => hs.step iface l) handshake_init ls

end GrpcReader

/-- **A stop is not lost.** In every state that the reader thread and any calls of `stop` reach: if
the flag is cleared and a stop is past its cancelling, the thread is not in a `Read` whose context was
not cancelled; and the pointer, if there is one, points to a context that is alive. -/
theorem no_lost_stop (iface : String) (ls : List ReaderLabel) :
    ¬ (run (GrpcReader.step iface) {} ls).StopLost ∧
      (run (GrpcReader.step iface) {} ls).PointerAlive := by
  have hs := GrpcReader.handshake_run iface ls
  constructor
  · rintro ⟨-, ⟨st, hst, hpast⟩, ctx, hreading, hwaiting⟩
    rw [hs.cancelled st hst hpast ctx hreading] at hwaiting
    cases hwaiting
  · intro ctx hctx
    exact hs.alive ctx (ReaderStage.ctx_of_published (hs.current ▸ hctx))

end Caneo
