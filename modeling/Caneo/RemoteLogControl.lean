import Caneo.LogPaths

/-!
# Starting and stopping the log from other machines

The server's `LogController` is used by threads of its own process and, through the RPCs `StartLog`,
`StopLog` and `GetLogStatus` (`src/grpc/CanStreamService.cpp`), by any number of clients
(`src/grpc/RemoteLogControl.cpp`). Handlers run on threads of the gRPC server. A label says whose
turn it is, and every locked method of the controller is a step.

A handler reads the two parts of the status in two steps, and `RemoteLogControl::start` and `stop`
take over the status of an RPC without asking whether it succeeded. Statuses are therefore states of
the controller, and clients show the last one they got, as long as no other step changes whether the
log is active between the two reads of a handler, and no start or stop fails at a client that shows a
log (`statuses_held`).
-/

namespace Caneo

open BitField Containers Runs

/-! ### The server -/

structure LogStatus where
  active : Bool := false
  path : String := ""
deriving DecidableEq

def LogController.status (c : LogController) : LogStatus := ⟨c.isLogging, c.currentPath⟩

inductive LogRpc where
  | startLog
  | stopLog
  | getLogStatus
deriving DecidableEq

/-- Where a handler stands. -/
inductive HandlerStage where
  | received
  /-- `start` or `stop` has returned -/
  | acted
  /-- in `fill_log_status`, between the two reads -/
  | readActive (active : Bool)
  | returned (status : LogStatus)
  /-- an exception has left the handler, and the RPC fails -/
  | thrown
deriving DecidableEq

structure LogHandler where
  rpc : LogRpc
  stage : HandlerStage := .received
deriving DecidableEq

/-- The next step of a handler. `attached` says that the service has a controller. -/
def LogHandler.proceed (env : LogEnv) (attached : Bool) (now steadyNow : Int) (opening : Opening)
    (c : LogController) (h : LogHandler) : LogController × LogHandler :=
  match h.stage with
  | .received =>
    if !attached then (c, { h with stage := .returned {} })
    else match h.rpc with
      | .startLog =>
        (c.start env now steadyNow opening,
          { h with stage := if c.startThrows opening then .thrown else .acted })
      | .stopLog => (c.stop, { h with stage := .acted })
      | .getLogStatus => (c, { h with stage := .acted })
  | .acted => (c, { h with stage := .readActive c.isLogging })
  | .readActive active => (c, { h with stage := .returned ⟨active, c.currentPath⟩ })
  | .returned _ => (c, h)
  | .thrown => (c, h)

/-- The flag that a handler has read, if it has not read the path. -/
def LogHandler.activeRead (h : LogHandler) : Option Bool :=
  match h.stage with
  | .readActive active => some active
  | _ => none

/-! ### A client -/

/-- A client, with the RPC that it waits for and the index of the RPC's handler. `lastStatus` is the
status of its last successful RPC. -/
structure RemoteLogControl where
  logging : Bool := false
  path : String := ""
  logStartTime : Int := 0
  pending : Option (LogRpc × Nat) := none
  lastStatus : LogStatus := {}
deriving DecidableEq

namespace RemoteLogControl

/-- What the client shows. -/
def status (c : RemoteLogControl) : LogStatus := ⟨c.logging, c.path⟩

/-- The rest of `start`, after its RPC: if it failed, the status is as it was constructed. -/
def finishStart (result : Option LogStatus) (now : Int) (c : RemoteLogControl) : RemoteLogControl :=
  let status := result.getD {}
  { c with
    logging := status.active
    path := status.path
    logStartTime := if status.active then now else c.logStartTime }

def finishStop (result : Option LogStatus) (c : RemoteLogControl) : RemoteLogControl :=
  let status := result.getD {}
  { c with logging := status.active, path := status.path }

def finishRefresh (result : Option LogStatus) (now : Int) (c : RemoteLogControl) :
    RemoteLogControl :=
  match result with
  | none => c
  | some status =>
    { c with
      logging := status.active
      path := status.path
      logStartTime := if status.active && !c.logging then now else c.logStartTime }

/-- The RPC has returned with a status, or failed. -/
def finish (rpc : LogRpc) (result : Option LogStatus) (now : Int) (c : RemoteLogControl) :
    RemoteLogControl :=
  let c' := match rpc with
    | .startLog => c.finishStart result now
    | .stopLog => c.finishStop result
    | .getLogStatus => c.finishRefresh result now
  { c' with pending := none, lastStatus := result.getD c.lastStatus }

def elapsedSeconds (now : Int) (c : RemoteLogControl) : ℚ :=
  if c.logging then ((now - c.logStartTime : Int) : ℚ) / 1000000000 else 0

end RemoteLogControl

/-! ### All of them -/

/-- The server with its clients. `held` lists the states that the controller was in. -/
structure RemoteLogs where
  controller : LogController := {}
  handlers : List LogHandler := []
  clients : List RemoteLogControl := []
  held : List LogStatus := [{}]

inductive LogLabel where
  /-- a call of the controller in the server's process -/
  | localOp (op : LogOp)
  /-- a new client, whose constructor calls `refresh_status` -/
  | connect
  | call (client : Nat) (rpc : LogRpc)
  | proceed (handler : Nat) (now steadyNow : Int) (opening : Opening)
  /-- the client gets the status that the handler has returned -/
  | reply (client : Nat) (now : Int)
  /-- the RPC fails, whether or not its handler runs -/
  | fail (client : Nat) (now : Int)

section Runs

variable {pb : Protobuf} (env : LogEnv) (proto : String → Option (ProtoLog pb)) (attached : Bool)

namespace RemoteLogs

def withController (s : RemoteLogs) (c : LogController) : RemoteLogs :=
  { s with controller := c, held := s.held ++ [c.status] }

/-- A client sends a request. -/
def request (s : RemoteLogs) (client : Nat) (c : RemoteLogControl) (rpc : LogRpc) : RemoteLogs :=
  { s with
    handlers := s.handlers ++ [{ rpc := rpc }]
    clients := s.clients.set client { c with pending := some (rpc, s.handlers.length) } }

def finish (s : RemoteLogs) (client : Nat) (c : RemoteLogControl) (rpc : LogRpc)
    (result : Option LogStatus) (now : Int) : RemoteLogs :=
  { s with clients := s.clients.set client (c.finish rpc result now) }

def step (s : RemoteLogs) : LogLabel → RemoteLogs
  | .localOp op => s.withController (op.apply env proto s.controller)
  | .connect =>
    { s with
      handlers := s.handlers ++ [{ rpc := .getLogStatus }]
      clients := s.clients ++ [{ pending := some (.getLogStatus, s.handlers.length) }] }
  | .call client rpc =>
    match s.clients[client]? with
    | some c => if c.pending.isNone then s.request client c rpc else s
    | none => s
  | .proceed handler now steadyNow opening =>
    match s.handlers[handler]? with
    | some h =>
      let (c, h') := h.proceed env attached now steadyNow opening s.controller
      { s.withController c with handlers := s.handlers.set handler h' }
    | none => s
  | .reply client now =>
    match s.clients[client]? with
    | some c =>
      match c.pending with
      | some (rpc, handler) =>
        match (s.handlers[handler]?).map LogHandler.stage with
        | some (.returned status) => s.finish client c rpc (some status) now
        | _ => s
      | none => s
    | none => s
  | .fail client now =>
    match s.clients[client]? with
    | some c =>
      match c.pending with
      | some (rpc, _) => s.finish client c rpc none now
      | none => s
    | none => s

/-! ### The property, and when it holds -/

/-- Every status that was returned is one that the controller had, and every client shows the one
that it got last. -/
structure StatusesHeld (s : RemoteLogs) : Prop where
  returned : ∀ h ∈ s.handlers, ∀ status, h.stage = .returned status → status ∈ s.held
  clients : ∀ c ∈ s.clients, c.status = c.lastStatus ∧ c.lastStatus ∈ s.held

/-- When a handler reads the path, the log is active exactly if the handler has read that it is; and
a start or a stop fails only at a client that shows no log. -/
def Undisturbed (s : RemoteLogs) : LogLabel → Prop
  | .proceed handler .. => ∀ h ∈ s.handlers[handler]?, ∀ active ∈ h.activeRead,
      s.controller.isLogging = active
  | .fail client _ => ∀ c ∈ s.clients[client]?, ∀ p ∈ c.pending, p.1 ≠ .getLogStatus →
      c.status = {}
  | _ => True

instance (s : RemoteLogs) (l : LogLabel) : Decidable (s.Undisturbed l) :=
  match l with
  | .proceed handler .. =>
    inferInstanceAs (Decidable (∀ h ∈ s.handlers[handler]?, ∀ active ∈ h.activeRead, _))
  | .fail client _ => inferInstanceAs (Decidable (∀ c ∈ s.clients[client]?, ∀ p ∈ c.pending, _))
  | .localOp _ => inferInstanceAs (Decidable True)
  | .connect => inferInstanceAs (Decidable True)
  | .call .. => inferInstanceAs (Decidable True)
  | .reply .. => inferInstanceAs (Decidable True)

/-! ### Handlers and clients -/

end RemoteLogs

/-- What a handler returns is the state of the controller, if nothing came between its reads. -/
theorem LogHandler.returned_proceed {env : LogEnv} {attached : Bool} {now steadyNow : Int}
    {opening : Opening} {c : LogController} {h : LogHandler}
    (hactive : ∀ active ∈ h.activeRead, c.isLogging = active) {status : LogStatus}
    (hreturned : (h.proceed env attached now steadyNow opening c).2.stage = .returned status) :
    h.stage = .returned status ∨ status = {} ∨
      status = (h.proceed env attached now steadyNow opening c).1.status := by
  obtain ⟨rpc, stage⟩ := h
  cases stage with
  | received =>
    cases attached with
    | false =>
      cases hreturned
      exact Or.inr (Or.inl rfl)
    | true =>
      cases rpc with
      | startLog =>
        change (if c.startThrows opening then HandlerStage.thrown else .acted) = _ at hreturned
        split at hreturned
        · cases hreturned
        · cases hreturned
      | stopLog => cases hreturned
      | getLogStatus => cases hreturned
  | acted => cases hreturned
  | readActive active =>
    have hsame : c.isLogging = active := hactive active rfl
    cases hreturned
    right; right
    rw [← hsame]
    rfl
  | returned old => exact Or.inl hreturned
  | thrown => cases hreturned

namespace RemoteLogControl

/-- After a successful RPC the client shows its status. -/
theorem status_finish_some (rpc : LogRpc) (status : LogStatus) (now : Int) (c : RemoteLogControl) :
    (c.finish rpc (some status) now).status = status ∧
      (c.finish rpc (some status) now).lastStatus = status := by
  cases rpc with
  | startLog => exact ⟨rfl, rfl⟩
  | stopLog => exact ⟨rfl, rfl⟩
  | getLogStatus => exact ⟨rfl, rfl⟩

theorem lastStatus_finish_none (rpc : LogRpc) (now : Int) (c : RemoteLogControl) :
    (c.finish rpc none now).lastStatus = c.lastStatus := rfl

/-- A failed RPC leaves what the client shows, except that a start or a stop clears it. -/
theorem status_finish_none (rpc : LogRpc) (now : Int) (c : RemoteLogControl) :
    (c.finish rpc none now).status = if rpc = .getLogStatus then c.status else {} := by
  cases rpc with
  | startLog => rfl
  | stopLog => rfl
  | getLogStatus => rfl

end RemoteLogControl

/-! ### The invariant -/

namespace RemoteLogs

/-- The property, and that the controller's first and present states are among those it had. -/
structure Tracked (s : RemoteLogs) : Prop extends StatusesHeld s where
  first : {} ∈ s.held
  present : s.controller.status ∈ s.held

theorem tracked_init : Tracked {} where
  returned h hh := by cases hh
  clients c hc := by cases hc
  first := List.mem_singleton_self _
  present := List.mem_singleton_self _

theorem Tracked.withController {s : RemoteLogs} (hs : Tracked s) (c : LogController) :
    Tracked (s.withController c) where
  returned h hh status hstatus := List.mem_append_left _ (hs.returned h hh status hstatus)
  clients c hc := ⟨(hs.clients c hc).1, List.mem_append_left _ (hs.clients c hc).2⟩
  first := List.mem_append_left _ hs.first
  present := List.mem_append_right _ (List.mem_singleton_self _)

/-- A new handler has returned nothing. -/
theorem Tracked.returned_received {s : RemoteLogs} (hs : Tracked s) (rpc : LogRpc) :
    ∀ h ∈ s.handlers ++ [{ rpc := rpc }], ∀ status, h.stage = .returned status →
      status ∈ s.held := by
  intro h hh status hstatus
  rcases List.mem_append.mp hh with hh | hh
  · exact hs.returned h hh status hstatus
  · rw [List.mem_singleton.mp hh] at hstatus
    cases hstatus

/-- One client changes, and shows a status that the controller had. -/
theorem Tracked.clients_set {s : RemoteLogs} (hs : Tracked s) (client : Nat) {c : RemoteLogControl}
    (hshows : c.status = c.lastStatus) (hheld : c.lastStatus ∈ s.held) :
    ∀ c' ∈ s.clients.set client c, c'.status = c'.lastStatus ∧ c'.lastStatus ∈ s.held := by
  intro c' hc'
  rcases List.mem_or_eq_of_mem_set hc' with hc' | rfl
  · exact hs.clients c' hc'
  · exact ⟨hshows, hheld⟩

theorem Tracked.request {s : RemoteLogs} (hs : Tracked s) {client : Nat} {c : RemoteLogControl}
    (hc : c ∈ s.clients) (rpc : LogRpc) : Tracked (s.request client c rpc) where
  returned := hs.returned_received rpc
  clients := hs.clients_set client (hs.clients c hc).1 (hs.clients c hc).2
  first := hs.first
  present := hs.present

theorem Tracked.finish {s : RemoteLogs} (hs : Tracked s) {client : Nat} {c : RemoteLogControl}
    {rpc : LogRpc} {result : Option LogStatus} {now : Int}
    (hshows : (c.finish rpc result now).status = (c.finish rpc result now).lastStatus)
    (hheld : (c.finish rpc result now).lastStatus ∈ s.held) :
    Tracked (s.finish client c rpc result now) where
  returned := hs.returned
  clients := hs.clients_set client hshows hheld
  first := hs.first
  present := hs.present

variable {env proto attached}

theorem Tracked.proceed {s : RemoteLogs} (hs : Tracked s) {handler : Nat} {now steadyNow : Int}
    {opening : Opening} (hquiet : s.Undisturbed (.proceed handler now steadyNow opening)) :
    Tracked (s.step env proto attached (.proceed handler now steadyNow opening)) := by
  unfold step
  dsimp only
  split
  · next h hget =>
    have hs' := hs.withController (h.proceed env attached now steadyNow opening s.controller).1
    refine { hs' with returned := ?_ }
    intro h' hh' status hstatus
    rcases List.mem_or_eq_of_mem_set hh' with hh' | rfl
    · exact hs'.returned h' hh' status hstatus
    · rcases LogHandler.returned_proceed (hquiet h hget) hstatus with hold | rfl | rfl
      · exact hs'.returned h (List.mem_of_getElem? hget) status hold
      · exact hs'.first
      · exact hs'.present
  · exact hs

theorem Tracked.reply {s : RemoteLogs} (hs : Tracked s) (client : Nat) (now : Int) :
    Tracked (s.step env proto attached (.reply client now)) := by
  unfold step
  dsimp only
  split
  · next c hc =>
    split
    · next rpc handler hpending =>
      split
      · next status hstage =>
        obtain ⟨h, hget, hreturned⟩ := Option.map_eq_some_iff.mp hstage
        obtain ⟨hshown, hlast⟩ := RemoteLogControl.status_finish_some rpc status now c
        apply hs.finish
        · rw [hshown, hlast]
        · rw [hlast]
          exact hs.returned h (List.mem_of_getElem? hget) status hreturned
      · exact hs
    · exact hs
  · exact hs

theorem Tracked.fail {s : RemoteLogs} (hs : Tracked s) {client : Nat} {now : Int}
    (hquiet : s.Undisturbed (.fail client now)) :
    Tracked (s.step env proto attached (.fail client now)) := by
  unfold step
  dsimp only
  split
  · next c hc =>
    split
    · next rpc handler hpending =>
      obtain ⟨hshown, hheld⟩ := hs.clients c (List.mem_of_getElem? hc)
      apply hs.finish
      · rw [RemoteLogControl.status_finish_none, RemoteLogControl.lastStatus_finish_none, ← hshown]
        split
        · rfl
        · next hrpc => exact (hquiet c hc _ hpending hrpc).symm
      · exact hheld
    · exact hs
  · exact hs

theorem Tracked.step {s : RemoteLogs} (hs : Tracked s) (l : LogLabel) (hquiet : s.Undisturbed l) :
    Tracked (s.step env proto attached l) := by
  cases l with
  | localOp op => exact hs.withController _
  | connect =>
    refine { hs with returned := hs.returned_received _, clients := ?_ }
    intro c hc
    rcases List.mem_append.mp hc with hc | hc
    · exact hs.clients c hc
    · rw [List.mem_singleton.mp hc]
      exact ⟨rfl, hs.first⟩
  | call client rpc =>
    unfold RemoteLogs.step
    dsimp only
    split
    · next c hc =>
      split
      · exact hs.request (List.mem_of_getElem? hc) rpc
      · exact hs
    · exact hs
  | proceed handler now steadyNow opening => exact hs.proceed hquiet
  | reply client now => exact hs.reply client now
  | fail client now => exact hs.fail hquiet

end RemoteLogs

variable {env proto attached}

/-- **What clients see of the log.** In a run of any number of clients, handlers and local calls in
which no flag is outdated when its handler reads the path, and no start or stop fails at a client
that shows a log, every status that a handler returns is a state that the controller was in, and
every client shows the status of its last successful RPC. -/
theorem statuses_held (ls : List LogLabel)
    (hquiet : Meets (RemoteLogs.step env proto attached) RemoteLogs.Undisturbed {} ls) :
    (run (RemoteLogs.step env proto attached) {} ls).StatusesHeld :=
  (hquiet.invariant (P := RemoteLogs.Tracked) (fun _ l hs hl => hs.step l hl)
    RemoteLogs.tracked_init).toStatusesHeld

end Runs

/-! ### Three runs -/

def remoteRun (ls : List LogLabel) : RemoteLogs :=
  run (RemoteLogs.step newYearEnv (fun _ => (none : Option (ProtoLog Protobuf.wire))) true) {} ls

def localStart : LogLabel := .localOp (.start 1735689601000000000 0 .opened)

def serve (handler : Nat) : LogLabel := .proceed handler 1735689602000000000 0 .opened

/-- A client connects and gets the status of a running log. -/
def servedClient : List LogLabel :=
  [localStart, .connect, serve 0, serve 0, serve 0, .reply 0 5]

theorem statuses_held_servedClient :
    (remoteRun servedClient).StatusesHeld ∧
      (remoteRun servedClient).clients.map RemoteLogControl.status =
        [⟨true, "/var/log/caneo/caneo_20250101_000001.mcap"⟩] :=
  ⟨statuses_held servedClient (by decide +kernel), by decide +kernel⟩

/-- The log is stopped between the two reads of the handler. -/
def tornRead : List LogLabel :=
  [localStart, .connect, serve 0, serve 0, .localOp .stop, serve 0]

/-- The client's stop fails on the way, and the log goes on. -/
def failedStop : List LogLabel := servedClient ++ [.call 0 .stopLog, .fail 0 6]

/-- A status that the controller never had, and a client that shows no log although its last
successful RPC said there was one and nobody has stopped it. -/
theorem not_statuses_held :
    ((remoteRun tornRead).handlers.map (·.stage) = [.returned ⟨true, ""⟩] ∧
        ¬ (remoteRun tornRead).StatusesHeld) ∧
      ((remoteRun failedStop).clients.map RemoteLogControl.status = [{}] ∧
        (remoteRun failedStop).controller.isLogging = true ∧
        ¬ (remoteRun failedStop).StatusesHeld) := by
  have htorn : (remoteRun tornRead).handlers = [⟨.getLogStatus, .returned ⟨true, ""⟩⟩] := by
    decide +kernel
  have hnever : (⟨true, ""⟩ : LogStatus) ∉ (remoteRun tornRead).held := by decide +kernel
  have hlost : ((remoteRun failedStop).clients.map fun c => (c.status, c.lastStatus)) =
      [({}, ⟨true, "/var/log/caneo/caneo_20250101_000001.mcap"⟩)] := by
    decide +kernel
  refine ⟨⟨by decide +kernel, ?_⟩, by decide +kernel, by decide +kernel, ?_⟩
  · intro h
    exact hnever (h.returned _ (htorn ▸ List.mem_cons_self) _ rfl)
  · intro h
    have hmem : (({}, ⟨true, "/var/log/caneo/caneo_20250101_000001.mcap"⟩) : LogStatus × LogStatus) ∈
        (remoteRun failedStop).clients.map fun c => (c.status, c.lastStatus) := by
      rw [hlost]
      exact List.mem_cons_self
    obtain ⟨c, hc, hpair⟩ := List.mem_map.mp hmem
    have hsame := (h.clients c hc).1
    rw [show c.status = {} from congrArg Prod.fst hpair,
      show c.lastStatus = _ from congrArg Prod.snd hpair] at hsame
    cases hsame

end Caneo
