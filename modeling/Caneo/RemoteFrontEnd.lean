import Caneo.FrameReceivers
import Caneo.ReaderThread
import Caneo.SubscriberStreams

/-!
# A front end at the other end of a stream

A GUI may run on another machine than the sockets. The server's callback broadcasts every frame; a
call of `Subscribe` writes those of its interface to a stream; the thread of the client's `SocketGrpc`
reads them and posts them to the io thread, where the callback of the GUI shows them. When a stream
ends, the thread waits and subscribes again, and misses what is broadcast meanwhile.

Whatever the order of all this, what the client is given of an interface was broadcast, each frame at
most once and in order; within one call nothing is left out; and the client shows the rows of these
frames (`remote_gui_follows`). Nothing can be delivered by two calls, because the second registers
only after the first has been left.
-/

namespace Caneo

open BitField Containers Runs

variable {pb : Protobuf} {Lua : Type}

/-! ### The server and the client -/

/-- The thread has made its call and not left it. -/
def ReaderStage.calling : ReaderStage → Bool
  | .connecting _ | .testing _ | .reading _ => true
  | _ => false

def ReaderLabel.isMessage : ReaderLabel → Bool
  | .message .. => true
  | _ => false

/-- A socket of the client. `call` is the number that its call has at the server, once the server has
taken it, and `read` counts the messages that were read of it; `ended` has the calls that are over. -/
structure RemoteSocket where
  reader : GrpcReader := {}
  call : Option Nat := none
  read : Nat := 0
  ended : List Nat := []

namespace RemoteSocket

/-- The thread is in a `Read` that was not cancelled. -/
def reads (c : RemoteSocket) : Bool :=
  match c.reader.reader with
  | .reading ctx => !c.reader.isCancelled ctx
  | _ => false

/-- The thread has made a step. A call that it has left is over. -/
def moved (c : RemoteSocket) (reader : GrpcReader) : RemoteSocket :=
  if reader.reader.calling then { c with reader := reader }
  else { reader := reader, ended := c.ended ++ c.call.toList }

/-- All calls that the server has taken. -/
def calls (c : RemoteSocket) : List Nat := c.ended ++ c.call.toList

end RemoteSocket

/-- `queue` has the handlers that were posted to the client's io thread, and `handled` the calls of
its callback. -/
structure RemoteFrontEnd where
  service : CanStreamService := {}
  sockets : List RemoteSocket
  queue : List (Nat × CanFrame) := []
  handled : List Incoming := []

inductive RemoteFrontEnd.Label where
  /-- the server, and its other clients -/
  | service (l : CanStreamService.Label)
  /-- the server takes the call of a socket -/
  | accept (socket : Nat)
  | reader (socket : Nat) (l : ReaderLabel)
  /-- `Read` returns the next message of the stream -/
  | read (socket : Nat) (now : Int)
  /-- the io thread runs a handler -/
  | handle (clock : String → Int)

namespace RemoteFrontEnd

def init (names : List String) : RemoteFrontEnd where
  sockets := names.map fun _ => {}

/-- The message that has not been read yet. -/
def next (s : RemoteFrontEnd) (c : RemoteSocket) : Option RawCanFrame :=
  c.call.bind fun k => (s.service.calls[k]?).bind fun call => call.stream[c.read]?

def accept (names : List String) (s : RemoteFrontEnd) (i : Nat) (c : RemoteSocket) :
    RemoteFrontEnd :=
  if c.reader.reader.calling && c.call.isNone && s.service.turn = none then
    { s with
      service := s.service.step (.subscribe (names.getD i ""))
      sockets := s.sockets.set i { c with call := some s.service.calls.length, read := 0 } }
  else s

def read (names : List String) (s : RemoteFrontEnd) (i : Nat) (now : Int) (c : RemoteSocket) :
    RemoteFrontEnd :=
  match s.next c with
  | none => s
  | some proto =>
    if c.reads then
      { s with
        sockets := s.sockets.set i { c with
          reader := c.reader.step (names.getD i "") (.message proto now)
          read := c.read + 1 }
        queue := s.queue ++ [(i, SocketGrpc.frame (names.getD i "") now proto)] }
    else s

def step (names : List String) (s : RemoteFrontEnd) : Label → RemoteFrontEnd
  | .service l => { s with service := s.service.step l }
  | .accept i => (s.sockets[i]?).elim s fun c => s.accept names i c
  | .reader i l =>
    if l.isMessage then s
    else (s.sockets[i]?).elim s fun c =>
      { s with sockets := s.sockets.set i (c.moved (c.reader.step (names.getD i "") l)) }
  | .read i now => (s.sockets[i]?).elim s fun c => s.read names i now c
  | .handle clock =>
    match s.queue with
    | [] => s
    | (i, frame) :: queue =>
      { s with queue := queue, handled := s.handled ++ [⟨i, frame, clock⟩] }

end RemoteFrontEnd

/-! ### The streams of the server -/

namespace CanStreamService

/-- The frames of an interface. -/
def sentTo (iface : String) (frames : List CanFrame) : List FrameContent :=
  (frames.filter fun frame => frame.header.interface = iface).map CanFrame.content

theorem sentTo_append (iface : String) (frames frames' : List CanFrame) :
    sentTo iface (frames ++ frames') = sentTo iface frames ++ sentTo iface frames' := by
  simp [sentTo]

theorem sentTo_mono (iface : String) {frames frames' : List CanFrame} (h : frames <+: frames') :
    sentTo iface frames <+: sentTo iface frames' := (h.filter _).map _

/-- What a later state has of an earlier one: more frames, and longer streams. -/
structure Grows (s s' : CanStreamService) : Prop where
  broadcasts : s.broadcasts <+: s'.broadcasts
  calls : ∀ (k : Nat) (c : Call), s.calls[k]? = some c → ∃ c', s'.calls[k]? = some c' ∧
    c'.interfaceFilter = c.interfaceFilter ∧ c'.since = c.since ∧ c.stream <+: c'.stream

/-- A change of calls that keeps their streams. -/
structure Extends (f : Call → Call) : Prop where
  filter : ∀ c, (f c).interfaceFilter = c.interfaceFilter
  since : ∀ c, (f c).since = c.since
  stream : ∀ c, c.stream <+: (f c).stream

theorem extends_notify : Extends Call.notify := by
  refine ⟨?_, ?_, ?_⟩ <;> intro c <;> rw [Call.notify] <;> split <;> simp

theorem extends_push (frame : RawCanFrame) : Extends (Call.push frame) where
  filter _ := extends_notify.filter _
  since _ := extends_notify.since _
  stream c := extends_notify.stream { c with queue := c.queue ++ [frame] }

theorem extends_proceed (ok : Bool) : Extends (Call.proceed ok) where
  filter c := (passes_proceed ok c).filter
  since c := (passes_proceed ok c).since
  stream c := by
    rw [Call.proceed]
    split
    all_goals first | exact List.prefix_refl _ | skip
    · split
      · exact List.prefix_refl _
      · split <;> exact List.prefix_refl _
    · split
      · exact List.prefix_append _ _
      · exact List.prefix_refl _

theorem grows_modify {s s' : CanStreamService} {i : Nat} {f : Call → Call} (hf : Extends f)
    (hcalls : s'.calls = s.calls.modify i f) (hbroadcasts : s.broadcasts <+: s'.broadcasts) :
    Grows s s' where
  broadcasts := hbroadcasts
  calls k c hc := by
    rw [hcalls, List.getElem?_modify, hc]
    by_cases hk : i = k
    · exact ⟨f c, by simp [hk], hf.filter c, hf.since c, hf.stream c⟩
    · exact ⟨c, by simp [hk], rfl, rfl, List.prefix_refl _⟩

theorem grows_same {s s' : CanStreamService} (hcalls : s'.calls = s.calls)
    (hbroadcasts : s.broadcasts <+: s'.broadcasts) : Grows s s' where
  broadcasts := hbroadcasts
  calls k c hc := ⟨c, by rw [hcalls, hc], rfl, rfl, List.prefix_refl _⟩

theorem grows_move {s s' : CanStreamService} {l : Label} (hmove : Move s l s') : Grows s s' := by
  have hrefl := List.prefix_refl s.broadcasts
  have hmark : Extends fun c => { c with done := true } :=
    ⟨fun _ => rfl, fun _ => rfl, fun _ => List.prefix_refl _⟩
  have hreturn : Extends fun c => { c with stage := .returned } :=
    ⟨fun _ => rfl, fun _ => rfl, fun _ => List.prefix_refl _⟩
  cases hmove with
  | stay hl => exact grows_same rfl hrefl
  | broadcast frame now hturn => exact grows_same rfl (List.prefix_append _ _)
  | shutdown hturn => exact grows_same rfl hrefl
  | subscribe interface hturn =>
    refine ⟨hrefl, ?_⟩
    intro k c hc
    exact ⟨c, List.getElem?_append_left (List.getElem?_eq_some_iff.mp hc).1 ▸ hc, rfl, rfl,
      List.prefix_refl _⟩
  | proceed i ok c hc hstage => exact grows_modify (extends_proceed ok) rfl hrefl
  | leave i ok c hc hstage hturn => exact grows_modify hreturn rfl hrefl
  | wake i => exact grows_modify extends_notify rfl hrefl
  | skip frame now i rest hturn hwants => exact grows_same rfl hrefl
  | push frame now i rest c hturn hc hwants hlocked => exact grows_modify (extends_push _) rfl hrefl
  | broadcastEnd frame now hturn => exact grows_same rfl hrefl
  | mark i rest hturn => exact grows_modify hmark rfl hrefl
  | notify i rest hturn => exact grows_modify extends_notify rfl hrefl
  | shutdownEnd marked hturn => exact grows_same rfl hrefl

/-- The stream of a call for one interface. -/
theorem Streams.stream_begins {s : CanStreamService} (hs : Streams s) {k : Nat} {c : Call}
    (hc : s.calls[k]? = some c) (hne : c.interfaceFilter ≠ "") :
    c.stream.map RawCanFrame.content <+: sentTo c.interfaceFilter (s.broadcasts.drop c.since) := by
  have hwants : c.wants = fun frame : CanFrame =>
      decide (frame.header.interface = c.interfaceFilter) := by
    funext frame
    have hempty : c.interfaceFilter.isEmpty = false := String.isEmpty_eq_false_iff.mpr hne
    rw [Call.wants, hempty, Bool.false_or]
    exact decide_eq_decide.mpr eq_comm
  have hvisited : s.visited k <+: s.broadcasts := by
    rw [visited]
    split
    · exact List.dropLast_prefix _
    · exact List.prefix_refl _
  have hstream : c.stream.map RawCanFrame.content <+:
      (c.stream ++ c.inFlight).map RawCanFrame.content := by
    rw [List.map_append]
    exact List.prefix_append _ _
  refine (hstream.trans (hs.delivered k c hc).written).trans ?_
  rw [offered, hwants]
  exact sentTo_mono _ (hvisited.drop c.since)

end CanStreamService

/-! ### What a socket was given -/

section Sockets

open CanStreamService

/-- The beginning of what was broadcast on the interface since the call registered. -/
def Begins (service : CanStreamService) (iface : String) (k : Nat) (part : List FrameContent) : Prop :=
  ∃ call, service.calls[k]? = some call ∧ part <+: sentTo iface (service.broadcasts.drop call.since)

/-- What was read in the call that is going on, and how much had been broadcast when it registered. -/
inductive Current (service : CanStreamService) (iface : String) (c : RemoteSocket) :
    List FrameContent → Nat → Prop where
  | waiting (hcall : c.call = none) : Current service iface c [] service.broadcasts.length
  | taken {k : Nat} {call : Call} (hcall : c.call = some k) (hget : service.calls[k]? = some call)
      (hfilter : call.interfaceFilter = iface) (hread : c.read ≤ call.stream.length) :
      Current service iface c ((call.stream.take c.read).map RawCanFrame.content) call.since

/-- The frames that were posted came from the calls, one after the other. The parts of the calls that
are over lie before the registration of the one that is not. -/
def Follows (service : CanStreamService) (iface : String) (c : RemoteSocket) : Prop :=
  ∃ parts current bound, List.Forall₂ (Begins service iface) c.ended parts ∧
    Current service iface c current bound ∧
    c.reader.posted.map CanFrame.content = parts.flatten ++ current ∧
    parts.flatten.Sublist (sentTo iface (service.broadcasts.take bound))

variable {service service' : CanStreamService} {iface : String} {c : RemoteSocket}

theorem Begins.grow (h : Grows service service') {k : Nat} {part : List FrameContent}
    (hbegins : Begins service iface k part) : Begins service' iface k part := by
  obtain ⟨call, hcall, hpart⟩ := hbegins
  obtain ⟨call', hcall', -, hsince, -⟩ := h.calls k call hcall
  refine ⟨call', hcall', ?_⟩
  rw [hsince]
  exact hpart.trans (sentTo_mono iface (h.broadcasts.drop call.since))

theorem sentTo_take_sublist (h : service.broadcasts <+: service'.broadcasts) (bound : Nat) :
    (sentTo iface (service.broadcasts.take bound)).Sublist
      (sentTo iface (service'.broadcasts.take bound)) :=
  (sentTo_mono iface (h.take bound)).sublist

/-- The server goes on. -/
theorem Follows.grow (h : Grows service service') (hfollows : Follows service iface c) :
    Follows service' iface c := by
  obtain ⟨parts, current, bound, hparts, hcurrent, hposted, hsent⟩ := hfollows
  have hparts' := hparts.imp fun k part hbegins => Begins.grow h hbegins
  cases hcurrent with
  | waiting hcall =>
    refine ⟨parts, [], service'.broadcasts.length, hparts', .waiting hcall, hposted, ?_⟩
    rw [List.take_length] at hsent ⊢
    exact hsent.trans (sentTo_mono iface h.broadcasts).sublist
  | taken hcall hget hfilter hread =>
    next k call =>
    obtain ⟨call', hget', hfilter', hsince, hstream⟩ := h.calls k call hget
    have htake : call'.stream.take c.read = call.stream.take c.read := by
      obtain ⟨more, hmore⟩ := hstream
      rw [← hmore, List.take_append_of_le_length hread]
    refine ⟨parts, _, _, hparts',
      .taken hcall hget' (hfilter'.trans hfilter) (hread.trans hstream.length_le), ?_, ?_⟩
    · rw [htake]
      exact hposted
    · rw [hsince]
      exact hsent.trans (sentTo_take_sublist h.broadcasts call.since)

/-- The server takes a call. -/
theorem Follows.accept (hturn : service.turn = none) (hcall : c.call = none)
    (hfollows : Follows service iface c) :
    Follows (service.step (.subscribe iface)) iface
      { c with call := some service.calls.length, read := 0 } := by
  have hgrown := hfollows.grow (grows_move (move_step service (.subscribe iface)))
  have hstep : service.step (.subscribe iface) = service.subscribe iface := if_pos hturn
  rw [hstep] at hgrown ⊢
  obtain ⟨parts, current, bound, hparts, hcurrent, hposted, hsent⟩ := hgrown
  cases hcurrent with
  | taken hcall' =>
    rw [hcall] at hcall'
    cases hcall'
  | waiting hcall' =>
    have htaken := @Current.taken (service.subscribe iface) iface
      { c with call := some service.calls.length, read := 0 } service.calls.length
      { interfaceFilter := iface, since := service.broadcasts.length } rfl
      List.getElem?_concat_length rfl (Nat.zero_le _)
    exact ⟨parts, [], service.broadcasts.length, hparts, htaken, hposted, hsent⟩

/-- What was read of a call is the beginning of what was broadcast since it registered. -/
theorem Current.begins (hs : Streams service) (hne : iface ≠ "") {k : Nat}
    (hcall : c.call = some k) {current : List FrameContent} {bound : Nat}
    (h : Current service iface c current bound) :
    Begins service iface k current ∧ current <+: sentTo iface (service.broadcasts.drop bound) := by
  cases h with
  | waiting hcall' =>
    rw [hcall] at hcall'
    cases hcall'
  | taken hcall' hget hfilter hread =>
    next k' call =>
    rw [hcall] at hcall'
    cases hcall'
    have hstream := hs.stream_begins hget (by rwa [hfilter])
    rw [hfilter] at hstream
    have hprefix := ((List.take_prefix c.read call.stream).map RawCanFrame.content).trans hstream
    exact ⟨⟨call, hget, hprefix⟩, hprefix⟩

/-- All that was given so far, up to where the server is. -/
theorem Follows.posted_sublist (hs : Streams service) (hne : iface ≠ "")
    (hfollows : Follows service iface c) :
    (c.reader.posted.map CanFrame.content).Sublist (sentTo iface service.broadcasts) := by
  obtain ⟨parts, current, bound, -, hcurrent, hposted, hsent⟩ := hfollows
  have hlast : current <+: sentTo iface (service.broadcasts.drop bound) := by
    cases hcall : c.call with
    | some k => exact (hcurrent.begins hs hne hcall).2
    | none =>
      cases hcurrent with
      | waiting => exact List.nil_prefix
      | taken hcall' =>
        rw [hcall] at hcall'
        cases hcall'
  rw [hposted, ← List.take_append_drop bound service.broadcasts, sentTo_append]
  exact hsent.append hlast.sublist

/-- A step of the thread posts nothing, unless it has a message. -/
theorem posted_step {reader : GrpcReader} {l : ReaderLabel} (hl : l.isMessage = false) :
    (reader.step iface l).posted = reader.posted := by
  cases l with
  | message proto now => cases hl
  | reader =>
    simp only [GrpcReader.step, GrpcReader.readerStep]
    split
    all_goals first | rfl | skip
    split <;> rfl
  | streamEnd =>
    simp only [GrpcReader.step]
    split <;> rfl
  | callStop => rfl
  | stop i =>
    simp only [GrpcReader.step]
    split
    · next stage hget =>
      cases stage with
      | called => rfl
      | flagged =>
        simp only [GrpcReader.stopStep, GrpcReader.tryCancel]
        split <;> rfl
      | cancelled =>
        simp only [GrpcReader.stopStep]
        split <;> rfl
      | joined => rfl
    · rfl

/-- The thread makes a step; if it leaves its call, this was a part. -/
theorem Follows.moved (hs : Streams service) (hne : iface ≠ "") {reader : GrpcReader}
    (hposted : reader.posted = c.reader.posted) (hfollows : Follows service iface c) :
    Follows service iface (c.moved reader) := by
  have hall := hfollows.posted_sublist hs hne
  obtain ⟨parts, current, bound, hparts, hcurrent, hgiven, hsent⟩ := hfollows
  rw [RemoteSocket.moved]
  split
  · refine ⟨parts, current, bound, hparts, ?_, ?_, hsent⟩
    · cases hcurrent with
      | waiting hcall => exact .waiting hcall
      | taken hcall hget hfilter hread => exact .taken hcall hget hfilter hread
    · rw [hposted]
      exact hgiven
  · cases hcall : c.call with
    | none =>
      cases hcurrent with
      | taken hcall' =>
        rw [hcall] at hcall'
        cases hcall'
      | waiting =>
        refine ⟨parts, [], _, ?_, .waiting rfl, ?_, hsent⟩
        · simpa using hparts
        · rw [hposted]
          exact hgiven
    | some k =>
      have hbegins := (hcurrent.begins hs hne hcall).1
      have hflatten : (parts ++ [current]).flatten = parts.flatten ++ current := by simp
      refine ⟨parts ++ [current], [], _, ?_, .waiting rfl, ?_, ?_⟩
      · exact List.rel_append hparts (.cons hbegins .nil)
      · rw [hposted, hflatten, List.append_nil]
        exact hgiven
      · rw [hflatten, ← hgiven, List.take_length]
        exact hall

/-- The message that is read next has gone through the call's filter. -/
theorem interface_of_stream (hs : Streams service) (hne : iface ≠ "") {k : Nat} {call : Call}
    (hget : service.calls[k]? = some call) (hfilter : call.interfaceFilter = iface)
    {proto : RawCanFrame} (hproto : proto ∈ call.stream) : proto.interface = iface := by
  have hstream := hs.stream_begins hget (by rwa [hfilter])
  have hmem := hstream.subset (List.mem_map_of_mem hproto)
  obtain ⟨frame, hframe, hcontent⟩ := List.mem_map.mp hmem
  have hiface := of_decide_eq_true (List.mem_filter.mp hframe).2
  have hsame := congrArg FrameContent.interface hcontent
  exact (hsame.symm.trans hiface).trans hfilter

theorem content_frame {proto : RawCanFrame} (hiface : proto.interface = iface)
    (hdlc : proto.dlc.toNat < 256) (now : Int) :
    (SocketGrpc.frame iface now proto).content = proto.content := by
  simp only [CanFrame.content, RawCanFrame.content, SocketGrpc.frame, hiface,
    BitVec.toNat_setWidth]
  rw [Nat.mod_eq_of_lt (by omega)]

/-- The length of a frame that was broadcast fits into a byte. -/
theorem dlc_of_stream (hs : Streams service) (hne : iface ≠ "") {k : Nat} {call : Call}
    (hget : service.calls[k]? = some call) (hfilter : call.interfaceFilter = iface)
    {proto : RawCanFrame} (hproto : proto ∈ call.stream) : proto.dlc.toNat < 256 := by
  have hstream := hs.stream_begins hget (by rwa [hfilter])
  have hmem := hstream.subset (List.mem_map_of_mem hproto)
  obtain ⟨frame, -, hcontent⟩ := List.mem_map.mp hmem
  have hsame : frame.header.dlc.toNat = proto.dlc.toNat := congrArg FrameContent.dlc hcontent
  rw [← hsame]
  exact frame.header.dlc.isLt

/-- A message is read and posted. -/
theorem Follows.read (hs : Streams service) (hne : iface ≠ "") {reader : GrpcReader}
    {k : Nat} {call : Call} (hcall : c.call = some k) (hget : service.calls[k]? = some call)
    {proto : RawCanFrame} (hnext : call.stream[c.read]? = some proto) {now : Int}
    (hposted : reader.posted = c.reader.posted ++ [SocketGrpc.frame iface now proto])
    (hfollows : Follows service iface c) :
    Follows service iface { c with reader := reader, read := c.read + 1 } := by
  obtain ⟨parts, current, bound, hparts, hcurrent, hgiven, hsent⟩ := hfollows
  cases hcurrent with
  | waiting hcall' =>
    rw [hcall] at hcall'
    cases hcall'
  | taken hcall' hget' hfilter hread =>
    next k' call' =>
    rw [hcall] at hcall'
    cases hcall'
    rw [hget] at hget'
    cases hget'
    obtain ⟨hlt, hproto⟩ := List.getElem?_eq_some_iff.mp hnext
    have hmem : proto ∈ call.stream := List.mem_of_getElem? hnext
    have hcontent := content_frame (interface_of_stream hs hne hget hfilter hmem)
      (dlc_of_stream hs hne hget hfilter hmem) now
    have htake : call.stream.take (c.read + 1) = call.stream.take c.read ++ [proto] := by
      rw [List.take_succ_eq_append_getElem hlt, hproto]
    refine ⟨parts, _, _, hparts, .taken hcall hget hfilter hlt, ?_, hsent⟩
    rw [hposted, List.map_append, hgiven, htake, List.map_append, List.append_assoc,
      List.map_singleton, hcontent]
    rfl

end Sockets

/-! ### Whole runs -/

namespace RemoteFrontEnd

/-- What is known of a socket: where its frames came from, and where they are now. -/
structure SocketOk (s : RemoteFrontEnd) (iface : String) (i : Nat) (c : RemoteSocket) : Prop where
  follows : iface ≠ "" → Follows s.service iface c
  posted : (s.handled.filter fun incoming => incoming.socket = i).map (·.frame) ++
    (s.queue.filter fun job => job.1 = i).map Prod.snd = c.reader.posted

structure Ok (names : List String) (s : RemoteFrontEnd) : Prop where
  streams : CanStreamService.Streams s.service
  length : s.sockets.length = names.length
  sockets : ∀ i c, s.sockets[i]? = some c → s.SocketOk (names.getD i "") i c
  queued : ∀ job ∈ s.queue, names[job.1]? = some job.2.header.interface ∧
    job.2.decoded = [] ∧ job.2.msgName = ""
  handled : ∀ incoming ∈ s.handled, incoming.From names ∧
    incoming.frame.decoded = [] ∧ incoming.frame.msgName = ""

variable {names : List String} {s : RemoteFrontEnd}

theorem ok_init (names : List String) : (init names).Ok names where
  streams := CanStreamService.streams_init
  length := List.length_map ..
  sockets i c hc := by
    rw [init, List.getElem?_map, Option.map_eq_some_iff] at hc
    obtain ⟨name, -, rfl⟩ := hc
    refine ⟨fun hne => ⟨[], [], 0, .nil, .waiting rfl, rfl, ?_⟩, rfl⟩
    exact List.nil_sublist _
  queued job hjob := by cases hjob
  handled incoming hincoming := by cases hincoming

theorem getD_of_socket (h : s.Ok names) {i : Nat} {c : RemoteSocket} (hc : s.sockets[i]? = some c) :
    names[i]? = some (names.getD i "") := by
  have hlt := (List.getElem?_eq_some_iff.mp hc).1
  rw [h.length] at hlt
  rw [List.getD_eq_getElem?_getD, List.getElem?_eq_getElem hlt, Option.getD_some]

/-- One socket changes, and perhaps the server. -/
theorem Ok.set (h : s.Ok names) {i : Nat} {c c' : RemoteSocket} (hc : s.sockets[i]? = some c)
    {service : CanStreamService} (hstreams : CanStreamService.Streams service)
    (hgrows : CanStreamService.Grows s.service service)
    (hfollows : names.getD i "" ≠ "" → Follows service (names.getD i "") c')
    (hposted : c'.reader.posted = c.reader.posted) :
    Ok names { s with service := service, sockets := s.sockets.set i c' } where
  streams := hstreams
  length := by rw [List.length_set, h.length]
  sockets j d hd := by
    rw [List.getElem?_set] at hd
    by_cases hij : i = j
    · subst hij
      have hlt := (List.getElem?_eq_some_iff.mp hc).1
      rw [if_pos rfl, if_pos hlt] at hd
      cases hd
      refine ⟨hfollows, ?_⟩
      rw [hposted]
      exact (h.sockets i c hc).posted
    · rw [if_neg hij] at hd
      have hold := h.sockets j d hd
      exact ⟨fun hne => (hold.follows hne).grow hgrows, hold.posted⟩
  queued := h.queued
  handled := h.handled

theorem Ok.accept (h : s.Ok names) {i : Nat} {c : RemoteSocket} (hc : s.sockets[i]? = some c) :
    (s.accept names i c).Ok names := by
  rw [RemoteFrontEnd.accept]
  split
  · next hcan =>
    simp only [Bool.and_eq_true, Option.isNone_iff_eq_none, decide_eq_true_eq] at hcan
    obtain ⟨⟨-, hcall⟩, hturn⟩ := hcan
    refine h.set hc (h.streams.preserved _)
      (CanStreamService.grows_move (CanStreamService.move_step _ _)) ?_ ?_
    · intro hne
      exact ((h.sockets i c hc).follows hne).accept hturn hcall
    · rfl
  · exact h

theorem Ok.read (h : s.Ok names) {i : Nat} {c : RemoteSocket} (hc : s.sockets[i]? = some c)
    (now : Int) : (s.read names i now c).Ok names := by
  rw [RemoteFrontEnd.read]
  split
  · exact h
  · next proto hnext =>
    split
    · next hreads =>
      obtain ⟨k, hcall, hmore⟩ := Option.bind_eq_some_iff.mp hnext
      obtain ⟨call, hget, hproto⟩ := Option.bind_eq_some_iff.mp hmore
      have hposted : (c.reader.step (names.getD i "") (.message proto now)).posted =
          c.reader.posted ++ [SocketGrpc.frame (names.getD i "") now proto] := by
        rw [RemoteSocket.reads] at hreads
        split at hreads
        · next ctx hstage =>
          rw [Bool.not_eq_true'] at hreads
          simp [GrpcReader.step, hstage, hreads]
        · cases hreads
      have hold := h.sockets i c hc
      refine ⟨h.streams, ?_, ?_, ?_, h.handled⟩
      · rw [List.length_set, h.length]
      · intro j d hd
        rw [List.getElem?_set] at hd
        by_cases hij : i = j
        · subst hij
          have hlt := (List.getElem?_eq_some_iff.mp hc).1
          rw [if_pos rfl, if_pos hlt] at hd
          cases hd
          refine ⟨fun hne => (hold.follows hne).read h.streams hne hcall hget hproto hposted, ?_⟩
          rw [hposted, ← hold.posted]
          simp
        · rw [if_neg hij] at hd
          have hother := h.sockets j d hd
          refine ⟨hother.follows, ?_⟩
          rw [← hother.posted]
          simp [hij]
      · intro job hjob
        rcases List.mem_append.mp hjob with hjob | hjob
        · exact h.queued job hjob
        · rw [List.mem_singleton.mp hjob]
          exact ⟨getD_of_socket h hc, rfl, rfl⟩
    · exact h

theorem Ok.step (h : s.Ok names) (l : Label) : (s.step names l).Ok names := by
  cases l with
  | service l =>
    have hgrows := CanStreamService.grows_move (CanStreamService.move_step s.service l)
    refine ⟨h.streams.preserved l, h.length, ?_, h.queued, h.handled⟩
    intro i c hc
    have hold := h.sockets i c hc
    exact ⟨fun hne => (hold.follows hne).grow hgrows, hold.posted⟩
  | accept i =>
    rw [RemoteFrontEnd.step]
    cases hc : s.sockets[i]? with
    | none => exact h
    | some c => exact h.accept hc
  | reader i l =>
    rw [RemoteFrontEnd.step]
    split
    · exact h
    · next hmessage =>
      cases hc : s.sockets[i]? with
      | none => exact h
      | some c =>
        have hposted : (c.reader.step (names.getD i "") l).posted = c.reader.posted :=
          posted_step (by simpa using hmessage)
        apply h.set hc h.streams (CanStreamService.grows_same rfl (List.prefix_refl _))
        · exact fun hne => ((h.sockets i c hc).follows hne).moved h.streams hne hposted
        · rw [RemoteSocket.moved]
          split <;> exact hposted
  | read i now =>
    rw [RemoteFrontEnd.step]
    cases hc : s.sockets[i]? with
    | none => exact h
    | some c => exact h.read hc now
  | handle clock =>
    rw [RemoteFrontEnd.step]
    split
    · exact h
    · next i frame queue hqueue =>
      have hjob := h.queued (i, frame) (by rw [hqueue]; exact List.mem_cons_self)
      refine ⟨h.streams, h.length, ?_, ?_, ?_⟩
      · intro j c hc
        have hold := h.sockets j c hc
        refine ⟨hold.follows, ?_⟩
        rw [← hold.posted, hqueue]
        by_cases hij : i = j <;> simp [hij]
      · intro job hmem
        exact h.queued job (by rw [hqueue]; exact List.mem_cons_of_mem _ hmem)
      · intro incoming hmem
        rcases List.mem_append.mp hmem with hmem | hmem
        · exact h.handled incoming hmem
        · rw [List.mem_singleton.mp hmem]
          exact hjob

theorem ok_run (names : List String) (ls : List Label) : (run (step names) (init names) ls).Ok names :=
  run_invariant (P := Ok names) (fun _ l h => h.step l) (ok_init names) ls

/-! ### What was broadcast -/

theorem mem_broadcasts_move {service service' : CanStreamService} {l : CanStreamService.Label}
    (hmove : CanStreamService.Move service l service') {frame : CanFrame}
    (hframe : frame ∈ service'.broadcasts) :
    frame ∈ service.broadcasts ∨ ∃ now, l = .broadcast frame now := by
  cases hmove with
  | broadcast frame' now hturn =>
    rcases List.mem_append.mp hframe with hold | hnew
    · exact Or.inl hold
    · rw [List.mem_singleton.mp hnew]
      exact Or.inr ⟨now, rfl⟩
  | stay hl => exact Or.inl hframe
  | shutdown hturn => exact Or.inl hframe
  | subscribe interface hturn => exact Or.inl hframe
  | proceed i ok c hc hstage => exact Or.inl hframe
  | leave i ok c hc hstage hturn => exact Or.inl hframe
  | wake i => exact Or.inl hframe
  | skip frame' now i rest hturn hwants => exact Or.inl hframe
  | push frame' now i rest c hturn hc hwants hlocked => exact Or.inl hframe
  | broadcastEnd frame' now hturn => exact Or.inl hframe
  | mark i rest hturn => exact Or.inl hframe
  | notify i rest hturn => exact Or.inl hframe
  | shutdownEnd marked hturn => exact Or.inl hframe

/-- Only the server's broadcasts add to them. -/
theorem mem_broadcasts_step {l : Label} {frame : CanFrame}
    (hframe : frame ∈ (s.step names l).service.broadcasts) :
    frame ∈ s.service.broadcasts ∨ ∃ now, l = .service (.broadcast frame now) := by
  cases l with
  | service l =>
    rcases mem_broadcasts_move (CanStreamService.move_step s.service l) hframe with
      hold | ⟨now, rfl⟩
    · exact Or.inl hold
    · exact Or.inr ⟨now, rfl⟩
  | accept i =>
    left
    rw [RemoteFrontEnd.step] at hframe
    cases hc : s.sockets[i]? with
    | none => rwa [hc] at hframe
    | some c =>
      rw [hc, Option.elim_some, RemoteFrontEnd.accept] at hframe
      split at hframe
      · rcases mem_broadcasts_move (CanStreamService.move_step s.service _) hframe with
          hold | ⟨now, hlabel⟩
        · exact hold
        · cases hlabel
      · exact hframe
  | reader i l =>
    left
    rw [RemoteFrontEnd.step] at hframe
    split at hframe
    · exact hframe
    · cases hc : s.sockets[i]? with
      | none => rwa [hc] at hframe
      | some c => rwa [hc] at hframe
  | read i now =>
    left
    rw [RemoteFrontEnd.step] at hframe
    cases hc : s.sockets[i]? with
    | none => rwa [hc] at hframe
    | some c =>
      rw [hc, Option.elim_some, RemoteFrontEnd.read] at hframe
      split at hframe
      · exact hframe
      · split at hframe <;> exact hframe
  | handle clock =>
    left
    rw [RemoteFrontEnd.step] at hframe
    split at hframe <;> exact hframe

theorem mem_broadcasts_run {ls : List Label} {frame : CanFrame}
    (hframe : frame ∈ (run (step names) (init names) ls).service.broadcasts) :
    ∃ now, .service (.broadcast frame now) ∈ ls := by
  induction ls using List.reverseRecOn with
  | nil => cases hframe
  | append_singleton ls l ih =>
    rw [run_append] at hframe
    rcases mem_broadcasts_step hframe with hold | ⟨now, rfl⟩
    · obtain ⟨now, hmem⟩ := ih hold
      exact ⟨now, List.mem_append_left _ hmem⟩
    · exact ⟨now, List.mem_append_right _ List.mem_cons_self⟩

end RemoteFrontEnd

/-! ### Rows without their times -/

def CanFrame.untimed (frame : CanFrame) : CanFrame := frame.setTimestamp 0

/-- Frames as they are received differ in their times at most, if their contents are the same. -/
theorem untimed_of_content {frame frame' : CanFrame} (hraw : frame.decoded = [] ∧ frame.msgName = "")
    (hraw' : frame'.decoded = [] ∧ frame'.msgName = "") (h : frame.content = frame'.content) :
    frame.untimed = frame'.untimed := by
  obtain ⟨⟨id, interface, dlc⟩, payload, decoded, msgName, timestamp⟩ := frame
  obtain ⟨⟨id', interface', dlc'⟩, payload', decoded', msgName', timestamp'⟩ := frame'
  simp only [CanFrame.content, FrameContent.mk.injEq, BitVec.toNat_inj] at h
  obtain ⟨rfl, rfl, rfl, rfl⟩ := h
  obtain ⟨rfl, rfl⟩ := hraw
  obtain ⟨rfl, rfl⟩ := hraw'
  rfl

theorem map_untimed_of_content {frames frames' : List CanFrame}
    (hraw : ∀ frame ∈ frames, frame.decoded = [] ∧ frame.msgName = "")
    (hraw' : ∀ frame ∈ frames', frame.decoded = [] ∧ frame.msgName = "")
    (h : frames.map CanFrame.content = frames'.map CanFrame.content) :
    frames.map CanFrame.untimed = frames'.map CanFrame.untimed := by
  induction frames generalizing frames' with
  | nil =>
    rw [List.map_nil, eq_comm, List.map_eq_nil_iff] at h
    rw [h]
  | cons frame frames ih =>
    cases frames' with
    | nil => cases h
    | cons frame' frames' =>
      obtain ⟨hfirst, hrest⟩ := List.cons.inj h
      rw [List.map_cons, List.map_cons, untimed_of_content (hraw frame List.mem_cons_self)
        (hraw' frame' List.mem_cons_self) hfirst]
      rw [ih (fun f hf => hraw f (List.mem_cons_of_mem _ hf))
        (fun f hf => hraw' f (List.mem_cons_of_mem _ hf)) hrest]

theorem untimed_storedOver (frame : CanFrame) (row : Option CanFrame) :
    (frame.storedOver row).untimed = frame.untimed.storedOver (row.map CanFrame.untimed) := by
  cases row with
  | none => rfl
  | some old =>
    simp only [CanFrame.storedOver, Option.map_some, CanFrame.mergedInto,
      DataFrameSet.foldl_addDecoded, CanFrame.untimed, CanFrame.setTimestamp]
    split
    · split <;> rfl
    · rfl

theorem untimed_decoded (env : ReceiveEnv pb) (frame : CanFrame) :
    (env.decoded frame).untimed = env.decoded frame.untimed := by
  have hheader : frame.untimed.header = frame.header := rfl
  simp only [ReceiveEnv.decoded, DecoderRegistry.decode, hheader]
  cases env.decoders.decoders frame.header.interface with
  | none => rfl
  | some decoder => exact (decoder.decode_setTimestamp env.casts frame 0).symm

/-- The rows of frames without times. -/
theorem untimed_rows (iface : String) (frames : List CanFrame) (id : BitVec 32) :
    ((({ interface := iface } : DataFrameSet).updates frames).frames id).map CanFrame.untimed =
      (({ interface := iface } : DataFrameSet).updates (frames.map CanFrame.untimed)).frames id := by
  rw [DataFrameSet.frames_updates, DataFrameSet.frames_updates, List.filter_map]
  have hsame : ((fun frame : CanFrame => decide (frame.header.id = id)) ∘ CanFrame.untimed) =
      fun frame => decide (frame.header.id = id) := rfl
  rw [hsame]
  suffices h : ∀ (given : List CanFrame) (row : Option CanFrame),
      (given.foldl DataFrameSet.nextRow row).map CanFrame.untimed =
        (given.map CanFrame.untimed).foldl DataFrameSet.nextRow (row.map CanFrame.untimed) from
    h _ none
  intro given
  induction given with
  | nil => exact fun row => rfl
  | cons frame given ih =>
    intro row
    rw [List.foldl_cons, ih, DataFrameSet.nextRow, Option.map_some, untimed_storedOver]
    rfl

/-! ### What the client shows -/

open CanStreamService RemoteFrontEnd in
/-- **A GUI that follows a server.** However the broadcasts, the calls and streams of the server, the
threads of the client's sockets (with their stops, and their new calls after a stream has ended) and
its io thread interleave: what the callback was given of an interface is, for one call after the other,
the beginning of what was broadcast since the call registered. So it is some of the frames that were
broadcast, each at most once and in their order; and the GUI shows, apart from the times, the rows
that its DBC makes of them. -/
theorem remote_gui_follows (env : ReceiveEnv pb) (engine : Option (ModelEngine Lua))
    {names : List String} (hnodup : names.Nodup) {ls : List RemoteFrontEnd.Label}
    (hraw : ∀ frame now, .service (.broadcast frame now) ∈ ls →
      frame.decoded = [] ∧ frame.msgName = "") :
    let s := run (step names) (init names) ls
    let gui := run (run_gui.onFrame env) (run_gui.start names engine {}) s.handled
    ∀ i (hi : i < names.length), names[i] ≠ "" →
      let got := (s.handled.filter fun incoming => incoming.socket = i).map (·.frame)
      (∃ c parts, s.sockets[i]? = some c ∧
        List.Forall₂ (Begins s.service names[i]) c.calls parts ∧
        got.map CanFrame.content <+: parts.flatten) ∧
      ∃ frames : List CanFrame, frames.Sublist (s.service.broadcasts.filter fun frame =>
          frame.header.interface = names[i]) ∧
        got.map CanFrame.content = frames.map CanFrame.content ∧
        ∀ set, gui.traces[i]? = some set → ∀ id,
          (set.frames id).map CanFrame.untimed =
            ((({ interface := names[i] } : DataFrameSet).updates
              (frames.map env.decoded)).frames id).map CanFrame.untimed := by
  intro s gui i hi hne got
  have hok : s.Ok names := ok_run names ls
  have hname : names.getD i "" = names[i] := by
    rw [List.getD_eq_getElem?_getD, List.getElem?_eq_getElem hi, Option.getD_some]
  obtain ⟨c, hc⟩ : ∃ c, s.sockets[i]? = some c :=
    ⟨_, List.getElem?_eq_getElem (by rw [hok.length]; exact hi)⟩
  obtain ⟨hfollows, hposted⟩ := hok.sockets i c hc
  rw [hname] at hfollows
  have hgot : got.map CanFrame.content <+: c.reader.posted.map CanFrame.content := by
    rw [← hposted, List.map_append]
    exact List.prefix_append _ _
  constructor
  · obtain ⟨parts, current, bound, hparts, hcurrent, hgiven, -⟩ := hfollows hne
    rw [hgiven] at hgot
    cases hcall : c.call with
    | none =>
      refine ⟨c, parts, hc, by simpa [RemoteSocket.calls, hcall] using hparts, ?_⟩
      cases hcurrent with
      | waiting => simpa using hgot
      | taken hcall' =>
        rw [hcall] at hcall'
        cases hcall'
    | some k =>
      refine ⟨c, parts ++ [current], hc, ?_, by simpa using hgot⟩
      rw [RemoteSocket.calls, hcall]
      exact List.rel_append hparts (.cons (hcurrent.begins hok.streams hne hcall).1 .nil)
  · have hsublist : (got.map CanFrame.content).Sublist (sentTo names[i] s.service.broadcasts) :=
      hgot.sublist.trans ((hfollows hne).posted_sublist hok.streams hne)
    obtain ⟨frames, hframes, hcontents⟩ := List.sublist_map_iff.mp hsublist
    refine ⟨frames, hframes, hcontents, ?_⟩
    intro set hset id
    have hshows := gui_shows env ⟨none, "", fun _ => ⟨0, 0, 0, 0, 0, 0⟩⟩ 0 0 false engine names
      s.handled
    have htraces : gui.traces = names.map (Reception.ofFrames env engine s.handled).rows :=
      hshows.traces
    rw [htraces, List.getElem?_map, List.getElem?_eq_getElem hi, Option.map_some] at hset
    cases hset
    have hrows : (Reception.ofFrames env engine s.handled).frames.filter
        (fun frame => frame.header.interface = names[i]) = got.map env.decoded := by
      rw [frames_ofFrames, List.filter_map]
      have hheader : ((fun frame : CanFrame => decide (frame.header.interface = names[i])) ∘
          fun incoming : Incoming => env.decoded incoming.frame) =
            fun incoming => decide (incoming.frame.header.interface = names[i]) := by
        funext incoming
        rw [Function.comp_apply, Reception.header_decoded]
      rw [hheader, ← filter_socket hnodup (fun incoming h => (hok.handled incoming h).1) hi,
        List.map_map]
      rfl
    have huntimed : got.map CanFrame.untimed = frames.map CanFrame.untimed := by
      have hgotRaw : ∀ frame ∈ got, frame.decoded = [] ∧ frame.msgName = "" := by
        intro frame hframe
        obtain ⟨incoming, hincoming, rfl⟩ := List.mem_map.mp hframe
        exact (hok.handled incoming (List.mem_of_mem_filter hincoming)).2
      have hframesRaw : ∀ frame ∈ frames, frame.decoded = [] ∧ frame.msgName = "" := by
        intro frame hframe
        obtain ⟨now, hmem⟩ := mem_broadcasts_run (List.mem_of_mem_filter (hframes.subset hframe))
        exact hraw frame now hmem
      exact map_untimed_of_content hgotRaw hframesRaw hcontents
    have hdecoded : ∀ l : List CanFrame, (l.map env.decoded).map CanFrame.untimed =
        (l.map CanFrame.untimed).map env.decoded := by
      intro l
      rw [List.map_map, List.map_map]
      exact List.map_congr_left fun frame _ => untimed_decoded env frame
    rw [Reception.rows, hrows, untimed_rows, untimed_rows, hdecoded, hdecoded, huntimed]

/-! ### A client that comes late -/

def lateFrame (byte : BitVec 8) : CanFrame where
  header := ⟨0x100, "vcan0", 1⟩
  payload := [byte]

/-- One frame is broadcast before the call, and one after it. -/
def lateClient : List RemoteFrontEnd.Label :=
  [.service (.broadcast (lateFrame 1) 0), .service .advance] ++
    List.replicate 4 (.reader 0 .reader) ++ [.accept 0] ++ List.replicate 2 (.reader 0 .reader) ++
    [.service (.broadcast (lateFrame 2) 0), .service .advance, .service .advance] ++
    List.replicate 5 (.service (.proceed 0 true)) ++ [.read 0 77, .handle fun _ => 0]

/-- It shows the second. -/
theorem remote_gui_follows_late :
    let s := run (RemoteFrontEnd.step ["vcan0"]) (RemoteFrontEnd.init ["vcan0"]) lateClient
    let gui := run (run_gui.onFrame crossingEnv)
      (run_gui.start ["vcan0"] (none : Option (ModelEngine Unit)) {}) s.handled
    s.handled.length = 1 ∧ ∀ set, gui.traces[0]? = some set →
      (set.frames 0x100).map CanFrame.untimed = some (lateFrame 2) := by
  intro s gui
  have hraw : ∀ frame now, .service (.broadcast frame now) ∈ lateClient →
      frame.decoded = [] ∧ frame.msgName = "" := by
    intro frame now hmem
    simp [lateClient] at hmem
    rcases hmem with ⟨rfl, -⟩ | ⟨rfl, -⟩ <;> exact ⟨rfl, rfl⟩
  have hlength : s.handled.length = 1 := by decide +kernel
  refine ⟨hlength, ?_⟩
  intro set hset
  have hnodup : ["vcan0"].Nodup := List.nodup_singleton _
  obtain ⟨-, frames, hframes, hcontents, hrows⟩ := remote_gui_follows crossingEnv
    (none : Option (ModelEngine Unit)) hnodup hraw 0 Nat.one_pos (by decide)
  have hgot : ((s.handled.filter fun incoming => incoming.socket = 0).map (·.frame)).map
      CanFrame.content = [(lateFrame 2).content] := by decide +kernel
  rw [hgot] at hcontents
  obtain ⟨frame, hsingle, hcontent⟩ := List.map_eq_singleton_iff.mp hcontents.symm
  rw [hsingle] at hframes hrows
  have hsent : (s.service.broadcasts.filter fun frame => frame.header.interface = "vcan0") =
      [lateFrame 1, lateFrame 2] := by decide +kernel
  have hmem := hframes.subset List.mem_cons_self
  rw [List.getElem_cons_zero, hsent] at hmem
  simp only [List.mem_cons, List.not_mem_nil, or_false] at hmem
  have hsecond : frame = lateFrame 2 := by
    rcases hmem with rfl | rfl
    · exact absurd hcontent (by decide)
    · rfl
  refine (hrows set hset 0x100).trans ?_
  rw [hsecond]
  decide +kernel

end Caneo
