import Caneo.GraphPreset
import Caneo.ModelOutputs
import Caneo.ReplayedContent

/-!
# One signal in all views

The value of a signal reaches the user and the model on four ways: the row of its message in the
GUI's window and in the TUI, the series of the graphs, and the store from which a script gets it. Each
keeps it in a way of its own. A row has the signals of the last frame that was decoded, found by the
id; a series the samples of one name, found by the id as well; and the store has a map under the name
of the message.

`BusSignal.current` is the value in the last frame that has one, and the views agree on it
(`signal_views_agree`). A row shows the last frame that has signals of the message: this value, or
nothing where that frame does not carry the signal, which a multiplexed signal can only be.
-/

namespace Caneo

open BitField Containers Runs

variable {pb : Protobuf} {Lua : Type}

/-! ### A signal on the bus -/

/-- A signal of the DBC of an interface, in which ids and names are distinct. -/
structure BusSignal (files : String → DbcFile) (cfgs : List InterfaceConfig) where
  iface : String
  network : INetwork
  msg : IMessage
  sig : ISignal
  networkOf_iface : networkOf files cfgs iface = some network
  distinct : network.Distinct
  msgNames : (network.messages.map (·.name)).Nodup
  msg_mem : msg ∈ network.messages
  sig_mem : sig ∈ msg.signals
  id_lt : msg.id.toNat < 2 ^ 32

namespace BusSignal

variable {files : String → DbcFile} {cfgs : List InterfaceConfig}

def msgId (x : BusSignal files cfgs) : BitVec 32 := x.msg.id.setWidth 32

def key (x : BusSignal files cfgs) : String × BitVec 32 × String := (x.iface, x.msgId, x.sig.name)

/-- The frame is of the signal's message. -/
def IsOf (x : BusSignal files cfgs) (frame : CanFrame) : Prop :=
  frame.header.interface = x.iface ∧ frame.header.id = x.msgId

instance (x : BusSignal files cfgs) (frame : CanFrame) : Decidable (x.IsOf frame) :=
  inferInstanceAs (Decidable (_ ∧ _))

/-- The physical value in a frame, if it has one. -/
def reading (casts : BitCasts) (x : BusSignal files cfgs) (frame : CanFrame) : Option ℚ :=
  if x.IsOf frame ∧ x.msg.messageSize ≤ frame.payload.length ∧
      DbcPppWrapper.skipped x.msg.muxSignal frame.payload x.sig = false then
    some (DbcPppWrapper.phys casts x.sig (x.sig.decode frame.payload))
  else none

/-- The value in the last frame that has one. -/
def current (casts : BitCasts) (x : BusSignal files cfgs) (frames : List CanFrame) : Option ℚ :=
  (frames.filterMap (x.reading casts)).getLast?

/-- The signals of the message that a frame carries. -/
def carried (x : BusSignal files cfgs) (frame : CanFrame) : List ISignal :=
  if x.IsOf frame ∧ x.msg.messageSize ≤ frame.payload.length then
    x.msg.signals.filter fun sig => !DbcPppWrapper.skipped x.msg.muxSignal frame.payload sig
  else []

/-- The last frame that carries signals of the message. -/
def latest (x : BusSignal files cfgs) (frames : List CanFrame) : Option CanFrame :=
  (frames.filter fun frame => !(x.carried frame).isEmpty).getLast?

/-- The signal is in every frame of its message. -/
def Plain (x : BusSignal files cfgs) : Prop := x.sig.multiplexerIndicator ≠ .MuxValue

section Frames

variable {casts : BitCasts} {x : BusSignal files cfgs} {frame : CanFrame}

theorem isOf_iff :
    x.IsOf frame ↔ frame.header.interface = x.iface ∧ frame.header.id.setWidth 64 = x.msg.id := by
  have hids : frame.header.id = x.msgId ↔ frame.header.id.setWidth 64 = x.msg.id := by
    simp only [msgId, ← BitVec.toNat_inj, BitVec.toNat_setWidth]
    have := frame.header.id.isLt
    have := x.id_lt
    omega
  rw [IsOf, hids]

@[simp] theorem reading_of_not_isOf (h : ¬x.IsOf frame) : x.reading casts frame = none := by
  simp [reading, h]

theorem current_append (frames : List CanFrame) (frame : CanFrame) :
    x.current casts (frames ++ [frame]) = (x.reading casts frame).or (x.current casts frames) := by
  cases h : x.reading casts frame with
  | none => simp [current, h]
  | some v => simp [current, h]

theorem isSome_reading_iff : (x.reading casts frame).isSome = true ↔ x.sig ∈ x.carried frame := by
  by_cases hof : x.IsOf frame ∧ x.msg.messageSize ≤ frame.payload.length
  · simp [reading, carried, hof, x.sig_mem]
  · rw [reading, if_neg fun h => hof ⟨h.1, h.2.1⟩, carried, if_neg hof]
    simp

theorem carried_sublist (x : BusSignal files cfgs) : (x.carried frame).Sublist x.msg.signals := by
  unfold carried
  split
  · exact List.filter_sublist
  · exact List.nil_sublist _

/-- A frame without signals of the message has no value. -/
theorem reading_of_carried_eq_nil (h : x.carried frame = []) : x.reading casts frame = none := by
  rw [← Option.not_isSome_iff_eq_none, isSome_reading_iff, h]
  exact List.not_mem_nil

/-- With the other signals comes one that is not multiplexed. -/
theorem isSome_reading (casts : BitCasts) (hplain : x.Plain) (h : x.carried frame ≠ []) :
    (x.reading casts frame).isSome = true := by
  rw [isSome_reading_iff]
  by_cases hof : x.IsOf frame ∧ x.msg.messageSize ≤ frame.payload.length
  · have hmux : x.sig.multiplexerIndicator ≠ .MuxValue := hplain
    simp [carried, hof, x.sig_mem, DbcPppWrapper.skipped, hmux]
  · exact absurd (if_neg hof) h

theorem latest_append (frames : List CanFrame) (frame : CanFrame) :
    x.latest (frames ++ [frame]) = if x.carried frame = [] then x.latest frames else some frame := by
  by_cases h : x.carried frame = []
  · simp [latest, h]
  · simp [latest, h]

/-- What the last frame with signals has of this one is its last value, or nothing. -/
theorem latest_reading (casts : BitCasts) (x : BusSignal files cfgs) (frames : List CanFrame) :
    ((x.latest frames).bind (x.reading casts) = none ∨
        (x.latest frames).bind (x.reading casts) = x.current casts frames) ∧
      (x.Plain → (x.latest frames).bind (x.reading casts) = x.current casts frames) := by
  induction frames using List.reverseRecOn with
  | nil => exact ⟨Or.inl rfl, fun _ => rfl⟩
  | append_singleton frames frame ih =>
    rw [latest_append, current_append]
    by_cases hcarried : x.carried frame = []
    · rw [if_pos hcarried, reading_of_carried_eq_nil hcarried]
      exact ih
    · rw [if_neg hcarried, Option.bind_some]
      constructor
      · cases x.reading casts frame with
        | none => exact Or.inl rfl
        | some v => exact Or.inr rfl
      · intro hplain
        obtain ⟨v, hv⟩ := Option.isSome_iff_exists.mp (isSome_reading casts hplain hcarried)
        rw [hv]
        rfl

/-- What was read last is read in the end. -/
theorem current_of_later {earlier later : List CanFrame}
    (h : later.filterMap (x.reading casts) ≠ []) :
    x.current casts (earlier ++ later) = (later.filterMap (x.reading casts)).getLast? := by
  rw [current, List.filterMap_append, List.getLast?_append]
  cases hlast : (later.filterMap (x.reading casts)).getLast? with
  | none => exact absurd (List.getLast?_eq_none_iff.mp hlast) h
  | some v => rfl

end Frames

/-! ### Decoded frames -/

section Decoded

variable {casts : BitCasts} {grpcServer : Bool} {env : ReceiveEnv pb} {x : BusSignal files cfgs}
  {frame : CanFrame}

/-- The decoded signals of a frame of the message. -/
theorem decoded_of_isOf (henv : ReceiveEnv.ofConfig casts files grpcServer cfgs = .ok env)
    (hraw : frame.decoded = []) (hof : x.IsOf frame) :
    (env.decoded frame).decoded =
      (x.carried frame).map (DbcPppWrapper.decodedSignal casts frame.payload) := by
  obtain ⟨hiface, hid⟩ := isOf_iff.mp hof
  rw [decoded_of_message henv x.networkOf_iface x.distinct.ids x.msg_mem hiface hid]
  by_cases hlen : frame.payload.length < x.msg.messageSize
  · simp [carried, hlen, Nat.not_le.mpr hlen, hraw]
  · simp [carried, hlen, Nat.le_of_not_lt hlen, hof, DbcPppWrapper.decoded_decodeMessage, hraw]

/-- The value of the signal's name in a decoded frame. -/
theorem find?_decoded (henv : ReceiveEnv.ofConfig casts files grpcServer cfgs = .ok env)
    (hraw : frame.decoded = []) (hof : x.IsOf frame) :
    ((env.decoded frame).decoded.find? fun s => s.name = x.sig.name).map (·.value) =
      x.reading casts frame := by
  rw [decoded_of_isOf henv hraw hof, reading, carried]
  by_cases hlen : frame.payload.length < x.msg.messageSize
  · simp [Nat.not_le.mpr hlen]
  · rw [if_pos ⟨hof, Nat.le_of_not_lt hlen⟩,
      find?_decodedSignal (x.distinct.names x.msg x.msg_mem) x.sig_mem]
    by_cases hskip : DbcPppWrapper.skipped x.msg.muxSignal frame.payload x.sig = true
    · simp [hskip]
    · simp [hskip, hof, Nat.le_of_not_lt hlen, DbcPppWrapper.decodedSignal]

end Decoded

/-! ### The rows -/

/-- What a row shows of a signal. -/
def shown (x : BusSignal files cfgs) (set : DataFrameSet) : Option ℚ :=
  (set.frames x.msgId).bind fun row =>
    (row.decoded.find? fun s => s.name = x.sig.name).map (·.value)

/-- A view that has what the last frame with signals of the message has of this one. That is the
signal's last value, or nothing; and the value, if the signal is not multiplexed. -/
structure Agrees (casts : BitCasts) (x : BusSignal files cfgs) (frames : List CanFrame)
    (view : Option ℚ) : Prop where
  latest : view = (x.latest frames).bind (x.reading casts)
  current : view = none ∨ view = x.current casts frames
  plain : x.Plain → view = x.current casts frames

theorem Agrees.of_latest {casts : BitCasts} {x : BusSignal files cfgs} {frames : List CanFrame}
    {view : Option ℚ} (h : view = (x.latest frames).bind (x.reading casts)) :
    x.Agrees casts frames view := by
  subst h
  exact ⟨rfl, (latest_reading casts x frames).1, (latest_reading casts x frames).2⟩

section Rows

variable {casts : BitCasts} {grpcServer : Bool} {env : ReceiveEnv pb} {x : BusSignal files cfgs}

theorem shown_update (set : DataFrameSet) (frame : CanFrame) :
    x.shown (set.update frame) =
      if frame.header.id = x.msgId ∧ frame.decoded ≠ [] then
        (frame.decoded.find? fun s => s.name = x.sig.name).map (·.value)
      else x.shown set := by
  rw [shown, DataFrameSet.frames_update]
  by_cases hid : frame.header.id = x.msgId
  · simp only [hid, if_true, true_and, DataFrameSet.nextRow, Option.bind_some,
      DataFrameSet.decoded_storedOver]
    cases hdecoded : frame.decoded with
    | nil =>
      cases hrow : set.frames x.msgId with
      | none => simp [shown, hrow]
      | some row => simp [shown, hrow]
    | cons s rest => simp
  · simp [hid, shown]

/-- One frame: the row shows it, if it carries signals. -/
theorem shown_update_decoded (henv : ReceiveEnv.ofConfig casts files grpcServer cfgs = .ok env)
    {set : DataFrameSet} {frames : List CanFrame} {frame : CanFrame} (hraw : frame.decoded = [])
    (hiface : frame.header.interface = x.iface)
    (h : x.shown set = (x.latest frames).bind (x.reading casts)) :
    x.shown (set.update (env.decoded frame)) =
      (x.latest (frames ++ [frame])).bind (x.reading casts) := by
  obtain ⟨hheader, -, -⟩ := decoded_eq env frame
  rw [shown_update, hheader, latest_append]
  by_cases hid : frame.header.id = x.msgId
  · have hof : x.IsOf frame := ⟨hiface, hid⟩
    have hdecoded := decoded_of_isOf henv hraw hof
    by_cases hcarried : x.carried frame = []
    · simpa [hdecoded, hcarried] using h
    · have hsome : (env.decoded frame).decoded ≠ [] := by simpa [hdecoded] using hcarried
      rw [if_pos ⟨hid, hsome⟩, if_neg hcarried, find?_decoded henv hraw hof, Option.bind_some]
  · have hother : x.carried frame = [] := if_neg fun hof => hid hof.1.2
    simpa [hid, hother] using h

/-- All frames: the row shows the last that carries signals. -/
theorem shown_rows (henv : ReceiveEnv.ofConfig casts files grpcServer cfgs = .ok env)
    (engine : Option (ModelEngine Lua)) {incomings : List Incoming}
    (hraw : ∀ incoming ∈ incomings, incoming.frame.decoded = []) :
    x.shown ((Reception.ofFrames env engine incomings).rows x.iface) =
      (x.latest (incomings.map (·.frame))).bind (x.reading casts) := by
  induction incomings using List.reverseRecOn with
  | nil => rfl
  | append_singleton incomings incoming ih =>
    have hbefore := ih fun incoming' h => hraw incoming' (List.mem_append_left _ h)
    have hlast := hraw incoming (List.mem_append_right _ List.mem_cons_self)
    have hrows : (Reception.ofFrames env engine (incomings ++ [incoming])).rows x.iface =
        if incoming.frame.header.interface = x.iface then
          ((Reception.ofFrames env engine incomings).rows x.iface).update
            (env.decoded incoming.frame)
        else (Reception.ofFrames env engine incomings).rows x.iface := by
      rw [Reception.ofFrames, run_append]
      exact Reception.rows_onFrame x.iface
    rw [hrows, List.map_append, List.map_singleton]
    by_cases hiface : incoming.frame.header.interface = x.iface
    · rw [if_pos hiface]
      exact shown_update_decoded henv hlast hiface hbefore
    · have hother : x.carried incoming.frame = [] := if_neg fun hof => hiface hof.1.1
      rw [if_neg hiface, latest_append, if_pos hother]
      exact hbefore

end Rows

/-! ### The store of the model -/

/-- The names of the DBCs are identifiers. -/
def AllIdentifiers (files : String → DbcFile) (cfgs : List InterfaceConfig) : Prop :=
  ∀ iface network, networkOf files cfgs iface = some network → network.Identifiers

/-- A frame as a socket delivers it, on an interface whose name has no slash. -/
structure IsRaw (frame : CanFrame) : Prop where
  decoded : frame.decoded = []
  msgName : frame.msgName = ""
  interface : '/' ∉ frame.header.interface.toList

section Store

variable {casts : BitCasts} {grpcServer : Bool} {env : ReceiveEnv pb} {x : BusSignal files cfgs}
  {frame : CanFrame}

/-- A frame stays as it is, or has the name and the signals of a message. -/
theorem decoded_cases (henv : ReceiveEnv.ofConfig casts files grpcServer cfgs = .ok env)
    (frame : CanFrame) :
    env.decoded frame = frame ∨
      ∃ network msg, networkOf files cfgs frame.header.interface = some network ∧
        msg ∈ network.messages ∧ frame.header.id.setWidth 64 = msg.id ∧
        msg.messageSize ≤ frame.payload.length ∧
        env.decoded frame = DbcPppWrapper.decodeMessage casts msg frame := by
  simp only [ReceiveEnv.decoded, DecoderRegistry.decode, decoders_apply henv, casts_ofConfig henv]
  cases hnetwork : networkOf files cfgs frame.header.interface with
  | none => exact Or.inl rfl
  | some network =>
    simp only [Option.map_some, DbcPppWrapper.decode, DbcPppWrapper.messages_ofNetwork]
    cases hfind : network.messages.find? fun msg => msg.id = frame.header.id.setWidth 64 with
    | none => exact Or.inl rfl
    | some msg =>
      have hid := List.find?_some hfind
      have hmem := List.mem_of_find?_eq_some hfind
      by_cases hlen : frame.payload.length < msg.messageSize
      · simp [hlen]
      · right
        refine ⟨network, msg, rfl, hmem, (of_decide_eq_true hid).symm, Nat.le_of_not_lt hlen, ?_⟩
        simp [hlen]

theorem slash_notMem_of_isIdentifier {name : String} (h : IsIdentifier name) :
    '/' ∉ name.toList := by
  obtain ⟨c, rest, hname, -, hchars⟩ := h
  rw [hname]
  intro hslash
  exact absurd (hchars '/' hslash) (by decide)

theorem plainNames_decoded (henv : ReceiveEnv.ofConfig casts files grpcServer cfgs = .ok env)
    (hnames : AllIdentifiers files cfgs) (hraw : IsRaw frame) :
    SignalStore.PlainNames (env.decoded frame) := by
  rcases decoded_cases henv frame with hsame | ⟨network, msg, hnetwork, hmsg, -, -, hdecoded⟩
  · rw [hsame]
    refine ⟨hraw.interface, by simp [hraw.msgName], ?_⟩
    simp [hraw.decoded]
  · obtain ⟨hmsgName, hsigNames⟩ := hnames _ network hnetwork msg hmsg
    obtain ⟨hheader, hname⟩ := DbcPppWrapper.header_decodeMessage casts msg frame
    rw [hdecoded]
    refine ⟨by rw [hheader]; exact hraw.interface, ?_, ?_⟩
    · rw [hname]
      exact slash_notMem_of_isIdentifier hmsgName
    · intro s hs
      rw [DbcPppWrapper.decoded_decodeMessage, hraw.decoded, List.nil_append] at hs
      obtain ⟨sig, hsig, rfl⟩ := List.mem_map.mp hs
      exact slash_notMem_of_isIdentifier (hsigNames sig (List.mem_of_mem_filter hsig))

/-- Only a frame of the message has the signal under the message's name. -/
theorem isOf_of_contains (henv : ReceiveEnv.ofConfig casts files grpcServer cfgs = .ok env)
    (hraw : IsRaw frame)
    (h : SignalStore.Contains x.iface x.msg.name x.sig.name (env.decoded frame) = true) :
    x.IsOf frame := by
  simp only [SignalStore.Contains, Bool.and_eq_true, decide_eq_true_eq, List.any_eq_true] at h
  obtain ⟨⟨hiface, hname⟩, s, hs, -⟩ := h
  obtain ⟨hheader, -, -⟩ := decoded_eq env frame
  rw [hheader] at hiface
  rcases decoded_cases henv frame with hsame | ⟨network, msg, hnetwork, hmsg, hid, -, hdecoded⟩
  · rw [hsame, hraw.decoded] at hs
    cases hs
  · rw [hiface, x.networkOf_iface] at hnetwork
    cases hnetwork
    rw [hdecoded, (DbcPppWrapper.header_decodeMessage casts msg frame).2] at hname
    have hsame : msg = x.msg := List.inj_on_of_nodup_map x.msgNames hmsg x.msg_mem hname
    rw [hsame] at hid
    exact isOf_iff.mpr ⟨hiface, hid⟩

/-- What a lookup of the last, and of the first, of distinct keys finds. -/
theorem find?_reverse_of_nodup {α K : Type} [DecidableEq K] (key : α → K) {l : List α}
    (hnodup : (l.map key).Nodup) (k : K) :
    (l.reverse.find? fun a => key a = k) = l.find? fun a => key a = k := by
  cases hfind : l.find? fun a => key a = k with
  | none => simpa using hfind
  | some a =>
    have hkey : key a = k := by simpa using List.find?_some hfind
    rw [← hkey]
    apply find?_key_of_nodup key
    · rw [List.map_reverse]
      exact List.nodup_reverse.mpr hnodup
    · exact List.mem_reverse.mpr (List.mem_of_find?_eq_some hfind)

theorem lastValue_decoded (henv : ReceiveEnv.ofConfig casts files grpcServer cfgs = .ok env)
    (hraw : IsRaw frame) (hof : x.IsOf frame) :
    SignalStore.lastValue x.sig.name (env.decoded frame) = x.reading casts frame := by
  rw [← find?_decoded henv hraw.decoded hof, SignalStore.lastValue]
  refine congrArg (Option.map DecodedSignal.value)
    (find?_reverse_of_nodup DecodedSignal.name ?_ x.sig.name)
  rw [decoded_of_isOf henv hraw.decoded hof, List.map_map]
  exact (x.distinct.names x.msg x.msg_mem).sublist (x.carried_sublist.map _)

/-- One frame: the store takes over what it has of the signal. -/
theorem get_update (henv : ReceiveEnv.ofConfig casts files grpcServer cfgs = .ok env)
    (hnames : AllIdentifiers files cfgs) (hraw : IsRaw frame) (store : SignalStore) :
    (store.update (env.decoded frame)).get x.iface x.msg.name x.sig.name =
      (x.reading casts frame).or (store.get x.iface x.msg.name x.sig.name) := by
  rw [SignalStore.get_update store (plainNames_decoded henv hnames hraw)]
  by_cases hcontains : SignalStore.Contains x.iface x.msg.name x.sig.name (env.decoded frame) = true
  · have hof := isOf_of_contains henv hraw hcontains
    rw [if_pos hcontains, lastValue_decoded henv hraw hof]
    have hsome : (x.reading casts frame).isSome = true := by
      simp only [SignalStore.Contains, Bool.and_eq_true, List.any_eq_true] at hcontains
      rw [← find?_decoded henv hraw.decoded hof, Option.isSome_map, List.find?_isSome]
      exact hcontains.2
    obtain ⟨v, hv⟩ := Option.isSome_iff_exists.mp hsome
    rw [hv]
    rfl
  · rw [if_neg hcontains]
    have hnone : x.reading casts frame = none := by
      by_contra hread
      obtain ⟨v, hv⟩ := Option.ne_none_iff_exists'.mp hread
      have hof : x.IsOf frame := by
        by_contra hother
        rw [reading_of_not_isOf hother] at hv
        cases hv
      have hfound := find?_decoded henv hraw.decoded hof
      rw [hv, Option.map_eq_some_iff] at hfound
      obtain ⟨s, hs, -⟩ := hfound
      apply hcontains
      obtain ⟨hheader, -, -⟩ := decoded_eq env frame
      have hlen : ¬ frame.payload.length < x.msg.messageSize := by
        intro hshort
        have hnone : x.carried frame = [] := if_neg fun h => Nat.not_le.mpr hshort h.2
        rw [decoded_of_isOf henv hraw.decoded hof, hnone] at hs
        cases hs
      have hname : (env.decoded frame).msgName = x.msg.name := by
        obtain ⟨hiface, hid⟩ := isOf_iff.mp hof
        rw [decoded_of_message henv x.networkOf_iface x.distinct.ids x.msg_mem hiface hid,
          if_neg hlen, (DbcPppWrapper.header_decodeMessage casts x.msg frame).2]
      have hany : ((env.decoded frame).decoded.any fun s => s.name = x.sig.name) = true :=
        List.any_eq_true.mpr ⟨s, List.mem_of_find?_eq_some hs, by simpa using List.find?_some hs⟩
      simp [SignalStore.Contains, hheader, hof.1, hname, hany]
    rw [hnone]
    rfl

/-- All frames: a script gets the value in the last frame that has one. -/
theorem get_engine (henv : ReceiveEnv.ofConfig casts files grpcServer cfgs = .ok env)
    (hnames : AllIdentifiers files cfgs) (script : ModelScript Lua) (lua : Lua)
    {incomings : List Incoming} (hraw : ∀ incoming ∈ incomings, IsRaw incoming.frame) :
    ∃ engine, (Reception.ofFrames env (some { script := script, lua := lua }) incomings).engine =
        some engine ∧
      engine.store.get x.iface x.msg.name x.sig.name =
        x.current casts (incomings.map (·.frame)) := by
  induction incomings using List.reverseRecOn with
  | nil => exact ⟨_, rfl, rfl⟩
  | append_singleton incomings incoming ih =>
    obtain ⟨engine, hengine, hget⟩ :=
      ih fun incoming' h => hraw incoming' (List.mem_append_left _ h)
    have hlast := hraw incoming (List.mem_append_right _ List.mem_cons_self)
    refine ⟨(engine.run (env.decoded incoming.frame)).1, ?_, ?_⟩
    · rw [Reception.ofFrames, run_append]
      change (runModel (Reception.ofFrames env _ incomings).engine _).1 = _
      rw [hengine]
      rfl
    · rw [List.map_append, List.map_singleton, current_append, ← hget]
      exact get_update henv hnames hlast engine.store

end Store

/-! ### The series -/

section Series

variable {casts : BitCasts} {grpcServer : Bool} {env : ReceiveEnv pb} {x : BusSignal files cfgs}

/-- What the graph window has for the series of the signal: the values of the frames. -/
theorem delivered_opsFrom (henv : ReceiveEnv.ofConfig casts files grpcServer cfgs = .ok env)
    (hmodel : x.iface ≠ ModelWindow.IFACE) (start : Int) (ls : List GuiViews.Label)
    (engine : Option (ModelEngine Lua))
    (huser : ∀ op, GuiViews.Label.user op ∈ ls → op.isUser = true)
    (hraw : ∀ incoming ∈ incomingsOf ls, incoming.frame.decoded = []) :
    ((opsFrom env engine ls).flatMap (GraphOp.delivered start x.key)).map Prod.snd =
      (incomingsOf ls).filterMap fun incoming => x.reading casts incoming.frame := by
  induction ls generalizing engine with
  | nil => rfl
  | cons l ls ih =>
    have huser' : ∀ op, GuiViews.Label.user op ∈ ls → op.isUser = true :=
      fun op hop => huser op (List.mem_cons_of_mem _ hop)
    cases l with
    | user op =>
      have hnone : GraphOp.delivered start x.key op = [] := by
        have hop := huser op List.mem_cons_self
        cases op <;> first | rfl | cases hop
      rw [opsFrom, List.flatMap_cons, hnone, List.nil_append, ih _ huser' hraw]
      rfl
    | frame incoming plotClock =>
      have hrest := ih (runModel engine (env.decoded incoming.frame)).1 huser'
        fun incoming' hincoming' => hraw incoming' (List.mem_cons_of_mem _ hincoming')
      have hframe : (GraphOp.delivered start x.key (.update (env.decoded incoming.frame))).map
          Prod.snd = (x.reading casts incoming.frame).toList := by
        obtain ⟨hheader, -, -⟩ := decoded_eq env incoming.frame
        by_cases hof : x.IsOf incoming.frame
        · rw [← find?_decoded henv (hraw incoming List.mem_cons_self) hof]
          have hfits : (env.decoded incoming.frame).header.interface = x.key.1 ∧
              (env.decoded incoming.frame).header.id = x.key.2.1 := by
            rw [hheader]
            exact hof
          rw [GraphOp.delivered, if_pos hfits]
          change List.map Prod.snd (((env.decoded incoming.frame).decoded.find? fun s =>
            s.name = x.sig.name).map _).toList = _
          cases (env.decoded incoming.frame).decoded.find? fun s => s.name = x.sig.name with
          | none => rfl
          | some s => rfl
        · have hother : ¬((env.decoded incoming.frame).header.interface = x.key.1 ∧
              (env.decoded incoming.frame).header.id = x.key.2.1) := by
            rw [hheader]
            exact hof
          rw [GraphOp.delivered, if_neg hother, reading_of_not_isOf hof]
          rfl
      have hpushes : ∀ outputs : List (String × ℚ), (outputs.map fun output =>
          GraphOp.pushValue ModelWindow.IFACE output.1 output.2 (plotClock output.1)).flatMap
            (GraphOp.delivered start x.key) = [] := by
        intro outputs
        simp [List.flatMap_map, GraphOp.delivered, key, Ne.symm hmodel]
      have hincomings : incomingsOf (.frame incoming plotClock :: ls) = incoming :: incomingsOf ls :=
        rfl
      rw [opsFrom, List.cons_append, List.flatMap_cons, List.flatMap_append, hpushes,
        List.nil_append, List.map_append, hframe, hrest, hincomings, List.filterMap_cons]
      cases x.reading casts incoming.frame with
      | none => rfl
      | some v => rfl

end Series

end BusSignal

/-! ### All views -/

theorem tui_run_tuiViews (env : ReceiveEnv pb) (s : TuiViews Lua) (incomings : List Incoming) :
    (run (TuiViews.onFrame env) s incomings).tui = run (run_tui.onFrame env) s.tui incomings := by
  induction incomings generalizing s with
  | nil => rfl
  | cons incoming incomings ih => exact ih (s.onFrame env incoming)

theorem getLast?_rtake {α : Type} (l : List α) {n : Nat} (hn : 0 < n) :
    (l.rtake n).getLast? = l.getLast? := by
  obtain rfl | ⟨front, last, rfl⟩ := l.eq_nil_or_concat'
  · simp [List.rtake]
  · obtain ⟨m, rfl⟩ := Nat.exists_eq_succ_of_ne_zero hn.ne'
    rw [List.rtake_concat_succ]
    simp

section Views

variable {casts : BitCasts} {files : String → DbcFile} {grpcServer : Bool}
  {cfgs : List InterfaceConfig} {env : ReceiveEnv pb}

/-- A series of the signal has been added by the user, and has what was read since then. -/
theorem BusSignal.ys_series (henv : ReceiveEnv.ofConfig casts files grpcServer cfgs = .ok env)
    {x : BusSignal files cfgs} (hmodel : x.iface ≠ ModelWindow.IFACE) (now : Int)
    (engine : Option (ModelEngine Lua)) {ls : List GuiViews.Label}
    (huser : ∀ op, GuiViews.Label.user op ∈ ls → op.isUser = true)
    (hdecoded : ∀ incoming ∈ incomingsOf ls, incoming.frame.decoded = []) {ti : Nat}
    {s : SignalSeries}
    (hs : s ∈ (run GraphMenu.step { window := { start := now } } (opsFrom env engine ls)).series ti)
    (hkey : s.key = x.key) :
    ∃ ls₁ yMin yMax yAxis label ls₂,
      ls = ls₁ ++ .user (.addSignal ti x.iface x.msgId x.sig.name yMin yMax yAxis label) :: ls₂ ∧
      s.ys = ((incomingsOf ls₂).filterMap fun incoming =>
        x.reading casts incoming.frame).rtake 10000 := by
  obtain ⟨ls₁, yMin, yMax, yAxis, label, ls₂, rfl, hys⟩ := exists_addSignal env now engine hs
  have hvalues := BusSignal.delivered_opsFrom henv hmodel now ls₂
    (engineAfter env engine (incomingsOf ls₁))
    (fun op hop => huser op (List.mem_append_right _ (List.mem_cons_of_mem _ hop)))
    (fun incoming hincoming => hdecoded incoming
      (by rw [incomingsOf_user]; exact List.mem_append_right _ hincoming))
  obtain ⟨hiface, hid, hname⟩ :
      s.interface = x.iface ∧ s.msgId = x.msgId ∧ s.signalName = x.sig.name := by
    simpa [SignalSeries.key, BusSignal.key] using hkey
  refine ⟨ls₁, yMin, yMax, yAxis, label, ls₂, ?_, ?_⟩
  · rw [hiface, hid, hname]
  · rw [hys, hkey, hvalues]

/-- **One value in all views.** In every run of a GUI and of a TUI with the same frames, whatever the
user does with the graphs in between, and for every signal of a DBC: a script gets the physical value
in the last frame that has one, or nothing. The row of the message, in the GUI and in the TUI, shows
what the last frame with signals of the message has of this one: this value, or nothing where that
frame does not carry it, and always this value if the signal is not multiplexed. A series of the
signal holds the last 10000 values since it was added, and ends with this value if it has any. -/
theorem signal_views_agree (henv : ReceiveEnv.ofConfig casts files grpcServer cfgs = .ok env)
    (hnames : BusSignal.AllIdentifiers files cfgs) (x : BusSignal files cfgs)
    (hmodel : x.iface ≠ ModelWindow.IFACE) (logEnv : LogEnv) (now steadyNow : Int) (logMode : Bool)
    (script : ModelScript Lua) (lua : Lua) (names : List String) {ls : List GuiViews.Label}
    (huser : ∀ op, GuiViews.Label.user op ∈ ls → op.isUser = true)
    (hraw : ∀ incoming ∈ incomingsOf ls, BusSignal.IsRaw incoming.frame) :
    let engine : Option (ModelEngine Lua) := some { script := script, lua := lua }
    let controller := LogController.ofMode logEnv now steadyNow logMode
    let views := run (GuiViews.step env) (GuiViews.start names engine controller now) ls
    let tui := run (TuiViews.onFrame env) (TuiViews.start engine logMode) (incomingsOf ls)
    let frames := (incomingsOf ls).map (·.frame)
    let current := x.current casts frames
    (∀ engine ∈ [views.gui.engine, tui.tui.engine],
        (engine.map fun e => e.store.get x.iface x.msg.name x.sig.name) = some current) ∧
      (∀ set ∈ views.gui.traces, set.interface = x.iface → x.Agrees casts frames (x.shown set)) ∧
      x.Agrees casts frames ((tui.tui.sets x.iface).bind x.shown) ∧
      ∀ ti, ∀ s ∈ views.graphs.series ti, s.key = x.key →
        (s.ys ≠ [] → s.ys.getLast? = current) ∧
          ∃ ls₁ yMin yMax yAxis label ls₂,
            ls = ls₁ ++ .user (.addSignal ti x.iface x.msgId x.sig.name yMin yMax yAxis label) :: ls₂ ∧
            s.ys = ((incomingsOf ls₂).filterMap fun incoming =>
              x.reading casts incoming.frame).rtake 10000 := by
  intro engine controller views tui frames current
  have hdecoded : ∀ incoming ∈ incomingsOf ls, incoming.frame.decoded = [] :=
    fun incoming hincoming => (hraw incoming hincoming).decoded
  have hviews : views = _ := run_views env _ ls
  have hgui : views.gui.Shows env names logMode
      (Reception.ofFrames env engine (incomingsOf ls)) := by
    rw [hviews]
    exact gui_shows env logEnv now steadyNow logMode engine names (incomingsOf ls)
  have htui : tui.tui.Shows env logMode (Reception.ofFrames env engine (incomingsOf ls)) := by
    have hrun : tui.tui = run (run_tui.onFrame env) (run_tui.start engine logMode)
        (incomingsOf ls) := tui_run_tuiViews env _ _
    rw [hrun]
    exact tui_shows env logMode engine (incomingsOf ls)
  have hrows : x.Agrees casts frames
      (x.shown ((Reception.ofFrames env engine (incomingsOf ls)).rows x.iface)) :=
    .of_latest (BusSignal.shown_rows henv engine hdecoded)
  refine ⟨?_, ?_, ?_, ?_⟩
  · obtain ⟨final, hfinal, hget⟩ := BusSignal.get_engine henv hnames script lua hraw
    intro engine' hengine'
    have hsame : engine' = some final := by
      simp only [List.mem_cons, List.not_mem_nil, or_false] at hengine'
      rcases hengine' with rfl | rfl
      · exact hgui.engine.trans hfinal
      · exact htui.engine.trans hfinal
    rw [hsame, Option.map_some, hget]
  · intro set hset hiface
    rw [hgui.traces] at hset
    obtain ⟨name, -, rfl⟩ := List.mem_map.mp hset
    rw [Reception.interface_rows] at hiface
    rw [hiface]
    exact hrows
  · rw [htui.sets]
    split
    · exact hrows
    · next hnone =>
      -- Without frames of the interface none carries signals of the message.
      have hempty : x.latest frames = none := by
        rw [BusSignal.latest, List.getLast?_eq_none_iff, List.filter_eq_nil_iff]
        intro frame hframe hcarried
        obtain ⟨incoming, hincoming, rfl⟩ := List.mem_map.mp hframe
        apply hnone
        rw [List.any_eq_true]
        refine ⟨env.decoded incoming.frame, ?_, ?_⟩
        · rw [frames_ofFrames]
          exact List.mem_map_of_mem hincoming
        · rw [Reception.header_decoded]
          by_contra hiface
          have hother : x.carried incoming.frame = [] :=
            if_neg fun hof => hiface (decide_eq_true hof.1.1)
          simp [hother] at hcarried
      apply BusSignal.Agrees.of_latest
      rw [hempty]
      rfl
  · intro ti s hs hkey
    rw [hviews] at hs
    obtain ⟨ls₁, yMin, yMax, yAxis, label, ls₂, rfl, hys⟩ :=
      BusSignal.ys_series henv hmodel now engine huser hdecoded hs hkey
    refine ⟨?_, ls₁, yMin, yMax, yAxis, label, ls₂, rfl, hys⟩
    intro hsome
    have hread : ((incomingsOf ls₂).map (·.frame)).filterMap (x.reading casts) ≠ [] := by
      rw [List.filterMap_map]
      intro hnil
      have hread : ((incomingsOf ls₂).filterMap fun incoming =>
          x.reading casts incoming.frame) = [] := hnil
      exact hsome (by rw [hys, hread, List.rtake_nil])
    rw [hys, getLast?_rtake _ (by decide)]
    simp only [current, frames, incomingsOf_user, List.map_append]
    rw [BusSignal.current_of_later hread, List.filterMap_map]
    rfl

end Views

theorem status_identifiers : (statusNetwork "Speed").Identifiers := by
  intro msg hmsg
  cases List.mem_singleton.mp hmsg
  refine ⟨isIdentifier_of_all rfl rfl (by decide +kernel), ?_⟩
  intro sig hsig
  cases List.mem_singleton.mp hsig
  exact isIdentifier_of_all rfl rfl (by decide +kernel)

/-- The speed, which is in every frame. -/
def speed : BusSignal speedFiles speedCfgs where
  iface := "vcan0"
  network := statusNetwork "Speed"
  msg := statusMessage "Speed"
  sig := (statusMessage "Speed").signals.head (by decide)
  networkOf_iface := rfl
  distinct := speed_distinct
  msgNames := List.nodup_singleton _
  msg_mem := List.mem_singleton.mpr rfl
  sig_mem := List.mem_singleton.mpr rfl
  id_lt := by decide

/-- The speed is added to a graph between its two frames. -/
def speedRun : List GuiViews.Label :=
  [.frame ⟨0, speedFrame 7 5000000000, fun _ => 0⟩ fun _ => 0, .user (.addGraph ""),
    .user (.addSignal 0 "vcan0" 0x100 "Speed" 0 255 0 ""),
    .frame ⟨0, speedFrame 9 6000000000, fun _ => 0⟩ fun _ => 0]

theorem signal_views_agree_speed :
    ∃ env : ReceiveEnv Protobuf.wire,
      ReceiveEnv.ofConfig BitCasts.zero speedFiles false speedCfgs = .ok env ∧
      let tui := run (TuiViews.onFrame env) (TuiViews.start (some countingEngine) false)
        (incomingsOf speedRun)
      (tui.tui.sets "vcan0").bind speed.shown = some 9 ∧
        (tui.tui.engine.map fun e => e.store.get "vcan0" "Status" "Speed") = some (some 9) := by
  obtain ⟨env, henv⟩ : ∃ env : ReceiveEnv Protobuf.wire,
      ReceiveEnv.ofConfig BitCasts.zero speedFiles false speedCfgs = .ok env := ⟨_, rfl⟩
  have hnames : BusSignal.AllIdentifiers speedFiles speedCfgs := by
    intro iface network hnetwork
    obtain ⟨cfg, -, hparsed⟩ := Option.bind_eq_some_iff.mp hnetwork
    cases hparsed
    exact status_identifiers
  have huser : ∀ op, GuiViews.Label.user op ∈ speedRun → op.isUser = true := by
    intro op hop
    simp [speedRun] at hop
    rcases hop with rfl | rfl <;> rfl
  have hraw : ∀ incoming ∈ incomingsOf speedRun, BusSignal.IsRaw incoming.frame := by
    intro incoming hincoming
    have hincomings : incomingsOf speedRun = [⟨0, speedFrame 7 5000000000, fun _ => 0⟩,
        ⟨0, speedFrame 9 6000000000, fun _ => 0⟩] := rfl
    simp only [hincomings, List.mem_cons, List.not_mem_nil, or_false] at hincoming
    rcases hincoming with rfl | rfl
    · exact ⟨rfl, rfl, by decide⟩
    · exact ⟨rfl, rfl, by decide⟩
  obtain ⟨hscript, -, hrow, -⟩ := signal_views_agree henv hnames speed (by decide)
    ⟨none, "", fun _ => ⟨0, 0, 0, 0, 0, 0⟩⟩ 0 0 false countingEngine.script countingEngine.lua
    ["vcan0"] huser hraw
  have hcurrent : speed.current BitCasts.zero ((incomingsOf speedRun).map (·.frame)) = some 9 := by
    decide +kernel
  have hplain : speed.Plain := by
    intro hmux
    cases hmux
  refine ⟨env, henv, (hrow.plain hplain).trans hcurrent, ?_⟩
  rw [← hcurrent]
  exact hscript _ (List.mem_cons_of_mem _ List.mem_cons_self)

end Caneo
