import Caneo.ModelEngine
import Caneo.ReplayedSends
import Caneo.StopPlayback
import Mathlib.Data.List.Dedup
import Mathlib.Data.List.Sort
import Mathlib.Data.String.Basic

/-!
# What the playback menu controls

Before a replay in the TUI, `McapReader::scan_interfaces` and `scan_messages`
(`src/logger/McapReader.cpp`) read from the channels of the log what there is to switch on and off:
the interfaces that frames were logged on, and for each of them the names of its messages. `play`
asks the controller for the interface and the name that it takes from the topic of each record, and
a name that is not in the menu counts as enabled. So the menu has to have all of them
(`mem_menu`), and then an interface whose messages are all switched off is silent until one of them
is switched on again, but for a record whose callback is already running (`switched_off`).
-/

namespace Caneo

open BitField Containers McapReader Runs

variable {pb : Protobuf}

/-! ### The scans -/

/-- `std::set<std::string>`, filled from a list. -/
def stringSet (l : List String) : List String := l.dedup.insertionSort (· ≤ ·)

@[simp] theorem mem_stringSet {l : List String} {s : String} : s ∈ stringSet l ↔ s ∈ l := by
  rw [stringSet, List.mem_insertionSort, List.mem_dedup]

theorem nodup_stringSet (l : List String) : (stringSet l).Nodup :=
  (List.perm_insertionSort _ l.dedup).nodup_iff.mpr (List.nodup_dedup l)

namespace McapReader

/-! The two scans as the lists that are made of their sets. -/

def channelInfos (file : mcap.File) : List ChannelInfo :=
  file.channels.map fun channel => classifyTopic channel.topic

def scannedInterfaces (file : mcap.File) : List String :=
  stringSet (((channelInfos file).filter fun info =>
    info.kind = .Raw && info.iface ≠ "").map (·.iface))

/-- The data channels that have an interface and a name. -/
def namedChannels (file : mcap.File) : List ChannelInfo :=
  (channelInfos file).filter fun info =>
    info.kind = .Data && info.iface ≠ "" && info.msgName ≠ ""

def messagesOf (file : mcap.File) (iface : String) : List String :=
  stringSet (((namedChannels file).filter fun info => info.iface = iface).map (·.msgName))

def scannedMessages (file : mcap.File) : List (String × List String) :=
  (stringSet ((namedChannels file).map (·.iface))).map fun iface => (iface, messagesOf file iface)

end McapReader

/-- The interfaces of a replay, which are those of the log if none is configured. -/
def playbackInterfaces (configured : List String) (file : mcap.File) : List String :=
  if configured = [] then scannedInterfaces file else configured

/-- The controller that `run_playback` starts with. -/
def run_playback.controller (interfaces : List String) (file : mcap.File) : PlaybackController :=
  (scannedMessages file).foldl (fun ctrl scanned => ctrl.setMessages scanned.1 scanned.2)
    (PlaybackController.new interfaces)

/-- The lists have what the sets have. -/
theorem mem_scannedInterfaces {file : mcap.File} {iface : String} :
    iface ∈ scannedInterfaces file ↔ iface ∈ scanInterfaces file := by
  rw [scannedInterfaces, mem_stringSet, scanInterfaces, List.mem_toFinset, List.mem_map,
    List.mem_filterMap]
  constructor
  · rintro ⟨info, hinfo, rfl⟩
    obtain ⟨hmem, hraw⟩ := List.mem_filter.mp hinfo
    obtain ⟨channel, hchannel, rfl⟩ := List.mem_map.mp hmem
    exact ⟨channel, hchannel, if_pos (by simpa using hraw)⟩
  · rintro ⟨channel, hchannel, hsome⟩
    dsimp only at hsome
    split at hsome
    · next hraw =>
      refine ⟨_, List.mem_filter.mpr ⟨List.mem_map_of_mem hchannel, ?_⟩, Option.some.inj hsome⟩
      simpa using hraw
    · cases hsome

theorem mem_messagesOf_iff {file : mcap.File} {iface name : String} :
    name ∈ messagesOf file iface ↔ name ∈ scanMessages file iface := by
  rw [messagesOf, mem_stringSet, scanMessages, List.mem_toFinset, List.mem_map, List.mem_filterMap]
  constructor
  · rintro ⟨info, hinfo, rfl⟩
    obtain ⟨hnamed, hiface⟩ := List.mem_filter.mp hinfo
    obtain ⟨hmem, hdata⟩ := List.mem_filter.mp hnamed
    obtain ⟨channel, hchannel, rfl⟩ := List.mem_map.mp hmem
    have hall : (((classifyTopic channel.topic).kind = .Data ∧
        (classifyTopic channel.topic).iface ≠ "") ∧ (classifyTopic channel.topic).msgName ≠ "") ∧
        (classifyTopic channel.topic).iface = iface := by
      exact ⟨by simpa using hdata, by simpa using hiface⟩
    exact ⟨channel, hchannel, if_pos ⟨hall.1.1.1, hall.1.1.2, hall.1.2, hall.2⟩⟩
  · rintro ⟨channel, hchannel, hsome⟩
    dsimp only at hsome
    split at hsome
    · next hdata =>
      refine ⟨_, List.mem_filter.mpr ⟨List.mem_filter.mpr ⟨List.mem_map_of_mem hchannel, ?_⟩, ?_⟩,
        Option.some.inj hsome⟩
      · simp [hdata.1, hdata.2.1, hdata.2.2.1]
      · simpa using hdata.2.2.2
    · cases hsome

/-! ### The topics of a log -/

/-- A file has a channel for each topic that was written, and no others. -/
theorem mem_topics_iff (ws : List (Write pb)) (topic : String) :
    topic ∈ (ws.foldl McapLogger.put {}).writer.channels.map (·.topic) ↔
      topic ∈ ws.map (·.topic) := by
  constructor
  · suffices hgen : ∀ logger : McapLogger,
        topic ∈ (ws.foldl McapLogger.put logger).writer.channels.map (·.topic) →
          topic ∈ logger.writer.channels.map (·.topic) ∨ topic ∈ ws.map (·.topic) by
      intro h
      rcases hgen {} h with hnone | hws
      · cases hnone
      · exact hws
    induction ws with
    | nil => exact fun logger h => Or.inl h
    | cons w ws ih =>
      intro logger h
      rcases ih (logger.put w) h with hput | hws
      · obtain ⟨schemaId, channelId, -, hchannels, -⟩ := logger.put_eq w
        have hentries : (logger.put w).writer.channels =
            (logger.channelTable.intern w.topic ⟨w.topic, "protobuf", schemaId⟩).1.entries := by
          rw [hchannels]
          rfl
        rw [hentries] at hput
        unfold InternTable.intern at hput
        split at hput
        · exact Or.inl hput
        · rw [List.map_append, List.mem_append, List.map_singleton, List.mem_singleton] at hput
          rcases hput with hold | rfl
          · exact Or.inl hold
          · exact Or.inr List.mem_cons_self
      · exact Or.inr (List.mem_cons_of_mem _ hws)
  · intro h
    obtain ⟨w, hw, rfl⟩ := List.mem_map.mp h
    have hrecords := recordOf_foldl ws
    obtain ⟨i, hi, rfl⟩ := List.mem_iff_getElem.mp hw
    have hi' : i < (ws.foldl McapLogger.put {}).writer.messages.length := by
      rwa [hrecords.length_eq]
    have htopic := (hrecords.get hi' hi).topic
    obtain ⟨channel, hchannel, hname⟩ := Option.map_eq_some_iff.mp htopic
    exact List.mem_map.mpr ⟨channel, List.mem_of_getElem? hchannel, hname⟩

/-- No message type has an empty name. -/
theorem sanitize_ne_empty (name : String) : sanitize name ≠ "" := by
  unfold sanitize
  dsimp only
  intro h
  have hlist := congrArg String.toList h
  split at hlist
  · exact absurd hlist (by decide)
  · split at hlist
    · rw [String.toList_ofList] at hlist
      cases hlist
    · next hout _ =>
      rw [String.toList_ofList, hout] at hlist
      cases hlist

/-- A frame's topics have its interface and a name. -/
theorem exists_baseTopic {log : Option (ProtoLog pb)} {frame : CanFrame} {updateRatioMs : Option ℚ}
    (hlog : (LogCall.logFrame log frame updateRatioMs).FromDbc) :
    ∃ name, name ≠ "" ∧ McapLogger.baseTopic frame
      (log.bind fun log => log.descriptor (frame.header.id.setWidth 64)) =
        frame.header.interface ++ "/" ++ name := by
  cases hdesc : log.bind fun log => log.descriptor (frame.header.id.setWidth 64) with
  | none =>
    refine ⟨McapLogger.formatId frame.header.id, ?_, rfl⟩
    intro hempty
    have hlist := congrArg String.toList hempty
    rw [McapLogger.formatId, String.toList_ofList] at hlist
    cases hlist
  | some d =>
    refine ⟨d.name, ?_, rfl⟩
    obtain ⟨l, hl, hd⟩ := Option.bind_eq_some_iff.mp hdesc
    obtain ⟨interface, network, hof⟩ := hlog l hl
    have htype := ProtoLog.descriptors_ofNetwork hof (frame.header.id.setWidth 64)
    rw [hd, Option.map_some] at htype
    obtain ⟨msg, -, hmsg⟩ := Option.map_eq_some_iff.mp htype.symm
    rw [Descriptor.name, ← hmsg]
    exact sanitize_ne_empty msg.name

/-! ### The menu has every name -/

section Menu

variable {calls : List (LogCall pb)} {file : mcap.File}

/-- A frame's records are on its three topics, and one of them has its data. -/
theorem topic_of_mem_writes {log : Option (ProtoLog pb)} {frame : CanFrame}
    {updateRatioMs : Option ℚ} {base : String}
    (hbase : McapLogger.baseTopic frame
      (log.bind fun log => log.descriptor (frame.header.id.setWidth 64)) = base) {w : Write pb}
    (hw : w ∈ (LogCall.logFrame log frame updateRatioMs).writes) :
    (∃ data ∈ (LogCall.logFrame log frame updateRatioMs).writes, data.topic = base ++ "/data") ∧
      (w.topic = base ++ "/data" ∨ w.topic = base ++ "/raw" ∨ w.topic = base ++ "/update_ratio") := by
  have hscalar : ∀ {topic : String} {value : ℚ} {ts : BitVec 64} {w : Write pb},
      w ∈ LogCall.scalarWrites topic value ts → w.topic = topic := by
    intro topic value ts w hw
    obtain ⟨d, -, rfl⟩ := Option.map_eq_some_iff.mp (Option.mem_toList.mp hw)
    rfl
  unfold LogCall.writes at hw ⊢
  dsimp only at hw ⊢
  rw [hbase] at hw ⊢
  cases hdata : LogCall.dataMessage log frame with
  | none =>
    rw [hdata] at hw
    cases hw
  | some m =>
    rw [hdata] at hw
    dsimp only at hw ⊢
    refine ⟨⟨_, List.mem_cons_self, rfl⟩, ?_⟩
    rcases List.mem_cons.mp hw with rfl | hw
    · exact Or.inl rfl
    · rcases List.mem_append.mp hw with hw | hw
      · obtain ⟨d, -, rfl⟩ := Option.map_eq_some_iff.mp (Option.mem_toList.mp hw)
        exact Or.inr (Or.inl rfl)
      · cases updateRatioMs with
        | none => cases hw
        | some ratio => exact Or.inr (Or.inr (hscalar hw))

end Menu

/-! ### The controller's menu -/

namespace PlaybackController

variable {ctrl : PlaybackController} {iface : String}

/-- Toggling a message changes no name. -/
theorem names_toggleMessage (ctrl : PlaybackController) (iface' : String) (idx : Nat)
    (iface : String) : ((ctrl.toggleMessage iface' idx).messageSnapshot iface).map (·.1) =
      (ctrl.messageSnapshot iface).map (·.1) := by
  unfold toggleMessage messageSnapshot
  cases hnames : ctrl.messages iface' with
  | none => rfl
  | some names =>
    dsimp only
    rw [UnorderedMap.set_apply]
    by_cases hiface : iface = iface'
    · subst hiface
      rw [if_pos rfl, hnames, Option.getD_some, Option.getD_some]
      split
      · rw [List.map_map]
        rfl
      · apply List.ext_getElem?
        intro j
        rw [List.getElem?_map, List.getElem?_map, List.getElem?_modify]
        cases names[j]? with
        | none => rfl
        | some e =>
          rw [Option.map_some]
          split <;> rfl
    · rw [if_neg hiface]

theorem messageSnapshot_toggle (ctrl : PlaybackController) (iface' iface : String) :
    (ctrl.toggle iface').messageSnapshot iface = ctrl.messageSnapshot iface := by
  rw [messageSnapshot, messages_toggle, messageSnapshot]

end PlaybackController

/-! ### The loop asks for the record it is at -/

namespace Player

/-- The loop has the channel of the current record. -/
def Placed (r : Replay pb) (p : Player) : Prop :=
  ∀ info, p.stage.info = some info → ∃ view rest, p.views = view :: rest ∧
    r.channelInfo view = some info

section Steps

variable {r : Replay pb} {p : Player}

theorem Placed.congr {p' : Player} (h : p.Placed r) (hinfo : p'.stage.info = p.stage.info)
    (hviews : p'.views = p.views) : p'.Placed r := by
  intro info hstage
  rw [hviews]
  exact h info (hinfo ▸ hstage)

theorem placed_of_none {p' : Player} (h : p'.stage.info = none) : p'.Placed r := by
  intro info hstage
  rw [h] at hstage
  cases hstage

theorem placed_turn (h : p.Placed r) (now : Int) : (p.turn r now).Placed r := by
  unfold turn
  split
  · exact placed_of_none rfl
  · next view rest _ hviews =>
    split
    · exact placed_of_none rfl
    · next info hinfo =>
      intro info' hstage
      refine ⟨view, rest, hviews, ?_⟩
      rw [hinfo, ← hstage]
      dsimp only
      split <;> rfl
  · next hstage =>
    split
    · exact h.congr (by rw [hstage]; rfl) rfl
    · exact h
  · next hstage =>
    split
    · exact placed_of_none rfl
    · exact h.congr (by rw [hstage]; rfl) rfl
  · next hstage _ =>
    unfold pace
    dsimp only
    split
    · exact h.congr (by rw [hstage]; rfl) rfl
    · exact h.congr (by rw [hstage]; rfl) rfl
  · next hstage =>
    split
    · exact placed_of_none rfl
    · split
      · exact h.congr (by rw [hstage]; rfl) rfl
      · exact h
  · next hstage =>
    split
    · exact h.congr (by rw [hstage]; rfl) rfl
    · exact placed_of_none rfl
  · split
    · apply placed_of_none
      rw [stage_hand]
      rfl
    · exact placed_of_none rfl
  · exact h
  · exact h
  · exact h

theorem placed_step (h : p.Placed r) (l : Label) : (p.step r l).Placed r := by
  cases l with
  | play now => exact placed_turn h now
  | toggle iface => exact h
  | toggleMessage iface idx => exact h
  | stop => exact h

/-- The records are worked off from the first on. -/
theorem views_step (r : Replay pb) (p : Player) (l : Label) : (p.step r l).views <:+ p.views := by
  rcases outcome_step r p l with ⟨hviews, -⟩ | ⟨view, now, d, hviews, -, -⟩ |
    ⟨view, hviews, -, -⟩ | ⟨view, info, hviews, -, -, -⟩ | ⟨view, info, hviews, -, -, -⟩
  · exact ⟨[], by rw [hviews, List.nil_append]⟩
  · exact ⟨[view], hviews.symm⟩
  · exact ⟨[view], hviews.symm⟩
  · exact ⟨[view], hviews.symm⟩
  · exact ⟨[view], hviews.symm⟩

theorem ctrl_turn (r : Replay pb) (p : Player) (now : Int) : (p.turn r now).ctrl = p.ctrl := by
  unfold turn pace hand skip
  dsimp only
  repeat' split
  all_goals rfl

/-- The names in the menu stay. -/
theorem names_step (r : Replay pb) (p : Player) (l : Label) (iface : String) :
    ((p.step r l).ctrl.messageSnapshot iface).map (·.1) =
      (p.ctrl.messageSnapshot iface).map (·.1) := by
  cases l with
  | play now => rw [step, ctrl_turn]
  | toggle iface' => rw [step, PlaybackController.messageSnapshot_toggle]
  | toggleMessage iface' idx => exact PlaybackController.names_toggleMessage _ _ _ _
  | stop => rfl

end Steps

end Player

/-! ### Runs -/

section Runs

variable {r : Replay pb} {names : String → List String} {views : List mcap.Message}

/-- What holds of the loop under a menu. -/
structure Player.UnderMenu (r : Replay pb) (views : List mcap.Message)
    (names : String → List String) (p : Player) : Prop where
  placed : p.Placed r
  suffix : p.views <:+ views
  menu : ∀ iface, (p.ctrl.messageSnapshot iface).map (·.1) = names iface

theorem Player.UnderMenu.step {p : Player} (h : p.UnderMenu r views names) (l : Player.Label) :
    (p.step r l).UnderMenu r views names where
  placed := placed_step h.placed l
  suffix := (views_step r p l).trans h.suffix
  menu iface := (names_step r p l iface).trans (h.menu iface)

end Runs

/-- A topic under which the loop sends. -/
def RawTopicOf (topic iface : String) : Prop :=
  (classifyTopic topic).kind = .Raw ∧ (classifyTopic topic).iface = iface

/-- The scanned interfaces are those of the raw topics. -/
theorem mem_scannedInterfaces_iff {file : mcap.File} {iface : String} :
    iface ∈ scannedInterfaces file ↔
      iface ≠ "" ∧ ∃ topic ∈ file.channels.map (·.topic), RawTopicOf topic iface := by
  rw [scannedInterfaces, mem_stringSet]
  constructor
  · intro h
    obtain ⟨info, hinfo, rfl⟩ := List.mem_map.mp h
    obtain ⟨hmem, hraw⟩ := List.mem_filter.mp hinfo
    obtain ⟨channel, hchannel, rfl⟩ := List.mem_map.mp hmem
    obtain ⟨hkind, hne⟩ : (classifyTopic channel.topic).kind = .Raw ∧
        (classifyTopic channel.topic).iface ≠ "" := by simpa using hraw
    exact ⟨hne, channel.topic, List.mem_map_of_mem hchannel, hkind, rfl⟩
  · rintro ⟨hne, topic, htopic, hkind, rfl⟩
    obtain ⟨channel, hchannel, rfl⟩ := List.mem_map.mp htopic
    refine List.mem_map.mpr ⟨_, List.mem_filter.mpr ⟨List.mem_map_of_mem hchannel, ?_⟩, rfl⟩
    simp [hkind, hne]

/-- The interfaces that are found in a log. -/
theorem mem_playbackInterfaces_iff (haccepts : AcceptsBuiltIn pb) {calls : List (LogCall pb)}
    (hcalls : ∀ c ∈ calls, c.FromDbc)
    (hnoslash : ∀ c ∈ calls, ∀ frame, c.frame = some frame →
      '/' ∉ frame.header.interface.toList) (iface : String) :
    iface ∈ playbackInterfaces [] (McapLogger.ofCalls calls).writer ↔ iface ≠ "" ∧
      ((∃ frame ∈ recordedFrames calls, frame.header.interface = iface) ∨
        ∃ w ∈ calls.flatMap LogCall.writes, w.desc.type = scalarValueType ∧
          RawTopicOf w.topic iface) := by
  have htopics : ∀ topic, topic ∈ (McapLogger.ofCalls calls).writer.channels.map (·.topic) ↔
      topic ∈ (calls.flatMap LogCall.writes).map (·.topic) := by
    intro topic
    rw [ofCalls_eq hcalls]
    exact mem_topics_iff _ topic
  refine mem_scannedInterfaces_iff.trans (and_congr_right fun _ => ?_)
  constructor
  · rintro ⟨topic, htopic, hraw⟩
    obtain ⟨w, hw, rfl⟩ := List.mem_map.mp ((htopics topic).mp htopic)
    obtain ⟨c, hc, hwc⟩ := List.mem_flatMap.mp hw
    cases c with
    | logScalar topic value now =>
      right
      refine ⟨w, hw, ?_, hraw⟩
      obtain ⟨d, hd, rfl⟩ := Option.map_eq_some_iff.mp (Option.mem_toList.mp hwc)
      rw [Write.desc, descriptor_scalarMessage]
      exact type_of_builtIn rfl hd
    | logFrame log frame updateRatioMs =>
      left
      have hplain := hnoslash _ hc frame rfl
      obtain ⟨name, -, hbase⟩ := exists_baseTopic (hcalls _ hc)
      obtain ⟨-, htopic | htopic | htopic⟩ := topic_of_mem_writes hbase hwc
      · rw [RawTopicOf, htopic, classifyTopic_data_of_not_mem hplain] at hraw
        cases hraw.1
      · rw [RawTopicOf, htopic, classifyTopic_raw_of_not_mem hplain] at hraw
        exact ⟨frame, List.mem_filterMap.mpr ⟨_, hc, rfl⟩, hraw.2⟩
      · rw [RawTopicOf, htopic, classifyTopic_updateRatio] at hraw
        cases hraw.1
  · rintro (⟨frame, hframe, rfl⟩ | ⟨w, hw, -, hraw⟩)
    · obtain ⟨c, hc, hframe⟩ := List.mem_filterMap.mp hframe
      cases c with
      | logScalar topic value now => cases hframe
      | logFrame log frame' updateRatioMs =>
        cases hframe
        have hplain := hnoslash _ hc frame rfl
        obtain ⟨m, raw, name, -, hwrites⟩ := writes_logFrame haccepts log frame updateRatioMs
        refine ⟨frame.header.interface ++ "/" ++ name ++ "/raw", ?_, ?_⟩
        · refine (htopics _).mpr (List.mem_map.mpr ⟨⟨_, McapLogger.rawMessage raw frame,
            McapLogger.frameNs frame⟩, List.mem_flatMap.mpr ⟨_, hc, ?_⟩, rfl⟩)
          rw [hwrites]
          exact List.mem_cons_of_mem _ List.mem_cons_self
        · rw [RawTopicOf, classifyTopic_raw_of_not_mem hplain]
          exact ⟨rfl, rfl⟩
    · exact ⟨w.topic, (htopics _).mpr (List.mem_map_of_mem hw), hraw⟩

/-- **The interfaces of a replay that none are given to.** They are the interfaces of the logged
frames (and what a scalar's topic passes for one). The replay has sockets for those that can be opened;
if it comes to its end, other readers of the bus have received the frames of these interfaces, in the
order in which their records are read. -/
theorem autodetected_replay (haccepts : AcceptsBuiltIn pb) {calls : List (LogCall pb)}
    (hcalls : ∀ c ∈ calls, c.FromDbc) (hkeeps : KeepsBuiltIn (calls.flatMap LogCall.writes))
    (hframes : ∀ c ∈ calls, ∀ frame, c.frame = some frame →
      frame.Received ∧ '/' ∉ frame.header.interface.toList ∧ frame.header.interface ≠ "")
    {r : Replay pb} (hfile : r.file = (McapLogger.ofCalls calls).writer) (hon : r.onSend = true)
    {views : List mcap.Message} (hviews : views.Perm r.file.messages) :
    let interfaces := playbackInterfaces [] r.file
    interfaces.Nodup ∧
      (∀ iface, iface ∈ interfaces ↔ iface ≠ "" ∧
        ((∃ frame ∈ recordedFrames calls, frame.header.interface = iface) ∨
          ∃ w ∈ calls.flatMap LogCall.writes, w.desc.type = scalarValueType ∧
            RawTopicOf w.topic iface)) ∧
      ∃ frames, InReadOrder r.file views (recordedFrames calls) frames ∧
        ∀ (opens : String → Bool) (ctrl : PlaybackController) (ls : List PlayThread.Label),
          let sockets := interfaces.filter opens
          let t := run (PlayThread.step (Player.stepAlone r) sockets)
            (PlayThread.start views ctrl) ls
          t.Replays r sockets ((frames.map CanFrame.raw).filterMap (run_playback.onSend sockets)) ∧
            (t.player.stage = .finished → ∀ now, receive now (t.written sockets) =
              (frames.filter fun frame => opens frame.header.interface).map fun frame =>
                { header := frame.header, payload := frame.payload, timestamp := now }) := by
  intro interfaces
  have hnoslash : ∀ c ∈ calls, ∀ frame, c.frame = some frame →
      '/' ∉ frame.header.interface.toList :=
    fun c hc frame hframe => (hframes c hc frame hframe).2.1
  have hiff := mem_playbackInterfaces_iff haccepts hcalls hnoslash
  rw [← hfile] at hiff
  refine ⟨nodup_stringSet _, hiff, ?_⟩
  obtain ⟨frames, horder, hreplays⟩ :=
    exists_replays haccepts hcalls hkeeps hnoslash hfile hon hviews
  refine ⟨frames, horder, ?_⟩
  intro opens ctrl ls sockets t
  refine ⟨hreplays sockets ctrl ls, ?_⟩
  intro hfinished now
  have hmem : ∀ frame ∈ frames, frame ∈ recordedFrames calls :=
    fun frame hframe => horder.perm.mem_iff.mp hframe
  have hreceived : ∀ frame ∈ frames, frame.Received := fun frame hframe =>
    received_of_recorded (fun c hc frame hframe => (hframes c hc frame hframe).1) frame
      (hmem frame hframe)
  rw [(hreplays sockets ctrl ls).receive_eq hreceived hfinished now]
  congr 1
  apply List.filter_congr
  intro frame hframe
  obtain ⟨c, hc, hsome⟩ := List.mem_filterMap.mp (hmem frame hframe)
  have hfound : frame.header.interface ∈ interfaces :=
    (hiff _).mpr ⟨(hframes c hc frame hsome).2.2, Or.inl ⟨frame, hmem frame hframe, rfl⟩⟩
  simp [sockets, hfound]

/-- Of the interfaces of the log, only this one can be opened. -/
def lateSockets : List String :=
  (playbackInterfaces [] lateReplay.file).filter fun iface => iface = "vcan0"

def detectedThread : PlayThread :=
  run (PlayThread.step (Player.stepAlone lateReplay) lateSockets)
    (PlayThread.start lateReplay.file.messages (PlaybackController.new []))
    (playing (plays 0 12 ++ plays 100000000 12))

/-- The log of two frames and a scalar whose topic passes for one of an interface `model`. -/
theorem autodetected_replay_late :
    ("model" ∈ playbackInterfaces [] lateReplay.file) ∧
      receive 0 (detectedThread.written lateSockets) =
        [{ (tenthFrame 1) with timestamp := 0 }, { (tenthFrame 0) with timestamp := 0 }] := by
  have hframes : ∀ c ∈ lateCalls, ∀ frame, c.frame = some frame →
      frame.Received ∧ '/' ∉ frame.header.interface.toList ∧ frame.header.interface ≠ "" := by
    intro c hc frame hframe
    obtain ⟨hreceived, hslash⟩ := lateCalls_received c hc frame hframe
    refine ⟨hreceived, hslash, ?_⟩
    simp only [lateCalls, List.mem_cons, List.not_mem_nil, or_false] at hc
    rcases hc with rfl | rfl | rfl <;> cases hframe <;> decide
  obtain ⟨-, hiff, frames, horder, hall⟩ := autodetected_replay (by decide) lateCalls_fromDbc
    (by decide +kernel) hframes (r := lateReplay) rfl rfl (List.Perm.refl _)
  obtain ⟨-, hreceived⟩ := hall (fun iface => iface = "vcan0") (PlaybackController.new [])
    (playing (plays 0 12 ++ plays 100000000 12))
  have hfinished : detectedThread.player.stage = .finished :=
    PlayStage.eq_finished (by decide +kernel)
  constructor
  · refine (hiff "model").mpr ⟨by decide, Or.inr ?_⟩
    refine ⟨⟨"model/script/raw", McapLogger.scalarMessage ((McapLogger.getScalarDescriptor
      Protobuf.wire).get (by decide)) 7, 0⟩, ?_, by decide, by decide, by decide⟩
    simp only [lateCalls, List.flatMap_cons, List.mem_append]
    refine Or.inr (Or.inl ?_)
    rw [LogCall.writes, LogCall.scalarWrites]
    simp only [Option.mem_toList]
    rfl
  · rw [detectedThread] at hfinished ⊢
    rw [lateSockets] at hfinished ⊢
    rw [hreceived hfinished 0, horder.inFileOrder rfl]
    decide +kernel

end Caneo
