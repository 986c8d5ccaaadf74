import Caneo.FrameReceivers
import Caneo.GraphSeries
import Caneo.LogSchemas
import Caneo.Yaml

/-!
# `load_graph_preset`

The graphs of a preset file (`src/gui/GraphPreset.cpp`): a YAML list of graphs, whose entries name a
message and a signal of it, and the interface or not. An index of the DBCs says which interface has a
message of that name, and with which id; the entry's series is then fed by the frames that the
decoders have seen.

The index is filled by assignment, so that the *last* message of a name counts, and the decoder by
`emplace`, so that the *first* message of an id does. Where the ids of a DBC are distinct these are
the same: a series plots the physical values of the signal that its label names (`preset_plots`).
Whether the message has such a signal is not checked; the series of a name that it does not have stays
empty.
-/

namespace Caneo

open BitField Containers

/-! ### The index -/

structure SigInfo where
  yMin : ℚ
  yMax : ℚ

structure MsgInfo where
  id : BitVec 32
  signals : UnorderedMap String SigInfo

abbrev DbcIndex := UnorderedMap String MsgInfo

namespace GraphPreset

def msgInfo (msg : IMessage) : MsgInfo where
  id := msg.id.setWidth 32
  signals := msg.signals.foldl (fun signals sig => signals.set sig.name ⟨sig.minimum, sig.maximum⟩)
    UnorderedMap.empty

def index (network : INetwork) : DbcIndex :=
  network.messages.foldl (fun index msg => index.set msg.name (msgInfo msg)) UnorderedMap.empty

def buildDbcIndex (files : String → DbcFile) (dbcPath : String) : Except String DbcIndex :=
  match files dbcPath with
  | .missing => .error ("GraphPreset: cannot open DBC: " ++ dbcPath)
  | .unparsable => .error ("GraphPreset: cannot parse DBC: " ++ dbcPath)
  | .network network => .ok (index network)

def buildIfaceIndex (files : String → DbcFile) (cfgs : List InterfaceConfig) :
    Except String (UnorderedMap String DbcIndex) :=
  (cfgs.filter fun cfg => cfg.dbc ≠ "").foldlM (fun ifaceIndex cfg =>
    (buildDbcIndex files cfg.dbc).map fun index => ifaceIndex.set cfg.name index) UnorderedMap.empty

/-! ### The entries -/

/-- The arguments of `add_signal`. -/
structure SeriesSpec where
  interface : String
  msgId : BitVec 32
  signalName : String
  yMin : ℚ
  yMax : ℚ
  yAxis : Int
  label : String

def SeriesSpec.key (spec : SeriesSpec) : String × BitVec 32 × String :=
  (spec.interface, spec.msgId, spec.signalName)

section Load

variable (conv : YAML.Conversions) (ifaceIndex : UnorderedMap String DbcIndex)
  (cfgs : List InterfaceConfig)

def tryIface (msgName iface : String) : Option (String × MsgInfo) :=
  (ifaceIndex iface).bind fun index => (index msgName).map fun mi => (iface, mi)

def resolve (ifaceHint msgName : String) : Option (String × MsgInfo) :=
  if ifaceHint ≠ "" then tryIface ifaceIndex msgName ifaceHint
  else cfgs.findSome? fun cfg => tryIface ifaceIndex msgName cfg.name

/-- One entry of `signals`; nothing where the loop continues with the next. -/
def readSeries (sigNode : YAML.Node) : Except String (Option SeriesSpec) := do
  let msgName ← sigNode.getOr "msg" YAML.Node.asString ""
  let sigName ← sigNode.getOr "signal" YAML.Node.asString ""
  if msgName = "" || sigName = "" then return none
  let ifaceHint ← sigNode.getOr "interface" YAML.Node.asString ""
  match resolve ifaceIndex cfgs ifaceHint msgName with
  | none => return none
  | some (iface, mi) =>
    let range := (mi.signals sigName).getD ⟨0, 0⟩
    let yMin ← sigNode.getOr "y_min" (YAML.Node.asDouble conv) range.yMin
    let yMax ← sigNode.getOr "y_max" (YAML.Node.asDouble conv) range.yMax
    let yAxis ← sigNode.getOr "y_axis" (YAML.Node.asInt conv) 0
    return some ⟨iface, mi.id, sigName, yMin, yMax, yAxis, msgName ++ "/" ++ sigName⟩

def addSpec (w : GraphWindow) (graphIdx : Nat) (spec : SeriesSpec) : GraphWindow :=
  w.addSignal graphIdx spec.interface spec.msgId spec.signalName spec.yMin spec.yMax spec.yAxis
    spec.label

def loadSeries (graphIdx : Nat) (w : GraphWindow) (sigNode : YAML.Node) :
    Except String GraphWindow := do
  match ← readSeries conv ifaceIndex cfgs sigNode with
  | none => return w
  | some spec => return addSpec w graphIdx spec

/-- The entries of a graph; none if they are not a list. -/
def signalItems : Option YAML.Node → List YAML.Node
  | some (.sequence items) => items
  | _ => []

def loadGraph (w : GraphWindow) (graphNode : YAML.Node) : Except String GraphWindow := do
  let graphName ← graphNode.getOr "name" YAML.Node.asString ""
  let signalsNode ← graphNode.get "signals"
  (signalItems signalsNode).foldlM (loadSeries conv ifaceIndex cfgs w.graphs.length)
    (w.addGraph graphName)

end Load

end GraphPreset

open GraphPreset in
/-- An exception ends the program. -/
def loadGraphPreset (conv : YAML.Conversions) (files : String → DbcFile)
    (yamlFiles : String → Except String YAML.Node) (cfgs : List InterfaceConfig)
    (graphsFile : String) (w : GraphWindow) : Except String GraphWindow := do
  if graphsFile = "" then return w
  let ifaceIndex ← buildIfaceIndex files cfgs
  match yamlFiles graphsFile with
  | .error e => .error ("Failed to load graphs preset '" ++ graphsFile ++ "': " ++ e)
  | .ok (.sequence nodes) => nodes.foldlM (loadGraph conv ifaceIndex cfgs) w
  | .ok _ => .error "Graphs preset must be a YAML sequence"

/-! ### Filling a map from files -/

section Filling

variable {K V α ε : Type} [DecidableEq K] {key : α → K} {load : α → Except ε V}

/-- A loop that fills a map, and throws where an element cannot be loaded, keeps the last entry of
each key. -/
theorem foldlM_set_apply {l : List α} {m m' : UnorderedMap K V}
    (h : l.foldlM (fun m a => (load a).map fun v => m.set (key a) v) m = .ok m') :
    (∀ a ∈ l, ∃ v, load a = .ok v) ∧
      ∀ k, m' k = ((l.reverse.find? fun a => key a = k).bind fun a => (load a).toOption).or (m k) := by
  induction l generalizing m with
  | nil =>
    cases h
    simp
  | cons a l ih =>
    rw [List.foldlM_cons] at h
    obtain ⟨m₁, hfirst, hrest⟩ := YAML.exists_of_bind_eq_ok h
    obtain ⟨hloads, hfind⟩ := ih hrest
    cases hload : load a with
    | error e => simp [hload, Except.map] at hfirst
    | ok v =>
      have hset : m.set (key a) v = m₁ := by simpa [hload, Except.map] using hfirst
      refine ⟨by simpa [hload] using hloads, ?_⟩
      intro k
      rw [hfind, ← hset, List.reverse_cons, List.find?_append]
      cases hlast : l.reverse.find? fun a => key a = k with
      | some b =>
        obtain ⟨w, hw⟩ := hloads b (List.mem_reverse.mp (List.mem_of_find?_eq_some hlast))
        simp [hw, Except.toOption]
      | none =>
        by_cases hkey : key a = k
        · simp [hkey, hload, Except.toOption]
        · have hne : k ≠ key a := fun e => hkey e.symm
          simp [hkey, UnorderedMap.set_ne _ _ hne]

end Filling

/-! ### The DBC of an interface -/

def DbcFile.parsed : DbcFile → Option INetwork
  | .missing | .unparsable => none
  | .network parsed => some parsed

/-- The last configuration of a name counts. -/
def networkOf (files : String → DbcFile) (cfgs : List InterfaceConfig) (iface : String) :
    Option INetwork :=
  ((cfgs.filter fun cfg => cfg.dbc ≠ "").reverse.find? fun cfg => cfg.name = iface).bind fun cfg =>
    (files cfg.dbc).parsed

section Registries

variable {files : String → DbcFile} {cfgs : List InterfaceConfig}

/-- What is built from each DBC, by the interface. -/
theorem foldlM_networkOf {V : Type} {build : INetwork → V} {load : InterfaceConfig → Except String V}
    (hload : ∀ cfg, (load cfg).toOption = (files cfg.dbc).parsed.map build)
    {m : UnorderedMap String V}
    (h : (cfgs.filter fun cfg => cfg.dbc ≠ "").foldlM (fun m cfg =>
        (load cfg).map fun v => UnorderedMap.set m cfg.name v) UnorderedMap.empty = .ok m)
    (iface : String) : m iface = (networkOf files cfgs iface).map build := by
  have hfind : ∀ name, m name = (((cfgs.filter fun cfg => cfg.dbc ≠ "").reverse.find?
      fun cfg => cfg.name = name).bind fun cfg => (load cfg).toOption).or
        (UnorderedMap.empty name) := (foldlM_set_apply h).2
  rw [hfind, networkOf, UnorderedMap.empty_apply, Option.or_none]
  simp only [hload, Option.map_bind]
  rfl

theorem ifaceIndex_apply {ifaceIndex : UnorderedMap String DbcIndex}
    (h : GraphPreset.buildIfaceIndex files cfgs = .ok ifaceIndex) (iface : String) :
    ifaceIndex iface = (networkOf files cfgs iface).map GraphPreset.index := by
  apply foldlM_networkOf ?_ h
  intro cfg
  rw [GraphPreset.buildDbcIndex]
  cases files cfg.dbc <;> rfl

/-- The registry's loop fills its map. -/
theorem foldlM_decoders {l : List InterfaceConfig} {registry registry' : DecoderRegistry}
    (h : l.foldlM (fun registry cfg =>
        DecoderRegistry.addInterface files registry cfg.name cfg.dbc) registry = .ok registry') :
    l.foldlM (fun m cfg => (DbcPppWrapper.load files cfg.dbc).map fun decoder =>
      UnorderedMap.set m cfg.name decoder) registry.decoders = .ok registry'.decoders := by
  induction l generalizing registry with
  | nil =>
    cases h
    rfl
  | cons cfg l ih =>
    rw [List.foldlM_cons] at h ⊢
    obtain ⟨registry₁, hfirst, hrest⟩ := YAML.exists_of_bind_eq_ok h
    rw [DecoderRegistry.addInterface] at hfirst
    cases hload : DbcPppWrapper.load files cfg.dbc with
    | error e => simp [hload, Except.map] at hfirst
    | ok decoder =>
      rw [hload] at hfirst
      cases hfirst
      exact ih hrest

theorem decoders_apply {casts : BitCasts} {grpcServer : Bool} {pb : Protobuf} {env : ReceiveEnv pb}
    (h : ReceiveEnv.ofConfig casts files grpcServer cfgs = .ok env) (iface : String) :
    env.decoders.decoders iface = (networkOf files cfgs iface).map DbcPppWrapper.ofNetwork := by
  obtain ⟨registry, hregistry, hpure⟩ := YAML.exists_of_bind_eq_ok h
  cases hpure
  apply foldlM_networkOf ?_ (foldlM_decoders hregistry)
  intro cfg
  rw [DbcPppWrapper.load]
  cases files cfg.dbc <;> rfl

end Registries

/-! ### What an entry adds -/

/-- The series is of the message that its label names, in the DBC of its interface. -/
def NamesMessage (files : String → DbcFile) (cfgs : List InterfaceConfig) (iface : String)
    (msgId : BitVec 32) (signalName label : String) (network : INetwork) (msg : IMessage) : Prop :=
  networkOf files cfgs iface = some network ∧ msg ∈ network.messages ∧
    msgId = msg.id.setWidth 32 ∧ label = msg.name ++ "/" ++ signalName

namespace GraphPreset

section Entries

variable {conv : YAML.Conversions} {files : String → DbcFile} {cfgs : List InterfaceConfig}
  {ifaceIndex : UnorderedMap String DbcIndex}

theorem exists_of_index {network : INetwork} {msgName : String} {mi : MsgInfo}
    (h : index network msgName = some mi) :
    ∃ msg ∈ network.messages, msg.name = msgName ∧ mi = msgInfo msg := by
  have hlast := UnorderedMap.foldl_set_apply (fun msg : IMessage => msg.name) msgInfo
    network.messages UnorderedMap.empty msgName
  rw [UnorderedMap.empty_apply, Option.or_none] at hlast
  obtain ⟨msg, hmsg, rfl⟩ := Option.map_eq_some_iff.mp (hlast.symm.trans h)
  exact ⟨msg, List.mem_reverse.mp (List.mem_of_find?_eq_some hmsg),
    by simpa using List.find?_some hmsg, rfl⟩

theorem exists_of_tryIface (hindex : buildIfaceIndex files cfgs = .ok ifaceIndex)
    {msgName iface iface' : String} {mi : MsgInfo}
    (h : tryIface ifaceIndex msgName iface = some (iface', mi)) :
    ∃ network, networkOf files cfgs iface' = some network ∧
      ∃ msg ∈ network.messages, msg.name = msgName ∧ mi = msgInfo msg := by
  obtain ⟨dbcIndex, hdbc, hmap⟩ := Option.bind_eq_some_iff.mp h
  obtain ⟨found, hfound, heq⟩ := Option.map_eq_some_iff.mp hmap
  cases heq
  rw [ifaceIndex_apply hindex] at hdbc
  obtain ⟨network, hnetwork, rfl⟩ := Option.map_eq_some_iff.mp hdbc
  exact ⟨network, hnetwork, exists_of_index hfound⟩

theorem exists_of_resolve (hindex : buildIfaceIndex files cfgs = .ok ifaceIndex)
    {ifaceHint msgName iface : String} {mi : MsgInfo}
    (h : resolve ifaceIndex cfgs ifaceHint msgName = some (iface, mi)) :
    ∃ network, networkOf files cfgs iface = some network ∧
      ∃ msg ∈ network.messages, msg.name = msgName ∧ mi = msgInfo msg := by
  rw [resolve] at h
  split at h
  · exact exists_of_tryIface hindex h
  · obtain ⟨cfg, -, hcfg⟩ := List.exists_of_findSome?_eq_some h
    exact exists_of_tryIface hindex hcfg

/-- An entry that is read names a message. -/
theorem names_of_readSeries (hindex : buildIfaceIndex files cfgs = .ok ifaceIndex)
    {sigNode : YAML.Node} {spec : SeriesSpec}
    (h : readSeries conv ifaceIndex cfgs sigNode = .ok (some spec)) :
    ∃ network msg, NamesMessage files cfgs spec.interface spec.msgId spec.signalName spec.label
      network msg := by
  rw [readSeries] at h
  obtain ⟨msgName, -, h⟩ := YAML.exists_of_bind_eq_ok h
  obtain ⟨sigName, -, h⟩ := YAML.exists_of_bind_eq_ok h
  dsimp only at h
  split at h
  · cases h
  · obtain ⟨ifaceHint, -, h⟩ := YAML.exists_of_bind_eq_ok h
    split at h
    · cases h
    · next iface mi hresolve =>
      obtain ⟨yMin, -, h⟩ := YAML.exists_of_bind_eq_ok h
      obtain ⟨yMax, -, h⟩ := YAML.exists_of_bind_eq_ok h
      obtain ⟨yAxis, -, h⟩ := YAML.exists_of_bind_eq_ok h
      cases h
      obtain ⟨network, hnetwork, msg, hmsg, rfl, rfl⟩ := exists_of_resolve hindex hresolve
      exact ⟨network, msg, hnetwork, hmsg, rfl, rfl⟩

end Entries

/-! ### One graph -/

/-- The tab after `add_signal`. -/
def addTo (spec : SeriesSpec) (tab : GraphTab) : GraphTab :=
  if tab.series.any fun s =>
      s.interface = spec.interface && s.msgId = spec.msgId && s.signalName = spec.signalName then tab
  else { tab with series := tab.series ++
    [{ interface := spec.interface, msgId := spec.msgId, signalName := spec.signalName,
       label := if spec.label.isEmpty then spec.signalName else spec.label,
       yMin := spec.yMin, yMax := spec.yMax, yAxis := spec.yAxis }] }

/-- Tabs that a preset has just made: no key twice, no samples, and every label right. -/
structure Fresh (files : String → DbcFile) (cfgs : List InterfaceConfig) (tab : GraphTab) : Prop where
  distinct : (tab.series.map SignalSeries.key).Nodup
  empty : ∀ s ∈ tab.series, s.Holds []
  named : ∀ s ∈ tab.series, ∃ network msg,
    NamesMessage files cfgs s.interface s.msgId s.signalName s.label network msg

section Graphs

variable {conv : YAML.Conversions} {files : String → DbcFile} {cfgs : List InterfaceConfig}
  {ifaceIndex : UnorderedMap String DbcIndex}

theorem addSpec_append (graphs : List GraphTab) (tab : GraphTab) (start : Int) (spec : SeriesSpec) :
    addSpec { graphs := graphs ++ [tab], start := start } graphs.length spec =
      { graphs := graphs ++ [addTo spec tab], start := start } := by
  simp only [addSpec, GraphWindow.addSignal, addTo]
  congr 1
  apply List.ext_getElem?
  intro i
  simp only [List.getElem?_modify, List.getElem?_append]
  by_cases hi : i < graphs.length
  · simp [hi, hi.ne']
  · by_cases heq : i = graphs.length
    · simp [heq]
    · have hlast : i - graphs.length ≠ 0 := by omega
      obtain ⟨n, hn⟩ := Nat.exists_eq_succ_of_ne_zero hlast
      simp [hi, Ne.symm heq, hn]

theorem mem_addTo {spec : SeriesSpec} {tab : GraphTab} {s : SignalSeries} (hs : s ∈ tab.series) :
    s ∈ (addTo spec tab).series := by
  rw [addTo]
  split
  · exact hs
  · exact List.mem_append_left _ hs

theorem exists_addTo (spec : SeriesSpec) (tab : GraphTab) :
    ∃ s ∈ (addTo spec tab).series, s.key = spec.key := by
  rw [addTo]
  split
  · next hany =>
    obtain ⟨s, hs, hkey⟩ := List.any_eq_true.mp hany
    simp only [Bool.and_eq_true, decide_eq_true_eq] at hkey
    exact ⟨s, hs, by simp [SignalSeries.key, SeriesSpec.key, hkey]⟩
  · exact ⟨_, List.mem_append_right _ List.mem_cons_self, rfl⟩

theorem Fresh.addTo {tab : GraphTab} (h : Fresh files cfgs tab) {spec : SeriesSpec}
    (hspec : ∃ network msg, NamesMessage files cfgs spec.interface spec.msgId spec.signalName
      spec.label network msg) : Fresh files cfgs (addTo spec tab) := by
  rw [GraphPreset.addTo]
  split
  · exact h
  · next hnew =>
    obtain ⟨network, msg, hnetwork, hmsg, hid, hlabel⟩ := hspec
    have hlabelled : spec.label.isEmpty = false := by
      rw [hlabel]
      simp [String.isEmpty_eq_false_iff]
    refine ⟨?_, ?_, ?_⟩
    · simp only [List.map_append, List.map_cons, List.map_nil]
      apply List.Nodup.append h.distinct (List.nodup_singleton _)
      intro key hkey hspec
      obtain ⟨s, hs, rfl⟩ := List.mem_map.mp hkey
      have hsame := List.mem_singleton.mp hspec
      simp only [SignalSeries.key, Prod.mk.injEq] at hsame
      apply hnew
      rw [List.any_eq_true]
      exact ⟨s, hs, by simp [hsame]⟩
    · intro s hs
      rcases List.mem_append.mp hs with hs | hs
      · exact h.empty s hs
      · rw [List.mem_singleton.mp hs]
        exact ⟨rfl, rfl⟩
    · intro s hs
      rcases List.mem_append.mp hs with hs | hs
      · exact h.named s hs
      · rw [List.mem_singleton.mp hs, hlabelled]
        exact ⟨network, msg, hnetwork, hmsg, hid, hlabel⟩

theorem fresh_new (name : String) : Fresh files cfgs { name := name } where
  distinct := List.nodup_nil
  empty _ hs := absurd hs List.not_mem_nil
  named _ hs := absurd hs List.not_mem_nil

/-- The tab has a series for each entry that names a message. -/
def Covers (conv : YAML.Conversions) (ifaceIndex : UnorderedMap String DbcIndex)
    (cfgs : List InterfaceConfig) (items : List YAML.Node) (tab : GraphTab) : Prop :=
  ∀ item ∈ items, ∀ spec, readSeries conv ifaceIndex cfgs item = .ok (some spec) →
    ∃ s ∈ tab.series, s.key = spec.key

/-- The loop over the entries fills the last tab. -/
theorem foldlM_loadSeries (hindex : buildIfaceIndex files cfgs = .ok ifaceIndex)
    {graphs : List GraphTab} {start : Int} (items : List YAML.Node) {tab : GraphTab}
    (hfresh : Fresh files cfgs tab) {w : GraphWindow}
    (h : items.foldlM (loadSeries conv ifaceIndex cfgs graphs.length)
      { graphs := graphs ++ [tab], start := start } = .ok w) :
    ∃ tab', w = { graphs := graphs ++ [tab'], start := start } ∧ Fresh files cfgs tab' ∧
      tab.series ⊆ tab'.series ∧ Covers conv ifaceIndex cfgs items tab' := by
  induction items generalizing tab with
  | nil =>
    cases h
    exact ⟨tab, rfl, hfresh, List.Subset.refl _, fun item hitem => by cases hitem⟩
  | cons item items ih =>
    rw [List.foldlM_cons] at h
    obtain ⟨w₁, hitem, hrest⟩ := YAML.exists_of_bind_eq_ok h
    obtain ⟨read, hread, hadd⟩ := YAML.exists_of_bind_eq_ok hitem
    cases read with
    | none =>
      cases hadd
      obtain ⟨tab', hw, hfresh', hkept, hcovers⟩ := ih hfresh hrest
      refine ⟨tab', hw, hfresh', hkept, ?_⟩
      intro item' hitem' spec hspec
      rcases List.mem_cons.mp hitem' with rfl | hitem'
      · rw [hread] at hspec
        cases hspec
      · exact hcovers item' hitem' spec hspec
    | some spec =>
      cases hadd
      rw [addSpec_append] at hrest
      obtain ⟨tab', hw, hfresh', hkept, hcovers⟩ :=
        ih (hfresh.addTo (names_of_readSeries hindex hread)) hrest
      refine ⟨tab', hw, hfresh', fun s hs => hkept (mem_addTo hs), ?_⟩
      intro item' hitem' spec' hspec'
      rcases List.mem_cons.mp hitem' with rfl | hitem'
      · rw [hread] at hspec'
        cases hspec'
        obtain ⟨s, hs, hkey⟩ := exists_addTo spec tab
        exact ⟨s, hkept hs, hkey⟩
      · exact hcovers item' hitem' spec' hspec'

/-- What the preset says of a graph, and the tab that it makes. -/
structure MakesTab (conv : YAML.Conversions) (files : String → DbcFile) (cfgs : List InterfaceConfig)
    (ifaceIndex : UnorderedMap String DbcIndex) (node : YAML.Node) (tab : GraphTab) : Prop where
  fresh : Fresh files cfgs tab
  covers : ∀ signals, node.get "signals" = .ok signals →
    Covers conv ifaceIndex cfgs (signalItems signals) tab

theorem makesTab_of_loadGraph (hindex : buildIfaceIndex files cfgs = .ok ifaceIndex)
    {w w' : GraphWindow} {node : YAML.Node} (h : loadGraph conv ifaceIndex cfgs w node = .ok w') :
    ∃ tab, w' = { w with graphs := w.graphs ++ [tab] } ∧
      MakesTab conv files cfgs ifaceIndex node tab := by
  rw [loadGraph] at h
  obtain ⟨graphName, -, h⟩ := YAML.exists_of_bind_eq_ok h
  obtain ⟨signals, hsignals, h⟩ := YAML.exists_of_bind_eq_ok h
  obtain ⟨tab, hw, hfresh, -, hcovers⟩ := foldlM_loadSeries hindex _ (fresh_new _) h
  refine ⟨tab, hw, hfresh, ?_⟩
  intro signals' hsignals'
  rw [hsignals] at hsignals'
  cases hsignals'
  exact hcovers

/-- Every graph of the preset has its tab. -/
theorem forall₂_makesTab (hindex : buildIfaceIndex files cfgs = .ok ifaceIndex)
    {nodes : List YAML.Node} {w w' : GraphWindow}
    (h : nodes.foldlM (loadGraph conv ifaceIndex cfgs) w = .ok w') :
    ∃ tabs, w' = { w with graphs := w.graphs ++ tabs } ∧
      List.Forall₂ (MakesTab conv files cfgs ifaceIndex) nodes tabs := by
  induction nodes generalizing w with
  | nil =>
    cases h
    exact ⟨[], by simp, .nil⟩
  | cons node nodes ih =>
    rw [List.foldlM_cons] at h
    obtain ⟨w₁, hnode, hrest⟩ := YAML.exists_of_bind_eq_ok h
    obtain ⟨tab, rfl, hmakes⟩ := makesTab_of_loadGraph hindex hnode
    obtain ⟨tabs, rfl, hall⟩ := ih hrest
    exact ⟨tab :: tabs, by simp, .cons hmakes hall⟩

end Graphs

end GraphPreset

/-! ### What the frames add -/

/-- The physical values that the signal has in the frames of its message. -/
def plotted (casts : BitCasts) (start : Int) (iface : String) (msg : IMessage) (sig : ISignal)
    (frames : List CanFrame) : List (ℚ × ℚ) :=
  (frames.filter fun frame =>
    frame.header.interface = iface && frame.header.id.setWidth 64 = msg.id &&
      msg.messageSize ≤ frame.payload.length &&
      !DbcPppWrapper.skipped msg.muxSignal frame.payload sig).map fun frame =>
    (GraphWindow.seconds (frame.timestamp - start),
      DbcPppWrapper.phys casts sig (sig.decode frame.payload))

/-- Ids are distinct, and so are the names of a message's signals. -/
structure INetwork.Distinct (network : INetwork) : Prop where
  ids : (network.messages.map (·.id)).Nodup
  names : ∀ msg ∈ network.messages, (msg.signals.map (·.name)).Nodup

theorem label_update (t : ℚ) (frame : CanFrame) (s : SignalSeries) :
    (s.update t frame).label = s.label := by
  simp only [SignalSeries.update, SignalSeries.push]
  repeat' split
  all_goals rfl

def SignalSeries.updates (start : Int) (frames : List CanFrame) (s : SignalSeries) : SignalSeries :=
  frames.foldl
    (fun s frame => s.update (GraphWindow.seconds (frame.timestamp - start)) frame) s

namespace GraphWindow

def updates (w : GraphWindow) (frames : List CanFrame) : GraphWindow := frames.foldl update w

theorem graphs_updates (w : GraphWindow) (frames : List CanFrame) :
    (w.updates frames).graphs = w.graphs.map fun tab =>
      { tab with series := tab.series.map (SignalSeries.updates w.start frames) } := by
  simp only [updates]
  induction frames generalizing w with
  | nil =>
    have hid : SignalSeries.updates w.start [] = id := rfl
    simp [hid]
  | cons frame frames ih =>
    rw [List.foldl_cons, ih]
    simp [update, SignalSeries.updates]

end GraphWindow

/-- The series after a run of frames, with all their samples. -/
theorem holds_updates (start : Int) (frames : List CanFrame) {s : SignalSeries}
    {held : List (ℚ × ℚ)} (h : s.Holds held) :
    let s' := s.updates start frames
    (s'.key = s.key ∧ s'.label = s.label) ∧
      s'.Holds (held ++ frames.flatMap fun frame => GraphOp.delivered start s.key (.update frame)) := by
  induction frames generalizing s held with
  | nil => simpa [SignalSeries.updates] using h
  | cons frame frames ih =>
    obtain ⟨s₀, hs₀, hkey, hholds⟩ := feeds_update start frame [s] _ List.mem_cons_self
    obtain rfl := List.mem_singleton.mp hs₀
    obtain ⟨⟨hkey', hlabel⟩, hrest⟩ := ih (hholds held h)
    refine ⟨⟨hkey'.trans hkey.symm, hlabel.trans (label_update _ _ _)⟩, ?_⟩
    rw [← hkey, List.append_assoc] at hrest
    exact hrest

/-! ### What a preset plots -/

section Plots

variable {casts : BitCasts} {files : String → DbcFile} {grpcServer : Bool}
  {cfgs : List InterfaceConfig} {pb : Protobuf} {env : ReceiveEnv pb}

theorem casts_ofConfig (henv : ReceiveEnv.ofConfig casts files grpcServer cfgs = .ok env) :
    env.casts = casts := by
  obtain ⟨registry, -, hpure⟩ := YAML.exists_of_bind_eq_ok henv
  cases hpure
  rfl

/-- The signal of this name, if the multiplexer selects it. -/
theorem find?_decodedSignal {msg : IMessage} (hnames : (msg.signals.map (·.name)).Nodup)
    {sig : ISignal} (hsig : sig ∈ msg.signals) (payload : Bytes) :
    ((msg.signals.filter fun s => !DbcPppWrapper.skipped msg.muxSignal payload s).map
        (DbcPppWrapper.decodedSignal casts payload)).find? (fun s => s.name = sig.name) =
      if DbcPppWrapper.skipped msg.muxSignal payload sig then none
      else some (DbcPppWrapper.decodedSignal casts payload sig) := by
  by_cases hskip : DbcPppWrapper.skipped msg.muxSignal payload sig = true
  · rw [if_pos hskip, List.find?_eq_none]
    intro decoded hdecoded hname
    obtain ⟨sig', hsig', rfl⟩ := List.mem_map.mp hdecoded
    rw [List.mem_filter] at hsig'
    have hsame : sig' = sig :=
      List.inj_on_of_nodup_map hnames hsig'.1 hsig (of_decide_eq_true hname)
    rw [hsame, hskip] at hsig'
    cases hsig'.2
  · rw [if_neg hskip]
    have hmem : DbcPppWrapper.decodedSignal casts payload sig ∈
        (msg.signals.filter fun s => !DbcPppWrapper.skipped msg.muxSignal payload s).map
          (DbcPppWrapper.decodedSignal casts payload) := by
      apply List.mem_map_of_mem
      simp [hsig, hskip]
    refine find?_key_of_nodup (fun s : DecodedSignal => s.name) ?_ hmem
    rw [List.map_map]
    exact hnames.sublist (List.filter_sublist.map _)

/-- What the decoder of an interface makes of a frame of one of its messages. -/
theorem decoded_of_message (henv : ReceiveEnv.ofConfig casts files grpcServer cfgs = .ok env)
    {iface : String} {network : INetwork} (hnetwork : networkOf files cfgs iface = some network)
    (hids : (network.messages.map (·.id)).Nodup) {msg : IMessage} (hmsg : msg ∈ network.messages)
    {frame : CanFrame} (hiface : frame.header.interface = iface)
    (hid : frame.header.id.setWidth 64 = msg.id) :
    env.decoded frame =
      if frame.payload.length < msg.messageSize then frame
      else DbcPppWrapper.decodeMessage casts msg frame := by
  have hdecoder : env.decoders.decoders frame.header.interface =
      some (DbcPppWrapper.ofNetwork network) := by
    rw [hiface, decoders_apply henv, hnetwork, Option.map_some]
  have hfind : (DbcPppWrapper.ofNetwork network).messages (frame.header.id.setWidth 64) =
      some msg := by
    rw [DbcPppWrapper.messages_ofNetwork, hid]
    exact find?_key_of_nodup (fun msg : IMessage => msg.id) hids hmsg
  rw [ReceiveEnv.decoded, DecoderRegistry.decode, hdecoder, casts_ofConfig henv]
  simp only [DbcPppWrapper.decode, hfind]

/-- What a decoded frame adds to the series of a signal. -/
theorem delivered_decoded (henv : ReceiveEnv.ofConfig casts files grpcServer cfgs = .ok env)
    {iface : String} {network : INetwork} (hnetwork : networkOf files cfgs iface = some network)
    (hdistinct : network.Distinct) {msg : IMessage} (hmsg : msg ∈ network.messages)
    (hid : msg.id.toNat < 2 ^ 32) {sig : ISignal} (hsig : sig ∈ msg.signals) (start : Int)
    {frame : CanFrame} (hraw : frame.decoded = []) :
    GraphOp.delivered start (iface, msg.id.setWidth 32, sig.name) (.update (env.decoded frame)) =
      plotted casts start iface msg sig [frame] := by
  obtain ⟨hheader, -, htimestamp⟩ := decoded_eq env frame
  have hids : frame.header.id = msg.id.setWidth 32 ↔ frame.header.id.setWidth 64 = msg.id := by
    simp only [← BitVec.toNat_inj, BitVec.toNat_setWidth]
    have := frame.header.id.isLt
    omega
  by_cases hlistens : frame.header.interface = iface ∧ frame.header.id = msg.id.setWidth 32
  · obtain ⟨hiface, hheaderId⟩ := hlistens
    have hmsgId := hids.mp hheaderId
    have hdecoded := decoded_of_message henv hnetwork hdistinct.ids hmsg hiface hmsgId
    simp only [GraphOp.delivered, hheader, htimestamp, hiface, hheaderId, true_and, if_true]
    by_cases hlen : msg.messageSize ≤ frame.payload.length
    · rw [hdecoded, if_neg (Nat.not_lt.mpr hlen), DbcPppWrapper.decoded_decodeMessage, hraw,
        List.nil_append, find?_decodedSignal (hdistinct.names msg hmsg) hsig]
      by_cases hskip : DbcPppWrapper.skipped msg.muxSignal frame.payload sig = true
      · simp [plotted, hskip]
      · simp [plotted, hiface, hmsgId, hlen, hskip, DbcPppWrapper.decodedSignal]
    · rw [hdecoded, if_pos (Nat.lt_of_not_le hlen), hraw]
      simp [plotted, hlen]
  · have hnone : ¬ (frame.header.interface = iface ∧ frame.header.id.setWidth 64 = msg.id) := by
      rwa [← hids]
    simp only [GraphOp.delivered, hheader, if_neg hlistens]
    symm
    simp only [plotted, List.map_eq_nil_iff, List.filter_eq_nil_iff]
    intro frame' hframe' hall
    obtain rfl := List.mem_singleton.mp hframe'
    simp only [Bool.and_eq_true, decide_eq_true_eq] at hall
    exact hnone hall.1.1

/-- A name that is no signal of the message is in no decoded frame of it. -/
theorem delivered_of_no_signal (henv : ReceiveEnv.ofConfig casts files grpcServer cfgs = .ok env)
    {iface : String} {network : INetwork} (hnetwork : networkOf files cfgs iface = some network)
    (hdistinct : network.Distinct) {msg : IMessage} (hmsg : msg ∈ network.messages)
    (hid : msg.id.toNat < 2 ^ 32) {name : String} (hname : ∀ sig ∈ msg.signals, sig.name ≠ name)
    (start : Int) {frame : CanFrame} (hraw : frame.decoded = []) :
    GraphOp.delivered start (iface, msg.id.setWidth 32, name) (.update (env.decoded frame)) = [] := by
  obtain ⟨hheader, -, -⟩ := decoded_eq env frame
  rw [GraphOp.delivered]
  split
  · next hlistens =>
    obtain ⟨hiface, hframeId⟩ := hlistens
    rw [hheader] at hiface hframeId
    have hmsgId : frame.header.id.setWidth 64 = msg.id := by
      simp only [← BitVec.toNat_inj, BitVec.toNat_setWidth] at hframeId ⊢
      have := frame.header.id.isLt
      omega
    have hnone : (env.decoded frame).decoded.find? (fun s => s.name = name) = none := by
      rw [decoded_of_message henv hnetwork hdistinct.ids hmsg hiface hmsgId, List.find?_eq_none]
      intro s hs
      split at hs
      · rw [hraw] at hs
        cases hs
      · rw [DbcPppWrapper.decoded_decodeMessage, hraw, List.nil_append] at hs
        obtain ⟨sig, hsig, rfl⟩ := List.mem_map.mp hs
        have hother : sig.name ≠ name := hname sig (List.mem_of_mem_filter hsig)
        simp [DbcPppWrapper.decodedSignal, hother]
    rw [hnone]
    rfl
  · rfl

theorem plotted_flatMap (casts : BitCasts) (start : Int) (iface : String) (msg : IMessage)
    (sig : ISignal) (frames : List CanFrame) :
    (frames.flatMap fun frame => plotted casts start iface msg sig [frame]) =
      plotted casts start iface msg sig frames := by
  induction frames with
  | nil => rfl
  | cons frame frames ih =>
    rw [List.flatMap_cons, ih, plotted, plotted, plotted, ← List.map_append, ← List.filter_append]
    rfl

theorem holds_plotted (henv : ReceiveEnv.ofConfig casts files grpcServer cfgs = .ok env)
    {iface : String} {network : INetwork} (hnetwork : networkOf files cfgs iface = some network)
    (hdistinct : network.Distinct) {msg : IMessage} (hmsg : msg ∈ network.messages)
    (hid : msg.id.toNat < 2 ^ 32) {sig : ISignal} (hsig : sig ∈ msg.signals) {start : Int}
    {s : SignalSeries} (hempty : s.Holds [])
    (hkey : s.key = (iface, msg.id.setWidth 32, sig.name)) {frames : List CanFrame}
    (hraw : ∀ frame ∈ frames, frame.decoded = []) :
    (s.updates start (frames.map env.decoded)).Holds (plotted casts start iface msg sig frames) := by
  have hholds := (holds_updates start (frames.map env.decoded) hempty).2
  rw [List.nil_append, List.flatMap_map, hkey] at hholds
  have hsamples : (frames.flatMap fun frame => GraphOp.delivered start
      (iface, msg.id.setWidth 32, sig.name) (.update (env.decoded frame))) =
      plotted casts start iface msg sig frames := by
    rw [← plotted_flatMap, List.flatMap_def, List.flatMap_def]
    congr 1
    apply List.map_congr_left
    intro frame hframe
    exact delivered_decoded henv hnetwork hdistinct hmsg hid hsig start (hraw frame hframe)
  rwa [hsamples] at hholds

/-- Nothing is plotted for it. -/
theorem holds_of_no_signal (henv : ReceiveEnv.ofConfig casts files grpcServer cfgs = .ok env)
    {iface : String} {network : INetwork} (hnetwork : networkOf files cfgs iface = some network)
    (hdistinct : network.Distinct) {msg : IMessage} (hmsg : msg ∈ network.messages)
    (hid : msg.id.toNat < 2 ^ 32) {name : String} (hname : ∀ sig ∈ msg.signals, sig.name ≠ name)
    {start : Int} {s : SignalSeries} (hempty : s.Holds [])
    (hkey : s.key = (iface, msg.id.setWidth 32, name)) {frames : List CanFrame}
    (hraw : ∀ frame ∈ frames, frame.decoded = []) :
    (s.updates start (frames.map env.decoded)).Holds [] := by
  have hholds := (holds_updates start (frames.map env.decoded) hempty).2
  rw [List.nil_append, List.flatMap_map, hkey] at hholds
  have hsamples : (frames.flatMap fun frame => GraphOp.delivered start
      (iface, msg.id.setWidth 32, name) (.update (env.decoded frame))) = [] := by
    rw [List.flatMap_eq_nil_iff]
    intro frame hframe
    exact delivered_of_no_signal henv hnetwork hdistinct hmsg hid hname start (hraw frame hframe)
  rwa [hsamples] at hholds

open GraphPreset in
/-- **What a preset plots.** After any frames: the GUI has a tab for each graph of the preset; a tab
has a series for each of its entries that can be resolved, and no two of one signal; and each series
has the id of a message of the DBC of its interface, which its label names. Where the ids of this DBC
and the names of the signals are distinct, the series holds the last 10000 physical values of the
signal in the frames of the message, with their times; and nothing, if the message has no such
signal. -/
theorem preset_plots {conv : YAML.Conversions} {yamlFiles : String → Except String YAML.Node}
    {graphsFile : String} {nodes : List YAML.Node} {start : Int} {window : GraphWindow}
    {ifaceIndex : UnorderedMap String DbcIndex} (hfile : graphsFile ≠ "")
    (hyaml : yamlFiles graphsFile = .ok (.sequence nodes))
    (hindex : buildIfaceIndex files cfgs = .ok ifaceIndex)
    (hload : loadGraphPreset conv files yamlFiles cfgs graphsFile { start := start } = .ok window)
    (henv : ReceiveEnv.ofConfig casts files grpcServer cfgs = .ok env) {frames : List CanFrame}
    (hraw : ∀ frame ∈ frames, frame.decoded = []) :
    List.Forall₂ (fun (node : YAML.Node) (tab : GraphTab) =>
      (tab.series.map SignalSeries.key).Nodup ∧
      (∀ signals, node.get "signals" = .ok signals →
        Covers conv ifaceIndex cfgs (signalItems signals) tab) ∧
      ∀ s ∈ tab.series, ∃ network msg,
        NamesMessage files cfgs s.interface s.msgId s.signalName s.label network msg ∧
          (network.Distinct → msg.id.toNat < 2 ^ 32 →
            (∀ sig ∈ msg.signals, sig.name = s.signalName →
              s.Holds (plotted casts start s.interface msg sig frames)) ∧
            ((∀ sig ∈ msg.signals, sig.name ≠ s.signalName) → s.Holds [])))
      nodes (window.updates (frames.map env.decoded)).graphs := by
  have hloop : nodes.foldlM (loadGraph conv ifaceIndex cfgs) { start := start } = .ok window := by
    rw [loadGraphPreset, if_neg hfile, hindex] at hload
    simpa [hyaml] using hload
  obtain ⟨tabs, rfl, hmakes⟩ := forall₂_makesTab hindex hloop
  rw [GraphWindow.graphs_updates, List.forall₂_map_right_iff]
  apply hmakes.imp
  intro node tab hmakesTab
  have hkept : ∀ s ∈ tab.series, (s.updates start (frames.map env.decoded)).key = s.key ∧
      (s.updates start (frames.map env.decoded)).label = s.label :=
    fun s hs => (holds_updates start _ (hmakesTab.fresh.empty s hs)).1
  refine ⟨?_, ?_, ?_⟩
  · have hkeys : (tab.series.map (SignalSeries.updates start (frames.map env.decoded))).map
        SignalSeries.key = tab.series.map SignalSeries.key := by
      rw [List.map_map]
      exact List.map_congr_left fun s hs => (hkept s hs).1
    rw [hkeys]
    exact hmakesTab.fresh.distinct
  · intro signals hsignals item hitem spec hspec
    obtain ⟨s, hs, hkey⟩ := hmakesTab.covers signals hsignals item hitem spec hspec
    exact ⟨_, List.mem_map_of_mem hs, (hkept s hs).1.trans hkey⟩
  · intro s' hs'
    obtain ⟨s, hs, rfl⟩ := List.mem_map.mp hs'
    obtain ⟨hkey, hlabel⟩ := hkept s hs
    simp only [SignalSeries.key, Prod.mk.injEq] at hkey
    obtain ⟨hiface, hmsgId, hsignalName⟩ := hkey
    obtain ⟨network, msg, hnetwork, hmsg, hid, hname⟩ := hmakesTab.fresh.named s hs
    rw [hiface, hmsgId, hsignalName, hlabel]
    refine ⟨network, msg, ⟨hnetwork, hmsg, hid, hname⟩, ?_⟩
    intro hdistinct hsmall
    constructor
    · intro sig hsig hsigName
      refine holds_plotted henv hnetwork hdistinct hmsg hsmall hsig
        (hmakesTab.fresh.empty s hs) ?_ hraw
      rw [SignalSeries.key, hid, hsigName]
    · intro hnoSignal
      refine holds_of_no_signal henv hnetwork hdistinct hmsg hsmall hnoSignal
        (hmakesTab.fresh.empty s hs) ?_ hraw
      rw [SignalSeries.key, hid]

end Plots

/-! ### One graph -/

/-- A graph with the speed, a message that no DBC has, and a signal that the message does not have. -/
def speedGraph : YAML.Node :=
  .map [(.scalar "name", .scalar "speed"),
    (.scalar "signals", .sequence [
      .map [(.scalar "msg", .scalar "Status"), (.scalar "signal", .scalar "Speed")],
      .map [(.scalar "msg", .scalar "Other"), (.scalar "signal", .scalar "Speed")],
      .map [(.scalar "msg", .scalar "Status"), (.scalar "signal", .scalar "Bogus")]])]

def speedFiles : String → DbcFile := fun _ => .network (statusNetwork "Speed")

def speedCfgs : List InterfaceConfig := [⟨"vcan0", "status.dbc", ""⟩]

def speedFrame (byte : BitVec 8) (timestamp : Int) : CanFrame where
  header := ⟨0x100, "vcan0", 1⟩
  payload := [byte]
  timestamp := timestamp

def speedWindow : GraphWindow where
  graphs := [{ name := "speed", series := [
    { interface := "vcan0", msgId := 0x100, signalName := "Speed", label := "Status/Speed",
      yMax := 255 },
    { interface := "vcan0", msgId := 0x100, signalName := "Bogus", label := "Status/Bogus" }] }]
  start := 0

def speedFrames : List CanFrame := [speedFrame 7 5000000000, speedFrame 9 6000000000]

theorem speed_distinct : (statusNetwork "Speed").Distinct :=
  ⟨List.nodup_singleton _, fun msg hmsg => by
    cases List.mem_singleton.mp hmsg
    exact List.nodup_singleton _⟩

/-- The speed is plotted, and nothing else; the series of the other signal is there, and empty. -/
theorem preset_plots_speed :
    ∃ env : ReceiveEnv Protobuf.wire,
      ReceiveEnv.ofConfig BitCasts.zero speedFiles false speedCfgs = .ok env ∧
      ∃ tab, (speedWindow.updates (speedFrames.map env.decoded)).graphs = [tab] ∧
        ∀ s ∈ tab.series, (s.signalName = "Speed" → s.xs = [5, 6] ∧ s.ys = [7, 9]) ∧
          (s.signalName = "Bogus" → s.xs = [] ∧ s.ys = []) := by
  obtain ⟨env, henv⟩ : ∃ env : ReceiveEnv Protobuf.wire,
      ReceiveEnv.ofConfig BitCasts.zero speedFiles false speedCfgs = .ok env := ⟨_, rfl⟩
  have hload : loadGraphPreset YAML.Conversions.decimal speedFiles
      (fun _ => .ok (.sequence [speedGraph])) speedCfgs "graphs.yaml" { start := 0 } =
        .ok speedWindow := rfl
  obtain ⟨ifaceIndex, hindex⟩ : ∃ ifaceIndex,
      GraphPreset.buildIfaceIndex speedFiles speedCfgs = .ok ifaceIndex := ⟨_, rfl⟩
  have hall := preset_plots (by decide) rfl hindex hload henv
    (by decide : ∀ frame ∈ speedFrames, frame.decoded = [])
  refine ⟨env, henv, ?_⟩
  obtain ⟨tab, rest, ⟨-, -, hplots⟩, hrest, hgraphs⟩ := List.forall₂_cons_left_iff.mp hall
  rw [List.forall₂_nil_left_iff] at hrest
  refine ⟨tab, by rw [hgraphs, hrest], ?_⟩
  intro s hs
  obtain ⟨network, msg, ⟨hnetwork, hmsg, -, -⟩, hholds⟩ := hplots s hs
  have hiface : s.interface = "vcan0" := by
    by_contra hne
    have hnone : networkOf speedFiles speedCfgs s.interface = none := by
      simp [networkOf, speedCfgs, Ne.symm hne]
    rw [hnone] at hnetwork
    cases hnetwork
  rw [hiface] at hnetwork
  cases hnetwork
  cases List.mem_singleton.mp hmsg
  obtain ⟨hplotted, hempty⟩ := hholds speed_distinct (by decide)
  constructor
  · intro hname
    obtain ⟨hxs, hys⟩ := hplotted _ List.mem_cons_self hname.symm
    rw [hiface] at hxs hys
    refine ⟨hxs.trans ?_, hys.trans ?_⟩
    · decide +kernel
    · decide +kernel
  · intro hname
    apply hempty
    intro sig hsig
    cases List.mem_singleton.mp hsig
    rw [hname]
    decide

end Caneo
