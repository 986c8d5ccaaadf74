import Caneo.DataFrameSet
import Caneo.Playback
import Mathlib.Data.Finset.Card
import Mathlib.Combinatorics.Pigeonhole

/-!
# The rows of a replay

`McapReader::play` rebuilds a frame from a `/data` record with an id that it derives from the message
name: a name like `0x1A3` is read as a number, and of any other name the low eleven bits of its hash
are taken. The view that gets the frames has a row for every id.

So a name has a row of its own, with its own signals, exactly as long as no two delivered names of the
interface clash (`own_rows_iff`). More than 2048 names always do (`exists_clash`).
-/

namespace Caneo

open Runs Containers McapReader

/-! ### Derived identifiers -/

/-- The number that a name like `0x1A3` is read as. -/
def hexLiteral (msgName : String) : Option (BitVec 64) :=
  match msgName.toList with
  | '0' :: x :: c :: rest => if x = 'x' ∨ x = 'X' then stoulHex (c :: rest) else none
  | _ => none

/-- Two hashed names with the same low bits, two literals of the same 32-bit number, or a literal
that is the number of a hashed name. -/
def Clash (hash : String → BitVec 64) (m n : String) : Prop :=
  match hexLiteral m, hexLiteral n with
  | some a, some b => a.toNat % 2 ^ 32 = b.toNat % 2 ^ 32
  | some a, none => a.toNat % 2 ^ 32 = (hash n).toNat % 2 ^ 11
  | none, some b => (hash m).toNat % 2 ^ 11 = b.toNat % 2 ^ 32
  | none, none => (hash m).toNat % 2 ^ 11 = (hash n).toNat % 2 ^ 11

theorem toNat_hashId (h : BitVec 64) :
    ((h &&& 0x7FF#64).setWidth 32).toNat = h.toNat % 2 ^ 11 := by
  rw [BitVec.toNat_setWidth, BitVec.toNat_and]
  have hmask : h.toNat &&& (0x7FF#64).toNat = h.toNat % 2 ^ 11 :=
    Nat.and_two_pow_sub_one_eq_mod h.toNat 11
  rw [hmask]
  omega

theorem toNat_deriveCanId_of_some (hash : String → BitVec 64) {name : String} {id : BitVec 64}
    (h : hexLiteral name = some id) : (deriveCanId hash name).toNat = id.toNat % 2 ^ 32 := by
  unfold deriveCanId
  dsimp only
  split
  · next id' hparsed =>
    cases hparsed.symm.trans h
    exact BitVec.toNat_setWidth 32 id
  · next hparsed => cases hparsed.symm.trans h

theorem toNat_deriveCanId_of_none (hash : String → BitVec 64) {name : String}
    (h : hexLiteral name = none) : (deriveCanId hash name).toNat = (hash name).toNat % 2 ^ 11 := by
  unfold deriveCanId
  dsimp only
  split
  · next id hparsed => cases hparsed.symm.trans h
  · exact toNat_hashId (hash name)

theorem deriveCanId_eq_iff (hash : String → BitVec 64) (m n : String) :
    deriveCanId hash m = deriveCanId hash n ↔ Clash hash m n := by
  rw [← BitVec.toNat_inj, Clash]
  cases hm : hexLiteral m with
  | some a =>
    rw [toNat_deriveCanId_of_some hash hm]
    cases hn : hexLiteral n with
    | some b => rw [toNat_deriveCanId_of_some hash hn]
    | none => rw [toNat_deriveCanId_of_none hash hn]
  | none =>
    rw [toNat_deriveCanId_of_none hash hm]
    cases hn : hexLiteral n with
    | some b => rw [toNat_deriveCanId_of_some hash hn]
    | none => rw [toNat_deriveCanId_of_none hash hn]

/-- More names than there are values of eleven bits. -/
theorem exists_clash (hash : String → BitVec 64) {names : Finset String} (hcard : 2 ^ 11 < names.card)
    (hnames : ∀ n ∈ names, hexLiteral n = none) :
    ∃ m ∈ names, ∃ n ∈ names, m ≠ n ∧ Clash hash m n := by
  have hrange : ∀ n ∈ names, (hash n).toNat % 2 ^ 11 ∈ Finset.range (2 ^ 11) := by
    intro n _
    exact Finset.mem_range.mpr (Nat.mod_lt _ (by decide))
  have hlt : (Finset.range (2 ^ 11)).card < names.card := by
    rwa [Finset.card_range]
  obtain ⟨m, hm, n, hn, hne, heq⟩ := Finset.exists_ne_map_eq_of_card_lt_of_maps_to hlt hrange
  refine ⟨m, hm, n, hn, hne, ?_⟩
  rw [Clash, hnames m hm, hnames n hn]
  exact heq

/-! ### Frames of a replay -/

/-- The frames that were passed to the views of an interface. -/
def replayedFrames (iface : String) (calls : List (mcap.Message × Delivery)) : List CanFrame :=
  calls.filterMap fun call =>
    match call.2 with
    | .onFrame frame => if frame.header.interface = iface then some frame else none
    | .onSend .. => none

/-- The signals that the frames of a name leave when they are alone: those of the last frame that has
any. -/
def ownSignals (name : String) (frames : List CanFrame) : List DecodedSignal :=
  (frames.filter fun frame => frame.msgName = name).foldl
    (fun signals frame => if frame.decoded.isEmpty then signals else frame.decoded) []

/-- The name has a row with its own signals. -/
def DataFrameSet.HasOwnRow (set : DataFrameSet) (frames : List CanFrame) (name : String) : Prop :=
  ∃ id row, set.frames id = some row ∧ row.msgName = name ∧ row.decoded = ownSignals name frames

/-- Frames of different names have different ids. -/
def DistinctIds (frames : List CanFrame) : Prop :=
  ∀ f ∈ frames, ∀ g ∈ frames, f.msgName ≠ g.msgName → f.header.id ≠ g.header.id

/-- No two names clash. -/
def NoClash (hash : String → BitVec 64) (frames : List CanFrame) : Prop :=
  ∀ f ∈ frames, ∀ g ∈ frames, f.msgName ≠ g.msgName → ¬ Clash hash f.msgName g.msgName

variable {pb : Protobuf}

/-- A rebuilt frame has the id of its name. -/
theorem id_of_handed {r : Replay pb} {now : Int} {view : mcap.Message} {frame : CanFrame}
    (h : r.handed now view = some (.onFrame frame)) :
    frame.header.id = deriveCanId r.hash frame.msgName := by
  obtain ⟨hdeliver, -⟩ := Option.filter_eq_some_iff.mp h
  obtain ⟨channel, -, hkind⟩ := Option.bind_eq_some_iff.mp hdeliver
  dsimp only at hkind
  split at hkind
  · cases hkind
  · obtain ⟨m, -, hframe⟩ := Option.map_eq_some_iff.mp hkind
    cases hframe
    rfl
  · obtain ⟨m, -, hsend⟩ := Option.bind_eq_some_iff.mp hkind
    unfold rawSend at hsend
    split at hsend
    · cases hsend
    · cases hsend

theorem id_of_replayedFrames {r : Replay pb} {calls : List (mcap.Message × Delivery)}
    (hcalls : ∀ call ∈ calls, ∃ now, r.handed now call.1 = some call.2) (iface : String) :
    ∀ frame ∈ replayedFrames iface calls,
      frame.header.id = deriveCanId r.hash frame.msgName := by
  intro frame hframe
  obtain ⟨⟨view, d⟩, hmem, hsome⟩ := List.mem_filterMap.mp hframe
  obtain ⟨now, hhanded⟩ := hcalls _ hmem
  dsimp only at hsome hhanded
  split at hsome
  · split at hsome
    · cases hsome
      exact id_of_handed hhanded
    · cases hsome
  · cases hsome

/-! ### Rows -/

section Rows

variable {frames : List CanFrame}

/-- A row is named after one of the frames that came to it. -/
theorem msgName_row {row : Option CanFrame} {P : String → Prop}
    (hrow : ∀ old, row = some old → P old.msgName) (hframes : ∀ frame ∈ frames, P frame.msgName)
    {final : CanFrame} (hfinal : frames.foldl DataFrameSet.nextRow row = some final) :
    P final.msgName := by
  induction frames generalizing row with
  | nil => exact hrow final hfinal
  | cons frame frames ih =>
    refine ih ?_ (fun g hg => hframes g (List.mem_cons_of_mem _ hg)) hfinal
    rintro stored ⟨⟩
    rcases DataFrameSet.msgName_storedOver frame row with hname | ⟨old, hold, hname⟩
    · rw [hname]
      exact hframes frame List.mem_cons_self
    · rw [hname]
      exact hrow old hold

/-- The signals of a row are those of the last frame that had any. -/
theorem decoded_row (row : Option CanFrame) {final : CanFrame}
    (hfinal : frames.foldl DataFrameSet.nextRow row = some final) :
    final.decoded = frames.foldl
      (fun signals frame => if frame.decoded.isEmpty then signals else frame.decoded)
      ((row.map (·.decoded)).getD []) := by
  induction frames generalizing row with
  | nil =>
    change row = some final at hfinal
    rw [hfinal]
    rfl
  | cons frame frames ih =>
    rw [List.foldl_cons] at hfinal ⊢
    rw [ih _ hfinal, ← DataFrameSet.decoded_storedOver]
    rfl

theorem isSome_foldl_nextRow (frames : List CanFrame) {row : Option CanFrame}
    (hrow : row.isSome = true) : (frames.foldl DataFrameSet.nextRow row).isSome = true := by
  induction frames generalizing row with
  | nil => exact hrow
  | cons frame frames ih => exact ih rfl

theorem exists_row {frame : CanFrame} (hmem : frame ∈ frames) :
    ∃ final, frames.foldl DataFrameSet.nextRow none = some final := by
  cases frames with
  | nil => cases hmem
  | cons first rest => exact Option.isSome_iff_exists.mp (isSome_foldl_nextRow rest rfl)

variable {hash : String → BitVec 64} {iface : String}

theorem distinctIds_iff
    (hid : ∀ frame ∈ frames, frame.header.id = deriveCanId hash frame.msgName) :
    DistinctIds frames ↔ NoClash hash frames := by
  refine forall₂_congr fun f hf => forall₂_congr fun g hg => imp_congr_right fun _ => ?_
  rw [hid f hf, hid g hg, Ne, deriveCanId_eq_iff]

/-- Without a clash, the frames with the id of a name are the frames of this name. -/
theorem NoClash.filter_eq (hno : NoClash hash frames)
    (hid : ∀ frame ∈ frames, frame.header.id = deriveCanId hash frame.msgName)
    {frame : CanFrame} (hmem : frame ∈ frames) :
    (frames.filter fun g => g.header.id = frame.header.id) =
      frames.filter fun g => g.msgName = frame.msgName := by
  apply List.filter_congr
  intro g hg
  rw [decide_eq_decide]
  constructor
  · intro hsame
    by_contra hne
    exact (distinctIds_iff hid).mpr hno g hg frame hmem hne hsame
  · intro hname
    rw [hid g hg, hid frame hmem, hname]

theorem NoClash.hasOwnRow (hno : NoClash hash frames)
    (hid : ∀ frame ∈ frames, frame.header.id = deriveCanId hash frame.msgName)
    {frame : CanFrame} (hmem : frame ∈ frames) :
    (DataFrameSet.updates { interface := iface } frames).HasOwnRow frames frame.msgName := by
  have hown : frame ∈ frames.filter fun g => g.msgName = frame.msgName :=
    List.mem_filter.mpr ⟨hmem, by simp⟩
  obtain ⟨row, hrow⟩ := exists_row hown
  refine ⟨frame.header.id, row, ?_, ?_, decoded_row none hrow⟩
  · rw [DataFrameSet.frames_updates, hno.filter_eq hid hmem]
    exact hrow
  · refine msgName_row (P := (· = frame.msgName)) ?_ ?_ hrow
    · rintro old ⟨⟩
    · intro g hg
      simpa using (List.mem_filter.mp hg).2

/-- A row has the id of its name. -/
theorem id_of_row (hid : ∀ frame ∈ frames, frame.header.id = deriveCanId hash frame.msgName)
    {id : BitVec 32} {row : CanFrame}
    (hrow : (DataFrameSet.updates { interface := iface } frames).frames id = some row) :
    deriveCanId hash row.msgName = id := by
  rw [DataFrameSet.frames_updates] at hrow
  refine msgName_row (P := fun name => deriveCanId hash name = id) ?_ ?_ hrow
  · rintro old ⟨⟩
  · intro frame hframe
    obtain ⟨hmem, hsame⟩ := List.mem_filter.mp hframe
    rw [← hid frame hmem]
    simpa using hsame

theorem hasOwnRow_iff
    (hid : ∀ frame ∈ frames, frame.header.id = deriveCanId hash frame.msgName) :
    (∀ frame ∈ frames,
        (DataFrameSet.updates { interface := iface } frames).HasOwnRow frames frame.msgName) ↔
      NoClash hash frames := by
  constructor
  · intro hall f hf g hg hne hclash
    obtain ⟨idf, rowf, hrowf, hnamef, -⟩ := hall f hf
    obtain ⟨idg, rowg, hrowg, hnameg, -⟩ := hall g hg
    have hsame : idf = idg := by
      rw [← id_of_row hid hrowf, ← id_of_row hid hrowg, hnamef, hnameg]
      exact (deriveCanId_eq_iff hash _ _).mpr hclash
    rw [hsame, hrowg] at hrowf
    cases hrowf
    exact hne (hnamef.symm.trans hnameg)
  · intro hno frame hmem
    exact hno.hasOwnRow hid hmem

end Rows

/-- **Rows of a replay.** After any run of the playback, of any log: the frames that an interface got
under different names have different ids if and only if no two of these names clash; and every one of
the names has a row of its own with its own signals if and only if no two of them clash. -/
theorem own_rows_iff (r : Replay pb) (views : List mcap.Message) (ctrl : PlaybackController)
    (ls : List Player.Label) (iface : String) :
    let frames :=
      replayedFrames iface (run (Player.step r) (Replay.start views ctrl) ls).calls
    (DistinctIds frames ↔ NoClash r.hash frames) ∧
    ((∀ frame ∈ frames,
        (DataFrameSet.updates { interface := iface } frames).HasOwnRow frames frame.msgName) ↔
      NoClash r.hash frames) := by
  intro frames
  have hcalls : ∀ call ∈ (run (Player.step r) (Replay.start views ctrl) ls).calls,
      ∃ now, r.handed now call.1 = some call.2 := by
    refine Player.handed_of_calls ?_
    intro call hcall
    cases hcall
  have hid := id_of_replayedFrames hcalls iface
  exact ⟨distinctIds_iff hid, hasOwnRow_iff hid⟩

/-! ### Two messages with the same id

libstdc++ hashes both names to a number whose low bits are `0x3E2`. -/

def twinFile : FileDescriptorProto where
  name := "vcan0"
  messageType := [
    { name := "M4", field := [
      { name := "A", number := 1, type := .TYPE_DOUBLE, label := .LABEL_OPTIONAL }] },
    { name := "M13", field := [
      { name := "B", number := 1, type := .TYPE_DOUBLE, label := .LABEL_OPTIONAL }] }]

def twinHash (name : String) : BitVec 64 :=
  if name = "M4" then 0xED8DA8F0F138B3E2 else if name = "M13" then 0xB6F1604598F273E2 else 0

/-- A record of the message `name`, with the value `v` of its signal. -/
def twinRecord (logger : McapLogger) (name signal : String) (v : ℚ) : McapLogger :=
  match Protobuf.wire.builtIn twinFile name with
  | none => logger
  | some desc => logger.write ("vcan0/" ++ name ++ "/data") desc
      ((DynamicMessage.new desc).withField signal fun m f => m.setDouble f v).serializeToString 0

def twinLog : mcap.File := (twinRecord (twinRecord {} "M4" "A" 1) "M13" "B" 2).writer

def twinReplay : Replay Protobuf.wire where
  hash := twinHash
  file := twinLog

/-- Both records are played. -/
def playTwins : List Player.Label := [.toggle "vcan0"] ++ plays 0 10

def twinFrames : List CanFrame :=
  replayedFrames "vcan0" (run (Player.step twinReplay)
    (Replay.start twinLog.messages (PlaybackController.new ["vcan0"])) playTwins).calls

/-- Both frames come with the id `0x3E2`, and the second takes the row of the first. -/
theorem lost_row_twins :
    twinFrames.map (fun frame => (frame.header.id, frame.msgName)) =
      [(0x3E2, "M4"), (0x3E2, "M13")] ∧
    ¬ DistinctIds twinFrames ∧
    ¬ ∀ frame ∈ twinFrames,
      (DataFrameSet.updates { interface := "vcan0" } twinFrames).HasOwnRow twinFrames
        frame.msgName := by
  have hframes : twinFrames.map (fun frame => (frame.header.id, frame.msgName)) =
      [(0x3E2, "M4"), (0x3E2, "M13")] := by decide +kernel
  have hid : ∀ frame ∈ twinFrames, frame.header.id = deriveCanId twinHash frame.msgName := by
    decide +kernel
  have hsame : ¬ DistinctIds twinFrames := by
    obtain ⟨f, rest, hrest, hf, hmap⟩ := List.map_eq_cons_iff.mp hframes
    obtain ⟨g, rest', hnil, hg, -⟩ := List.map_eq_cons_iff.mp hmap
    intro hdistinct
    rw [hrest, hnil] at hdistinct
    refine hdistinct f List.mem_cons_self g (List.mem_cons_of_mem _ List.mem_cons_self) ?_ ?_
    · rw [(Prod.mk.inj hf).2, (Prod.mk.inj hg).2]
      decide
    · rw [(Prod.mk.inj hf).1, (Prod.mk.inj hg).1]
  refine ⟨hframes, hsame, ?_⟩
  rwa [hasOwnRow_iff hid, ← distinctIds_iff hid]

end Caneo
