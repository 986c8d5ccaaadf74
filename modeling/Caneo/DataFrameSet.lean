import Caneo.CanFrame
import Caneo.Containers
import Mathlib.Data.List.Induction

/-!
# `DataFrameSet`

The frames of one interface that a view shows (`src/frame/DataFrameSet.cpp`): a row for every id,
with the last frame of this id. A frame without decoded signals keeps those of the row, and the name
too if it has none. Rows do not influence each other (`frames_updates`).
-/

namespace Caneo

open BitField Containers

structure DataFrameSet where
  interface : String
  frames : UnorderedMap (BitVec 32) CanFrame := UnorderedMap.empty
  deltas : UnorderedMap (BitVec 32) Int := UnorderedMap.empty

namespace CanFrame

/-- A frame that was not decoded, after the row it comes to, which was. -/
def mergedInto (frame old : CanFrame) : CanFrame :=
  let merged := old.decoded.foldl addDecoded frame
  if merged.msgName.isEmpty then merged.setMsgName old.msgName else merged

/-- What is stored for a frame that comes to a row. -/
def storedOver (frame : CanFrame) : Option CanFrame → CanFrame
  | none => frame
  | some old =>
    if frame.decoded.isEmpty && !old.decoded.isEmpty then frame.mergedInto old else frame

end CanFrame

namespace DataFrameSet

def update (set : DataFrameSet) (frame : CanFrame) : DataFrameSet :=
  let id := frame.header.id
  { set with
    frames := set.frames.set id (frame.storedOver (set.frames id))
    deltas := match set.frames id with
      | none => set.deltas
      | some old => set.deltas.set id (frame.timestamp - old.timestamp) }

def delta (set : DataFrameSet) (id : BitVec 32) : Option Int := set.deltas id

/-- The rows after these frames. -/
def updates (set : DataFrameSet) (frames : List CanFrame) : DataFrameSet := frames.foldl update set

/-! ### Rows -/

/-- What a row becomes when a frame comes to it. -/
def nextRow (row : Option CanFrame) (frame : CanFrame) : Option CanFrame :=
  some (frame.storedOver row)

theorem frames_update (set : DataFrameSet) (frame : CanFrame) (id : BitVec 32) :
    (set.update frame).frames id =
      if frame.header.id = id then nextRow (set.frames id) frame else set.frames id := by
  change set.frames.set frame.header.id (frame.storedOver (set.frames frame.header.id)) id = _
  rw [UnorderedMap.set_apply]
  by_cases hid : frame.header.id = id
  · rw [if_pos hid.symm, if_pos hid, hid]
    rfl
  · rw [if_neg (Ne.symm hid), if_neg hid]

theorem deltas_update (set : DataFrameSet) (frame : CanFrame) (id : BitVec 32) :
    (set.update frame).deltas id =
      if frame.header.id = id then
        ((set.frames id).map fun old => frame.timestamp - old.timestamp).or (set.deltas id)
      else set.deltas id := by
  by_cases hid : frame.header.id = id
  · subst hid
    rw [if_pos rfl]
    unfold update
    dsimp only
    cases set.frames frame.header.id with
    | none => rfl
    | some old => exact UnorderedMap.set_self _ _ _
  · rw [if_neg hid]
    unfold update
    dsimp only
    cases set.frames frame.header.id with
    | none => rfl
    | some old => exact UnorderedMap.set_ne _ _ (Ne.symm hid)

/-- A row is made of the frames with its id. -/
theorem frames_updates (set : DataFrameSet) (frames : List CanFrame) (id : BitVec 32) :
    (set.updates frames).frames id =
      (frames.filter fun frame => frame.header.id = id).foldl nextRow (set.frames id) := by
  induction frames generalizing set with
  | nil => rfl
  | cons frame frames ih =>
    rw [updates, List.foldl_cons]
    refine (ih (set.update frame)).trans ?_
    rw [frames_update]
    by_cases hid : frame.header.id = id
    · rw [if_pos hid, List.filter_cons_of_pos (by simpa using hid), List.foldl_cons]
    · rw [if_neg hid, List.filter_cons_of_neg (by simpa using hid)]

theorem foldl_addDecoded (signals : List DecodedSignal) (frame : CanFrame) :
    signals.foldl CanFrame.addDecoded frame =
      { frame with decoded := frame.decoded ++ signals } := by
  induction signals generalizing frame with
  | nil => simp
  | cons signal signals ih => simp [ih, CanFrame.addDecoded]

theorem decoded_foldl_addDecoded (signals : List DecodedSignal) (frame : CanFrame) :
    (signals.foldl CanFrame.addDecoded frame).decoded = frame.decoded ++ signals := by
  rw [foldl_addDecoded]

theorem msgName_foldl_addDecoded (signals : List DecodedSignal) (frame : CanFrame) :
    (signals.foldl CanFrame.addDecoded frame).msgName = frame.msgName := by
  rw [foldl_addDecoded]

/-- The signals of a row: the frame's, unless it has none. -/
theorem decoded_storedOver (frame : CanFrame) (row : Option CanFrame) :
    (frame.storedOver row).decoded =
      if frame.decoded.isEmpty then (row.map (·.decoded)).getD [] else frame.decoded := by
  cases row with
  | none =>
    rw [CanFrame.storedOver]
    split
    · next hempty => exact List.isEmpty_iff.mp hempty
    · rfl
  | some old =>
    rw [CanFrame.storedOver]
    by_cases hempty : frame.decoded.isEmpty = true
    · rw [if_pos hempty]
      by_cases hold : old.decoded.isEmpty = true
      · rw [if_neg (by simp [hold]), List.isEmpty_iff.mp hempty]
        exact (List.isEmpty_iff.mp hold).symm
      · rw [if_pos (by simp [hempty, hold]), CanFrame.mergedInto]
        split
        · rw [CanFrame.setMsgName, decoded_foldl_addDecoded, List.isEmpty_iff.mp hempty]
          rfl
        · rw [decoded_foldl_addDecoded, List.isEmpty_iff.mp hempty]
          rfl
    · rw [if_neg hempty, if_neg (by simp [hempty])]

/-- The name of a row is the frame's, or was the row's before. -/
theorem msgName_storedOver (frame : CanFrame) (row : Option CanFrame) :
    (frame.storedOver row).msgName = frame.msgName ∨
      ∃ old, row = some old ∧ (frame.storedOver row).msgName = old.msgName := by
  cases row with
  | none => exact Or.inl rfl
  | some old =>
    rw [CanFrame.storedOver]
    split
    · rw [CanFrame.mergedInto]
      split
      · exact Or.inr ⟨old, rfl, rfl⟩
      · exact Or.inl (msgName_foldl_addDecoded _ _)
    · exact Or.inl rfl

/-! ### A row in closed form -/

/-- The signals of the last frame that has any. -/
def lastDecoded (given : List CanFrame) : List DecodedSignal :=
  ((given.filter fun frame => !frame.decoded.isEmpty).getLast?.map (·.decoded)).getD []

/-- The time between the last two frames. -/
def lastDelta (given : List CanFrame) : Option Int :=
  given.getLast?.bind fun last =>
    given.dropLast.getLast?.map fun previous => last.timestamp - previous.timestamp

/-- All but the signals and the name are the frame's. -/
theorem storedOver_fields (frame : CanFrame) (row : Option CanFrame) :
    (frame.storedOver row).header = frame.header ∧
      (frame.storedOver row).payload = frame.payload ∧
      (frame.storedOver row).timestamp = frame.timestamp := by
  rcases row with _ | old
  · simp [CanFrame.storedOver]
  · rw [CanFrame.storedOver, CanFrame.mergedInto, foldl_addDecoded]
    split
    · split <;> simp [CanFrame.setMsgName]
    · simp

theorem foldl_nextRow_append (given : List CanFrame) (last : CanFrame) :
    (given ++ [last]).foldl nextRow none = some (last.storedOver (given.foldl nextRow none)) := by
  simp [List.foldl_append, nextRow]

/-- A frame without signals leaves the row's, and these are, by induction, the last there were. -/
theorem decoded_row (given : List CanFrame) :
    ((given.foldl nextRow none).map (·.decoded)).getD [] = lastDecoded given := by
  induction given using List.reverseRecOn with
  | nil => rfl
  | append_singleton given last ih =>
    rw [foldl_nextRow_append, Option.map_some, Option.getD_some, decoded_storedOver]
    by_cases hempty : last.decoded.isEmpty = true
    · rw [if_pos hempty, ih]
      simp [lastDecoded, List.filter_append, hempty]
    · rw [if_neg hempty]
      simp [lastDecoded, List.filter_append, hempty]

theorem row_eq_none (given : List CanFrame) : given.foldl nextRow none = none ↔ given = [] := by
  induction given using List.reverseRecOn with
  | nil => simp
  | append_singleton given last _ =>
    rw [foldl_nextRow_append]
    simp

theorem timestamp_row (given : List CanFrame) :
    (given.foldl nextRow none).map (·.timestamp) = given.getLast?.map (·.timestamp) := by
  induction given using List.reverseRecOn with
  | nil => rfl
  | append_singleton given last _ =>
    rw [foldl_nextRow_append]
    simp [storedOver_fields]

theorem lastDelta_append (given : List CanFrame) (last : CanFrame) :
    lastDelta (given ++ [last]) =
      given.getLast?.map fun previous => last.timestamp - previous.timestamp := by
  simp [lastDelta]

theorem deltas_updates (interface : String) (frames : List CanFrame) (id : BitVec 32) :
    (({ interface := interface } : DataFrameSet).updates frames).deltas id =
      lastDelta (frames.filter fun frame => frame.header.id = id) := by
  induction frames using List.reverseRecOn with
  | nil => rfl
  | append_singleton frames frame ih =>
    have hrow := frames_updates { interface := interface } frames id
    rw [updates, List.foldl_append, List.foldl_cons, List.foldl_nil, deltas_update]
    rw [← updates, ih, hrow, List.filter_append]
    by_cases hid : frame.header.id = id
    · -- the row holds the time of the frame before this one, if there was one
      rw [if_pos hid, List.filter_cons_of_pos (by simpa using hid), List.filter_nil,
        lastDelta_append]
      generalize frames.filter (fun frame => frame.header.id = id) = given
      have htime := congrArg (Option.map fun t => frame.timestamp - t) (timestamp_row given)
      rw [Option.map_map, Option.map_map] at htime
      refine (congrArg (Option.or · (lastDelta given)) htime).trans ?_
      rcases given.eq_nil_or_concat' with rfl | ⟨before, previous, rfl⟩
      · rfl
      · simp
    · rw [if_neg hid, List.filter_cons_of_neg (by simpa using hid), List.filter_nil,
        List.append_nil]

/-- What a view shows of an id after any frames: the last frame with this id, the signals of the
last one that was decoded, and the time between the last two. -/
theorem row_after_frames (interface : String) (frames : List CanFrame) (id : BitVec 32) :
    let set := ({ interface := interface } : DataFrameSet).updates frames
    let given := frames.filter fun frame => frame.header.id = id
    ((set.frames id).isSome ↔ ∃ frame ∈ frames, frame.header.id = id) ∧
      (∀ row, set.frames id = some row → ∃ last, given.getLast? = some last ∧
        row.header = last.header ∧ row.payload = last.payload ∧ row.timestamp = last.timestamp ∧
        row.decoded = lastDecoded given) ∧
      (∀ before previous last, given = before ++ [previous, last] →
        set.delta id = some (last.timestamp - previous.timestamp)) ∧
      (given.length ≤ 1 → set.delta id = none) ∧
      ∀ others, others.filter (fun frame => frame.header.id = id) = given →
        let set' := ({ interface := interface } : DataFrameSet).updates others
        set'.frames id = set.frames id ∧ set'.delta id = set.delta id := by
  intro set given
  have hrow : set.frames id = given.foldl nextRow none := frames_updates _ frames id
  have hdelta : set.delta id = lastDelta given := deltas_updates interface frames id
  refine ⟨?_, ?_, ?_, ?_, ?_⟩
  · rw [hrow, ← Option.ne_none_iff_isSome, Ne, row_eq_none, List.filter_eq_nil_iff]
    simp
  · intro row hsome
    have hdecoded := decoded_row given
    rw [← hrow, hsome] at hdecoded
    rw [hrow] at hsome
    rcases given.eq_nil_or_concat' with hnil | ⟨before, last, hlast⟩
    · rw [(row_eq_none given).mpr hnil] at hsome
      exact absurd hsome (by simp)
    · rw [hlast, foldl_nextRow_append, Option.some.injEq] at hsome
      obtain ⟨hheader, hpayload, htime⟩ := storedOver_fields last (before.foldl nextRow none)
      rw [hsome] at hheader hpayload htime
      exact ⟨last, by simp [hlast], hheader, hpayload, htime, hdecoded⟩
  · intro before previous last hgiven
    rw [hdelta, hgiven, lastDelta]
    simp
  · intro hlength
    rw [hdelta, lastDelta]
    rcases given.eq_nil_or_concat' with hnil | ⟨before, last, hlast⟩
    · simp [hnil]
    · have hbefore : before = [] := by
        rw [hlast, List.length_append, List.length_singleton] at hlength
        exact List.length_eq_zero_iff.mp (by omega)
      simp [hlast, hbefore]
  · intro others hothers set'
    have hrow' : set'.frames id = given.foldl nextRow none := by
      rw [← hothers]
      exact frames_updates _ others id
    have hdelta' : set'.delta id = lastDelta given := by
      rw [← hothers]
      exact deltas_updates interface others id
    exact ⟨hrow'.trans hrow.symm, hdelta'.trans hdelta.symm⟩

end DataFrameSet

end Caneo
