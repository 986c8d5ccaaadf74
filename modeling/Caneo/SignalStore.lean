import Caneo.CanFrame
import Caneo.Containers
import Mathlib.Data.List.Find
import Mathlib.Data.List.Induction

/-!
# `SignalStore`

The current values a model script reads (`src/model/SignalStore.cpp`), in one flat map under
`<interface>/<message>/<signal>`. The three parts may be read off a key whose parts have no `/`,
and no other triple, whatever it contains, has the same key (`key_inj`); so a lookup finds what was
last received under its own triple, or nothing.
-/

namespace Caneo

open Containers

structure SignalStore where
  values : UnorderedMap String ℚ := UnorderedMap.empty

namespace SignalStore

def update (store : SignalStore) (frame : CanFrame) : SignalStore :=
  let front := frame.header.interface ++ "/" ++ frame.msgName ++ "/"
  { values := frame.decoded.foldl (fun values sig => values.set (front ++ sig.name) sig.value)
      store.values }

def get (store : SignalStore) (iface msg signal : String) : Option ℚ :=
  let key := iface ++ "/" ++ msg ++ "/" ++ signal
  store.values key

/-- What a script gets: `get_signal` answers 0 for a signal that was not seen. -/
def getSignal (store : SignalStore) (iface msg signal : String) : ℚ :=
  (store.get iface msg signal).getD 0

/-- The store after these frames. -/
def updates (store : SignalStore) (frames : List CanFrame) : SignalStore :=
  frames.foldl update store

/-! ### Keys -/

/-- What stands before the first separator, and what behind it. -/
theorem eq_of_append_separator {α : Type} {sep : α} {x y x' y' : List α} (hx : sep ∉ x)
    (hx' : sep ∉ x') (h : x ++ sep :: y = x' ++ sep :: y') : x = x' ∧ y = y' := by
  induction x generalizing x' with
  | nil =>
    rcases x' with _ | ⟨a, x'⟩
    · simpa using h
    · simp only [List.nil_append, List.cons_append, List.cons.injEq] at h
      exact absurd (h.1 ▸ List.mem_cons_self) hx'
  | cons a x ih =>
    rcases x' with _ | ⟨b, x'⟩
    · simp only [List.nil_append, List.cons_append, List.cons.injEq] at h
      exact absurd (h.1 ▸ List.mem_cons_self) hx
    · simp only [List.cons_append, List.cons.injEq] at h
      rcases h with ⟨rfl, h⟩
      rcases ih (List.not_mem_of_not_mem_cons hx) (List.not_mem_of_not_mem_cons hx') h
        with ⟨rfl, rfl⟩
      exact ⟨rfl, rfl⟩

def key (iface msg signal : String) : String := iface ++ "/" ++ msg ++ "/" ++ signal

theorem toList_key (iface msg signal : String) :
    (key iface msg signal).toList =
      iface.toList ++ '/' :: (msg.toList ++ '/' :: signal.toList) := by
  simp [key]

/-- A key has two separators more than its parts, so a triple with the key of one without
separators has none either, and then the parts can be told from each other. -/
theorem key_inj {iface msg signal : String} (hiface : '/' ∉ iface.toList)
    (hmsg : '/' ∉ msg.toList) (hsignal : '/' ∉ signal.toList) (iface' msg' signal' : String) :
    key iface msg signal = key iface' msg' signal' ↔
      iface = iface' ∧ msg = msg' ∧ signal = signal' := by
  refine ⟨fun h => ?_, fun ⟨h, h', h''⟩ => by rw [h, h', h'']⟩
  have hlist := congrArg String.toList h
  rw [toList_key, toList_key] at hlist
  have hcount := congrArg (List.count '/') hlist
  simp only [List.count_append, List.count_cons_self, List.count_eq_zero.mpr hiface,
    List.count_eq_zero.mpr hmsg, List.count_eq_zero.mpr hsignal] at hcount
  have hiface' : '/' ∉ iface'.toList := List.count_eq_zero.mp (by omega)
  have hmsg' : '/' ∉ msg'.toList := List.count_eq_zero.mp (by omega)
  rcases eq_of_append_separator hiface hiface' hlist with ⟨h₁, hrest⟩
  rcases eq_of_append_separator hmsg hmsg' hrest with ⟨h₂, h₃⟩
  exact ⟨String.toList_injective h₁, String.toList_injective h₂, String.toList_injective h₃⟩

/-! ### Lookups -/

/-- The interface, the message and the signals of the frame are named without `/`. -/
def PlainNames (frame : CanFrame) : Prop :=
  '/' ∉ frame.header.interface.toList ∧ '/' ∉ frame.msgName.toList ∧
    ∀ sig ∈ frame.decoded, '/' ∉ sig.name.toList

/-- The frame is of this interface and message, and contained the signal. -/
def Contains (iface msg signal : String) (frame : CanFrame) : Bool :=
  frame.header.interface = iface && frame.msgName = msg &&
    frame.decoded.any fun sig => sig.name = signal

/-- The last value the frame has for the signal. -/
def lastValue (signal : String) (frame : CanFrame) : Option ℚ :=
  (frame.decoded.reverse.find? fun sig => sig.name = signal).map (·.value)

/-- A frame writes the keys of its own signals, and the last of a name stays. -/
theorem get_update (store : SignalStore) {frame : CanFrame} (hplain : PlainNames frame)
    (iface msg signal : String) :
    (store.update frame).get iface msg signal =
      if Contains iface msg signal frame then lastValue signal frame
      else store.get iface msg signal := by
  obtain ⟨hiface, hmsg, hsignals⟩ := hplain
  have hget : (store.update frame).get iface msg signal =
      ((frame.decoded.reverse.find? fun sig =>
        key frame.header.interface frame.msgName sig.name = key iface msg signal).map
          (·.value)).or (store.get iface msg signal) :=
    UnorderedMap.foldl_set_apply
      (fun sig : DecodedSignal => frame.header.interface ++ "/" ++ frame.msgName ++ "/" ++ sig.name)
      (·.value) frame.decoded store.values (key iface msg signal)
  have hfind : (frame.decoded.reverse.find? fun sig =>
      key frame.header.interface frame.msgName sig.name = key iface msg signal) =
      frame.decoded.reverse.find? fun sig =>
        frame.header.interface = iface ∧ frame.msgName = msg ∧ sig.name = signal := by
    apply List.find?_congr
    intro sig hsig
    have hkey := key_inj hiface hmsg (hsignals sig (List.mem_reverse.mp hsig)) iface msg signal
    simp [hkey]
  rw [hget, hfind]
  by_cases hhead : frame.header.interface = iface ∧ frame.msgName = msg
  · obtain ⟨rfl, rfl⟩ := hhead
    simp only [true_and, Contains, lastValue, decide_true, Bool.true_and]
    by_cases hany : (frame.decoded.any fun sig => sig.name = signal) = true
    · have hsome : (frame.decoded.reverse.find? fun sig => sig.name = signal).isSome = true := by
        simpa using hany
      obtain ⟨sig, hsig⟩ := Option.isSome_iff_exists.mp hsome
      rw [if_pos hany, hsig]
      rfl
    · have hnone : (frame.decoded.reverse.find? fun sig => sig.name = signal) = none := by
        simpa using hany
      rw [if_neg hany, hnone]
      rfl
  · have hnone : (frame.decoded.reverse.find? fun sig =>
        frame.header.interface = iface ∧ frame.msgName = msg ∧ sig.name = signal) = none := by
      simp only [List.find?_eq_none, decide_eq_true_eq]
      exact fun sig _ h => hhead ⟨h.1, h.2.1⟩
    have hnot : ¬Contains iface msg signal frame = true := by
      simp only [Contains, Bool.and_eq_true, decide_eq_true_eq]
      exact fun h => hhead h.1
    rw [if_neg hnot, hnone]
    rfl

/-- A lookup answers with the last value that the most recent frame with the signal had for it, and
a script gets 0 where there is none. -/
theorem get_updates (frames : List CanFrame) (hplain : ∀ frame ∈ frames, PlainNames frame)
    (iface msg signal : String) :
    let store := ({} : SignalStore).updates frames
    let current := (frames.filter (Contains iface msg signal)).getLast?.bind (lastValue signal)
    store.get iface msg signal = current ∧
      store.getSignal iface msg signal = current.getD 0 := by
  intro store current
  have hget : store.get iface msg signal = current := by
    induction frames using List.reverseRecOn with
    | nil => rfl
    | append_singleton frames frame ih =>
      have hfront := ih fun earlier hearlier => hplain earlier (List.mem_append_left _ hearlier)
      have hlast := hplain frame (List.mem_append_right _ List.mem_cons_self)
      have hstore : store = (({} : SignalStore).updates frames).update frame := by
        simp [store, updates]
      rw [hstore, get_update _ hlast, hfront]
      by_cases hcontains : Contains iface msg signal frame = true
      · simp [current, hcontains, List.filter_append]
      · simp [current, hcontains, List.filter_append]
  exact ⟨hget, congrArg (Option.getD · 0) hget⟩

theorem get_updates_two :
    let frame := fun (name : String) (values : List ℚ) =>
      ({ header := ⟨0x100, "can0", 8⟩, payload := [], msgName := name,
         decoded := values.map fun v => ⟨"Speed", v, "", 0, 0⟩ } : CanFrame)
    let store := ({} : SignalStore).updates [frame "Drive" [1, 2], frame "Drive" [], frame "Stop" [3]]
    store.get "can0" "Drive" "Speed" = some 2 ∧ store.get "can0" "Drive/Speed" "" = none := by
  intro frame store
  have hplain : ∀ f ∈ [frame "Drive" [1, 2], frame "Drive" [], frame "Stop" [3]], PlainNames f := by
    simp [frame, PlainNames]
  constructor
  · refine (get_updates _ hplain "can0" "Drive" "Speed").1.trans ?_
    decide
  · refine (get_updates _ hplain "can0" "Drive/Speed" "").1.trans ?_
    decide

end SignalStore

end Caneo
