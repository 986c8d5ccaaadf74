import Mathlib.Data.List.Sort

/-!
# Standard containers and algorithms

`std::unordered_map` and `std::map` are used for lookups only where they appear below, so a map is
the partial function its `find` computes. `emplace` keeps an existing entry, `operator[] =`
replaces it; filling a map from a list of entries therefore keeps the *first* entry of a key in
one case and the *last* in the other.

`std::ranges::sort` promises a sorted permutation and says nothing about the order of equal keys.
`RangesSort` is an implementation of it together with that promise; results about sorted lists
take one as a parameter and hold for all.
-/

namespace Containers

variable {K V α : Type}

/-! ### Maps -/

abbrev UnorderedMap (K V : Type) := K → Option V

namespace UnorderedMap

def empty : UnorderedMap K V := fun _ => none

@[simp] theorem empty_apply (k : K) : (empty : UnorderedMap K V) k = none := rfl

variable [DecidableEq K]

/-- `m[k] = v` (also `insert_or_assign`). -/
def set (m : UnorderedMap K V) (k : K) (v : V) : UnorderedMap K V :=
  fun k' => if k' = k then some v else m k'

/-- `m.emplace(k, v)`. -/
def emplace (m : UnorderedMap K V) (k : K) (v : V) : UnorderedMap K V :=
  if (m k).isSome then m else m.set k v

@[simp] theorem set_self (m : UnorderedMap K V) (k : K) (v : V) : m.set k v k = some v := by
  simp [set]

theorem set_ne (m : UnorderedMap K V) {k k' : K} (v : V) (h : k' ≠ k) : m.set k v k' = m k' := by
  simp [set, h]

theorem set_apply (m : UnorderedMap K V) (k k' : K) (v : V) :
    m.set k v k' = if k' = k then some v else m k' := rfl

theorem emplace_apply (m : UnorderedMap K V) (k k' : K) (v : V) :
    m.emplace k v k' = (m k').or (if k' = k then some v else none) := by
  unfold emplace
  cases hk : m k with
  | some w =>
    by_cases h : k' = k
    · subst h; simp [hk]
    · simp [h]
  | none =>
    by_cases h : k' = k
    · subst h; simp [set, hk]
    · simp [set, h]

/-- Filling a map by `emplace` keeps the first entry of each key. -/
theorem foldl_emplace_apply (key : α → K) (val : α → V) (l : List α) (m : UnorderedMap K V)
    (k : K) :
    l.foldl (fun m a => m.emplace (key a) (val a)) m k =
      (m k).or ((l.find? fun a => key a = k).map val) := by
  induction l generalizing m with
  | nil => simp
  | cons a l ih =>
    rw [List.foldl_cons, ih, emplace_apply, List.find?_cons]
    by_cases h : key a = k
    · subst h
      cases m (key a) <;> simp
    · have h' : k ≠ key a := fun e => h e.symm
      simp [h, h']

/-- Filling a map by assignment keeps the last entry of each key. -/
theorem foldl_set_apply (key : α → K) (val : α → V) (l : List α) (m : UnorderedMap K V) (k : K) :
    l.foldl (fun m a => m.set (key a) (val a)) m k =
      ((l.reverse.find? fun a => key a = k).map val).or (m k) := by
  induction l generalizing m with
  | nil => simp
  | cons a l ih =>
    rw [List.foldl_cons, ih, set_apply, List.reverse_cons, List.find?_append]
    cases l.reverse.find? fun a => key a = k with
    | some b => simp
    | none =>
      by_cases h : key a = k
      · subst h; simp
      · have h' : k ≠ key a := fun e => h e.symm
        simp [h, h']

end UnorderedMap

/-! ### Sorting -/

/-- An implementation of `std::ranges::sort` by a numeric key. -/
structure RangesSort where
  sort : {α : Type} → (α → Nat) → List α → List α
  perm : ∀ {α : Type} (key : α → Nat) (l : List α), (sort key l).Perm l
  sorted : ∀ {α : Type} (key : α → Nat) (l : List α),
    (sort key l).Pairwise fun a b => key a ≤ key b

/-- Insertion sort is one. -/
def RangesSort.insertion : RangesSort where
  sort key l := l.insertionSort fun a b => key a ≤ key b
  perm key l := List.perm_insertionSort _ l
  sorted {α} key l := by
    have : Std.Total fun a b : α => key a ≤ key b := ⟨fun a b => Nat.le_total (key a) (key b)⟩
    have : IsTrans α fun a b : α => key a ≤ key b := ⟨fun _ _ _ => Nat.le_trans⟩
    exact List.pairwise_insertionSort _ l

/-! ### Looking up by a key -/

/-- The first element with the key of an element of the list. -/
theorem exists_find?_key [DecidableEq K] (key : α → K) {l : List α} {a : α} (ha : a ∈ l) :
    ∃ b ∈ l, (l.find? fun b => key b = key a) = some b ∧ key b = key a := by
  have hsome : (l.find? fun b => key b = key a).isSome = true :=
    List.find?_isSome.mpr ⟨a, ha, decide_eq_true rfl⟩
  obtain ⟨b, hb⟩ := Option.isSome_iff_exists.mp hsome
  have hkey := List.find?_some hb
  exact ⟨b, List.mem_of_find?_eq_some hb, hb, of_decide_eq_true hkey⟩

/-- Where keys are distinct, that is the element itself. -/
theorem find?_key_of_nodup [DecidableEq K] (key : α → K) {l : List α} (hnodup : (l.map key).Nodup)
    {a : α} (ha : a ∈ l) : (l.find? fun b => key b = key a) = some a := by
  obtain ⟨b, hb, hfind, hkey⟩ := exists_find?_key key ha
  rw [hfind, List.inj_on_of_nodup_map hnodup hb ha hkey]

/-! ### Changing one element of a vector -/

/-- Changing one element changes nothing exactly if the element is its own change. -/
theorem modify_eq_self_iff {l : List α} {i : Nat} {f : α → α} :
    l.modify i f = l ↔ ∀ x, l[i]? = some x → f x = x := by
  constructor
  · intro h x hx
    have hget : (l.modify i f)[i]? = l[i]? := by rw [h]
    rw [List.getElem?_modify_eq, hx] at hget
    exact Option.some.inj hget
  · intro h
    apply List.ext_getElem?
    intro j
    rw [List.getElem?_modify]
    by_cases hij : i = j
    · subst hij
      cases hx : l[i]? with
      | none => rfl
      | some x => simp [h x hx]
    · simp [hij]

/-! ### Positions in a vector under erasure -/

section Positions

variable [DecidableEq α]

/-- Erasing `q` does not move what stands before it. -/
theorem getElem?_filter_ne {l : List α} {q : α} {idx : Nat} (h : ∀ i ≤ idx, l[i]? ≠ some q) :
    (l.filter fun x => x ≠ q)[idx]? = l[idx]? := by
  induction l generalizing idx with
  | nil => rfl
  | cons b l ih =>
    have hb : b ≠ q := fun e => h 0 (Nat.zero_le _) (by simp [e])
    rw [List.filter_cons_of_pos (by simpa using hb)]
    cases idx with
    | zero => rfl
    | succ idx =>
      have hrest : ∀ i ≤ idx, l[i]? ≠ some q := by
        intro i hi
        simpa using h (i + 1) (Nat.succ_le_succ hi)
      simpa using ih hrest

/-- Erasing another element never moves an element back, and moves it forward when the other one
stood before it. -/
theorem exists_getElem?_filter_ne {l : List α} {p q : α} (hpq : p ≠ q) {i : Nat}
    (hi : l[i]? = some p) :
    ∃ j ≤ i, (l.filter fun x => x ≠ q)[j]? = some p ∧
      ((∃ k < i, l[k]? = some q) → j < i) := by
  induction l generalizing i with
  | nil => simp at hi
  | cons b l ih =>
    by_cases hb : b = q
    · subst hb
      rw [List.filter_cons_of_neg (by simp)]
      cases i with
      | zero => exact absurd (by simpa using hi.symm) hpq
      | succ i =>
        obtain ⟨j, hj, hget, -⟩ := ih (by simpa using hi)
        exact ⟨j, by omega, hget, fun _ => by omega⟩
    · rw [List.filter_cons_of_pos (by simpa using hb)]
      cases i with
      | zero => exact ⟨0, le_refl _, by simpa using hi, by rintro ⟨k, hk, -⟩; omega⟩
      | succ i =>
        obtain ⟨j, hj, hget, hstrict⟩ := ih (by simpa using hi)
        refine ⟨j + 1, by omega, by simpa using hget, ?_⟩
        rintro ⟨k, hk, hq⟩
        cases k with
        | zero => exact absurd (by simpa using hq) hb
        | succ k =>
          have := hstrict ⟨k, by omega, by simpa using hq⟩
          omega

end Positions

end Containers
