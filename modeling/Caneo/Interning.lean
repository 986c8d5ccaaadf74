import Caneo.Containers

/-!
# Interning

A table that numbers its entries and remembers which key got which number. Interning a key that is
known gives the old number and forgets the new entry; an unknown key gets the next number.

So the entry of a key is the first that was interned under it (`lookup_intern`), and neither numbers
nor entries ever change (`ids_intern_of_some`, `entries_intern_of_some`).
-/

namespace Containers

variable {K V : Type}

structure InternTable (K V : Type) where
  ids : UnorderedMap K Nat
  entries : List V

namespace InternTable

def lookup (t : InternTable K V) (k : K) : Option V := (t.ids k).bind fun id => t.entries[id]?

/-- Every number that was given out is the position of an entry. -/
def Numbered (t : InternTable K V) : Prop := ∀ k id, t.ids k = some id → id < t.entries.length

variable [DecidableEq K]

def intern (t : InternTable K V) (k : K) (v : V) : InternTable K V × Nat :=
  match t.ids k with
  | some id => (t, id)
  | none => (⟨t.ids.set k t.entries.length, t.entries ++ [v]⟩, t.entries.length)

theorem intern_of_some {t : InternTable K V} {k : K} {id : Nat} (h : t.ids k = some id) (v : V) :
    t.intern k v = (t, id) := by
  simp [intern, h]

section Unknown

variable {t : InternTable K V} {k : K} (h : t.ids k = none) (v : V)

include h

theorem ids_intern_of_none : (t.intern k v).1.ids = t.ids.set k t.entries.length := by
  simp [intern, h]

theorem entries_intern_of_none : (t.intern k v).1.entries = t.entries ++ [v] := by
  simp [intern, h]

theorem number_intern_of_none : (t.intern k v).2 = t.entries.length := by
  simp [intern, h]

end Unknown

theorem ids_intern_self (t : InternTable K V) (k : K) (v : V) :
    (t.intern k v).1.ids k = some (t.intern k v).2 := by
  cases h : t.ids k with
  | some id => rw [intern_of_some h, h]
  | none => rw [ids_intern_of_none h, number_intern_of_none h, UnorderedMap.set_self]

/-- Numbers do not change. -/
theorem ids_intern_of_some {t : InternTable K V} {k' : K} {id : Nat} (h : t.ids k' = some id)
    (k : K) (v : V) : (t.intern k v).1.ids k' = some id := by
  cases hk : t.ids k with
  | some _ => rw [intern_of_some hk, h]
  | none =>
    have hne : k' ≠ k := by
      rintro rfl
      rw [h] at hk
      cases hk
    rw [ids_intern_of_none hk, UnorderedMap.set_ne _ _ hne, h]

/-- Entries do not change. -/
theorem entries_intern_of_some {t : InternTable K V} {id : Nat} {e : V}
    (h : t.entries[id]? = some e) (k : K) (v : V) :
    (t.intern k v).1.entries[id]? = some e := by
  cases hk : t.ids k with
  | some _ => rw [intern_of_some hk, h]
  | none =>
    have hlt := (List.getElem?_eq_some_iff.mp h).1
    rw [entries_intern_of_none hk, List.getElem?_append_left hlt, h]

theorem Numbered.intern {t : InternTable K V} (h : t.Numbered) (k : K) (v : V) :
    (t.intern k v).1.Numbered := by
  intro k' id hid
  cases hk : t.ids k with
  | some _ =>
    rw [intern_of_some hk] at hid ⊢
    exact h k' id hid
  | none =>
    rw [ids_intern_of_none hk, UnorderedMap.set_apply] at hid
    rw [entries_intern_of_none hk, List.length_append, List.length_singleton]
    split at hid
    · cases hid
      exact Nat.lt_succ_self _
    · exact Nat.lt_succ_of_lt (h k' id hid)

omit [DecidableEq K] in
theorem Numbered.lookup_eq_none {t : InternTable K V} (h : t.Numbered) {k : K}
    (hk : t.lookup k = none) : t.ids k = none := by
  cases hid : t.ids k with
  | none => rfl
  | some id =>
    rw [lookup, hid, Option.bind_some, List.getElem?_eq_none_iff] at hk
    exact absurd (h k id hid) (Nat.not_lt.mpr hk)

/-- The first entry of a key stays. -/
theorem Numbered.lookup_intern {t : InternTable K V} (h : t.Numbered) (k k' : K) (v : V) :
    (t.intern k v).1.lookup k' = (t.lookup k').or (if k' = k then some v else none) := by
  cases hold : t.lookup k' with
  | some e =>
    obtain ⟨id, hid, he⟩ := Option.bind_eq_some_iff.mp hold
    rw [lookup, ids_intern_of_some hid, Option.bind_some, entries_intern_of_some he, Option.some_or]
  | none =>
    have hid := h.lookup_eq_none hold
    rw [Option.none_or]
    split
    · rename_i hkk
      subst hkk
      rw [lookup, ids_intern_of_none hid, entries_intern_of_none hid, UnorderedMap.set_self]
      simp
    · rename_i hne
      cases hk : t.ids k with
      | some _ => rw [intern_of_some hk, hold]
      | none => rw [lookup, ids_intern_of_none hk, UnorderedMap.set_ne _ _ hne, hid, Option.bind_none]

end InternTable

end Containers
