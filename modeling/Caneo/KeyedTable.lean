import Caneo.Containers
import Mathlib.Data.List.Nodup

/-!
# Tables with a key

A table is a list of rows; writing a row replaces the one that has its key, in its place, or adds the
row at the end. What a sequence of writes leaves is the last row of each key (`lookup_writes`), in
the order in which the keys came (`keys_upsert`).
-/

namespace KeyedTable

open Containers

variable {K V : Type} [DecidableEq K]

/-- Write a row: the first that has the key, or a new one. -/
def upsert (k : K) (v : V) : List (K × V) → List (K × V)
  | [] => [(k, v)]
  | row :: rows => if row.1 = k then (k, v) :: rows else row :: upsert k v rows

def lookup (rows : List (K × V)) (k : K) : Option V :=
  (rows.find? fun row => row.1 = k).map Prod.snd

def writes (rows writes : List (K × V)) : List (K × V) :=
  writes.foldl (fun rows row => upsert row.1 row.2 rows) rows

theorem lookup_upsert (rows : List (K × V)) (k k' : K) (v : V) :
    lookup (upsert k v rows) k' = if k' = k then some v else lookup rows k' := by
  induction rows with
  | nil =>
    by_cases hk : k' = k
    · simp [upsert, lookup, hk]
    · simp [upsert, lookup, hk, Ne.symm hk]
  | cons row rows ih =>
    by_cases hrow : row.1 = k
    · by_cases hk : k' = k
      · simp [upsert, lookup, hrow, hk]
      · simp [upsert, lookup, hrow, hk, Ne.symm hk]
    · simp only [upsert, if_neg hrow]
      simp only [lookup, List.find?_cons] at ih ⊢
      by_cases hk' : row.1 = k'
      · have hk : k' ≠ k := fun h => hrow (hk'.trans h)
        simp [hk', hk]
      · simpa [hk'] using ih

/-- The keys stay where they are; a new one comes last. -/
theorem keys_upsert (rows : List (K × V)) (k : K) (v : V) :
    (upsert k v rows).map Prod.fst =
      if k ∈ rows.map Prod.fst then rows.map Prod.fst else rows.map Prod.fst ++ [k] := by
  induction rows with
  | nil => simp [upsert]
  | cons row rows ih =>
    by_cases hrow : row.1 = k
    · simp [upsert, hrow]
    · by_cases hmem : k ∈ rows.map Prod.fst
      · simp only [if_pos hmem] at ih
        simp [upsert, hrow, Ne.symm hrow, ih, hmem]
      · simp only [if_neg hmem] at ih
        simp only [upsert, if_neg hrow, List.map_cons, ih, List.mem_cons, Ne.symm hrow, hmem,
          or_self, if_false, List.cons_append]

theorem nodup_upsert {rows : List (K × V)} (h : (rows.map Prod.fst).Nodup) (k : K) (v : V) :
    ((upsert k v rows).map Prod.fst).Nodup := by
  rw [keys_upsert]
  split
  · exact h
  · next hnew =>
    apply List.Nodup.append h (List.nodup_singleton k)
    simpa using hnew

theorem nodup_writes {rows : List (K × V)} (h : (rows.map Prod.fst).Nodup) (ws : List (K × V)) :
    ((writes rows ws).map Prod.fst).Nodup := by
  induction ws generalizing rows with
  | nil => exact h
  | cons w ws ih => exact ih (nodup_upsert h w.1 w.2)

/-- The last write of a key counts. -/
theorem lookup_writes (rows ws : List (K × V)) (k : K) :
    lookup (writes rows ws) k = (lookup ws.reverse k).or (lookup rows k) := by
  induction ws generalizing rows with
  | nil => rfl
  | cons w ws ih =>
    have hreverse : lookup (w :: ws).reverse k =
        (lookup ws.reverse k).or (if k = w.1 then some w.2 else none) := by
      simp only [lookup, List.reverse_cons, List.find?_append]
      cases ws.reverse.find? fun row => row.1 = k with
      | some row => rfl
      | none =>
        by_cases hk : w.1 = k
        · simp [hk]
        · simp [hk, Ne.symm hk]
    rw [writes, List.foldl_cons, ← writes, ih, lookup_upsert, hreverse]
    cases lookup ws.reverse k with
    | some v => rfl
    | none => by_cases hk : k = w.1 <;> simp [hk]

theorem writes_append (rows ws ws' : List (K × V)) :
    writes rows (ws ++ ws') = writes (writes rows ws) ws' := List.foldl_append

/-- A map that is written in the same way has the same entries. -/
theorem foldl_set_eq_lookup (m : UnorderedMap K V) (ws : List (K × V)) (k : K) :
    ws.foldl (fun m w => m.set w.1 w.2) m k = (lookup ws.reverse k).or (m k) := by
  have h := UnorderedMap.foldl_set_apply (fun w : K × V => w.1) (fun w => w.2) ws m k
  exact h

end KeyedTable
