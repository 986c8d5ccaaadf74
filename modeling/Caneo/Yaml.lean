import Mathlib.Data.Rat.Defs

/-!
# YAML nodes

The part of `yaml-cpp` that the preset loader uses: a parsed document, lookup of a key, and the
conversions of scalars, with the exceptions they throw. How the text of a scalar is converted to a
number is a parameter.
-/

namespace YAML

/-! ### Exceptions in a sequence of steps -/

section Except

variable {ε α β : Type}

@[simp] theorem ok_bind (a : α) (f : α → Except ε β) : (Except.ok a >>= f) = f a := rfl

@[simp] theorem error_bind (e : ε) (f : α → Except ε β) :
    ((Except.error e : Except ε α) >>= f) = .error e := rfl

@[simp] theorem map_error (e : ε) (f : α → β) : f <$> (Except.error e : Except ε α) = .error e := rfl

@[simp] theorem map_ok (a : α) (f : α → β) : f <$> (Except.ok a : Except ε α) = .ok (f a) := rfl

theorem exists_of_bind_eq_ok {x : Except ε α} {f : α → Except ε β} {b : β}
    (h : (x >>= f) = .ok b) : ∃ a, x = .ok a ∧ f a = .ok b := by
  cases x with
  | error e => cases h
  | ok a => exact ⟨a, rfl, h⟩

end Except

/-! ### Nodes -/

inductive Node where
  | null
  | scalar (text : String)
  | sequence (items : List Node)
  | map (entries : List (Node × Node))

/-- The conversions of a scalar's text; `none` where `as` throws. -/
structure Conversions where
  asDouble : String → Option ℚ
  asInt : String → Option Int

/-- Correct for unsigned decimal numerals. -/
def Conversions.decimal : Conversions where
  asDouble text := if text.toList ≠ [] ∧ text.toList.all Char.isDigit then some (value text) else none
  asInt text := if text.toList ≠ [] ∧ text.toList.all Char.isDigit then some (value text) else none
where
  value (text : String) : Nat := text.toList.foldl (fun n c => 10 * n + (c.toNat - '0'.toNat)) 0

def badConversion : String := "yaml-cpp: bad conversion"

namespace Node

def isKey (key : String) : Node → Bool
  | .scalar text => text = key
  | .null | .sequence _ | .map _ => false

/-- `node[key]`; `none` is an undefined node. -/
def get (node : Node) (key : String) : Except String (Option Node) :=
  match node with
  | .map entries => .ok ((entries.find? fun kv => kv.1.isKey key).map (·.2))
  | .null | .sequence _ => .ok none
  | .scalar _ => .error "yaml-cpp: operator[] call on a scalar"

def asString : Node → Except String String
  | .scalar text => .ok text
  | .null => .ok "null"
  | .sequence _ | .map _ => .error badConversion

/-- `as` for a type that only scalars convert to. -/
def asScalar {α : Type} (convert : String → Option α) : Node → Except String α
  | .scalar text => (convert text).elim (.error badConversion) .ok
  | .null | .sequence _ | .map _ => .error badConversion

def asDouble (conv : Conversions) (node : Node) : Except String ℚ := node.asScalar conv.asDouble

def asInt (conv : Conversions) (node : Node) : Except String Int := node.asScalar conv.asInt

/-- `node[key] ? node[key].as<α>() : fallback` -/
def getOr {α : Type} (node : Node) (key : String) (convert : Node → Except String α)
    (fallback : α) : Except String α := do
  match ← node.get key with
  | some value => convert value
  | none => return fallback

end Node

end YAML
