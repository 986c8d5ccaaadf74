import Caneo.BitField
import Mathlib.Data.Rat.Defs

/-!
# Self-delimiting binary codecs

A codec writes a value in such a way that it can be read back from the front of any byte string,
with the rest of the string left over. That law is a field, so codecs compose without side
conditions: numbers are base-128 varints, lists are prefixed by their length, sums by a tag.
-/

namespace Wire

open BitField (Bytes)

structure Codec (α : Type) where
  encode : α → Bytes
  decode : Bytes → Option (α × Bytes)
  decode_encode : ∀ a rest, decode (encode a ++ rest) = some (a, rest)

variable {α β : Type}

/-! ### Numbers -/

/-- Seven bits a byte, lowest first; every byte but the last has its high bit set. The first
argument bounds the number of bytes. -/
def encodeVarint : Nat → Nat → Bytes
  | 0, n => [BitVec.ofNat 8 n]
  | fuel + 1, n =>
    if n < 128 then [BitVec.ofNat 8 n]
    else BitVec.ofNat 8 (n % 128 + 128) :: encodeVarint fuel (n / 128)

def decodeVarint : Bytes → Option (Nat × Bytes)
  | [] => none
  | b :: rest =>
    if b.toNat < 128 then some (b.toNat, rest)
    else (decodeVarint rest).map fun (m, rest) => (b.toNat - 128 + 128 * m, rest)

theorem decodeVarint_encodeVarint (fuel n : Nat) (rest : Bytes) (h : n ≤ fuel) :
    decodeVarint (encodeVarint fuel n ++ rest) = some (n, rest) := by
  induction fuel generalizing n with
  | zero =>
    have hn : n = 0 := Nat.le_zero.mp h
    subst hn
    rfl
  | succ fuel ih =>
    unfold encodeVarint
    split
    · rename_i hsmall
      have hbyte : (BitVec.ofNat 8 n).toNat = n := by
        rw [BitVec.toNat_ofNat]
        exact Nat.mod_eq_of_lt (by omega)
      simp only [List.cons_append, List.nil_append, decodeVarint, hbyte, if_pos hsmall]
    · rename_i hbig
      have hbyte : (BitVec.ofNat 8 (n % 128 + 128)).toNat = n % 128 + 128 := by
        rw [BitVec.toNat_ofNat]
        exact Nat.mod_eq_of_lt (by omega)
      have hcontinues : ¬ n % 128 + 128 < 128 := by omega
      have hvalue : n % 128 + 128 - 128 + 128 * (n / 128) = n := by omega
      simp only [List.cons_append, decodeVarint, hbyte, if_neg hcontinues,
        ih (n / 128) (by omega), Option.map_some, hvalue]

namespace Codec

def nat : Codec Nat where
  encode n := encodeVarint n n
  decode := decodeVarint
  decode_encode n rest := decodeVarint_encodeVarint n n rest le_rfl

/-! ### Composition -/

/-- A type that is represented in another. -/
def via (c : Codec β) (f : α → β) (g : β → α) (h : Function.LeftInverse g f) : Codec α where
  encode a := c.encode (f a)
  decode bytes := (c.decode bytes).map fun (b, rest) => (g b, rest)
  decode_encode a rest := by
    simp only [c.decode_encode, Option.map_some, h a]

def prod (c : Codec α) (d : Codec β) : Codec (α × β) where
  encode p := c.encode p.1 ++ d.encode p.2
  decode bytes := (c.decode bytes).bind fun (a, rest) =>
    (d.decode rest).map fun (b, rest) => ((a, b), rest)
  decode_encode p rest := by
    simp only [List.append_assoc, c.decode_encode, Option.bind_some, d.decode_encode,
      Option.map_some]

def sum (c : Codec α) (d : Codec β) : Codec (α ⊕ β) where
  encode
    | .inl a => 0 :: c.encode a
    | .inr b => 1 :: d.encode b
  decode
    | 0 :: bytes => (c.decode bytes).map fun (a, rest) => (.inl a, rest)
    | 1 :: bytes => (d.decode bytes).map fun (b, rest) => (.inr b, rest)
    | _ => none
  decode_encode s rest := by
    rcases s with a | b
    · change (c.decode (c.encode a ++ rest)).map _ = _
      rw [c.decode_encode, Option.map_some]
    · change (d.decode (d.encode b ++ rest)).map _ = _
      rw [d.decode_encode, Option.map_some]

def decodeMany (c : Codec α) : Nat → Bytes → Option (List α × Bytes)
  | 0, bytes => some ([], bytes)
  | n + 1, bytes => (c.decode bytes).bind fun (a, rest) =>
    (decodeMany c n rest).map fun (l, rest) => (a :: l, rest)

theorem decodeMany_flatMap (c : Codec α) (l : List α) (rest : Bytes) :
    decodeMany c l.length (l.flatMap c.encode ++ rest) = some (l, rest) := by
  induction l with
  | nil => rfl
  | cons a l ih =>
    simp only [List.length_cons, List.flatMap_cons, List.append_assoc, decodeMany,
      c.decode_encode, Option.bind_some, ih, Option.map_some]

def list (c : Codec α) : Codec (List α) where
  encode l := nat.encode l.length ++ l.flatMap c.encode
  decode bytes := (nat.decode bytes).bind fun (n, rest) => decodeMany c n rest
  decode_encode l rest := by
    simp only [List.append_assoc, nat.decode_encode, Option.bind_some, decodeMany_flatMap]

def option (c : Codec α) : Codec (Option α) :=
  (list c).via Option.toList List.head? fun o => by cases o <;> rfl

/-! ### Basic types -/

def bool : Codec Bool := nat.via (fun b => if b then 1 else 0) (fun n => n = 1) fun b => by
  cases b <;> rfl

def int : Codec Int :=
  (sum nat nat).via (fun | .ofNat n => .inl n | .negSucc n => .inr n)
    (fun | .inl n => .ofNat n | .inr n => .negSucc n) fun i => by cases i <;> rfl

def rat : Codec ℚ :=
  (prod int nat).via (fun q => (q.num, q.den)) (fun p => mkRat p.1 p.2) fun q => Rat.mkRat_self q

def bitVec (w : Nat) : Codec (BitVec w) :=
  nat.via BitVec.toNat (BitVec.ofNat w) fun x => by simp

def char : Codec Char := nat.via Char.toNat Char.ofNat fun c => Char.ofNat_toNat c

def string : Codec String :=
  (list char).via String.toList String.ofList fun s => by simp

end Codec

end Wire
