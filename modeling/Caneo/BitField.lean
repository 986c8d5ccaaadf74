import Mathlib.Data.List.Basic
import Mathlib.Data.Nat.Bitwise

/-!
# Bit fields in a byte buffer

A buffer is a list of bytes; its bit `b` is bit `b % 8` of byte `b / 8`. A field names the
positions its value occupies, least significant bit first, in any order and with any gaps, so
little- and big-endian layouts are both instances. A write of a field is any buffer function that
puts the value's bits at the field's positions and leaves every other bit alone.

The question answered here is what a *sequence* of writes leaves behind when the fields may
overlap: every position holds the bit of the last write that covers it (`getBit_runAll`), and two
sequences over the same fields leave the same buffer exactly when they agree on every bit that no
later write covers (`runAll_eq_iff`).
-/

namespace BitField

/-! ### Bytes and bits -/

abbrev Bytes := List (BitVec 8)

/-- Bit `b` of the buffer; positions past the end read as `false`. -/
def getBit (data : Bytes) (b : Nat) : Bool := (data.getD (b / 8) 0).getLsbD (b % 8)

/-- Overwrite bit `b`; positions past the end are ignored. -/
def setBit (data : Bytes) (b : Nat) (v : Bool) : Bytes :=
  data.modify (b / 8) fun byte =>
    if v then byte ||| BitVec.twoPow 8 (b % 8) else byte &&& ~~~(BitVec.twoPow 8 (b % 8))

@[simp] theorem length_setBit (data : Bytes) (b : Nat) (v : Bool) :
    (setBit data b v).length = data.length := by
  simp [setBit]

theorem getLsbD_set (byte : BitVec 8) (v : Bool) {i j : Nat} (hi : i < 8) (hj : j < 8) :
    (if v then byte ||| BitVec.twoPow 8 i else byte &&& ~~~(BitVec.twoPow 8 i)).getLsbD j =
      if j = i then v else byte.getLsbD j := by
  by_cases hji : j = i
  · subst hji
    cases v <;> simp [hj]
  · cases v <;> simp [hj, hji]

theorem getBit_setBit_self {data : Bytes} {b : Nat} (v : Bool) (hb : b < 8 * data.length) :
    getBit (setBit data b v) b = v := by
  have hlt : b / 8 < data.length := by omega
  have hmod : b % 8 < 8 := Nat.mod_lt _ (by decide)
  unfold getBit setBit
  rw [List.getD_eq_getElem?_getD, List.getElem?_modify, List.getElem?_eq_getElem hlt]
  simp only [↓reduceIte, Option.map_eq_map, Option.map_some, Option.getD_some]
  rw [getLsbD_set _ _ hmod hmod, if_pos rfl]

theorem getBit_setBit_ne {data : Bytes} {b c : Nat} (v : Bool) (hne : c ≠ b) :
    getBit (setBit data b v) c = getBit data c := by
  have hb : b % 8 < 8 := Nat.mod_lt _ (by decide)
  have hc : c % 8 < 8 := Nat.mod_lt _ (by decide)
  unfold getBit setBit
  rw [List.getD_eq_getElem?_getD, List.getElem?_modify, List.getD_eq_getElem?_getD]
  by_cases hbyte : b / 8 = c / 8
  · have hbit : c % 8 ≠ b % 8 := by omega
    cases hget : data[c / 8]? with
    | none => simp
    | some byte =>
      simp only [hbyte, ↓reduceIte, Option.map_eq_map, Option.map_some, Option.getD_some]
      rw [getLsbD_set _ _ hb hc, if_neg hbit]
  · simp [hbyte]

/-- Buffers of one length are equal when all their bits are. -/
theorem Bytes.ext_getBit {d e : Bytes} (hlen : d.length = e.length)
    (h : ∀ b < 8 * d.length, getBit d b = getBit e b) : d = e := by
  apply List.ext_getElem hlen
  intro i hd he
  apply BitVec.eq_of_getLsbD_eq
  intro j hj
  have hbit := h (8 * i + j) (by omega)
  have hdiv : (8 * i + j) / 8 = i := by omega
  have hmod : (8 * i + j) % 8 = j := by omega
  simpa [getBit, hdiv, hmod, List.getElem?_eq_getElem hd, List.getElem?_eq_getElem he] using hbit

/-! ### Fields -/

/-- The positions of a value's bits, least significant first; no position is used twice. -/
structure Field where
  width : Nat
  pos : Nat → Nat
  inj : ∀ i < width, ∀ j < width, pos i = pos j → i = j

namespace Field

/-- Position `b` belongs to the field. -/
def Covers (f : Field) (b : Nat) : Prop := ∃ i < f.width, f.pos i = b

instance (f : Field) (b : Nat) : Decidable (f.Covers b) :=
  decidable_of_iff (∃ i : Fin f.width, f.pos i = b)
    ⟨fun ⟨i, h⟩ => ⟨i, i.isLt, h⟩, fun ⟨i, hi, h⟩ => ⟨⟨i, hi⟩, h⟩⟩

theorem covers_pos {f : Field} {i : Nat} (hi : i < f.width) : f.Covers (f.pos i) := ⟨i, hi, rfl⟩

/-- Two fields share no position. -/
def Disjoint (f g : Field) : Prop := ∀ b, f.Covers b → ¬ g.Covers b

theorem Disjoint.symm {f g : Field} (h : f.Disjoint g) : g.Disjoint f :=
  fun b hg hf => h b hf hg

instance (f g : Field) : Decidable (f.Disjoint g) :=
  decidable_of_iff (∀ i : Fin f.width, ¬ g.Covers (f.pos i))
    ⟨fun h _ ⟨i, hi, hib⟩ => hib ▸ h ⟨i, hi⟩, fun h i => h _ (covers_pos i.isLt)⟩

/-- The whole field lies in a buffer of `n` bytes. -/
def Within (f : Field) (n : Nat) : Prop := ∀ i < f.width, f.pos i < 8 * n

instance (f : Field) (n : Nat) : Decidable (f.Within n) :=
  inferInstanceAs (Decidable (∀ i < f.width, f.pos i < 8 * n))

theorem Within.mono {f : Field} {n m : Nat} (h : f.Within n) (hle : n ≤ m) : f.Within m :=
  fun i hi => Nat.lt_of_lt_of_le (h i hi) (Nat.mul_le_mul_left 8 hle)

/-- The value stored at the field's positions. -/
def read (f : Field) (data : Bytes) : BitVec f.width :=
  BitVec.ofNat f.width (Nat.ofBits fun i : Fin f.width => getBit data (f.pos i))

theorem getLsbD_read (f : Field) (data : Bytes) {i : Nat} (hi : i < f.width) :
    (f.read data).getLsbD i = getBit data (f.pos i) := by
  rw [read, BitVec.getLsbD_ofNat, Nat.testBit_ofBits_lt _ _ hi]
  simp [hi]

/-- Reading depends on the field's own bits only. -/
theorem read_eq_of_getBit {f : Field} {data : Bytes} {x : BitVec f.width}
    (h : ∀ i < f.width, getBit data (f.pos i) = x.getLsbD i) : f.read data = x :=
  BitVec.eq_of_getLsbD_eq fun i hi => (f.getLsbD_read data hi).trans (h i hi)

end Field

/-! ### Writes -/

/-- `op` overwrites exactly the field's positions with the bits `value 0`, `value 1`, … -/
structure IsWrite (f : Field) (value : Nat → Bool) (op : Bytes → Bytes) : Prop where
  length : ∀ data, (op data).length = data.length
  inside : ∀ data, ∀ i < f.width, f.pos i < 8 * data.length → getBit (op data) (f.pos i) = value i
  outside : ∀ data b, ¬ f.Covers b → getBit (op data) b = getBit data b

/-- The write that sets the field's positions one after the other. -/
def Field.write (f : Field) (value : Nat → Bool) (data : Bytes) : Bytes :=
  (List.range f.width).foldl (fun d i => setBit d (f.pos i) (value i)) data

theorem length_foldl_setBit (pos : Nat → Nat) (value : Nat → Bool) (is : List Nat) (data : Bytes) :
    (is.foldl (fun d i => setBit d (pos i) (value i)) data).length = data.length := by
  induction is generalizing data with
  | nil => rfl
  | cons i is ih => rw [List.foldl_cons, ih, length_setBit]

theorem getBit_foldl_setBit_ne (pos : Nat → Nat) (value : Nat → Bool) (is : List Nat)
    (data : Bytes) {b : Nat} (hne : ∀ i ∈ is, pos i ≠ b) :
    getBit (is.foldl (fun d i => setBit d (pos i) (value i)) data) b = getBit data b := by
  induction is generalizing data with
  | nil => rfl
  | cons i is ih =>
    rw [List.foldl_cons, ih _ fun j hj => hne j (List.mem_cons_of_mem _ hj)]
    exact getBit_setBit_ne _ (hne i List.mem_cons_self).symm

theorem Field.isWrite_write (f : Field) (value : Nat → Bool) : IsWrite f value (f.write value) where
  length data := length_foldl_setBit _ _ _ data
  inside data i hi hb := by
    unfold Field.write
    -- split the loop at step `i`: the later steps touch other positions
    have hsplit : List.range f.width =
        List.range i ++ i :: (List.range' (i + 1) (f.width - (i + 1))) := by
      rw [List.range_eq_range', List.range_eq_range', show i :: List.range' (i + 1)
        (f.width - (i + 1)) = List.range' i (f.width - i) by
          rw [show f.width - i = (f.width - (i + 1)) + 1 by omega, List.range'_succ]]
      have happ := @List.range'_append 0 i (f.width - i) 1
      simpa [show i + (f.width - i) = f.width by omega] using happ.symm
    rw [hsplit, List.foldl_append, List.foldl_cons, getBit_foldl_setBit_ne]
    · exact getBit_setBit_self _ (by rw [length_foldl_setBit]; exact hb)
    · intro j hj heq
      have hj' := List.mem_range'_1.mp hj
      have := f.inj j (by omega) i hi heq
      omega
  outside data b hb := by
    apply getBit_foldl_setBit_ne
    intro i hi heq
    exact hb ⟨i, List.mem_range.mp hi, heq⟩

/-! ### Sequences of writes -/

/-- A field, the bits to store in it, and an operation that stores them. -/
structure FieldWrite where
  field : Field
  value : Nat → Bool
  run : Bytes → Bytes
  isWrite : IsWrite field value run

/-- Perform the writes in order. -/
def runAll (ws : List FieldWrite) (data : Bytes) : Bytes := ws.foldl (fun d w => w.run d) data

@[simp] theorem runAll_nil (data : Bytes) : runAll [] data = data := rfl

@[simp] theorem runAll_cons (w : FieldWrite) (ws : List FieldWrite) (data : Bytes) :
    runAll (w :: ws) data = runAll ws (w.run data) := rfl

@[simp] theorem length_runAll (ws : List FieldWrite) (data : Bytes) :
    (runAll ws data).length = data.length := by
  induction ws generalizing data with
  | nil => rfl
  | cons w ws ih => rw [runAll_cons, ih, w.isWrite.length]

/-- A position that no write covers keeps its bit. -/
theorem getBit_runAll_of_not_covers {ws : List FieldWrite} (data : Bytes) {b : Nat}
    (h : ∀ w ∈ ws, ¬ w.field.Covers b) : getBit (runAll ws data) b = getBit data b := by
  induction ws generalizing data with
  | nil => rfl
  | cons w ws ih =>
    rw [runAll_cons, ih _ fun w' hw' => h w' (List.mem_cons_of_mem _ hw')]
    exact w.isWrite.outside _ _ (h w List.mem_cons_self)

/-- **The last write wins.** A position covered by write `k` and by no later one holds the bit of
write `k`. -/
theorem getBit_runAll {ws : List FieldWrite} {data : Bytes} {k : Nat} {w : FieldWrite}
    (hk : ws[k]? = some w) {i : Nat} (hi : i < w.field.width)
    (hb : w.field.pos i < 8 * data.length)
    (hlast : ∀ w' ∈ ws.drop (k + 1), ¬ w'.field.Covers (w.field.pos i)) :
    getBit (runAll ws data) (w.field.pos i) = w.value i := by
  induction ws generalizing data k with
  | nil => simp at hk
  | cons w₀ ws ih =>
    cases k with
    | zero =>
      simp only [List.getElem?_cons_zero, Option.some.injEq] at hk
      subst hk
      rw [runAll_cons, getBit_runAll_of_not_covers _ (by simpa using hlast)]
      exact w₀.isWrite.inside _ i hi hb
    | succ k =>
      rw [runAll_cons]
      exact ih (by simpa using hk) (by rw [w₀.isWrite.length]; exact hb) (by simpa using hlast)

/-- Either no entry of a list satisfies `p`, or there is a last one that does. -/
theorem exists_last {α : Type} (p : α → Prop) (l : List α) :
    (∀ x ∈ l, ¬ p x) ∨ ∃ (k : Nat) (x : α), l[k]? = some x ∧ p x ∧ ∀ y ∈ l.drop (k + 1), ¬ p y := by
  induction l with
  | nil => exact Or.inl (by simp)
  | cons x₀ l ih =>
    rcases ih with hnone | ⟨k, x, hk, hx, hlast⟩
    · by_cases hx₀ : p x₀
      · exact Or.inr ⟨0, x₀, rfl, hx₀, by simpa using hnone⟩
      · refine Or.inl fun x hx => ?_
        rcases List.mem_cons.mp hx with rfl | hx
        · exact hx₀
        · exact hnone x hx
    · exact Or.inr ⟨k + 1, x, by simpa using hk, hx, by simpa using hlast⟩

/-- **When two sequences of writes over the same fields leave the same buffer**: exactly when they
agree on every bit, inside the buffer, that no later write covers. -/
theorem runAll_eq_iff {ws₁ ws₂ : List FieldWrite} (data : Bytes)
    (hfields : ws₁.map (·.field) = ws₂.map (·.field)) :
    runAll ws₁ data = runAll ws₂ data ↔
      ∀ k w₁ w₂, ws₁[k]? = some w₁ → ws₂[k]? = some w₂ →
        ∀ i < w₁.field.width, w₁.field.pos i < 8 * data.length →
          (∀ w ∈ ws₁.drop (k + 1), ¬ w.field.Covers (w₁.field.pos i)) →
            w₁.value i = w₂.value i := by
  have hdrop : ∀ k b, (∀ w ∈ ws₁.drop k, ¬ w.field.Covers b) ↔
      ∀ w ∈ ws₂.drop k, ¬ w.field.Covers b := by
    intro k b
    have hmap : (ws₁.drop k).map (·.field) = (ws₂.drop k).map (·.field) := by
      rw [List.map_drop, List.map_drop, hfields]
    have hiff : ∀ ws : List FieldWrite, (∀ w ∈ ws, ¬ w.field.Covers b) ↔
        ∀ f ∈ ws.map (·.field), ¬ f.Covers b := by simp
    rw [hiff, hiff, hmap]
  have hget : ∀ (k : Nat) (w₁ w₂ : FieldWrite), ws₁[k]? = some w₁ → ws₂[k]? = some w₂ →
      w₁.field = w₂.field := by
    intro k w₁ w₂ h₁ h₂
    have := congrArg (fun fs => fs[k]?) hfields
    simpa [h₁, h₂] using this
  constructor
  · intro heq k w₁ w₂ h₁ h₂ i hi hb hlast
    have hf := hget k w₁ w₂ h₁ h₂
    rw [← getBit_runAll h₁ hi hb hlast, heq, hf]
    exact getBit_runAll h₂ (hf ▸ hi) (hf ▸ hb) (by rw [← hf]; exact (hdrop _ _).mp hlast)
  · intro hagree
    apply Bytes.ext_getBit (by simp)
    intro b hb
    rw [length_runAll] at hb
    rcases exists_last (fun w : FieldWrite => w.field.Covers b) ws₁ with hnone | ⟨k, w₁, h₁, ⟨i, hi, rfl⟩, hlast⟩
    · rw [getBit_runAll_of_not_covers _ hnone, getBit_runAll_of_not_covers]
      simpa using (hdrop 0 b).mp (by simpa using hnone)
    · obtain ⟨w₂, h₂⟩ : ∃ w₂, ws₂[k]? = some w₂ := by
        have hlen : ws₁.length = ws₂.length := by simpa using congrArg List.length hfields
        have hk := (List.getElem?_eq_some_iff.mp h₁).1
        exact ⟨ws₂[k], List.getElem?_eq_getElem (hlen ▸ hk)⟩
      have hf := hget k w₁ w₂ h₁ h₂
      rw [getBit_runAll h₁ hi hb hlast, hagree k w₁ w₂ h₁ h₂ i hi hb hlast, hf]
      exact (getBit_runAll h₂ (hf ▸ hi) (hf ▸ hb) (by rw [← hf]; exact (hdrop _ _).mp hlast)).symm

/-- In a sequence over pairwise disjoint fields every write is the last on its own positions. -/
theorem not_covers_drop_of_pairwise {fs : List Field} (h : fs.Pairwise Field.Disjoint) {k : Nat}
    {f : Field} (hk : fs[k]? = some f) {b : Nat} (hb : f.Covers b) :
    ∀ g ∈ fs.drop (k + 1), ¬ g.Covers b := by
  intro g hg
  obtain ⟨j, hj⟩ := List.mem_iff_getElem?.mp hg
  rw [List.getElem?_drop] at hj
  obtain ⟨hklt, rfl⟩ := List.getElem?_eq_some_iff.mp hk
  obtain ⟨hjlt, rfl⟩ := List.getElem?_eq_some_iff.mp hj
  exact List.pairwise_iff_getElem.mp h k (k + 1 + j) hklt hjlt (by omega) b hb

end BitField
