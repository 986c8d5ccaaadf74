import Caneo.McapReader

/-!
# Topics, written and read

The logger joins the parts of a topic with slashes, `<interface>/<name>/<kind>`, and the reader takes
the topic apart again: it cuts the suffix off and splits the rest at its first slash. A name may
contain slashes of its own, so the reader gets the parts back as long as the interface has none
(`classifyTopic_baseTopic`).

A frame that no DBC knows is named after its id, in at least three upper-case hex digits, and the
reader reads the name as a number again (`deriveCanId_formatId`).
-/

namespace Caneo

open BitField Containers McapReader

/-! ### Suffixes -/

/-- A last segment is a suffix of what follows any slash. -/
theorem slash_suffix_append_iff {w : List Char} (hw : '/' ∉ w) (x y : List Char) :
    '/' :: w <:+ x ++ '/' :: y ↔ '/' :: w <:+ '/' :: y := by
  constructor
  · rintro ⟨p, hp⟩
    rcases List.append_eq_append_iff.mp hp with ⟨a, hx, ha⟩ | ⟨a, -, ha⟩
    · cases a with
      | nil => exact ⟨[], ha⟩
      | cons c a =>
        -- The slash before `y` would stand in `w`.
        have hmem : '/' ∈ w := by
          rw [(List.cons.inj ha).2]
          exact List.mem_append_right _ List.mem_cons_self
        exact absurd hmem hw
    · exact ⟨a, ha.symm⟩
  · intro h
    exact h.trans (List.suffix_append _ _)

theorem slash_suffix_iff {w y : List Char} (hw : '/' ∉ w) (hy : '/' ∉ y) (x : List Char) :
    '/' :: w <:+ x ++ '/' :: y ↔ w = y := by
  rw [slash_suffix_append_iff hw, List.suffix_cons_iff]
  constructor
  · rintro (h | h)
    · exact (List.cons.inj h).2
    · exact absurd (h.subset List.mem_cons_self) hy
  · rintro rfl
    exact Or.inl rfl

/-! ### Splitting -/

/-- The first slash, if another one follows. -/
theorem idxOf?_append_slash (base rest : List Char) :
    (base ++ '/' :: rest).idxOf? '/' = some ((base.idxOf? '/').getD base.length) := by
  have hsplit : (base ++ '/' :: rest).idxOf? '/' =
      (base.idxOf? '/').or ((('/' :: rest).idxOf? '/').map (· + base.length)) :=
    List.findIdx?_append
  have hfirst : ('/' :: rest).idxOf? '/' = some 0 := by
    rw [List.idxOf?_cons, if_pos (by simp)]
  rw [hsplit, hfirst]
  cases base.idxOf? '/' <;> simp

/-- What is left of the first slash, and what is right of it. -/
theorem splitTopic_append (kind : ChannelKind) (suffix iface name : List Char) :
    splitTopic kind suffix ((iface ++ '/' :: name) ++ suffix) =
      some ⟨kind, String.ofList (iface.take ((iface.idxOf? '/').getD iface.length)),
        String.ofList ((iface ++ '/' :: name).drop ((iface.idxOf? '/').getD iface.length + 1))⟩ := by
  have hlength : ¬ ((iface ++ '/' :: name) ++ suffix).length ≤ suffix.length := by
    rw [List.length_append, List.length_append, List.length_cons]
    omega
  have hsuffix : suffix.isSuffixOf ((iface ++ '/' :: name) ++ suffix) = true :=
    List.isSuffixOf_iff_suffix.mpr (List.suffix_append _ _)
  have hbase : ((iface ++ '/' :: name) ++ suffix).take
      (((iface ++ '/' :: name) ++ suffix).length - suffix.length) = iface ++ '/' :: name := by
    rw [List.length_append, Nat.add_sub_cancel, List.take_left]
  have hle : (iface.idxOf? '/').getD iface.length ≤ iface.length := by
    cases hidx : iface.idxOf? '/' with
    | none => exact le_rfl
    | some i =>
      obtain ⟨hlt, -⟩ := List.idxOf?_eq_some_iff.mp hidx
      exact hlt.le
  rw [splitTopic, if_neg hlength, if_pos hsuffix]
  dsimp only
  rw [hbase, idxOf?_append_slash, Option.map_some, List.take_append_of_le_length hle]

/-- An interface without a slash comes back. -/
theorem splitTopic_append_of_not_mem (kind : ChannelKind) (suffix : List Char) {iface : List Char}
    (hslash : '/' ∉ iface) (name : List Char) :
    splitTopic kind suffix ((iface ++ '/' :: name) ++ suffix) =
      some ⟨kind, String.ofList iface, String.ofList name⟩ := by
  rw [splitTopic_append, List.idxOf?_eq_none_iff.mpr hslash, Option.getD_none, List.take_length,
    List.drop_append, List.drop_of_length_le (Nat.le_succ _), Nat.add_sub_cancel_left]
  rfl

theorem splitTopic_eq_none (kind : ChannelKind) {suffix topic : List Char}
    (h : ¬ suffix <:+ topic) : splitTopic kind suffix topic = none := by
  unfold splitTopic
  split
  · rfl
  · rw [if_neg]
    rwa [List.isSuffixOf_iff_suffix]

/-- Only a suffix makes a topic a frame's. -/
theorem kind_classifyTopic_of_not_suffix {topic : String}
    (hdata : ¬ "/data".toList <:+ topic.toList) (hraw : ¬ "/raw".toList <:+ topic.toList) :
    classifyTopic topic = ⟨.Other, "", ""⟩ := by
  rw [classifyTopic, splitTopic_eq_none _ hdata, splitTopic_eq_none _ hraw]
  rfl

/-! ### The three topics of a frame -/

theorem classifyTopic_data_of_not_mem {iface : String} (hslash : '/' ∉ iface.toList)
    (name : String) : classifyTopic (iface ++ "/" ++ name ++ "/data") = ⟨.Data, iface, name⟩ := by
  have htopic : (iface ++ "/" ++ name ++ "/data").toList =
      (iface.toList ++ '/' :: name.toList) ++ "/data".toList := by
    simp [String.toList_append]
  rw [classifyTopic, htopic, splitTopic_append_of_not_mem _ _ hslash, String.ofList_toList,
    String.ofList_toList]
  rfl

theorem classifyTopic_raw_of_not_mem {iface : String} (hslash : '/' ∉ iface.toList)
    (name : String) : classifyTopic (iface ++ "/" ++ name ++ "/raw") = ⟨.Raw, iface, name⟩ := by
  have htopic : (iface ++ "/" ++ name ++ "/raw").toList =
      (iface.toList ++ '/' :: name.toList) ++ "/raw".toList := by
    simp [String.toList_append]
  have hdata : ¬ "/data".toList <:+ (iface.toList ++ '/' :: name.toList) ++ "/raw".toList := by
    have h := slash_suffix_iff (w := "data".toList) (y := "raw".toList) (by decide) (by decide)
      (iface.toList ++ '/' :: name.toList)
    exact fun hs => absurd (h.mp hs) (by decide)
  rw [classifyTopic, htopic, splitTopic_eq_none _ hdata, Option.none_or,
    splitTopic_append_of_not_mem _ _ hslash, String.ofList_toList, String.ofList_toList]
  rfl

/-- The topic of an update rate is no frame's, whatever stands before it. -/
theorem classifyTopic_updateRatio (base : String) :
    classifyTopic (base ++ "/update_ratio") = ⟨.Other, "", ""⟩ := by
  have htopic : (base ++ "/update_ratio").toList = base.toList ++ '/' :: "update_ratio".toList := by
    simp [String.toList_append]
  apply kind_classifyTopic_of_not_suffix
  · have h := slash_suffix_iff (w := "data".toList) (y := "update_ratio".toList) (by decide)
      (by decide) base.toList
    rw [htopic]
    exact fun hs => absurd (h.mp hs) (by decide)
  · have h := slash_suffix_iff (w := "raw".toList) (y := "update_ratio".toList) (by decide)
      (by decide) base.toList
    rw [htopic]
    exact fun hs => absurd (h.mp hs) (by decide)

/-! ### Hex digits -/

/-- The value of a digit string. -/
def hexValue (digits : List Nat) : Nat := digits.foldl (fun v d => 16 * v + d) 0

def upperHex (d : Nat) : Char := d.digitChar.toUpper

theorem hexDigit_upperHex {d : Nat} (hd : d < 16) : hexDigit (upperHex d) = some d := by
  have hall : ∀ d < 16, hexDigit (upperHex d) = some d := by decide
  exact hall d hd

/-- No digit is a space, a sign or an `x`. -/
theorem upperHex_ne {d : Nat} (hd : d < 16) : Numerals.isSpace (upperHex d) = false ∧
    upperHex d ≠ '-' ∧ upperHex d ≠ '+' ∧ upperHex d ≠ 'x' ∧ upperHex d ≠ 'X' := by
  have hall : ∀ d < 16, Numerals.isSpace (upperHex d) = false ∧
      upperHex d ≠ '-' ∧ upperHex d ≠ '+' ∧ upperHex d ≠ 'x' ∧ upperHex d ≠ 'X' := by decide
  exact hall d hd

/-- The digits of a number, most significant first: they are digits, and their value is the number. -/
theorem exists_digits (n : Nat) : ∃ digits : List Nat,
    (Nat.toDigits 16 n).map Char.toUpper = digits.map upperHex ∧ digits ≠ [] ∧
      (∀ d ∈ digits, d < 16) ∧ hexValue digits = n := by
  induction n using Nat.strongRecOn with
  | ind n ih =>
    by_cases hlt : n < 16
    · refine ⟨[n], ?_, List.cons_ne_nil _ _, ?_, ?_⟩
      · rw [Nat.toDigits_of_lt_base hlt]
        rfl
      · simpa using hlt
      · simp [hexValue]
    · obtain ⟨digits, hdigits, -, hvalid, hvalue⟩ := ih (n / 16) (by omega)
      refine ⟨digits ++ [n % 16], ?_, by simp, ?_, ?_⟩
      · rw [Nat.toDigits_of_base_le (by decide) (Nat.le_of_not_lt hlt), List.map_append, hdigits,
          List.map_append]
        rfl
      · intro d hd
        rcases List.mem_append.mp hd with hd | hd
        · exact hvalid d hd
        · rw [List.mem_singleton.mp hd]
          exact Nat.mod_lt _ (by decide)
      · rw [hexValue, List.foldl_append, ← hexValue, hvalue]
        simp only [List.foldl_cons, List.foldl_nil]
        omega

theorem hexValue_replicate_append (k : Nat) (digits : List Nat) :
    hexValue (List.replicate k 0 ++ digits) = hexValue digits := by
  induction k with
  | zero => rfl
  | succ k ih =>
    rw [← ih, hexValue, hexValue, List.replicate_succ, List.cons_append, List.foldl_cons]

/-- The name of an id: `0x`, and digits whose value is the id. -/
theorem exists_digits_formatId (id : BitVec 32) : ∃ d digits,
    (McapLogger.formatId id).toList = '0' :: 'x' :: (d :: digits).map upperHex ∧
      (∀ e ∈ d :: digits, e < 16) ∧ hexValue (d :: digits) = id.toNat := by
  obtain ⟨digits, hdigits, hne, hvalid, hvalue⟩ := exists_digits id.toNat
  have hpadded : List.leftpad 3 '0' ((Nat.toDigits 16 id.toNat).map Char.toUpper) =
      (List.replicate (3 - digits.length) 0 ++ digits).map upperHex := by
    rw [hdigits, List.leftpad, List.length_map, List.map_append, List.map_replicate]
    rfl
  have hvalid' : ∀ e ∈ List.replicate (3 - digits.length) 0 ++ digits, e < 16 := by
    intro e he
    rcases List.mem_append.mp he with he | he
    · rw [List.eq_of_mem_replicate he]
      decide
    · exact hvalid e he
  have hvalue' := (hexValue_replicate_append (3 - digits.length) digits).trans hvalue
  cases hall : List.replicate (3 - digits.length) 0 ++ digits with
  | nil => exact absurd (List.append_eq_nil_iff.mp hall).2 hne
  | cons d rest =>
    rw [hall] at hpadded hvalid' hvalue'
    refine ⟨d, rest, ?_, hvalid', hvalue'⟩
    rw [McapLogger.formatId, String.toList_ofList, hpadded]

/-! ### Reading the digits -/

theorem hexPrefix_upperHex {d : Nat} {digits : List Nat} (hvalid : ∀ e ∈ d :: digits, e < 16) :
    hexPrefix ((d :: digits).map upperHex) = (d :: digits).map upperHex := by
  unfold hexPrefix
  split
  · next x c rest heq =>
    -- A second character that is a digit is no `x`.
    cases digits with
    | nil => exact absurd (congrArg List.length heq) (by simp)
    | cons e digits =>
      have he := (upperHex_ne (hvalid e (by simp))).2.2.2
      have hx : upperHex e = x := by
        rw [List.map_cons, List.map_cons] at heq
        exact (List.cons.inj (List.cons.inj heq).2).1
      rw [if_neg]
      rintro ⟨rfl | rfl, -⟩
      · exact he.1 hx
      · exact he.2 hx
  · rfl

theorem filterMap_hexDigit {digits : List Nat} (hvalid : ∀ e ∈ digits, e < 16) :
    ((digits.map upperHex).takeWhile fun c => (hexDigit c).isSome).filterMap hexDigit = digits := by
  induction digits with
  | nil => rfl
  | cons d digits ih =>
    have hd := hexDigit_upperHex (hvalid d List.mem_cons_self)
    have ih := ih fun e he => hvalid e (List.mem_cons_of_mem _ he)
    rw [List.map_cons, List.takeWhile_cons, if_pos (by rw [hd]; rfl), List.filterMap_cons_some hd, ih]

theorem stoulHex_upperHex {d : Nat} {digits : List Nat} (hvalid : ∀ e ∈ d :: digits, e < 16)
    (hlt : hexValue (d :: digits) < 2 ^ 64) :
    stoulHex ((d :: digits).map upperHex) = some (BitVec.ofNat 64 (hexValue (d :: digits))) := by
  obtain ⟨hspace, hminus, hplus, -, -⟩ := upperHex_ne (hvalid d List.mem_cons_self)
  have hdrop : ((d :: digits).map upperHex).dropWhile Numerals.isSpace =
      (d :: digits).map upperHex := by
    rw [List.map_cons, List.dropWhile_cons_of_neg (by rw [hspace]; decide)]
  rw [List.map_cons] at hdrop
  unfold stoulHex
  dsimp only
  rw [List.map_cons, hdrop]
  simp only [List.cons.injEq, hminus, hplus, false_and, imp_self, implies_true]
  rw [← List.map_cons, hexPrefix_upperHex hvalid, filterMap_hexDigit hvalid, if_neg]
  · rfl
  · rintro (h | h)
    · cases h
    · exact Nat.not_le.mpr hlt h

/-- The name that a frame gets from its id is read as this id. -/
theorem deriveCanId_formatId (hash : String → BitVec 64) (id : BitVec 32) :
    deriveCanId hash (McapLogger.formatId id) = id := by
  obtain ⟨d, digits, hname, hvalid, hvalue⟩ := exists_digits_formatId id
  have hlt : hexValue (d :: digits) < 2 ^ 64 := by
    rw [hvalue]
    exact id.isLt.trans (by decide)
  have hparsed := stoulHex_upperHex hvalid hlt
  rw [List.map_cons] at hname hparsed
  unfold deriveCanId
  dsimp only
  rw [hname]
  simp only [true_or, if_true, hparsed, hvalue]
  apply BitVec.eq_of_toNat_eq
  rw [BitVec.toNat_setWidth, BitVec.toNat_ofNat, Nat.mod_eq_of_lt (id.isLt.trans (by decide)),
    Nat.mod_eq_of_lt id.isLt]

/-! ### The naming, undone -/

variable {pb : Protobuf}

/-- **The reader undoes the logger's names.** For an interface without a slash, any message name and
any id: the topics that are built from them give them back, and a frame that is named after its id
gets this id again. -/
theorem classifyTopic_baseTopic (hash : String → BitVec 64) {iface : String}
    (hslash : '/' ∉ iface.toList) (name : String) :
    classifyTopic (iface ++ "/" ++ name ++ "/data") = ⟨.Data, iface, name⟩ ∧
      classifyTopic (iface ++ "/" ++ name ++ "/raw") = ⟨.Raw, iface, name⟩ ∧
      (classifyTopic (iface ++ "/" ++ name ++ "/update_ratio")).kind = .Other ∧
      ∀ frame : CanFrame, frame.header.interface = iface →
        let topic := McapLogger.baseTopic frame (none : Option (Descriptor pb))
        classifyTopic (topic ++ "/data") = ⟨.Data, iface, McapLogger.formatId frame.header.id⟩ ∧
          classifyTopic (topic ++ "/raw") = ⟨.Raw, iface, McapLogger.formatId frame.header.id⟩ ∧
          (classifyTopic (topic ++ "/update_ratio")).kind = .Other ∧
          deriveCanId hash (classifyTopic (topic ++ "/data")).msgName = frame.header.id := by
  refine ⟨classifyTopic_data_of_not_mem hslash name, classifyTopic_raw_of_not_mem hslash name, ?_, ?_⟩
  · rw [classifyTopic_updateRatio]
  · rintro frame rfl topic
    have hdata := classifyTopic_data_of_not_mem hslash (McapLogger.formatId frame.header.id)
    have hraw := classifyTopic_raw_of_not_mem hslash (McapLogger.formatId frame.header.id)
    refine ⟨hdata, hraw, ?_, ?_⟩
    · rw [classifyTopic_updateRatio]
    · rw [show classifyTopic (topic ++ "/data") = _ from hdata]
      exact deriveCanId_formatId hash frame.header.id

/-- A message whose name looks like a topic, and an extended id. -/
theorem classifyTopic_baseTopic_can0 :
    classifyTopic ("can0" ++ "/" ++ "a/raw" ++ "/data") = ⟨.Data, "can0", "a/raw"⟩ ∧
      deriveCanId (fun _ => 0) (classifyTopic (McapLogger.baseTopic
        { header := ⟨0x1ABCDEF0, "can0", 0⟩, payload := [] }
        (none : Option (Descriptor Protobuf.wire)) ++ "/data")).msgName = 0x1ABCDEF0 := by
  have hslash : '/' ∉ "can0".toList := by decide
  have h := @classifyTopic_baseTopic Protobuf.wire (fun _ => 0) "can0" hslash "a/raw"
  exact ⟨h.1, (h.2.2.2 _ rfl).2.2.2⟩

end Caneo
