import Blocklist.Proofs.Results
import Blocklist.Text.Units

/-! # Surrogate pairs

A character outside the basic plane is written as a high surrogate and a low one, and no other
character is written with either. So the units of a text are read back without doubt, and a place
between two characters is never a place inside a pair. A text that holds a surrogate itself has no
units.
-/

namespace Blocklist.Text

/-- The first unit of a pair. -/
def isHigh (unit : Nat) : Bool :=
  0xD800 ≤ unit && unit < 0xDC00

/-- The second unit of a pair. -/
def isLow (unit : Nat) : Bool :=
  0xDC00 ≤ unit && unit < 0xE000

/-- The character that a pair stands for. -/
def ofPair (high low : Nat) : Char :=
  Char.ofNat (0x10000 + (high - 0xD800) * 0x400 + (low - 0xDC00))

/-- Read code units. A surrogate that is not part of a pair cannot be read. -/
def ofUnits? : List Nat → Option Text
  | [] => some []
  | unit :: rest =>
      if isHigh unit then
        match rest with
        | low :: behind =>
            if isLow low then (ofUnits? behind).map (.char (ofPair unit low) :: ·) else none
        | [] => none
      else if isLow unit || 0x10000 ≤ unit then none
      else (ofUnits? rest).map (.char (Char.ofNat unit) :: ·)

/-- The offset lies between the two units of a pair. -/
def SplitsPair (units : List Nat) (offset : Nat) : Prop :=
  ∃ front high low back, units = front ++ high :: low :: back ∧ isHigh high = true ∧
    isLow low = true ∧ offset = front.length + 1

section Characters

variable {c : Char}

theorem isHigh_eq_false_of_char (c : Char) : isHigh c.toNat = false := by
  have valid : c.toNat < 0xD800 ∨ 0xDFFF < c.toNat ∧ c.toNat < 0x110000 := c.valid
  simp only [isHigh, Bool.and_eq_false_iff, decide_eq_false_iff_not]
  omega

theorem isLow_eq_false_of_char (c : Char) : isLow c.toNat = false := by
  have valid : c.toNat < 0xD800 ∨ 0xDFFF < c.toNat ∧ c.toNat < 0x110000 := c.valid
  simp only [isLow, Bool.and_eq_false_iff, decide_eq_false_iff_not]
  omega

/-- A character outside the basic plane is a pair of surrogates, which stands for it. -/
theorem exists_pair (outside : 0x10000 ≤ c.toNat) : ∃ high low, unitsOfChar c = [high, low] ∧
    isHigh high = true ∧ isLow low = true ∧ ofPair high low = c := by
  have valid : c.toNat < 0xD800 ∨ 0xDFFF < c.toNat ∧ c.toNat < 0x110000 := c.valid
  refine ⟨_, _, if_neg (by omega), ?_, ?_, ?_⟩
  · simp only [isHigh, Bool.and_eq_true, decide_eq_true_eq]
    omega
  · simp only [isLow, Bool.and_eq_true, decide_eq_true_eq]
    omega
  · have place : 0x10000 + (0xD800 + (c.toNat - 0x10000) / 0x400 - 0xD800) * 0x400 +
        (0xDC00 + (c.toNat - 0x10000) % 0x400 - 0xDC00) = c.toNat := by omega
    rw [ofPair, place, Char.ofNat_toNat]

theorem ofUnits?_unitsOfChar (c : Char) (units : List Nat) :
    ofUnits? (unitsOfChar c ++ units) = (ofUnits? units).map (.char c :: ·) := by
  by_cases basic : c.toNat < 0x10000
  · have lone : ¬(isLow c.toNat || 0x10000 ≤ c.toNat) = true := by
      simp [isLow_eq_false_of_char, basic]
    rw [unitsOfChar, if_pos basic, List.singleton_append, ofUnits?.eq_def]
    dsimp only
    rw [isHigh_eq_false_of_char, if_neg Bool.false_ne_true, if_neg lone, Char.ofNat_toNat]
  · obtain ⟨high, low, pair, isHigh, isLow, char⟩ := exists_pair (Nat.le_of_not_lt basic)
    rw [pair, List.cons_append, List.singleton_append, ofUnits?, if_pos isHigh, if_pos isLow, char]

theorem getLast?_unitsOfChar (c : Char) :
    ∃ front unit, unitsOfChar c = front ++ [unit] ∧ isHigh unit = false := by
  by_cases basic : c.toNat < 0x10000
  · exact ⟨[], c.toNat, if_pos basic, isHigh_eq_false_of_char c⟩
  · obtain ⟨high, low, pair, -, isLow, -⟩ := exists_pair (Nat.le_of_not_lt basic)
    refine ⟨[high], low, pair, ?_⟩
    simp only [Text.isLow, Bool.and_eq_true, decide_eq_true_eq] at isLow
    simp only [isHigh, Bool.and_eq_false_iff, decide_eq_false_iff_not]
    omega

end Characters

section Texts

variable {s a b : Text} {units front : List Nat} {position : Nat}

/-- Only texts of characters have units, which are those of the characters. -/
theorem unitsFrom_eq_ok_iff : unitsFrom position s = .ok units ↔
    ∃ chars, s = ofChars chars ∧ units = chars.flatMap unitsOfChar := by
  induction s generalizing position units with
  | nil =>
      constructor
      · rintro ⟨⟩
        exact ⟨[], rfl, rfl⟩
      · rintro ⟨chars, whole, rfl⟩
        rw [List.map_eq_nil_iff.mp whole.symm]
        rfl
  | cons c rest ih =>
      cases c with
      | surrogate offset =>
          refine iff_of_false nofun ?_
          rintro ⟨chars, whole, -⟩
          have isThere : CodePoint.surrogate offset ∈ ofChars chars := whole ▸ List.mem_cons_self
          simp [ofChars] at isThere
      | char c =>
          constructor
          · intro encoded
            obtain ⟨units, later, rfl⟩ := map_eq_ok_iff.mp encoded
            obtain ⟨chars, rfl, rfl⟩ := ih.mp later
            exact ⟨c :: chars, rfl, rfl⟩
          · rintro ⟨chars, whole, rfl⟩
            obtain ⟨c', chars, rfl, first, rfl⟩ := List.map_eq_cons_iff.mp whole.symm
            cases first
            exact map_eq_ok_iff.mpr ⟨_, ih.mpr ⟨chars, rfl, rfl⟩, rfl⟩

theorem units?_ofChars (chars : List Char) :
    units? (ofChars chars) = .ok (chars.flatMap unitsOfChar) :=
  unitsFrom_eq_ok_iff.mpr ⟨chars, rfl, rfl⟩

theorem ofUnits?_units? (encoded : s.units? = .ok units) : ofUnits? units = some s := by
  obtain ⟨chars, rfl, rfl⟩ := unitsFrom_eq_ok_iff.mp encoded
  clear encoded
  induction chars with
  | nil => rfl
  | cons c rest ih =>
      rw [List.flatMap_cons, ofUnits?_unitsOfChar, ih]
      rfl

theorem exists_ofChars_iff : (∃ chars, s = ofChars chars) ↔ ∀ c ∈ s, c.isSurrogate = false := by
  constructor
  · rintro ⟨chars, rfl⟩
    exact List.forall_mem_map.mpr fun _ _ => rfl
  · intro plain
    induction s with
    | nil => exact ⟨[], rfl⟩
    | cons c rest ih =>
        obtain ⟨first, later⟩ := List.forall_mem_cons.mp plain
        obtain ⟨chars, rfl⟩ := ih later
        cases c with
        | surrogate offset => cases first
        | char c => exact ⟨c :: chars, rfl⟩

theorem exists_units?_iff : (∃ units, s.units? = .ok units) ↔ ∀ c ∈ s, c.isSurrogate = false := by
  rw [← exists_ofChars_iff]
  constructor
  · rintro ⟨units, encoded⟩
    obtain ⟨chars, whole, -⟩ := unitsFrom_eq_ok_iff.mp encoded
    exact ⟨chars, whole⟩
  · rintro ⟨chars, rfl⟩
    exact ⟨_, units?_ofChars chars⟩

/-- A place between two characters does not lie inside a pair. -/
theorem not_splitsPair_append (chars chars' : List Char) :
    ¬SplitsPair ((chars ++ chars').flatMap unitsOfChar) (chars.flatMap unitsOfChar).length := by
  rintro ⟨front, high, low, back, whole, first, -, place⟩
  rw [List.flatMap_append, List.append_cons] at whole
  have parts : chars.flatMap unitsOfChar = front ++ [high] := by
    refine (List.append_inj whole ?_).1
    rw [List.length_append, List.length_singleton, place]
  -- Nothing ends with the first unit of a pair, and so neither does the text in front.
  rcases List.eq_nil_or_concat chars with rfl | ⟨s, c, rfl⟩
  · simp at parts
  · obtain ⟨front', unit, ends, notHigh⟩ := getLast?_unitsOfChar c
    rw [List.concat_eq_append, List.flatMap_append, List.flatMap_singleton, ends,
      ← List.append_assoc] at parts
    have same : [unit] = [high] := (List.append_inj' parts rfl).2
    rw [List.singleton_inj.mp same] at notHigh
    rw [notHigh] at first
    cases first

end Texts

end Blocklist.Text
