import Blocklist.Edit

/-! # Where edits take effect

A deletion covers the characters it takes out; an insertion puts its text into a gap, the one in
front of the character with the same index. Rebasing one edit over another moves its effect along
with the characters: what is covered, and where a text goes, stays the same up to the shift.
-/

namespace Blocklist.Edit

/-- An edit finds its place in a line of `length` characters. -/
def InRange (length : Nat) : Edit → Prop
  | delete _ offset count => 0 ≤ offset ∧ 0 ≤ count ∧ offset + count ≤ length
  | insert _ offset _ => 0 ≤ offset ∧ offset ≤ length

/-- An edit takes out the character at an index. -/
def Covers (index : Nat) : Edit → Prop
  | delete _ offset count => offset ≤ index ∧ index < offset + count
  | insert .. => False

/-- What an edit puts into a gap. -/
def insertedAt (gap : Nat) : Edit → Text
  | delete .. => []
  | insert _ offset text => if offset = gap then text else []

/-- An edit only takes out. -/
def IsDeletion : Edit → Prop
  | delete .. => True
  | insert .. => False

/-- The edit brings a character into its line. -/
def Adds (c : CodePoint) : Edit → Prop
  | delete _ _ _ => False
  | insert _ _ text => c ∈ text

/-- A deletion takes out characters on both sides of the gap of an insertion. -/
def Encloses : Edit → Edit → Prop
  | delete _ offset count, insert _ gap _ => offset < gap ∧ gap < offset + count
  | _, _ => False

/-- Of two insertions the first is not made behind the second. -/
def InOrder : Edit → Edit → Prop
  | insert _ first _, insert _ second _ => first ≤ second
  | _, _ => True

instance (length : Nat) (e : Edit) : Decidable (e.InRange length) := by
  cases e <;> unfold InRange <;> infer_instance

instance (index : Nat) (e : Edit) : Decidable (e.Covers index) := by
  cases e <;> unfold Covers <;> infer_instance

instance (e : Edit) : Decidable e.IsDeletion := by
  cases e <;> unfold IsDeletion <;> infer_instance

instance (c : CodePoint) (e : Edit) : Decidable (e.Adds c) := by
  cases e <;> unfold Adds <;> infer_instance

instance (d i : Edit) : Decidable (d.Encloses i) := by
  cases d <;> cases i <;> unfold Encloses <;> infer_instance

instance (e f : Edit) : Decidable (e.InOrder f) := by
  cases e <;> cases f <;> unfold InOrder <;> infer_instance

theorem adds_rebase {c : CodePoint} (e e' : Edit) : (e.rebase e').Adds c ↔ e'.Adds c := by
  fun_cases rebase e e' <;> exact Iff.rfl

section Deletion

variable {rule : Text} {start count : Int} {index : Nat}

theorem covers_rebase_delete_of_lt (some : 0 < count) (before : index < start) (e : Edit) :
    ((delete rule start count).rebase e).Covers index ↔ e.Covers index := by
  cases e with
  | insert => simp [rebase, Covers, Int.not_le.mpr some]
  | delete rule' offset count' =>
      simp only [rebase, Int.not_le.mpr some, if_false, Covers, placeAfterDelete, overlap]
      split
      · omega
      · split <;> omega

theorem covers_rebase_delete_of_le (some : 0 < count) (behind : start ≤ index) (e : Edit) :
    ((delete rule start count).rebase e).Covers index ↔ e.Covers (index + count.toNat) := by
  cases e with
  | insert => simp [rebase, Covers, Int.not_le.mpr some]
  | delete rule' offset count' =>
      simp only [rebase, Int.not_le.mpr some, if_false, Covers, placeAfterDelete, overlap]
      split
      · omega
      · split <;> omega

theorem insertedAt_rebase_delete_of_lt (some : 0 < count) (before : index < start) (e : Edit) :
    insertedAt index ((delete rule start count).rebase e) = insertedAt index e := by
  cases e with
  | delete => simp [rebase, insertedAt, Int.not_le.mpr some]
  | insert rule' offset text =>
      simp only [rebase, Int.not_le.mpr some, if_false, insertedAt, placeAfterDelete]
      congr 1
      simp only [eq_iff_iff]
      split
      · omega
      · split <;> omega

theorem insertedAt_rebase_delete_of_gt (some : 0 < count) (behind : start < index) (e : Edit) :
    insertedAt index ((delete rule start count).rebase e) =
      insertedAt (index + count.toNat) e := by
  cases e with
  | delete => simp [rebase, insertedAt, Int.not_le.mpr some]
  | insert rule' offset text =>
      simp only [rebase, Int.not_le.mpr some, if_false, insertedAt, placeAfterDelete]
      congr 1
      simp only [eq_iff_iff]
      split
      · omega
      · split <;> omega

/-- The gaps at the two ends of a deletion become one. -/
theorem insertedAt_rebase_delete_self (some : 0 < count) (here : (index : Int) = start)
    {e : Edit} (apart : ¬(delete rule start count).Encloses e) :
    insertedAt index ((delete rule start count).rebase e) =
      insertedAt index e ++ insertedAt (index + count.toNat) e := by
  cases e with
  | delete => simp [rebase, insertedAt, Int.not_le.mpr some]
  | insert rule' offset text =>
      simp only [Encloses, not_and] at apart
      simp only [rebase, Int.not_le.mpr some, if_false, insertedAt, placeAfterDelete]
      by_cases atStart : offset = index
      · have behind : ¬start + count ≤ offset := by omega
        have stays : ¬start < offset := by omega
        have notEnd : ¬offset = (index + count.toNat : Nat) := by omega
        rw [if_neg behind, if_neg stays, if_pos atStart, if_neg notEnd, List.append_nil]
      · by_cases atEnd : offset = (index + count.toNat : Nat)
        · have moved : start + count ≤ offset := by omega
          have place : offset - count = index := by omega
          rw [if_pos moved, if_pos place, if_neg atStart, if_pos atEnd, List.nil_append]
        · have elsewhere : ¬(if start + count ≤ offset then offset - count
              else if start < offset then start else offset) = index := by
            split
            · omega
            · split <;> omega
          rw [if_neg elsewhere, if_neg atStart, if_neg atEnd, List.nil_append]

theorem inRange_rebase_delete {length : Nat} (within : (delete rule start count).InRange length)
    {e : Edit} (inRange : e.InRange length) :
    ((delete rule start count).rebase e).InRange (length - count.toNat) := by
  simp only [InRange] at within
  cases e with
  | delete rule' offset count' =>
      simp only [InRange] at inRange
      simp only [rebase]
      split
      · simp only [InRange]; omega
      · simp only [InRange, placeAfterDelete, overlap]
        split
        · omega
        · split <;> omega
  | insert rule' offset text =>
      simp only [InRange] at inRange
      simp only [rebase]
      split
      · simp only [InRange]; omega
      · simp only [InRange, placeAfterDelete]
        split
        · omega
        · split <;> omega

theorem inOrder_rebase_delete {e f : Edit} (inOrder : e.InOrder f) :
    ((delete rule start count).rebase e).InOrder ((delete rule start count).rebase f) := by
  cases e with
  | delete => simp only [rebase]; split <;> trivial
  | insert rule₁ first text₁ =>
      cases f with
      | delete => simp only [rebase]; split <;> trivial
      | insert rule₂ second text₂ =>
          simp only [InOrder] at inOrder
          simp only [rebase]
          split
          · simpa only [InOrder] using inOrder
          · simp only [InOrder, placeAfterDelete]
            grind

theorem not_encloses_rebase_delete {length : Nat} {d i : Edit} (inRange : d.InRange length)
    (apart : ¬d.Encloses i) :
    ¬((delete rule start count).rebase d).Encloses ((delete rule start count).rebase i) := by
  cases d with
  | insert => simp only [rebase]; split <;> simp [Encloses]
  | delete rule₁ offset count₁ =>
      cases i with
      | delete => simp only [rebase]; split <;> simp [Encloses]
      | insert rule₂ gap text =>
          simp only [Encloses, not_and] at apart
          simp only [InRange] at inRange
          simp only [rebase]
          split
          · simpa only [Encloses, not_and] using apart
          · simp only [Encloses, not_and, placeAfterDelete, overlap]
            grind

end Deletion

section Insertion

variable {rule text : Text} {start : Int} {index : Nat}

theorem covers_rebase_insert_of_lt (before : index < start) (e : Edit) :
    ((insert rule start text).rebase e).Covers index ↔ e.Covers index := by
  cases e with
  | insert => rfl
  | delete rule' offset count =>
      simp only [rebase]
      split
      · simp only [Covers]; omega
      · split
        · simp only [Covers]; omega
        · simp only [Covers]

/-- The characters of an inserted text are covered by no deletion around which there is none. -/
theorem not_covers_rebase_insert (from_start : start ≤ index) (inside : index < start + text.length)
    {e : Edit} (apart : ¬e.Encloses (insert rule start text)) :
    ¬((insert rule start text).rebase e).Covers index := by
  cases e with
  | insert => simp [rebase, Covers]
  | delete rule' offset count =>
      simp only [Encloses, not_and] at apart
      simp only [rebase]
      split
      · simp only [Covers]; omega
      · split <;> simp only [Covers] <;> omega

theorem covers_rebase_insert_of_le (behind : start ≤ index) (e : Edit) :
    ((insert rule start text).rebase e).Covers (index + text.length) ↔ e.Covers index := by
  cases e with
  | insert => rfl
  | delete rule' offset count =>
      simp only [rebase]
      split
      · simp only [Covers]; omega
      · split <;> simp only [Covers] <;> omega

theorem insertedAt_rebase_insert_of_lt (before : index < start) (e : Edit) :
    insertedAt index ((insert rule start text).rebase e) = insertedAt index e := by
  cases e with
  | delete =>
      simp only [rebase]
      split
      · rfl
      · split <;> rfl
  | insert rule' offset text' =>
      simp only [rebase, insertedAt]
      congr 1
      simp only [eq_iff_iff]
      split <;> omega

theorem insertedAt_rebase_insert_of_mem (from_start : start ≤ index)
    (inside : index < start + text.length) (e : Edit) :
    insertedAt index ((insert rule start text).rebase e) = [] := by
  cases e with
  | delete =>
      simp only [rebase]
      split
      · rfl
      · split <;> rfl
  | insert rule' offset text' =>
      simp only [rebase, insertedAt]
      have elsewhere : ¬(if start ≤ offset then offset + text.length else offset) = index := by
        split <;> omega
      rw [if_neg elsewhere]

theorem insertedAt_rebase_insert_of_le (behind : start ≤ index) (e : Edit) :
    insertedAt (index + text.length) ((insert rule start text).rebase e) = insertedAt index e := by
  cases e with
  | delete =>
      simp only [rebase]
      split
      · rfl
      · split <;> rfl
  | insert rule' offset text' =>
      simp only [rebase, insertedAt]
      congr 1
      simp only [eq_iff_iff]
      split <;> omega

theorem inRange_rebase_insert {length : Nat} {e : Edit} (inRange : e.InRange length) :
    ((insert rule start text).rebase e).InRange (length + text.length) := by
  cases e with
  | delete rule' offset count =>
      simp only [InRange] at inRange
      simp only [rebase]
      split
      · simp only [InRange]; omega
      · split <;> simp only [InRange] <;> omega
  | insert rule' offset text' =>
      simp only [InRange] at inRange
      simp only [rebase, InRange]
      split <;> omega

theorem inOrder_rebase_insert {e f : Edit} (inOrder : e.InOrder f) :
    ((insert rule start text).rebase e).InOrder ((insert rule start text).rebase f) := by
  cases e with
  | delete =>
      simp only [rebase]
      split
      · trivial
      · split <;> trivial
  | insert rule₁ first text₁ =>
      cases f with
      | delete => simp only [rebase]; grind [InOrder]
      | insert rule₂ second text₂ =>
          simp only [InOrder] at inOrder
          simp only [rebase, InOrder]
          split <;> split <;> omega

theorem not_encloses_rebase_insert {d i : Edit} (apart : ¬d.Encloses i)
    (apartHere : ¬d.Encloses (insert rule start text))
    (inOrder : (insert rule start text).InOrder i) :
    ¬((insert rule start text).rebase d).Encloses ((insert rule start text).rebase i) := by
  cases i with
  | delete => cases d <;> simp only [rebase] <;> grind [Encloses]
  | insert rule₂ gap text₂ =>
      cases d with
      | insert => simp [rebase, Encloses]
      | delete rule₁ offset count =>
          simp only [Encloses, not_and] at apart apartHere
          simp only [InOrder] at inOrder
          simp only [rebase, if_pos inOrder]
          split
          · simp only [Encloses, not_and]; omega
          · split <;> simp only [Encloses, not_and] <;> omega

end Insertion

end Blocklist.Edit
