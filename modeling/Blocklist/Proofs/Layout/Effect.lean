import Blocklist.Proofs.Edit.Stretch
import Blocklist.Proofs.Layout.Tidied

/-! # What the edits of a layout do

The edits of a text that is to be trimmed and those of a name lie within it, they can be made at
once, and then they trim the text and write out the name if it is a short one.
-/

namespace Blocklist

namespace Layout

open Edit

section Trimming

theorem mem_deleteSome {rule : Text} {offset : Int} {count : Nat} {e : Edit} :
    e ∈ deleteSome rule offset count ↔ count ≠ 0 ∧ e = .delete rule offset count := by
  unfold deleteSome
  split
  · next nothing => simp [nothing]
  · next some => simp [some]

/-- The edits that trim a text which stands at an offset. -/
def trimsAt (rule : Text) (start : Nat) (s : Text) : List Edit :=
  trimEdits rule s ⟨start, (start + s.length : Nat)⟩

theorem trimsAt_within (rule : Text) (start : Nat) (s : Text) :
    ∀ e ∈ trimsAt rule start s, e.Within start (start + s.length) := by
  intro e isThere
  have leading := Text.leadingBlanks_le_length s
  have trailing := Text.trailingBlanks_le_length s
  rcases List.mem_append.mp isThere with front | back
  · obtain ⟨-, rfl⟩ := mem_deleteSome.mp front
    simp only [Within]
    omega
  · obtain ⟨-, rfl⟩ := mem_deleteSome.mp back
    simp only [Within]
    omega

theorem trimsAt_isDeletion (rule : Text) (start : Nat) (s : Text) :
    ∀ e ∈ trimsAt rule start s, e.IsDeletion := by
  intro e isThere
  rcases List.mem_append.mp isThere with front | back
  · obtain ⟨-, rfl⟩ := mem_deleteSome.mp front
    trivial
  · obtain ⟨-, rfl⟩ := mem_deleteSome.mp back
    trivial

theorem inserted_of_isDeletion {edits : List Edit} (deletions : ∀ e ∈ edits, e.IsDeletion)
    (gap : Nat) : inserted edits gap = [] := by
  rw [inserted, List.flatMap_eq_nil_iff]
  exact fun e isThere => insertedAt_of_isDeletion (deletions e isThere) gap

theorem exists_covers_trimsAt (rule : Text) (start : Nat) {i : Nat} {s : Text}
    (inside : i < s.length) :
    (∃ e ∈ trimsAt rule start s, e.Covers (start + i)) ↔
      i < s.leadingBlanks ∨ s.length - s.trailingBlanks ≤ i := by
  have leading := Text.leadingBlanks_le_length s
  have trailing := Text.trailingBlanks_le_length s
  constructor
  · rintro ⟨e, isThere, covers⟩
    rcases List.mem_append.mp isThere with front | back
    · obtain ⟨-, rfl⟩ := mem_deleteSome.mp front
      simp only [Covers] at covers
      omega
    · obtain ⟨-, rfl⟩ := mem_deleteSome.mp back
      simp only [Covers] at covers
      omega
  · rintro (front | back)
    · refine ⟨.delete rule start s.leadingBlanks,
        List.mem_append_left _ (mem_deleteSome.mpr ⟨by omega, rfl⟩), ?_⟩
      simp only [Covers]
      omega
    · refine ⟨.delete rule ((start + s.length : Nat) - s.trailingBlanks) s.trailingBlanks,
        List.mem_append_right _ (mem_deleteSome.mpr ⟨by omega, rfl⟩), ?_⟩
      simp only [Covers]
      omega

theorem weaveBefore_trimsAt (rule : Text) (start : Nat) (s : Text) :
    weaveBefore (trimsAt rule start s) start s = s.trimBlanks := by
  rw [Text.trimBlanks_eq_drop_take]
  exact weaveBefore_eq_drop_take
    (fun i _ => inserted_of_isDeletion (trimsAt_isDeletion rule start s) _)
    fun i hi => exists_covers_trimsAt rule start hi

end Trimming

section Names

/-- The edits of a name that stands at an offset. -/
def nameEditsAt (start : Nat) (name : Text) : List Edit :=
  trimsAt nameRule start name ++ nameEdits name ⟨start, (start + name.length : Nat)⟩

theorem nameEditsAt_of_none {start : Nat} {name : Text} (long : fullName? name.trimBlanks = none) :
    nameEditsAt start name = trimsAt nameRule start name := by
  simp [nameEditsAt, nameEdits, long]

theorem nameEditsAt_of_some {start : Nat} {name full : Text}
    (short : fullName? name.trimBlanks = some full) :
    nameEditsAt start name = trimsAt nameRule start name ++
      [.delete fullNameRule start name.length, .insert fullNameRule start full] := by
  have count : ((start + name.length : Nat) : Int) - start = name.length := by omega
  simp only [nameEditsAt, nameEdits, short, count]

theorem nameEditsAt_within (start : Nat) (name : Text) :
    ∀ e ∈ nameEditsAt start name, e.Within start (start + name.length) := by
  cases short : fullName? name.trimBlanks with
  | none =>
      rw [nameEditsAt_of_none short]
      exact trimsAt_within nameRule start name
  | some full =>
      have some := List.length_pos_iff.mpr (ne_nil_of_fullName? short)
      rw [nameEditsAt_of_some short]
      intro e isThere
      simp only [List.mem_append, List.mem_cons, List.not_mem_nil, or_false] at isThere
      rcases isThere with trims | rfl | rfl
      · exact trimsAt_within nameRule start name e trims
      · simp only [Within]
        omega
      · simp only [Within]
        omega

theorem inserted_nameEditsAt {start : Nat} {name full : Text}
    (short : fullName? name.trimBlanks = some full) (gap : Nat) :
    inserted (nameEditsAt start name) gap = if gap = start then full else [] := by
  rw [nameEditsAt_of_some short, inserted_append,
    inserted_of_isDeletion (trimsAt_isDeletion nameRule start name)]
  by_cases here : gap = start
  · simp [inserted, insertedAt, here]
  · have elsewhere : ¬(start : Int) = gap := by omega
    simp [inserted, insertedAt, here, elsewhere]

theorem weaveBefore_nameEditsAt (start : Nat) (name : Text) :
    weaveBefore (nameEditsAt start name) start name =
      (fullName? name.trimBlanks).getD name.trimBlanks := by
  cases short : fullName? name.trimBlanks with
  | none =>
      rw [nameEditsAt_of_none short]
      exact weaveBefore_trimsAt nameRule start name
  | some full =>
      rw [weaveBefore_eq_inserted (ne_nil_of_fullName? short), inserted_nameEditsAt short,
        if_pos rfl, Option.getD_some]
      · intro i positive _
        rw [inserted_nameEditsAt short, if_neg (by omega)]
      · intro i hi
        refine ⟨.delete fullNameRule start name.length, ?_, ?_⟩
        · rw [nameEditsAt_of_some short]
          simp
        · simp only [Covers]
          omega

theorem compatible_of_deletions {length start stop : Nat} {edits : List Edit}
    (within : ∀ e ∈ edits, e.Within start stop) (fits : stop ≤ length)
    (deletions : ∀ e ∈ edits, e.IsDeletion) : Compatible length edits :=
  compatible_of_isDeletion (fun e isThere => (within e isThere).inRange fits) deletions

theorem compatible_trimsAt {length start : Nat} {s : Text} (rule : Text)
    (fits : start + s.length ≤ length) : Compatible length (trimsAt rule start s) :=
  compatible_of_deletions (trimsAt_within rule start s) fits (trimsAt_isDeletion rule start s)

theorem compatible_nameEditsAt {length start : Nat} {name : Text}
    (fits : start + name.length ≤ length) : Compatible length (nameEditsAt start name) := by
  cases short : fullName? name.trimBlanks with
  | none =>
      rw [nameEditsAt_of_none short]
      exact compatible_trimsAt nameRule fits
  | some full =>
      have within := nameEditsAt_within start name
      rw [nameEditsAt_of_some short, List.append_cons] at within ⊢
      refine Compatible.deletions_append ?_ ?_ ⟨?_, List.pairwise_singleton _ _, ?_⟩ ?_
      · exact fun e isThere => (within e (List.mem_append_left _ isThere)).inRange fits
      · intro e isThere
        rcases List.mem_append.mp isThere with trims | last
        · exact trimsAt_isDeletion nameRule start name e trims
        · rw [List.mem_singleton.mp last]
          trivial
      · exact fun e isThere => (within e (List.mem_append_right _ isThere)).inRange fits
      · intro d isThere
        rw [List.mem_singleton.mp isThere]
        exact fun _ _ => id
      · intro d isThere i isThere'
        have lies := within d (List.mem_append_left _ isThere)
        rw [List.mem_singleton.mp isThere']
        cases d with
        | insert => exact id
        | delete =>
            simp only [Within, Encloses] at lies ⊢
            omega

end Names

end Layout

end Blocklist
