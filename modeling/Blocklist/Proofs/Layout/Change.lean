import Blocklist.Proofs.Layout.Rewriting

/-! # When a line changes

A line is changed by its edits as soon as it has any. Edits take blanks out and write long names in
place of short ones, so all of them raise the balance of a line, and none makes up for another one.
-/

namespace Blocklist

namespace Text

/-- Each blank counts against a text and each other character for it. -/
def balance : Text → Int
  | [] => 0
  | c :: rest => (if isBlank c then -1 else 1) + balance rest

theorem balance_cons (c : CodePoint) (s : Text) :
    balance (c :: s) = (if isBlank c then -1 else 1) + balance s :=
  rfl

theorem balance_append (s t : Text) : balance (s ++ t) = balance s + balance t := by
  induction s with
  | nil => exact (Int.zero_add _).symm
  | cons c rest ih => rw [List.cons_append, balance_cons, ih, balance_cons, Int.add_assoc]

theorem balance_of_blank {s : Text} (blank : ∀ c ∈ s, isBlank c) : balance s = -s.length := by
  induction s with
  | nil => rfl
  | cons c rest ih =>
      rw [balance_cons, if_pos (blank c List.mem_cons_self),
        ih fun d isThere => blank d (List.mem_cons_of_mem _ isThere), List.length_cons]
      omega

/-- Trimming raises the balance of a text that it changes. -/
theorem balance_trimBlanks (s : Text) :
    s.balance ≤ s.trimBlanks.balance ∧ (s.trimBlanks.balance ≤ s.balance → s.Trimmed) := by
  obtain ⟨a, b, whole, blank, blank'⟩ := exists_blanks_around s
  have parts := congrArg balance whole
  rw [balance_append, balance_append, balance_of_blank blank, balance_of_blank blank'] at parts
  refine ⟨by omega, fun same => ?_⟩
  have front : a = [] := List.length_eq_zero_iff.mp (by omega)
  have back : b = [] := List.length_eq_zero_iff.mp (by omega)
  rw [front, back, List.nil_append, List.append_nil] at whole
  exact trimBlanks_eq_self_iff.mp whole.symm

theorem balance_dropWhile (s : Text) :
    s.balance ≤ Text.balance (s.dropWhile isBlank) ∧
      (Text.balance (s.dropWhile isBlank) ≤ s.balance → s.leadingBlanks = 0) := by
  have parts := congrArg balance (List.takeWhile_append_dropWhile (p := isBlank) (l := s))
  rw [balance_append, balance_of_blank fun c => List.mem_takeWhile_imp] at parts
  rw [leadingBlanks]
  omega

end Text

namespace Modifier

/-- A modifier is in the canonical layout. -/
structure IsTidy (m : Modifier) : Prop where
  name : m.name.Trimmed
  long : Layout.fullName? m.name = none
  value : ∀ value ∈ m.value, value.Trimmed

theorem isTidy_iff {m : Modifier} : m.IsTidy ↔
    (m.name.Trimmed ∧ Layout.fullName? m.name = none) ∧ ∀ value ∈ m.value, value.Trimmed :=
  ⟨fun tidy => ⟨⟨tidy.name, tidy.long⟩, tidy.value⟩, fun both => ⟨both.1.1, both.1.2, both.2⟩⟩

end Modifier

namespace Layout

open Edit

section Edits

theorem deleteSome_eq_nil_iff {rule : Text} {offset : Int} {count : Nat} :
    deleteSome rule offset count = [] ↔ count = 0 := by
  simp [deleteSome]

theorem trimsAt_eq_nil_iff {rule : Text} {start : Nat} {s : Text} :
    trimsAt rule start s = [] ↔ s.Trimmed := by
  rw [trimsAt, trimEdits, List.append_eq_nil_iff, deleteSome_eq_nil_iff, deleteSome_eq_nil_iff,
    Text.leadingBlanks_eq_zero_iff, Text.trailingBlanks_eq_zero_iff]
  exact ⟨fun both => ⟨both.1, both.2⟩, fun trimmed => ⟨trimmed.first, trimmed.last⟩⟩

theorem nameEditsAt_eq_nil_iff {start : Nat} {name : Text} :
    nameEditsAt start name = [] ↔ name.Trimmed ∧ fullName? name = none := by
  rw [nameEditsAt, List.append_eq_nil_iff, trimsAt_eq_nil_iff]
  refine and_congr_right fun trimmed => ?_
  rw [nameEdits, Text.trimBlanks_of_trimmed trimmed]
  cases fullName? name <;> simp

theorem entryEdits_eq_nil_iff {start : Nat} {entry : Text} :
    entryEdits start entry = [] ↔ (Modifier.ofEntry entry).IsTidy := by
  cases cut : (entry.cutBare '=').2 with
  | none =>
      rw [entryEdits_of_none cut, nameEditsAt_eq_nil_iff, Modifier.isTidy_iff]
      simp [Modifier.ofEntry, cut, Text.cutBare_fst_of_none cut]
  | some value =>
      rw [entryEdits_of_some cut, List.append_eq_nil_iff, nameEditsAt_eq_nil_iff,
        trimsAt_eq_nil_iff, Modifier.isTidy_iff]
      simp [Modifier.ofEntry, cut]

theorem sectionEdits_eq_nil_iff {start : Nat} {entries : List Text} :
    sectionEdits start entries = [] ↔ ∀ entry ∈ entries, (Modifier.ofEntry entry).IsTidy := by
  induction entries generalizing start with
  | nil => simp [sectionEdits]
  | cons entry rest ih => simp [sectionEdits, entryEdits_eq_nil_iff, ih]

end Edits

section Sectioned

variable {front closing : Text} {entries : List Text}

/-- Blanks that a section ends with belong to an entry which is not tidy. -/
theorem trailingBlanks_of_tidy (tidy : ∀ entry ∈ entries, (Modifier.ofEntry entry).IsTidy) :
    Text.trailingBlanks ([.char ','].intercalate entries) = 0 := by
  have counted := Text.trailingBlanks_le_length ([.char ','].intercalate entries)
  have none : sectionEdits 0 entries = [] := sectionEdits_eq_nil_iff.mpr tidy
  by_contra some
  have last : ∃ e ∈ sectionEdits 0 entries,
      e.Covers (0 + (([.char ','].intercalate entries).length - 1) : Nat) :=
    covers_trailing_section 0 (by omega) (by omega)
  obtain ⟨e, isThere, -⟩ := last
  rw [none] at isThere
  cases isThere

theorem sectionedEdits_eq_nil_iff (closed : closing = [] ∨ closing = [.char ',']) :
    sectionedEdits front closing entries = [] ↔
      front.leadingBlanks = 0 ∧ ∀ entry ∈ entries, (Modifier.ofEntry entry).IsTidy := by
  rw [sectionedEdits, List.append_eq_nil_iff, sectionEdits_eq_nil_iff, trimsAt, trimEdits,
    List.append_eq_nil_iff, deleteSome_eq_nil_iff, deleteSome_eq_nil_iff, leadingBlanks_sectioned,
    trailingBlanks_sectioned closed]
  refine ⟨fun all => ⟨all.1.1, all.2⟩, fun both => ⟨⟨both.1, ?_⟩, both.2⟩⟩
  rw [trailingBlanks_of_tidy both.2, ite_self]

end Sectioned

section Balance

theorem balance_fullName {name full : Text} (short : fullName? name = some full) :
    name.balance < full.balance := by
  have longer : ∀ pair ∈ fullNames, pair.1.balance < pair.2.balance := by decide
  exact longer _ (mem_of_fullName? short)

theorem balance_tidied_name (name : Text) :
    name.balance ≤ Text.balance ((fullName? name.trimBlanks).getD name.trimBlanks) ∧
      (Text.balance ((fullName? name.trimBlanks).getD name.trimBlanks) ≤ name.balance →
        name.Trimmed ∧ fullName? name = none) := by
  obtain ⟨raises, trimmed⟩ := Text.balance_trimBlanks name
  cases short : fullName? name.trimBlanks with
  | none =>
      rw [Option.getD_none]
      refine ⟨raises, fun same => ⟨trimmed same, ?_⟩⟩
      rw [← Text.trimBlanks_of_trimmed (trimmed same)]
      exact short
  | some full =>
      have longer := balance_fullName short
      rw [Option.getD_some]
      omega

theorem balance_tidied (m : Modifier) :
    m.written.balance ≤ m.tidied.written.balance ∧
      (m.tidied.written.balance ≤ m.written.balance → m.IsTidy) := by
  obtain ⟨raises, tidyName⟩ := balance_tidied_name m.name
  cases has : m.value with
  | none =>
      simp only [Modifier.written, Modifier.tidied, has, Option.map_none, List.append_nil]
      refine ⟨raises, fun same => ⟨(tidyName same).1, (tidyName same).2, ?_⟩⟩
      simp [has]
  | some value =>
      obtain ⟨raises', trimmed⟩ := Text.balance_trimBlanks value
      simp only [Modifier.written, Modifier.tidied, has, Option.map_some, Text.balance_append,
        Text.balance_cons]
      refine ⟨by omega, fun same => ⟨(tidyName (by omega)).1, (tidyName (by omega)).2, ?_⟩⟩
      rw [has]
      rintro _ ⟨⟩
      exact trimmed (by omega)

theorem balance_tidied_entries (entries : List Text) :
    Text.balance ([.char ','].intercalate entries) ≤
        Text.balance ([.char ','].intercalate (entries.map tidyEntry)) ∧
      (Text.balance ([.char ','].intercalate (entries.map tidyEntry)) ≤
          Text.balance ([.char ','].intercalate entries) →
        ∀ entry ∈ entries, (Modifier.ofEntry entry).IsTidy) := by
  induction entries with
  | nil => simp
  | cons entry rest ih =>
      obtain ⟨raises, tidy⟩ := balance_tidied (Modifier.ofEntry entry)
      rw [Modifier.written_ofEntry, ← tidyEntry] at raises tidy
      obtain ⟨raises', tidy'⟩ := ih
      cases rest with
      | nil =>
          simp only [List.map_cons, List.map_nil, List.intercalate_singleton, List.forall_mem_cons]
          exact ⟨raises, fun same => ⟨tidy same, List.forall_mem_nil _⟩⟩
      | cons next rest =>
          simp only [List.map_cons, List.intercalate_cons_cons, Text.balance_append] at *
          refine ⟨by omega, fun same => ?_⟩
          rw [List.forall_mem_cons]
          exact ⟨tidy (by omega), tidy' (by omega)⟩

end Balance

section Lines

variable {line : Text}

theorem lineEdits_eq_nil_iff : lineEdits line = [] ↔ line.Trimmed := by
  rw [lineEdits_eq, trimsAt_eq_nil_iff]

theorem applyAll_lineEdits_eq_self_iff : applyAll line (lineEdits line) = line ↔
    lineEdits line = [] := by
  rw [applyAll_lineEdits, Text.trimBlanks_eq_self_iff, lineEdits_eq_nil_iff]

theorem applyAll_sectionedEdits_eq_self {front closing : Text} {entries : List Text}
    (closed : closing = [] ∨ closing = [.char ','])
    (same : applyAll (sectioned front closing entries) (sectionedEdits front closing entries) =
      sectioned front closing entries) : sectionedEdits front closing entries = [] := by
  rw [applyAll_sectionedEdits closed] at same
  obtain ⟨raises, unindented⟩ := Text.balance_dropWhile front
  obtain ⟨raises', tidy⟩ := balance_tidied_entries entries
  have balanced := congrArg Text.balance same
  simp only [sectioned, Text.balance_append] at balanced
  exact (sectionedEdits_eq_nil_iff closed).mpr ⟨unindented (by omega), tidy (by omega)⟩

theorem applyAll_layoutEdits_eq_self_iff {record : Record}
    (read : Record.ofLine line = .ok record) :
    applyAll line record.layoutEdits = line ↔ record.layoutEdits = [] := by
  have whole := NetworkLine.toLine_ofLine line
  have kept := Record.line_of_ofLine read
  cases Record.kind_of_ofLine read with
  | empty => exact applyAll_lineEdits_eq_self_iff
  | other => exact applyAll_lineEdits_eq_self_iff
  | network =>
      cases has : (NetworkLine.ofLine line).modifierSection with
      | none =>
          rw [layoutEdits_unsectioned has, whole]
          exact applyAll_lineEdits_eq_self_iff
      | some modifiers =>
          have parts := (toLine_sectioned has).symm.trans whole
          rw [layoutEdits_sectioned has]
          constructor
          · intro same
            apply applyAll_sectionedEdits_eq_self (Section.closing_eq modifiers)
            rw [parts]
            exact same
          · intro none
            rw [none]
            exact applyAll_nil line
  | cosmetic hostname rest filter =>
      subst kept
      exact applyAll_lineEdits_eq_self_iff

end Lines

end Layout

end Blocklist
