import Blocklist.Proofs.Layout.Effect

/-! # What the edits of a section do

The edits of an entry lie within the entry, and those of a section are the edits of its entries one
after the other. Made at once they bring each entry to the canonical layout. Names are written out
where their entries start, so the blanks at the end of a section go with those of its last entry.
-/

namespace Blocklist.Layout

open Edit

section Entries

/-- The edits of an entry that starts at an offset. -/
def entryEdits (start : Nat) (entry : Text) : List Edit :=
  modifierEdits (Modifier.ofEntry entry) (ModifierMark.ofEntry start entry)

/-- The edits of entries with commas between them, the first of which starts at an offset. -/
def sectionEdits (start : Nat) : List Text → List Edit
  | [] => []
  | entry :: rest => entryEdits start entry ++ sectionEdits (start + entry.length + 1) rest

theorem flatten_modifierEdits (start : Nat) (entries : List Text) :
    ((entries.map Modifier.ofEntry).zipWith modifierEdits
      (ModifierMark.ofEntries start entries)).flatten = sectionEdits start entries := by
  induction entries generalizing start with
  | nil => rfl
  | cons entry rest ih =>
      rw [List.map_cons, ModifierMark.ofEntries, List.zipWith_cons_cons, List.flatten_cons, ih]
      rfl

theorem entryEdits_of_none {start : Nat} {entry : Text} (unnamed : (entry.cutBare '=').2 = none) :
    entryEdits start entry = nameEditsAt start entry := by
  have whole := Text.cutBare_fst_of_none unnamed
  simp only [entryEdits, modifierEdits, Modifier.ofEntry, ModifierMark.ofEntry, unnamed, whole,
    Option.map_none, List.append_nil]
  rfl

theorem entryEdits_of_some {start : Nat} {entry value : Text}
    (named : (entry.cutBare '=').2 = some value) :
    entryEdits start entry = nameEditsAt start (entry.cutBare '=').1 ++
      trimsAt valueRule (start + (entry.cutBare '=').1.length + 1) value := by
  have length : entry.length = (entry.cutBare '=').1.length + 1 + value.length := by
    conv_lhs => rw [← Text.cutBare_append_of_some named]
    simp only [List.length_append, List.length_cons]
    omega
  have stop : (start + entry.length : Int) =
      (start + (entry.cutBare '=').1.length + 1 + value.length : Nat) := by
    omega
  simp only [entryEdits, modifierEdits, Modifier.ofEntry, ModifierMark.ofEntry, named,
    Option.map_some, trimsAt, stop]
  rfl

theorem entryEdits_within (start : Nat) (entry : Text) :
    ∀ e ∈ entryEdits start entry, e.Within start (start + entry.length) := by
  intro e isThere
  cases cut : (entry.cutBare '=').2 with
  | none =>
      rw [entryEdits_of_none cut] at isThere
      exact nameEditsAt_within start entry e isThere
  | some value =>
      have length := congrArg List.length (Text.cutBare_append_of_some cut)
      simp only [List.length_append, List.length_cons] at length
      rw [entryEdits_of_some cut] at isThere
      rcases List.mem_append.mp isThere with inName | inValue
      · exact (nameEditsAt_within start _ e inName).mono (Nat.le_refl _) (by omega)
      · exact (trimsAt_within valueRule _ value e inValue).mono (by omega) (by omega)

theorem compatible_entryEdits {length start : Nat} {entry : Text}
    (fits : start + entry.length ≤ length) : Compatible length (entryEdits start entry) := by
  cases cut : (entry.cutBare '=').2 with
  | none =>
      rw [entryEdits_of_none cut]
      exact compatible_nameEditsAt fits
  | some value =>
      have whole := congrArg List.length (Text.cutBare_append_of_some cut)
      simp only [List.length_append, List.length_cons] at whole
      rw [entryEdits_of_some cut]
      exact (compatible_nameEditsAt (by omega)).append (compatible_trimsAt valueRule (by omega))
        (nameEditsAt_within start _) (trimsAt_within valueRule _ value) (by omega)

theorem weaveBefore_entryEdits (start : Nat) (entry : Text) :
    weaveBefore (entryEdits start entry) start entry = tidyEntry entry := by
  cases cut : (entry.cutBare '=').2 with
  | none =>
      have whole := Text.cutBare_fst_of_none cut
      rw [entryEdits_of_none cut, weaveBefore_nameEditsAt]
      rw [tidyEntry_of_none cut, Modifier.tidied, Modifier.ofEntry, whole]
  | some value =>
      have whole : entry = (entry.cutBare '=').1 ++ ([.char '='] ++ value) :=
        (Text.cutBare_append_of_some cut).symm
      have nameWithin := nameEditsAt_within start (entry.cutBare '=').1
      have valueWithin := trimsAt_within valueRule (start + (entry.cutBare '=').1.length + 1) value
      have name : weaveBefore (entryEdits start entry) start (entry.cutBare '=').1 =
          (Modifier.ofEntry entry).tidied.name := by
        rw [entryEdits_of_some cut, weaveBefore_of_within_behind valueWithin (by omega),
          weaveBefore_nameEditsAt]
        rfl
      have sign : weaveBefore (entryEdits start entry)
          (start + (entry.cutBare '=').1.length) [.char '='] = [.char '='] := by
        rw [entryEdits_of_some cut,
          weaveBefore_of_within_behind valueWithin (by simp),
          weaveBefore_eq_self_of_within nameWithin (.inr (Nat.le_refl _))]
      have trimmed : weaveBefore (entryEdits start entry)
          (start + (entry.cutBare '=').1.length + 1) value = value.trimBlanks := by
        rw [entryEdits_of_some cut, weaveBefore_of_within_front nameWithin (by omega),
          weaveBefore_trimsAt]
      calc
        weaveBefore (entryEdits start entry) start entry
          = weaveBefore (entryEdits start entry) start
              ((entry.cutBare '=').1 ++ ([.char '='] ++ value)) := by rw [← whole]
        _ = (Modifier.ofEntry entry).tidied.name ++ .char '=' :: value.trimBlanks := by
            rw [weaveBefore_append, weaveBefore_append, name, sign, List.length_singleton, trimmed,
              List.singleton_append]
        _ = tidyEntry entry := (tidyEntry_of_some cut).symm

theorem sectionEdits_within (start : Nat) (entries : List Text) :
    ∀ e ∈ sectionEdits start entries,
      e.Within start (start + ([.char ','].intercalate entries).length) := by
  induction entries generalizing start with
  | nil => simp [sectionEdits]
  | cons entry rest ih =>
      intro e isThere
      cases rest with
      | nil =>
          rw [sectionEdits, sectionEdits, List.append_nil] at isThere
          rw [List.intercalate_singleton]
          exact entryEdits_within start entry e isThere
      | cons next rest =>
          rw [List.intercalate_cons_cons]
          simp only [List.length_append, List.length_singleton]
          rcases List.mem_append.mp isThere with here | later
          · exact (entryEdits_within start entry e here).mono (Nat.le_refl _) (by omega)
          · exact (ih _ e later).mono (by omega) (by omega)

theorem compatible_sectionEdits {length start : Nat} {entries : List Text}
    (fits : start + ([.char ','].intercalate entries).length ≤ length) :
    Compatible length (sectionEdits start entries) := by
  induction entries generalizing start with
  | nil => exact ⟨by simp [sectionEdits], .nil, by simp [sectionEdits]⟩
  | cons entry rest ih =>
      cases rest with
      | nil =>
          rw [sectionEdits, sectionEdits, List.append_nil]
          exact compatible_entryEdits (by simpa using fits)
      | cons next rest =>
          rw [List.intercalate_cons_cons] at fits
          simp only [List.length_append, List.length_singleton] at fits
          exact (compatible_entryEdits (by omega)).append (ih (by omega))
            (entryEdits_within start entry) (sectionEdits_within _ _) (by omega)

/-- The entries of a section become what they are in the canonical layout. -/
theorem weaveBefore_sectionEdits (start : Nat) (entries : List Text) :
    weaveBefore (sectionEdits start entries) start ([.char ','].intercalate entries) =
      [.char ','].intercalate (entries.map tidyEntry) := by
  induction entries generalizing start with
  | nil => rfl
  | cons entry rest ih =>
      cases rest with
      | nil =>
          rw [sectionEdits, sectionEdits, List.append_nil, List.intercalate_singleton,
            weaveBefore_entryEdits]
          simp
      | cons next rest =>
          have here := entryEdits_within start entry
          have later := sectionEdits_within (start + entry.length + 1) (next :: rest)
          have tail := ih (start + entry.length + 1)
          rw [List.map_cons] at tail
          rw [List.intercalate_cons_cons, List.map_cons, List.map_cons, List.intercalate_cons_cons,
            ← tail, List.append_assoc, List.append_assoc, weaveBefore_append,
            weaveBefore_append, sectionEdits, weaveBefore_of_within_behind later (by omega),
            weaveBefore_entryEdits, weaveBefore_of_within_behind later (by simp),
            weaveBefore_eq_self_of_within here (.inr (Nat.le_refl _)), List.length_singleton,
            weaveBefore_of_within_front here (by omega)]

end Entries

section Ends

theorem insert_mem_entryEdits {start : Nat} {entry rule text : Text} {gap : Int}
    (isThere : .insert rule gap text ∈ entryEdits start entry) : gap = start := by
  have inName : ∀ {name : Text}, .insert rule gap text ∈ nameEditsAt start name → gap = start := by
    intro name isThere
    cases short : fullName? name.trimBlanks with
    | none =>
        rw [nameEditsAt_of_none short] at isThere
        exact absurd (trimsAt_isDeletion nameRule start name _ isThere) id
    | some full =>
        rw [nameEditsAt_of_some short] at isThere
        rcases List.mem_append.mp isThere with trims | last
        · exact absurd (trimsAt_isDeletion nameRule start name _ trims) id
        · simp at last
          exact last.2.1
  cases cut : (entry.cutBare '=').2 with
  | none =>
      rw [entryEdits_of_none cut] at isThere
      exact inName isThere
  | some value =>
      rw [entryEdits_of_some cut] at isThere
      rcases List.mem_append.mp isThere with isInName | inValue
      · exact inName isInName
      · exact absurd (trimsAt_isDeletion valueRule _ value _ inValue) id

theorem trailingBlanks_of_some {entry value : Text} (named : (entry.cutBare '=').2 = some value) :
    entry.trailingBlanks = value.trailingBlanks := by
  conv_lhs => rw [← Text.cutBare_append_of_some named]
  exact Text.trailingBlanks_append_cons (by decide) _ _

theorem covers_trailing_entry {start i : Nat} {entry : Text} (inside : i < entry.length)
    (trailing : entry.length - entry.trailingBlanks ≤ i) :
    ∃ e ∈ entryEdits start entry, e.Covers (start + i) := by
  cases cut : (entry.cutBare '=').2 with
  | none =>
      obtain ⟨e, isThere, covers⟩ :=
        (exists_covers_trimsAt nameRule start inside).mpr (.inr trailing)
      rw [entryEdits_of_none cut]
      exact ⟨e, List.mem_append_left _ isThere, covers⟩
  | some value =>
      have length := congrArg List.length (Text.cutBare_append_of_some cut)
      have counted := Text.trailingBlanks_le_length value
      rw [trailingBlanks_of_some cut] at trailing
      simp only [List.length_append, List.length_cons] at length
      obtain ⟨j, rfl⟩ : ∃ j, i = (entry.cutBare '=').1.length + 1 + j :=
        Nat.exists_eq_add_of_le (by omega)
      have inValue : j < value.length := by omega
      obtain ⟨e, isThere, covers⟩ := (exists_covers_trimsAt valueRule
        (start + (entry.cutBare '=').1.length + 1) inValue).mpr (.inr (by omega))
      rw [entryEdits_of_some cut, ← Nat.add_assoc, ← Nat.add_assoc]
      exact ⟨e, List.mem_append_right _ isThere, covers⟩

theorem trailingBlanks_intercalate (entry next : Text) (rest : List Text) :
    Text.trailingBlanks ([.char ','].intercalate (entry :: next :: rest)) =
      Text.trailingBlanks ([.char ','].intercalate (next :: rest)) := by
  rw [List.intercalate_cons_cons, List.append_assoc]
  exact Text.trailingBlanks_append_cons (by decide) _ _

theorem covers_trailing_section (start : Nat) {i : Nat} {entries : List Text}
    (inside : i < ([.char ','].intercalate entries).length)
    (trailing : ([.char ','].intercalate entries).length -
      Text.trailingBlanks ([.char ','].intercalate entries) ≤ i) :
    ∃ e ∈ sectionEdits start entries, e.Covers (start + i) := by
  induction entries generalizing start i with
  | nil => simp at inside
  | cons entry rest ih =>
      cases rest with
      | nil =>
          rw [List.intercalate_singleton] at inside trailing
          rw [sectionEdits, sectionEdits, List.append_nil]
          exact covers_trailing_entry inside trailing
      | cons next rest =>
          have counted := Text.trailingBlanks_le_length ([.char ','].intercalate (next :: rest))
          rw [trailingBlanks_intercalate, List.intercalate_cons_cons] at trailing
          rw [List.intercalate_cons_cons] at inside
          simp only [List.length_append, List.length_singleton] at inside trailing
          obtain ⟨j, rfl⟩ : ∃ j, i = entry.length + 1 + j := Nat.exists_eq_add_of_le (by omega)
          obtain ⟨e, isThere, covers⟩ := ih (start + entry.length + 1) (i := j)
            (by omega) (by omega)
          rw [← Nat.add_assoc, ← Nat.add_assoc]
          exact ⟨e, List.mem_append_right _ isThere, covers⟩

/-- No name is written out behind the place where the last blanks of a section start. -/
theorem insert_mem_sectionEdits {start : Nat} {entries : List Text} {rule text : Text} {gap : Int}
    (isThere : .insert rule gap text ∈ sectionEdits start entries) :
    gap + Text.trailingBlanks ([.char ','].intercalate entries) ≤
      start + ([.char ','].intercalate entries).length := by
  induction entries generalizing start with
  | nil => simp [sectionEdits] at isThere
  | cons entry rest ih =>
      cases rest with
      | nil =>
          rw [sectionEdits, sectionEdits, List.append_nil] at isThere
          have counted := Text.trailingBlanks_le_length entry
          rw [List.intercalate_singleton, insert_mem_entryEdits isThere]
          omega
      | cons next rest =>
          have counted := Text.trailingBlanks_le_length ([.char ','].intercalate (next :: rest))
          rw [trailingBlanks_intercalate, List.intercalate_cons_cons]
          simp only [List.length_append, List.length_singleton]
          rcases List.mem_append.mp isThere with here | later
          · rw [insert_mem_entryEdits here]
            omega
          · have rest := ih later
            omega

end Ends

end Blocklist.Layout
