import Blocklist.Hosts
import Blocklist.Proofs.Layout.Rereading

/-! # Limits to third-party requests

A modifier that limits its filter to third-party requests does so in the canonical layout too,
unless trimming has laid a backslash bare in front of the comma before it. The modifier is then a
part of the entry that ends with the backslash.
-/

namespace Blocklist

/-- A property that neither name of the limit to third-party requests has tells a name from both. -/
theorem isThirdParty_of_other {name : Text} {p : Text → Bool} (has : p name = true)
    (short : p "3p".toText = false) (long : p "third-party".toText = false) :
    isThirdParty name = false := by
  rw [isThirdParty, Bool.or_eq_false_iff, beq_eq_false_iff_ne, beq_eq_false_iff_ne]
  constructor
  · rintro rfl
    rw [short] at has
    cases has
  · rintro rfl
    rw [long] at has
    cases has

namespace Layout

/-- The entry limits its filter to third-party requests. -/
def limiting (entry : Text) : Bool :=
  isThirdParty (Modifier.ofEntry entry).name

/-- One of the modifiers limits the filter in the canonical layout. A modifier that dangles there
    hides the start of the next one; `fresh` tells whether the start of the first one can be seen.
    -/
def limited (fresh : Bool) : List Modifier → Bool
  | [] => false
  | m :: rest =>
      fresh && isThirdParty m.name.trimBlanks || limited (!m.tidied.written.dangles) rest

section Entries

variable {entry : Text}

theorem isThirdParty_tidied_name (m : Modifier) :
    isThirdParty m.tidied.name = isThirdParty m.name.trimBlanks := by
  have all : ∀ pair ∈ fullNames, isThirdParty pair.2 = isThirdParty pair.1 := by decide
  rw [Modifier.tidied]
  cases short : fullName? m.name.trimBlanks with
  | none => rfl
  | some full => exact all _ (mem_of_fullName? short)

theorem limiting_tidyEntry (entry : Text) :
    limiting (tidyEntry entry) = isThirdParty (Modifier.ofEntry entry).name.trimBlanks := by
  rw [← isThirdParty_tidied_name]
  have uncut := cutBare_tidied_name entry
  cases cut : (entry.cutBare '=').2 with
  | none =>
      rw [tidyEntry_of_none cut, limiting, Modifier.ofEntry, Text.cutBare_fst_of_none uncut]
  | some value =>
      cases ends : (Modifier.ofEntry entry).tidied.name.dangles with
      | false => rw [limiting, Modifier.ofEntry, cutBare_tidyEntry_of_some cut ends]
      | true =>
          have before : isThirdParty (Modifier.ofEntry entry).tidied.name = false :=
            isThirdParty_of_other ends (by decide) (by decide)
          rw [before, tidyEntry_of_some cut, limiting, Modifier.ofEntry,
            Text.cutBare_append_cons uncut ends]
          apply isThirdParty_of_other (p := fun name => name.contains '=')
          · simp
          · decide
          · decide

theorem limiting_append (ends : entry.dangles = true) (next : Text) :
    limiting (entry ++ .char ',' :: next) = limiting entry := by
  rw [limiting, limiting, Modifier.ofEntry, Modifier.ofEntry]
  cases cut : (entry.cutBare '=').2 with
  | some value => rw [Text.cutBare_append_of_cut (by decide) cut]
  | none =>
      have before : isThirdParty (entry.cutBare '=').1 = false := by
        rw [Text.cutBare_fst_of_none cut]
        exact isThirdParty_of_other ends (by decide) (by decide)
      rw [before, Text.cutBare_append_cons cut ends]
      apply isThirdParty_of_other (p := fun name => name.contains ',')
      · simp
      · decide
      · decide

end Entries

section Sections

/-- Read again, the entries of a section limit their filter exactly if it is limited in the
    canonical layout. Where the start of the first one is hidden, the first entry does not count. -/
theorem any_limiting_splitBare {entries : List Text} (some : entries ≠ [])
    (uncut : ∀ entry ∈ entries, (entry.cutBare ',').2 = none) (fresh : Bool) :
    ((Text.splitBare ',' ([.char ','].intercalate (entries.map tidyEntry))).drop
      (if fresh then 0 else 1)).any limiting = limited fresh (entries.map Modifier.ofEntry) := by
  -- For every flag at once, since an entry that dangles leaves the rest without a visible start.
  induction entries generalizing fresh with
  | nil => exact absurd rfl some
  | cons entry rest ih =>
      rw [List.forall_mem_cons] at uncut
      have here := limiting_tidyEntry entry
      have alone := uncut_tidyEntry uncut.1
      cases rest with
      | nil =>
          rw [List.map_singleton, List.intercalate_singleton, Text.splitBare_of_uncut alone]
          cases fresh <;> simp [limited, here]
      | cons next rest =>
          have later := ih (by simp) uncut.2
          have joined : [.char ','].intercalate ((entry :: next :: rest).map tidyEntry) =
              tidyEntry entry ++
                .char ',' :: [.char ','].intercalate ((next :: rest).map tidyEntry) := by
            simp
          have walk : limited fresh ((entry :: next :: rest).map Modifier.ofEntry) =
              (fresh && limiting (tidyEntry entry) ||
                limited (!(tidyEntry entry).dangles) ((next :: rest).map Modifier.ofEntry)) := by
            rw [here]
            rfl
          rw [joined, walk, Text.splitBare_append_cons (by decide) alone, ← later]
          cases ends : (tidyEntry entry).dangles with
          | false => cases fresh <;> simp
          | true =>
              obtain ⟨piece, pieces, split⟩ := List.exists_cons_of_ne_nil (Text.splitBare_ne_nil ','
                ([.char ','].intercalate ((next :: rest).map tidyEntry)))
              rw [split, if_pos rfl, List.modifyHead_cons]
              cases fresh <;> simp [limiting_append ends]

theorem limited_concat_nil (fresh : Bool) (modifiers : List Modifier) :
    limited fresh (modifiers ++ [⟨[], none⟩]) = limited fresh modifiers := by
  induction modifiers generalizing fresh with
  | nil => cases fresh <;> rfl
  | cons m rest ih => simp only [List.cons_append, limited, ih]

theorem any_limiting_entries (s : Text) :
    (Section.entries s).any limiting = (s.splitBare ',').any limiting := by
  have empty : limiting [] = false := by decide
  rcases Section.splitBare_eq_entries s with split | split
  · rw [split]
  · rw [split, List.any_append, List.any_cons, empty, List.any_nil, Bool.or_self, Bool.or_false]

theorem any_limiting_tidySection (modifiers : Text) :
    (Section.entries (tidySection modifiers)).any limiting =
      limited true ((Section.entries modifiers).map Modifier.ofEntry) := by
  have read := any_limiting_splitBare (Text.splitBare_ne_nil ',' modifiers)
    (fun _ => Text.cutBare_of_mem_splitBare) true
  have empty : Modifier.ofEntry [] = ⟨[], none⟩ := rfl
  rw [any_limiting_entries, tidySection]
  rcases Section.splitBare_eq_entries modifiers with split | split
  · rw [← split]
    exact read
  · rw [split, List.map_append (f := Modifier.ofEntry), List.map_singleton, empty,
      limited_concat_nil] at read
    rw [split]
    exact read

end Sections

end Layout

end Blocklist
