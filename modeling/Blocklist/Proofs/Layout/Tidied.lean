import Blocklist.Layout
import Blocklist.Proofs.Filter.Encoding
import Blocklist.Proofs.Text.Blanks

/-! # Modifiers in the canonical layout

In the canonical layout of a modifier the name and the value are trimmed and the name is no short
one. Neither a comma nor any other character is laid bare that was not so before, and no character
but the blanks and those of a short name is lost.
-/

namespace Blocklist

namespace Modifier

/-- A modifier in the canonical layout. -/
def tidied (m : Modifier) : Modifier :=
  ⟨(Layout.fullName? m.name.trimBlanks).getD m.name.trimBlanks, m.value.map Text.trimBlanks⟩

end Modifier

namespace Layout

/-- An entry in the canonical layout. -/
def tidyEntry (entry : Text) : Text :=
  (Modifier.ofEntry entry).tidied.written

section Names

theorem mem_of_fullName? {name full : Text} (short : fullName? name = some full) :
    (name, full) ∈ fullNames := by
  obtain ⟨before, behind, whole, -⟩ := List.lookup_eq_some_iff.mp short
  rw [whole]
  exact List.mem_append_right _ List.mem_cons_self

theorem ne_nil_of_fullName? {name full : Text} (short : fullName? name.trimBlanks = some full) :
    name ≠ [] := by
  rintro rfl
  have none : ∀ pair ∈ fullNames, pair.1 ≠ [] := by decide
  exact none _ (mem_of_fullName? short) rfl

/-- A name with a character that no short name has is no short name. -/
theorem fullName?_of_mem {name : Text} {c : CodePoint} (isThere : c ∈ name)
    (visible : Text.isBlank c = false) (free : ∀ pair ∈ fullNames, c ∉ pair.1) :
    fullName? name.trimBlanks = none := by
  cases short : fullName? name.trimBlanks with
  | none => rfl
  | some full =>
      obtain ⟨a, b, whole, blank, blank'⟩ := Text.exists_blanks_around name
      rw [whole, List.mem_append, List.mem_append] at isThere
      rcases isThere with front | inside | back
      · rw [blank c front] at visible
        cases visible
      · exact absurd inside (free _ (mem_of_fullName? short))
      · rw [blank' c back] at visible
        cases visible

theorem trimmed_fullName {name full : Text} (short : fullName? name = some full) :
    full.Trimmed := by
  have all : ∀ pair ∈ fullNames, pair.2.trimBlanks = pair.2 := by decide
  exact Text.trimBlanks_eq_self_iff.mp (all _ (mem_of_fullName? short))

theorem trimmed_tidied_name (m : Modifier) : m.tidied.name.Trimmed := by
  rw [Modifier.tidied]
  cases short : fullName? m.name.trimBlanks with
  | none => exact Text.trimmed_trimBlanks m.name
  | some full => exact trimmed_fullName short

theorem fullName?_tidied_name (m : Modifier) : fullName? m.tidied.name = none := by
  have all : ∀ pair ∈ fullNames, fullName? pair.2 = none := by decide
  cases short : fullName? m.name.trimBlanks with
  | none => simp [Modifier.tidied, short]
  | some full => simpa [Modifier.tidied, short] using all _ (mem_of_fullName? short)

end Names

section Uncut

variable {sep : CodePoint}

theorem uncut_tidied_name {m : Modifier} (bare : sep ≠ '\\') (uncut : (m.name.cutBare sep).2 = none)
    (free : ∀ pair ∈ fullNames, (pair.2.cutBare sep).2 = none) :
    (m.tidied.name.cutBare sep).2 = none := by
  cases short : fullName? m.name.trimBlanks with
  | none => simpa [Modifier.tidied, short] using Text.cutBare_trimBlanks bare uncut
  | some full => simpa [Modifier.tidied, short] using free _ (mem_of_fullName? short)

theorem tidyEntry_of_none {entry : Text} (cut : (entry.cutBare '=').2 = none) :
    tidyEntry entry = (Modifier.ofEntry entry).tidied.name := by
  simp [tidyEntry, Modifier.written, Modifier.tidied, Modifier.ofEntry, cut]

theorem tidyEntry_of_some {entry value : Text} (cut : (entry.cutBare '=').2 = some value) :
    tidyEntry entry = (Modifier.ofEntry entry).tidied.name ++ .char '=' :: value.trimBlanks := by
  simp [tidyEntry, Modifier.written, Modifier.tidied, Modifier.ofEntry, cut]

theorem cutBare_tidied_name (entry : Text) :
    ((Modifier.ofEntry entry).tidied.name.cutBare '=').2 = none :=
  uncut_tidied_name (by decide) (Text.cutBare_cutBare_fst '=' entry) (by decide)

/-- The equals sign behind a name still ends it unless a backslash was laid bare. -/
theorem cutBare_tidyEntry_of_some {entry value : Text} (cut : (entry.cutBare '=').2 = some value)
    (whole : (Modifier.ofEntry entry).tidied.name.dangles = false) :
    (tidyEntry entry).cutBare '=' =
      ((Modifier.ofEntry entry).tidied.name, some value.trimBlanks) := by
  rw [tidyEntry_of_some cut, Text.cutBare_append (cutBare_tidied_name entry) whole,
    Text.cutBare_cons (by decide), if_pos rfl, List.append_nil]

theorem uncut_tidyEntry {entry : Text} (uncut : (entry.cutBare ',').2 = none) :
    ((tidyEntry entry).cutBare ',').2 = none := by
  have free : ∀ pair ∈ fullNames, (pair.2.cutBare ',').2 = none := by decide
  cases cut : (entry.cutBare '=').2 with
  | none =>
      have name : ((Modifier.ofEntry entry).name.cutBare ',').2 = none := by
        rw [Modifier.ofEntry, Text.cutBare_fst_of_none cut]
        exact uncut
      rw [tidyEntry_of_none cut]
      exact uncut_tidied_name (by decide) name free
  | some value =>
      have whole : (Modifier.ofEntry entry).name ++ .char '=' :: value = entry :=
        Text.cutBare_append_of_some cut
      rw [← whole] at uncut
      have name := Text.cutBare_of_append (by decide) uncut
      have tidied := uncut_tidied_name (by decide) name free
      rw [Text.cutBare_append_cons_snd name (by decide) (by decide)] at uncut
      rw [tidyEntry_of_some cut,
        Text.cutBare_append_cons_snd tidied (by decide) (by decide)]
      exact Text.cutBare_trimBlanks (by decide) uncut

end Uncut

/-- A test that the canonical layout has no influence on. -/
structure Overlooks (p : CodePoint → Bool) : Prop where
  blank : ∀ c, Text.isBlank c → p c = false
  names : ∀ pair ∈ fullNames, pair.1.filter p = pair.2.filter p

section Filtering

variable {p : CodePoint → Bool}

theorem filter_of_blank {s : Text} (overlooks : Overlooks p) (blank : ∀ c ∈ s, Text.isBlank c) :
    s.filter p = [] := by
  rw [List.filter_eq_nil_iff]
  intro c isThere
  rw [overlooks.blank c (blank c isThere)]
  exact Bool.false_ne_true

theorem filter_trimBlanks (overlooks : Overlooks p) (s : Text) :
    s.trimBlanks.filter p = s.filter p := by
  obtain ⟨a, b, whole, blank, blank'⟩ := Text.exists_blanks_around s
  conv_rhs => rw [whole]
  rw [List.filter_append, List.filter_append, filter_of_blank overlooks blank,
    filter_of_blank overlooks blank', List.nil_append, List.append_nil]

theorem filter_dropWhile (overlooks : Overlooks p) (s : Text) :
    (s.dropWhile Text.isBlank).filter p = s.filter p := by
  conv_rhs => rw [← List.takeWhile_append_dropWhile (p := Text.isBlank) (l := s)]
  rw [List.filter_append, filter_of_blank overlooks fun c => List.mem_takeWhile_imp,
    List.nil_append]

theorem filter_tidied (overlooks : Overlooks p) (m : Modifier) :
    m.tidied.written.filter p = m.written.filter p := by
  have name : m.tidied.name.filter p = m.name.filter p := by
    rw [← filter_trimBlanks overlooks m.name, Modifier.tidied]
    cases short : fullName? m.name.trimBlanks with
    | none => rfl
    | some full => exact (overlooks.names _ (mem_of_fullName? short)).symm
  cases has : m.value with
  | none => simp [Modifier.written, Modifier.tidied, has] at name ⊢; exact name
  | some value =>
      have trimmed := filter_trimBlanks overlooks value
      simp only [Modifier.written, List.filter_append, name]
      simp [Modifier.tidied, has, List.filter_cons, trimmed]

theorem filter_tidied_entries (overlooks : Overlooks p) (entries : List Text) :
    ([.char ','].intercalate (entries.map tidyEntry)).filter p =
      ([.char ','].intercalate entries).filter p := by
  induction entries with
  | nil => rfl
  | cons entry rest ih =>
      have here : (tidyEntry entry).filter p = entry.filter p := by
        rw [tidyEntry, filter_tidied overlooks, Modifier.written_ofEntry]
      cases rest with
      | nil => simpa using here
      | cons next rest =>
          rw [List.map_cons] at ih
          simp only [List.map_cons, List.intercalate_cons_cons, List.filter_append, here, ih]

end Filtering

end Layout

end Blocklist
