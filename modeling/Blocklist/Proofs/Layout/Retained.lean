import Blocklist.Proofs.Layout.Rereading

/-! # What the canonical layout retains

Unless trimming lays a backslash bare, the modifiers of a line in the canonical layout are those of
the line itself, each in that layout. Only a last modifier of blanks alone is not seen any more when
no comma closes it. All the other parts of the filter are the same in any case.
-/

namespace Blocklist

namespace Modifier

/-- Trimming the name and the value leaves the backslashes in front of blanks protected. -/
def Kept (m : Modifier) : Prop :=
  ¬m.name.LaysBare ∧ ∀ value ∈ m.value, ¬value.LaysBare

instance (m : Modifier) : Decidable m.Kept :=
  inferInstanceAs (Decidable (_ ∧ _))

theorem tidied_eq_nil_iff {m : Modifier} :
    m.tidied = ⟨[], none⟩ ↔ m.value = none ∧ ∀ c ∈ m.name, Text.isBlank c := by
  have some : ∀ pair ∈ Layout.fullNames, pair.2 ≠ [] := by decide
  rw [← Text.trimBlanks_eq_nil_iff, tidied, Modifier.mk.injEq, Option.map_eq_none_iff, and_comm]
  refine and_congr_right fun _ => ?_
  cases short : Layout.fullName? m.name.trimBlanks with
  | none => rfl
  | some full =>
      refine iff_of_false (some _ (Layout.mem_of_fullName? short)) fun empty => ?_
      rw [empty] at short
      cases short

theorem dangles_tidied_name {m : Modifier} (whole : m.name.dangles = false)
    (kept : ¬m.name.LaysBare) : m.tidied.name.dangles = false := by
  have long : ∀ pair ∈ Layout.fullNames, pair.2.dangles = false := by decide
  cases short : Layout.fullName? m.name.trimBlanks with
  | none => simpa [tidied, short] using Text.dangles_trimBlanks whole kept
  | some full => simpa [tidied, short] using long _ (Layout.mem_of_fullName? short)

end Modifier

namespace Layout

section Entries

variable {entry : Text}

theorem ofEntry_tidyEntry (kept : (Modifier.ofEntry entry).Kept) :
    Modifier.ofEntry (tidyEntry entry) = (Modifier.ofEntry entry).tidied := by
  refine Modifier.ofEntry_written (cutBare_tidied_name entry) fun some => ?_
  cases cut : (entry.cutBare '=').2 with
  | none => simp [Modifier.tidied, Modifier.ofEntry, cut] at some
  | some value => exact Modifier.dangles_tidied_name (Text.dangles_cutBare_fst cut) kept.1

theorem dangles_tidyEntry (whole : entry.dangles = false)
    (kept : (Modifier.ofEntry entry).Kept) : (tidyEntry entry).dangles = false := by
  cases cut : (entry.cutBare '=').2 with
  | none =>
      have name : (Modifier.ofEntry entry).name = entry := Text.cutBare_fst_of_none cut
      rw [tidyEntry_of_none cut]
      exact Modifier.dangles_tidied_name (by rw [name, whole]) kept.1
  | some value =>
      have front : (Modifier.ofEntry entry).name.dangles = false := Text.dangles_cutBare_fst cut
      have parts : (Modifier.ofEntry entry).name ++ .char '=' :: value = entry :=
        Text.cutBare_append_of_some cut
      have sign : ∀ t : Text, Text.dangles (.char '=' :: t) = t.dangles := fun t => by
        simpa using Text.dangles_append (s := [.char '=']) rfl t
      rw [← parts, Text.dangles_append front, sign] at whole
      rw [tidyEntry_of_some cut, Text.dangles_append (Modifier.dangles_tidied_name front kept.1),
        sign]
      exact Text.dangles_trimBlanks whole (kept.2 value cut)

theorem tidyEntry_eq_nil_iff : tidyEntry entry = [] ↔
    (Modifier.ofEntry entry).value = none ∧ ∀ c ∈ (Modifier.ofEntry entry).name, Text.isBlank c := by
  rw [tidyEntry, Modifier.written_eq_nil_iff, Modifier.tidied_eq_nil_iff]

end Entries

section Sections

variable {modifiers : Text}

/-- The commas that cut a section in the canonical layout are those that cut it before. -/
theorem splitBare_tidySection
    (kept : ∀ entry ∈ modifiers.splitBare ',', (Modifier.ofEntry entry).Kept) :
    (tidySection modifiers).splitBare ',' = (modifiers.splitBare ',').map tidyEntry := by
  refine Text.splitBare_intercalate (by decide) ?_ ?_ ?_
  · simpa using Text.splitBare_ne_nil ',' modifiers
  · rw [List.forall_mem_map]
    exact fun entry isThere => uncut_tidyEntry (Text.cutBare_of_mem_splitBare isThere)
  · rw [← List.map_dropLast, List.forall_mem_map]
    exact fun entry isThere => dangles_tidyEntry (Text.dangles_of_mem_splitBare isThere)
      (kept entry (List.dropLast_subset _ isThere))

/-- The section in the canonical layout has its entries in that layout, without a last one of which
    nothing is left if no comma closes it. -/
theorem entries_tidySection
    (kept : ∀ entry ∈ Section.entries modifiers, (Modifier.ofEntry entry).Kept) :
    Section.entries (tidySection modifiers) =
      (if Section.closing modifiers = [] ∧ ∃ entry ∈ (Section.entries modifiers).getLast?,
          tidyEntry entry = []
        then (Section.entries modifiers).dropLast else Section.entries modifiers).map tidyEntry := by
  have empty : (Modifier.ofEntry []).Kept := by
    simp [Modifier.Kept, Modifier.ofEntry, Text.cutBare, Text.LaysBare]
  rw [Section.forall_mem_entries_iff _ empty] at kept
  rw [Section.entries, splitBare_tidySection kept, List.getLast?_map]
  by_cases last : (modifiers.splitBare ',').getLast? = some []
  · have entries : Section.entries modifiers = (modifiers.splitBare ',').dropLast := by
      rw [Section.entries, if_pos last]
    have stays : ¬(Section.closing modifiers = [] ∧
        ∃ entry ∈ (Section.entries modifiers).getLast?, tidyEntry entry = []) := by
      rintro ⟨open', entry, isLast, -⟩
      have none : modifiers = [] := by
        by_contra some
        rw [Section.closing, if_pos ⟨last, some⟩] at open'
        cases open'
      rw [none] at isLast
      cases isLast
    have empty' : tidyEntry [] = [] := rfl
    rw [if_neg stays, entries, last, Option.map_some, empty', if_pos rfl, List.map_dropLast]
  · have entries : Section.entries modifiers = modifiers.splitBare ',' := by
      rw [Section.entries, if_neg last]
    have open' : Section.closing modifiers = [] := by
      rw [Section.closing, if_neg fun both => last both.1]
    rw [entries]
    by_cases fades : ∃ entry ∈ (modifiers.splitBare ',').getLast?, tidyEntry entry = []
    · rw [if_pos (Option.map_eq_some_iff.mpr fades), if_pos ⟨open', fades⟩, List.map_dropLast]
    · rw [if_neg (mt Option.map_eq_some_iff.mp fades), if_neg fun both => fades both.2]

end Sections

end Layout

namespace NetworkFilter

/-- The last modifier is one of blanks alone, and no comma closes it. -/
def LastFades (f : NetworkFilter) : Prop :=
  f.closingComma = [] ∧
    ∃ m ∈ f.modifiers.getLast?, m.value = none ∧ ∀ c ∈ m.name, Text.isBlank c

instance (f : NetworkFilter) : Decidable f.LastFades :=
  inferInstanceAs (Decidable (_ ∧ _))

/-- The modifiers of a filter in the canonical layout, without a last one that fades. -/
def retained (f : NetworkFilter) : List Modifier :=
  (if f.LastFades then f.modifiers.dropLast else f.modifiers).map Modifier.tidied

end NetworkFilter

namespace NetworkLine

variable {l : NetworkLine} {modifiers : Text}

theorem lastFades_toFilter (has : l.modifierSection = some modifiers) : l.toFilter.LastFades ↔
    Section.closing modifiers = [] ∧
      ∃ entry ∈ (Section.entries modifiers).getLast?, Layout.tidyEntry entry = [] := by
  have entries : l.toFilter.modifiers = (Section.entries modifiers).map Modifier.ofEntry := by
    simp [toFilter, NetworkLine.entries, has]
  rw [NetworkFilter.LastFades, Layout.closingComma_toFilter has, entries, List.getLast?_map]
  refine and_congr_right fun _ => ?_
  simp [Layout.tidyEntry_eq_nil_iff]

theorem modifiers_tidied (has : l.modifierSection = some modifiers)
    (kept : ∀ m ∈ l.toFilter.modifiers, m.Kept) :
    l.tidied.toFilter.modifiers = l.toFilter.retained := by
  have has' : l.tidied.modifierSection = some (Layout.tidySection modifiers) := by
    rw [tidied_eq has]
  have before : l.toFilter.modifiers = (Section.entries modifiers).map Modifier.ofEntry := by
    simp [toFilter, entries, has]
  have after : l.tidied.toFilter.modifiers =
      (Section.entries (Layout.tidySection modifiers)).map Modifier.ofEntry := by
    simp [toFilter, entries, has']
  rw [before, List.forall_mem_map] at kept
  have each : ∀ some ⊆ Section.entries modifiers,
      (some.map Layout.tidyEntry).map Modifier.ofEntry =
        (some.map Modifier.ofEntry).map Modifier.tidied := by
    intro some among
    rw [List.map_map, List.map_map]
    exact List.map_congr_left fun entry isThere =>
      Layout.ofEntry_tidyEntry (kept entry (among isThere))
  rw [after, Layout.entries_tidySection kept, NetworkFilter.retained, before]
  by_cases fades : l.toFilter.LastFades
  · rw [if_pos fades, if_pos ((lastFades_toFilter has).mp fades), each _ (List.dropLast_subset _),
      List.map_dropLast]
  · rw [if_neg fades, if_neg (mt (lastFades_toFilter has).mpr fades), each _ fun _ => id]

end NetworkLine

namespace Layout

variable {line : Text}

/-- A line with a modifier section keeps its parts in the canonical layout, and its modifiers but
    for the layout, as long as no backslash is laid bare in them. -/
theorem tidy_retains_modifiers {f : NetworkFilter} (read : Record.ofLine line = .ok (.network f))
    (has : (NetworkLine.ofLine line).modifierSection ≠ none) (kept : ∀ m ∈ f.modifiers, m.Kept) :
    ∃ fixed f', tidy line = .ok fixed ∧ Record.ofLine fixed = .ok (.network f') ∧
      f'.modifiers = f.retained ∧ f'.pattern = f.pattern ∧ f'.isException = f.isException ∧
      f'.matchSubdomains = f.matchSubdomains ∧ f'.matchBeginning = f.matchBeginning ∧
      f'.matchEnd = f.matchEnd := by
  obtain ⟨modifiers, has⟩ := Option.ne_none_iff_exists'.mp has
  have fixed := tidy_of_ofLine read
  have reread := Record.ofLine_applyAll read
  cases Record.kind_of_ofLine read with
  | network =>
      rw [Record.tidied_of_section has] at reread
      exact ⟨_, _, fixed, reread, NetworkLine.modifiers_tidied has kept, rfl, rfl, rfl, rfl, rfl⟩

/-- The last modifier fades, and the escaped blank stays, since it stands inside its name. -/
theorem tidy_retains_escaped_blank : ∃ fixed f',
    tidy "\t@@||a.b^|$ 3p , x\\ y = 1\\, 2 ,,  ".toText = .ok fixed ∧
      Record.ofLine fixed = .ok (.network f') ∧
      f'.modifiers = [⟨"third-party".toText, none⟩, ⟨"x\\ y".toText, some "1\\, 2".toText⟩,
        ⟨[], none⟩] ∧ f'.pattern = "a.b^".toText ∧ f'.isException = true ∧
      f'.matchSubdomains = true ∧ f'.matchBeginning = false ∧ f'.matchEnd = true := by
  have read : Record.ofLine "\t@@||a.b^|$ 3p , x\\ y = 1\\, 2 ,,  ".toText = .ok (.network
      (NetworkLine.ofLine "\t@@||a.b^|$ 3p , x\\ y = 1\\, 2 ,,  ".toText).toFilter) := rfl
  obtain ⟨fixed, f', tidied, reread, modifiers, parts⟩ :=
    tidy_retains_modifiers read (by decide +kernel) (by decide +kernel)
  refine ⟨fixed, f', tidied, reread, modifiers.trans ?_, ?_⟩
  · decide +kernel
  · rw [parts.1, parts.2.1, parts.2.2.1, parts.2.2.2.1, parts.2.2.2.2]
    decide +kernel

end Layout

end Blocklist
