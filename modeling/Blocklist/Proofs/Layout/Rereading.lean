import Blocklist.Proofs.Layout.Rewriting

/-! # Reading a line in the canonical layout

The characters that tell lines apart and open sections are neither blanks nor part of a short or a
long name, so the canonical layout keeps them all in their order. A line in that layout is read as
what it was read as before, and only the entries of its section may come out differently.
-/

namespace Blocklist

namespace Layout

/-- The section with its pieces in the canonical layout. -/
def tidySection (modifiers : Text) : Text :=
  [.char ','].intercalate ((modifiers.splitBare ',').map tidyEntry)

/-- The section in the canonical layout is its entries in that layout, closed as before. -/
theorem tidySection_eq (modifiers : Text) :
    tidySection modifiers =
      [.char ','].intercalate ((Section.entries modifiers).map tidyEntry) ++
        Section.closing modifiers :=
  Section.intercalate_map_splitBare modifiers rfl

section Filtering

variable {p : CodePoint → Bool}

theorem filter_tidySection (overlooks : Overlooks p) (modifiers : Text) :
    (tidySection modifiers).filter p = modifiers.filter p := by
  rw [tidySection, filter_tidied_entries overlooks, Text.intercalate_splitBare]

theorem overlooks_isDecisive : Overlooks Record.isDecisive where
  blank := by
    have decisive : "[!/:^@|#".toText.all (!Text.isBlank ·) = true := by decide
    intro c blank
    by_contra other
    rw [Bool.not_eq_false] at other
    have visible := List.all_eq_true.mp decisive c (List.contains_iff_mem.mp other)
    rw [blank] at visible
    cases visible
  names := by decide

theorem overlooks_opening : Overlooks fun c => c == '=' || c == '$' where
  blank := by
    intro c blank
    by_contra other
    have isThere : c = '=' ∨ c = '$' := by
      rw [Bool.not_eq_false] at other
      simpa using other
    rcases isThere with rfl | rfl <;> cases blank
  names := by decide

end Filtering

end Layout

namespace NetworkLine

/-- A network line with its modifier section in the canonical layout. -/
def tidied (l : NetworkLine) : NetworkLine :=
  { l with indent := [], modifierSection := l.modifierSection.map Layout.tidySection }

section Sectioned

variable {l : NetworkLine} {modifiers : Text}

theorem tidied_eq (has : l.modifierSection = some modifiers) :
    l.tidied = { l with indent := [], modifierSection := some (Layout.tidySection modifiers) } := by
  rw [tidied, has, Option.map_some]

theorem proper_tidied (proper : l.Proper) (has : l.modifierSection = some modifiers) :
    l.tidied.Proper :=
  proper.of_section has (List.forall_mem_nil _)
    (Section.opensLater_congr (Layout.filter_tidySection Layout.overlooks_opening modifiers))
    (tidied_eq has)

theorem address_tidied (proper : l.Proper) (has : l.modifierSection = some modifiers) :
    l.tidied.address = l.address.dropWhile Text.isBlank := by
  have first := proper.unindented
  rw [unindented_of_section has] at first
  have front : l.tidied.address = l.unindentedAddress := by
    rw [address_eq, tidied, List.nil_append]
    rfl
  rw [front, address_eq, List.dropWhile_append_of_pos proper.indent]
  cases start : l.unindentedAddress with
  | nil => rfl
  | cons c rest =>
      rw [start] at first
      exact (List.dropWhile_cons_of_neg (first c rfl)).symm

theorem toLine_tidied (proper : l.Proper) (has : l.modifierSection = some modifiers) :
    l.tidied.toLine = Layout.sectioned (l.address.dropWhile Text.isBlank)
      (Section.closing modifiers) (l.entries.map Layout.tidyEntry) := by
  have has' : l.tidied.modifierSection = some (Layout.tidySection modifiers) := by
    rw [tidied_eq has]
  rw [toLine_of_section has', address_tidied proper has, Layout.tidySection_eq, Layout.sectioned,
    entries, has]

theorem applyAll_tidied (proper : l.Proper) (has : l.modifierSection = some modifiers) :
    Edit.applyAll l.toLine (Record.network l.toFilter).layoutEdits = l.tidied.toLine := by
  rw [Layout.layoutEdits_sectioned has, Layout.toLine_sectioned has,
    Layout.applyAll_sectionedEdits (Section.closing_eq modifiers), toLine_tidied proper has]

theorem filter_tidied {p : CodePoint → Bool} (overlooks : Layout.Overlooks p) (proper : l.Proper)
    (has : l.modifierSection = some modifiers) :
    l.tidied.toLine.filter p = l.toLine.filter p := by
  rw [toLine_tidied proper has, Layout.toLine_sectioned has]
  simp only [Layout.sectioned, List.filter_append, Layout.filter_dropWhile overlooks,
    Layout.filter_tidied_entries overlooks]

end Sectioned

end NetworkLine

namespace Record

section Reading

variable {line : Text}

theorem find?_isDecisive_congr {s t : Text} (same : s.filter isDecisive = t.filter isDecisive) :
    s.find? isDecisive = t.find? isDecisive := by
  rw [← List.head?_filter, same, List.head?_filter]

theorem find?_trimBlanks (s : Text) : s.trimBlanks.find? isDecisive = s.find? isDecisive :=
  find?_isDecisive_congr (Layout.filter_trimBlanks Layout.overlooks_isDecisive s)

theorem ofLine_tidied (first : ∀ c ∈ line.find? isDecisive, isForeign c = false) {modifiers : Text}
    (has : (NetworkLine.ofLine line).modifierSection = some modifiers) :
    ofLine (NetworkLine.ofLine line).tidied.toLine =
      .ok (network (NetworkLine.ofLine line).tidied.toFilter) := by
  have proper := NetworkLine.proper_ofLine line
  have again := NetworkLine.ofLine_toLine (NetworkLine.proper_tidied proper has)
  have same := NetworkLine.filter_tidied Layout.overlooks_isDecisive proper has
  rw [NetworkLine.toLine_ofLine] at same
  rw [← find?_isDecisive_congr same] at first
  have some : (NetworkLine.ofLine line).tidied.toLine ≠ [] := by
    rw [NetworkLine.toLine_tidied proper has, Layout.sectioned]
    simp
  have read := ofLine_network some first
  rw [again] at read
  exact read

theorem ofLine_trimBlanks_other {c : CodePoint} (opens : c = '[' ∨ c = '!')
    (first : line.find? isDecisive = some c) :
    ofLine line.trimBlanks = .ok (other line.trimBlanks) :=
  ofLine_other opens (by rw [find?_trimBlanks, first])

/-- A line of blanks becomes an empty line, which is no network line any more. -/
theorem ofLine_trimBlanks_network (first : ∀ c ∈ line.find? isDecisive, isForeign c = false) :
    ofLine line.trimBlanks =
      .ok (if line.trimBlanks = [] then other []
        else network (NetworkLine.ofLine line.trimBlanks).toFilter) := by
  split
  · next empty => rw [empty]; rfl
  · next some =>
      rw [← find?_trimBlanks] at first
      exact ofLine_network some first

theorem modifierSection_trimBlanks (without : (NetworkLine.ofLine line).modifierSection = none) :
    (NetworkLine.ofLine line.trimBlanks).modifierSection = none := by
  rw [NetworkLine.modifierSection_ofLine_eq_none_iff] at without ⊢
  obtain ⟨a, b, whole, -⟩ := Text.exists_blanks_around line
  rw [whole] at without
  intro isThere
  exact without (List.mem_append_right _ (List.mem_append_left _ isThere))

theorem ofMarker_dropEndWhile {line' hostname hostname' rest : Text} {filter : CosmeticFilter}
    (marker : CosmeticFilter.ofMarker line hostname rest = .ok filter) :
    CosmeticFilter.ofMarker line' hostname' (Text.dropEndWhile Text.isBlank rest) =
      .ok ⟨line', hostname', Text.dropEndWhile Text.isBlank filter.selector,
        filter.isException⟩ := by
  have parts := List.takeWhile_append_dropWhile (p := (· == .char '@')) (l := rest)
  have ats : ∀ c ∈ rest.takeWhile (· == .char '@'), (c == '@') = true :=
    fun c => List.mem_takeWhile_imp
  rw [CosmeticFilter.ofMarker] at marker
  split at marker
  · next ends =>
      cases marker
      have all : ∀ c ∈ rest, (c == '@') = true := List.dropWhile_eq_nil_iff.mp ends
      have kept : Text.dropEndWhile Text.isBlank rest = rest := by
        refine List.rdropWhile_eq_self_iff.mpr fun some => ?_
        have last := all _ (List.getLast_mem some)
        rw [beq_iff_eq.mp last]
        decide
      rw [kept, CosmeticFilter.ofMarker, ends]
      rfl
  · next selector ends =>
      cases marker
      rw [ends] at parts
      conv_lhs => rw [← parts]
      rw [Text.dropEndWhile_append_cons (by decide), CosmeticFilter.ofMarker,
        List.takeWhile_append_of_pos ats, List.dropWhile_append_of_pos ats]
      simp
  · cases marker

theorem ofLine_trimBlanks_cosmetic {hostname rest : Text} {filter : CosmeticFilter}
    (plain : ∀ c ∈ hostname, isDecisive c = false)
    (marker : CosmeticFilter.ofMarker (hostname ++ .char '#' :: rest) hostname rest = .ok filter) :
    ofLine (Text.trimBlanks (hostname ++ .char '#' :: rest)) =
      .ok (cosmetic ⟨Text.trimBlanks (hostname ++ .char '#' :: rest),
        hostname.dropWhile Text.isBlank,
        Text.dropEndWhile Text.isBlank filter.selector, filter.isException⟩) := by
  rw [Text.trimBlanks_append_cons (by decide), ofLine_cosmetic, ofMarker_dropEndWhile marker]
  · rfl
  · exact fun c isThere => plain c (List.dropWhile_subset _ isThere)

end Reading

/-- What is read from the line of a record once it is in the canonical layout. Of a line of blanks
    nothing is left. -/
def tidied : Record → Record
  | other line => other line.trimBlanks
  | network f =>
      match (NetworkLine.ofLine f.line).modifierSection with
      | some _ => network (NetworkLine.ofLine f.line).tidied.toFilter
      | none =>
          if f.line.trimBlanks = [] then other []
          else network (NetworkLine.ofLine f.line.trimBlanks).toFilter
  | cosmetic f =>
      cosmetic ⟨f.line.trimBlanks, f.hostname.dropWhile Text.isBlank,
        Text.dropEndWhile Text.isBlank f.selector, f.isException⟩

section Tidied

variable {line : Text}

theorem tidied_of_section {modifiers : Text}
    (has : (NetworkLine.ofLine line).modifierSection = some modifiers) :
    (network (NetworkLine.ofLine line).toFilter).tidied =
      network (NetworkLine.ofLine line).tidied.toFilter := by
  have whole : (NetworkLine.ofLine line).toFilter.line = line := NetworkLine.toLine_ofLine line
  simp only [tidied, whole, has]

theorem tidied_of_no_section (without : (NetworkLine.ofLine line).modifierSection = none) :
    (network (NetworkLine.ofLine line).toFilter).tidied =
      if line.trimBlanks = [] then other []
      else network (NetworkLine.ofLine line.trimBlanks).toFilter := by
  have whole : (NetworkLine.ofLine line).toFilter.line = line := NetworkLine.toLine_ofLine line
  simp only [tidied, whole, without]

/-- The line that the edits of a record lead to is read again, and as what the parts of the record
    tell. -/
theorem ofLine_applyAll {record : Record} (read : ofLine line = .ok record) :
    ofLine (Edit.applyAll line record.layoutEdits) = .ok record.tidied := by
  have kept := line_of_ofLine read
  cases kind_of_ofLine read with
  | empty isEmpty =>
      subst isEmpty
      exact congrArg ofLine (Layout.applyAll_lineEdits [])
  | other c opens first =>
      exact (congrArg ofLine (Layout.applyAll_lineEdits line)).trans
        (ofLine_trimBlanks_other opens first)
  | network some first =>
      have whole := NetworkLine.toLine_ofLine line
      cases has : (NetworkLine.ofLine line).modifierSection with
      | none =>
          rw [tidied_of_no_section has, Layout.layoutEdits_unsectioned has, whole,
            Layout.applyAll_lineEdits, ofLine_trimBlanks_network first]
      | some modifiers =>
          have fixed := NetworkLine.applyAll_tidied (NetworkLine.proper_ofLine line) has
          rw [whole] at fixed
          rw [tidied_of_section has, fixed, ofLine_tidied first has]
  | cosmetic hostname rest filter isWhole plain marker =>
      have parts := hostname_ofMarker marker
      subst isWhole
      have edits : (cosmetic filter).layoutEdits =
          Layout.lineEdits (hostname ++ .char '#' :: rest) := by
        rw [← kept]
        rfl
      have line' : filter.line = hostname ++ .char '#' :: rest := kept
      rw [edits, Layout.applyAll_lineEdits, ofLine_trimBlanks_cosmetic plain marker, tidied, line',
        parts]

end Tidied

end Record

end Blocklist
