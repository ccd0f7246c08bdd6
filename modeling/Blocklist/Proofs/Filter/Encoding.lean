import Blocklist.Proofs.Filter.Kinds
import Blocklist.Proofs.Filter.Opening
import Blocklist.Proofs.Text.WellEscaped

/-! # Writing modifiers

Modifiers are written one behind the other with commas in between, each value behind an equals sign.
When the names and the values are well escaped and something marks the last modifier, reading the
section gives the modifiers back, and so does reading a whole line that ends in the section.
-/

namespace Blocklist

namespace Modifier

/-- How a modifier is written. -/
def written (m : Modifier) : Text :=
  m.name ++ match m.value with
    | none => []
    | some value => .char '=' :: value

theorem written_ofEntry (entry : Text) : (ofEntry entry).written = entry := by
  cases cut : (entry.cutBare '=').2 with
  | none => simp [written, ofEntry, cut, Text.cutBare_fst_of_none cut]
  | some value => simp [written, ofEntry, cut, Text.cutBare_append_of_some cut]

theorem written_eq_nil_iff {m : Modifier} : m.written = [] ↔ m = ⟨[], none⟩ := by
  obtain ⟨name, value⟩ := m
  cases value <;> simp [written]

/-- A name ends at the first bare equals sign, if it does not hide that sign. -/
theorem ofEntry_written {m : Modifier} (name : (m.name.cutBare '=').2 = none)
    (whole : m.value ≠ none → m.name.dangles = false) : ofEntry m.written = m := by
  obtain ⟨name', value⟩ := m
  cases value with
  | none => simp [ofEntry, written, Text.cutBare_fst_of_none name, name]
  | some value =>
      have cut := Text.cutBare_append name (whole (by simp)) (.char '=' :: value)
      rw [Text.cutBare_cons (by decide), if_pos rfl, List.append_nil] at cut
      simp [ofEntry, written, cut]

theorem wellEscaped_written {m : Modifier} (name : Text.WellEscaped [.char '=', .char ','] m.name)
    (value : ∀ value ∈ m.value, Text.WellEscaped [.char ','] value) :
    Text.WellEscaped [.char ','] m.written := by
  have front : Text.WellEscaped [.char ','] m.name := name.mono (by simp)
  cases has : m.value with
  | none => simpa [written, has] using front
  | some back =>
      simp only [written, has]
      exact front.append (.single (by decide) (by decide) (value back has))

end Modifier

namespace Section

/-- Modifiers written one behind the other. -/
def encode (modifiers : List Modifier) : Text :=
  [.char ','].intercalate (modifiers.map Modifier.written)

/-- A section that was written from modifiers has their entries. Behind the last comma nothing would
    be seen of a modifier without a name and a value. -/
theorem entries_encode {modifiers : List Modifier}
    (escaped : ∀ m ∈ modifiers, Text.WellEscaped [.char ','] m.written)
    (last : modifiers.getLast? ≠ some ⟨[], none⟩) :
    entries (encode modifiers) = modifiers.map Modifier.written := by
  by_cases none : modifiers = []
  · rw [none]
    rfl
  · rw [← List.forall_mem_map] at escaped
    have split : (encode modifiers).splitBare ',' = modifiers.map Modifier.written := by
      refine Text.splitBare_intercalate (by decide) (by simpa using none) ?_ ?_
      · exact fun piece isThere => (escaped piece isThere).uncut (by simp)
      · exact fun piece isThere => (escaped piece (List.dropLast_subset _ isThere)).whole
    have some : (modifiers.map Modifier.written).getLast? ≠ some [] := by
      rw [List.getLast?_map]
      intro ends
      obtain ⟨m, isLast, empty⟩ := Option.map_eq_some_iff.mp ends
      rw [Modifier.written_eq_nil_iff.mp empty] at isLast
      exact last isLast
    rw [entries, split, if_neg some]

end Section

namespace NetworkLine

/-- The parts of a line for a host and its subdomains. -/
def ofSubdomains (pattern modifiers : Text) : NetworkLine :=
  ⟨[], false, .subdomains, pattern, false, some modifiers⟩

theorem toLine_ofSubdomains (pattern modifiers : Text) :
    (ofSubdomains pattern modifiers).toLine = "||".toText ++ pattern ++ .char '$' :: modifiers := by
  have mark : "||".toText = [.char '|', .char '|'] := rfl
  simp [ofSubdomains, toLine, front, back, exceptionMark, Anchor.mark, endMark, sectionMark, mark]

theorem proper_ofSubdomains {pattern modifiers : Text} (free : .char '$' ∉ pattern)
    (unended : pattern.getLast? ≠ some (.char '|')) (opens : Section.opensLater modifiers = false) :
    (ofSubdomains pattern modifiers).Proper where
  indent := List.forall_mem_nil _
  unindented := by
    rintro c ⟨⟩
    decide
  unmarked := by
    rintro - ⟨rest, starts⟩
    simp [unmarked, ofSubdomains, Anchor.mark] at starts
  unanchored := fun other => absurd rfl other
  unended := fun _ => unended
  cut := by
    simp only [unanchored, back, ofSubdomains, endMark, sectionMark, List.nil_append,
      List.append_nil]
    exact Section.cut_of_not_mem free opens

end NetworkLine

namespace Record

theorem ofLine_ofSubdomains {pattern modifiers : Text} (free : .char '$' ∉ pattern)
    (unended : pattern.getLast? ≠ some (.char '|')) (opens : Section.opensLater modifiers = false) :
    ofLine ("||".toText ++ pattern ++ .char '$' :: modifiers) =
      .ok (network (NetworkLine.ofSubdomains pattern modifiers).toFilter) := by
  have parts := NetworkLine.ofLine_toLine (NetworkLine.proper_ofSubdomains free unended opens)
  rw [NetworkLine.toLine_ofSubdomains] at parts
  rw [ofLine_network (by simp) ?_, parts]
  rintro c ⟨⟩
  decide

/-- A line written from a pattern and modifiers is read as a filter with that pattern and exactly
    those modifiers. -/
theorem ofLine_encode {pattern : Text} {modifiers : List Modifier} (free : .char '$' ∉ pattern)
    (unended : pattern.getLast? ≠ some (.char '|'))
    (names : ∀ m ∈ modifiers, Text.WellEscaped [.char '=', .char ','] m.name)
    (values : ∀ m ∈ modifiers, ∀ value ∈ m.value, Text.WellEscaped [.char ','] value)
    (last : modifiers.getLast? ≠ some ⟨[], none⟩)
    (opens : .char '$' ∉ (Section.encode modifiers).takeWhile (· ≠ .char '=')) :
    ∃ f,
      ofLine ("||".toText ++ pattern ++ .char '$' :: Section.encode modifiers) =
        .ok (network f) ∧
      f.pattern = pattern ∧ f.matchSubdomains = true ∧ f.matchEnd = false ∧
      f.modifiers = modifiers := by
  have escaped : ∀ m ∈ modifiers, Text.WellEscaped [.char ','] m.written := fun m isThere =>
    Modifier.wellEscaped_written (names m isThere) (values m isThere)
  have decoded : ∀ m ∈ modifiers, Modifier.ofEntry m.written = m := fun m isThere =>
    Modifier.ofEntry_written ((names m isThere).uncut (by simp)) fun _ => (names m isThere).whole
  refine ⟨_, ofLine_ofSubdomains free unended (Section.opensLater_eq_false_iff.mpr opens), rfl, rfl,
    rfl, ?_⟩
  calc (NetworkLine.ofSubdomains pattern (Section.encode modifiers)).toFilter.modifiers
      = (Section.entries (Section.encode modifiers)).map Modifier.ofEntry := rfl
    _ = (modifiers.map Modifier.written).map Modifier.ofEntry := by
          rw [Section.entries_encode escaped last]
    _ = modifiers := by
          rw [List.map_map]
          exact (List.map_congr_left decoded).trans (List.map_id _)

/-- Escapes, an empty modifier in the middle, an equals sign and a dollar sign in a value. -/
theorem ofLine_encode_escaped :
    ∃ f, ofLine "||a.b^|/p$x\\,y\\ ,,z=1=\\,$2\\\\,=".toText = .ok (network f) ∧
      f.pattern = "a.b^|/p".toText ∧ f.matchSubdomains = true ∧ f.matchEnd = false ∧
      f.modifiers = [⟨"x\\,y\\ ".toText, none⟩, ⟨[], none⟩,
        ⟨"z".toText, some "1=\\,$2\\\\".toText⟩, ⟨[], some []⟩] := by
  have line : "||a.b^|/p$x\\,y\\ ,,z=1=\\,$2\\\\,=".toText =
      "||".toText ++ "a.b^|/p".toText ++ .char '$' :: Section.encode [⟨"x\\,y\\ ".toText, none⟩,
        ⟨[], none⟩, ⟨"z".toText, some "1=\\,$2\\\\".toText⟩, ⟨[], some []⟩] := by
    decide +kernel
  rw [line]
  apply ofLine_encode
  · decide +kernel
  · decide +kernel
  · decide +kernel
  · decide +kernel
  · decide +kernel
  · decide +kernel

end Record

end Blocklist
