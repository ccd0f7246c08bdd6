import Blocklist.Proofs.Layout.Rereading

/-! # Blanks around a line

Blanks in front of a line end up in its indent, and blanks behind it in the pattern, in the last
entry of the section or in the selector. The canonical layout trims all of these, so what it makes
of a line does not depend on the blanks around it.
-/

namespace Blocklist

namespace Layout

section Behind

variable {b : Text}

/-- Blanks behind an entry belong to its value, or to its name if there is no value. -/
theorem tidyEntry_append (blank : ∀ c ∈ b, Text.isBlank c) (entry : Text) :
    tidyEntry (entry ++ b) = tidyEntry entry := by
  have trimmed (s : Text) : (s ++ b).trimBlanks = s.trimBlanks :=
    Text.trimBlanks_around (List.forall_mem_nil _) blank s
  cases cut : (entry.cutBare '=').2 with
  | none =>
      have free : .char '=' ∉ b := Text.not_mem_of_blank (by decide) blank
      have cut' := Text.uncut_append cut free
      rw [tidyEntry_of_none cut, tidyEntry_of_none cut', Modifier.tidied, Modifier.tidied,
        Modifier.ofEntry, Modifier.ofEntry, Text.cutBare_fst_of_none cut,
        Text.cutBare_fst_of_none cut', trimmed]
  | some value =>
      have both := Text.cutBare_append_of_cut (by decide) cut b
      have name : (Modifier.ofEntry (entry ++ b)).tidied.name =
          (Modifier.ofEntry entry).tidied.name := by
        rw [Modifier.tidied, Modifier.tidied, Modifier.ofEntry, Modifier.ofEntry, both]
      rw [tidyEntry_of_some cut, tidyEntry_of_some (congrArg Prod.snd both), name, trimmed]

theorem tidySection_append (blank : ∀ c ∈ b, Text.isBlank c) (modifiers : Text) :
    tidySection (modifiers ++ b) = tidySection modifiers := by
  have free : .char ',' ∉ b := Text.not_mem_of_blank (by decide) blank
  obtain ⟨pieces, last, split, split'⟩ := Text.exists_splitBare_append (by decide) modifiers free
  rw [tidySection, tidySection, split, split', List.map_append, List.map_append,
    List.map_singleton, List.map_singleton, tidyEntry_append blank]

end Behind

end Layout

namespace NetworkLine

section Around

variable {line a b : Text}

theorem ofLine_around (blank : ∀ c ∈ a, Text.isBlank c) (blank' : ∀ c ∈ b, Text.isBlank c)
    {modifiers : Text} (has : (ofLine line).modifierSection = some modifiers) :
    ofLine (a ++ (line ++ b)) = { ofLine line with
      indent := a ++ (ofLine line).indent, modifierSection := some (modifiers ++ b) } := by
  -- The parts are proper, so they are what is read from the line that they make up.
  let around : NetworkLine := { ofLine line with
    indent := a ++ (ofLine line).indent, modifierSection := some (modifiers ++ b) }
  have opens : Section.opensLater (modifiers ++ b) = Section.opensLater modifiers := by
    apply Section.opensLater_congr
    rw [List.filter_append, Layout.filter_of_blank Layout.overlooks_opening blank', List.append_nil]
  have indent : ∀ c ∈ around.indent, Text.isBlank c :=
    List.forall_mem_append.mpr ⟨blank, (proper_ofLine line).indent⟩
  have proper : around.Proper := (proper_ofLine line).of_section has indent opens rfl
  have whole : around.toLine = a ++ (line ++ b) := by
    have parts := toLine_of_section has
    rw [toLine_ofLine, address_eq] at parts
    have parts' := toLine_of_section (l := around) rfl
    rw [address_eq] at parts'
    rw [parts', parts]
    simp only [around, unindentedAddress, List.append_assoc]
  rw [← whole]
  exact ofLine_toLine proper

theorem modifierSection_around (blank : ∀ c ∈ a, Text.isBlank c) (blank' : ∀ c ∈ b, Text.isBlank c)
    (without : (ofLine line).modifierSection = none) :
    (ofLine (a ++ (line ++ b))).modifierSection = none := by
  rw [modifierSection_ofLine_eq_none_iff] at without ⊢
  rw [List.mem_append, List.mem_append, not_or, not_or]
  exact ⟨Text.not_mem_of_blank (by decide) blank, without,
    Text.not_mem_of_blank (by decide) blank'⟩

theorem tidied_around (blank : ∀ c ∈ a, Text.isBlank c) (blank' : ∀ c ∈ b, Text.isBlank c)
    {modifiers : Text} (has : (ofLine line).modifierSection = some modifiers) :
    (ofLine (a ++ (line ++ b))).tidied = (ofLine line).tidied := by
  rw [ofLine_around blank blank' has, tidied, tidied, has, Option.map_some, Option.map_some,
    Layout.tidySection_append blank']

end Around

end NetworkLine

namespace Layout

/-- What the canonical layout makes of a line, told without its record. A line whose first decisive
    character is foreign is no network line, and a dollar sign in it opens no section. -/
def laidOut (line : Text) : Text :=
  if (line.find? Record.isDecisive).any Record.isForeign then line.trimBlanks
  else
    match (NetworkLine.ofLine line).modifierSection with
    | none => line.trimBlanks
    | some _ => (NetworkLine.ofLine line).tidied.toLine

section Lines

variable {line a b : Text} {record : Record}

theorem laidOut_of_foreign {c : CodePoint} (first : line.find? Record.isDecisive = some c)
    (foreign : Record.isForeign c = true) : laidOut line = line.trimBlanks := by
  rw [laidOut, first, Option.any_some, if_pos foreign]

theorem applyAll_eq_laidOut (read : Record.ofLine line = .ok record) :
    Edit.applyAll line record.layoutEdits = laidOut line := by
  have kept := Record.line_of_ofLine read
  cases Record.kind_of_ofLine read with
  | empty isEmpty =>
      subst isEmpty
      exact applyAll_lineEdits []
  | other c opens first =>
      have foreign : Record.isForeign c = true := by rcases opens with rfl | rfl <;> decide
      rw [laidOut_of_foreign first foreign]
      exact applyAll_lineEdits line
  | network some first =>
      have whole := NetworkLine.toLine_ofLine line
      have own : (line.find? Record.isDecisive).any Record.isForeign = false := by
        rw [Option.any_eq_false]
        intro c isFirst
        simp [first c isFirst]
      rw [laidOut, own, if_neg Bool.false_ne_true]
      cases has : (NetworkLine.ofLine line).modifierSection with
      | none =>
          rw [layoutEdits_unsectioned has, whole, applyAll_lineEdits]
      | some modifiers =>
          have fixed := NetworkLine.applyAll_tidied (NetworkLine.proper_ofLine line) has
          rw [whole] at fixed
          exact fixed
  | cosmetic hostname rest filter isWhole plain =>
      have first : line.find? Record.isDecisive = some (.char '#') := by
        rw [isWhole, List.find?_append, List.find?_eq_none.mpr (by simpa using plain)]
        rfl
      rw [laidOut_of_foreign first (by decide), ← kept]
      exact applyAll_lineEdits filter.line

/-- Blanks around a line have no part in what the canonical layout makes of it. -/
theorem laidOut_around (blank : ∀ c ∈ a, Text.isBlank c) (blank' : ∀ c ∈ b, Text.isBlank c)
    (line : Text) : laidOut (a ++ (line ++ b)) = laidOut line := by
  have first : (a ++ (line ++ b)).find? Record.isDecisive = line.find? Record.isDecisive := by
    apply Record.find?_isDecisive_congr
    rw [List.filter_append, List.filter_append, filter_of_blank overlooks_isDecisive blank,
      filter_of_blank overlooks_isDecisive blank', List.nil_append, List.append_nil]
  have trimmed := Text.trimBlanks_around blank blank' line
  cases has : (NetworkLine.ofLine line).modifierSection with
  | none =>
      rw [laidOut, laidOut, first, trimmed, has,
        NetworkLine.modifierSection_around blank blank' has]
  | some modifiers =>
      have has' : (NetworkLine.ofLine (a ++ (line ++ b))).modifierSection =
          some (modifiers ++ b) := by rw [NetworkLine.ofLine_around blank blank' has]
      rw [laidOut, laidOut, first, trimmed, has, has',
        NetworkLine.tidied_around blank blank' has]

/-- A line that can be read with blanks around it and without them comes to the same line in the
    canonical layout. -/
theorem tidy_around {record' : Record} (blank : ∀ c ∈ a, Text.isBlank c)
    (blank' : ∀ c ∈ b, Text.isBlank c) (read : Record.ofLine line = .ok record)
    (read' : Record.ofLine (a ++ (line ++ b)) = .ok record') :
    ∃ fixed, tidy line = .ok fixed ∧ tidy (a ++ (line ++ b)) = .ok fixed := by
  refine ⟨laidOut line, ?_, ?_⟩
  · rw [tidy_of_ofLine read, applyAll_eq_laidOut read]
  · rw [tidy_of_ofLine read', applyAll_eq_laidOut read', laidOut_around blank blank']

/-- The first blank behind the line is the second half of an escape. -/
theorem tidy_around_escape :
    let fixed := "||a.b^$third-party,x=y\\".toText
    tidy "||a.b^$3p, x= y\\".toText = .ok fixed ∧
      tidy ("\t ".toText ++ ("||a.b^$3p, x= y\\".toText ++ " \r".toText)) = .ok fixed := by
  intro fixed
  have read : Record.ofLine "||a.b^$3p, x= y\\".toText =
      .ok (.network (NetworkLine.ofLine "||a.b^$3p, x= y\\".toText).toFilter) := rfl
  have read' : Record.ofLine ("\t ".toText ++ ("||a.b^$3p, x= y\\".toText ++ " \r".toText)) =
      .ok (.network (NetworkLine.ofLine "\t ||a.b^$3p, x= y\\ \r".toText).toFilter) := rfl
  obtain ⟨same, alone, around⟩ := tidy_around (by decide) (by decide) read read'
  have first : tidy "||a.b^$3p, x= y\\".toText = .ok fixed := by decide +kernel
  exact ⟨first, around.trans (alone.symm.trans first)⟩

end Lines

end Layout

end Blocklist
