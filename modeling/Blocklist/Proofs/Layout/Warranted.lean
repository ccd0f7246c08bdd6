import Blocklist.Proofs.Edit.Report
import Blocklist.Proofs.Layout.Rewriting

/-! # What the edits of a layout are about

Each edit that a layout asks for has its reason in the line. A deletion under one of the rules on
blanks takes out blanks and nothing else. A deletion under the rule on full names takes out a short
name with the blanks around it, and the insertion behind it puts the full name in its place.
-/

namespace Blocklist

namespace Text

theorem between_append {front s back : Text} :
    between (front ++ (s ++ back)) front.length (front.length + s.length) = s := by
  rw [← Int.natCast_add, between_natCast (by simp) (by simp), ← List.append_assoc,
    ← List.length_append, List.take_left, List.drop_left]

theorem isBlank_of_mem_take {s : Text} : ∀ c ∈ s.take s.leadingBlanks, isBlank c := by
  intro c isThere
  rw [take_leadingBlanks] at isThere
  exact List.mem_takeWhile_imp isThere

theorem isBlank_of_mem_drop {s : Text} :
    ∀ c ∈ s.drop (s.length - s.trailingBlanks), isBlank c := by
  intro c isThere
  rw [← List.mem_reverse, List.reverse_drop] at isThere
  have counted := trailingBlanks_le_length s
  have same : s.length - (s.length - s.trailingBlanks) = leadingBlanks s.reverse := by
    rw [trailingBlanks] at counted ⊢
    omega
  rw [same] at isThere
  exact isBlank_of_mem_take c isThere

end Text

namespace Layout

open Edit

/-- The rules that blanks are taken out by. -/
def blankRules : List Text :=
  [lineRule, nameRule, valueRule]

theorem fullNameRule_not_mem : fullNameRule ∉ blankRules := by
  decide +kernel

/-- Edits with a reason in their line, one after the other. -/
inductive Warranted (line : Text) : List Edit → Prop where
  | nil : Warranted line []
  /-- A stretch of blanks goes. -/
  | trim {rule a blanks b : Text} {rest : List Edit} (isTrim : rule ∈ blankRules)
      (whole : line = a ++ (blanks ++ b)) (blank : ∀ c ∈ blanks, Text.isBlank c)
      (later : Warranted line rest) :
      Warranted line (.delete rule a.length blanks.length :: rest)
  /-- A full name comes in place of a short one. -/
  | rename {a name full b : Text} {rest : List Edit} (whole : line = a ++ (name ++ b))
      (short : fullName? name.trimBlanks = some full) (later : Warranted line rest) :
      Warranted line (.delete fullNameRule a.length name.length ::
        .insert fullNameRule a.length full :: rest)

namespace Warranted

variable {line a b : Text} {edits edits' : List Edit}

theorem append (first : Warranted line edits) (second : Warranted line edits') :
    Warranted line (edits ++ edits') := by
  induction first with
  | nil => exact second
  | trim isTrim whole blank later ih => exact .trim isTrim whole blank ih
  | rename whole short later ih => exact .rename whole short ih

section Asked

theorem of_deleteSome {rule blanks : Text} {offset : Int} {count : Nat}
    (isTrim : rule ∈ blankRules) (whole : line = a ++ (blanks ++ b))
    (blank : ∀ c ∈ blanks, Text.isBlank c) (here : offset = a.length)
    (length : blanks.length = count) : Warranted line (deleteSome rule offset count) := by
  unfold deleteSome
  split
  · exact .nil
  · rw [here, ← length]
    exact .trim isTrim whole blank .nil

theorem of_trimsAt {rule s : Text} (isTrim : rule ∈ blankRules) (whole : line = a ++ (s ++ b)) :
    Warranted line (trimsAt rule a.length s) := by
  have leading := Text.leadingBlanks_le_length s
  have trailing := Text.trailingBlanks_le_length s
  refine append ?_ ?_
  · have front : line = a ++ (s.take s.leadingBlanks ++ (s.drop s.leadingBlanks ++ b)) := by
      rw [← List.append_assoc (s.take _), List.take_append_drop, whole]
    exact of_deleteSome isTrim front Text.isBlank_of_mem_take rfl (List.length_take_of_le leading)
  · have back : line = (a ++ s.take (s.length - s.trailingBlanks)) ++
        (s.drop (s.length - s.trailingBlanks) ++ b) := by
      rw [List.append_assoc, ← List.append_assoc (s.take _), List.take_append_drop, whole]
    have here : ((a.length + s.length : Nat) - s.trailingBlanks : Int) =
        (a ++ s.take (s.length - s.trailingBlanks)).length := by
      rw [List.length_append, List.length_take]
      omega
    refine of_deleteSome isTrim back Text.isBlank_of_mem_drop here ?_
    rw [List.length_drop]
    omega

theorem of_nameEditsAt {name : Text} (whole : line = a ++ (name ++ b)) :
    Warranted line (nameEditsAt a.length name) := by
  have trims : Warranted line (trimsAt nameRule a.length name) := of_trimsAt (by decide) whole
  cases short : fullName? name.trimBlanks with
  | none =>
      rw [nameEditsAt_of_none short]
      exact trims
  | some full =>
      rw [nameEditsAt_of_some short]
      exact trims.append (.rename whole short .nil)

theorem of_entryEdits {entry : Text} (whole : line = a ++ (entry ++ b)) :
    Warranted line (entryEdits a.length entry) := by
  cases cut : (entry.cutBare '=').2 with
  | none =>
      rw [entryEdits_of_none cut]
      exact of_nameEditsAt whole
  | some value =>
      have parts : line = a ++ ((entry.cutBare '=').1 ++ .char '=' :: (value ++ b)) := by
        rw [whole]
        conv_lhs => rw [← Text.cutBare_append_of_some cut]
        simp only [List.append_assoc, List.cons_append]
      have parts' : line = (a ++ (entry.cutBare '=').1 ++ [.char '=']) ++ (value ++ b) := by
        rw [parts]
        simp only [List.append_assoc, List.singleton_append]
      have start : a.length + (entry.cutBare '=').1.length + 1 =
          (a ++ (entry.cutBare '=').1 ++ [CodePoint.char '=']).length := by
        simp only [List.length_append, List.length_singleton]
      rw [entryEdits_of_some cut, start]
      exact (of_nameEditsAt parts).append (of_trimsAt (by decide) parts')

/-- The entries of a section follow one another in the line, with commas in between. -/
theorem of_sectionEdits {entries : List Text}
    (whole : line = a ++ ([.char ','].intercalate entries ++ b)) :
    Warranted line (sectionEdits a.length entries) := by
  -- what is in front grows by an entry and its comma
  induction entries generalizing a with
  | nil => exact .nil
  | cons entry rest ih =>
      rw [sectionEdits]
      cases rest with
      | nil =>
          rw [List.intercalate_singleton] at whole
          exact (of_entryEdits whole).append .nil
      | cons next rest =>
          rw [List.intercalate_cons_cons] at whole
          simp only [List.append_assoc] at whole
          have later : line =
              (a ++ entry ++ [.char ',']) ++ ([.char ','].intercalate (next :: rest) ++ b) := by
            simp only [whole, List.append_assoc]
          have start : a.length + entry.length + 1 =
              (a ++ entry ++ [CodePoint.char ',']).length := by
            simp only [List.length_append, List.length_singleton]
          rw [start]
          exact (of_entryEdits whole).append (ih later)

theorem of_lineEdits (line : Text) : Warranted line (lineEdits line) := by
  rw [lineEdits_eq]
  exact of_trimsAt (a := []) (b := []) (by decide) (List.append_nil line).symm

theorem of_layoutEdits {record : Record} (read : Record.ofLine line = .ok record) :
    Warranted line record.layoutEdits := by
  have kept := Record.line_of_ofLine read
  cases Record.kind_of_ofLine read with
  | empty => exact of_lineEdits line
  | other => exact of_lineEdits line
  | network =>
      have whole := NetworkLine.toLine_ofLine line
      cases has : (NetworkLine.ofLine line).modifierSection with
      | none =>
          rw [layoutEdits_unsectioned has, whole]
          exact of_lineEdits line
      | some modifiers =>
          have parts := (toLine_sectioned has).symm.trans whole
          rw [layoutEdits_sectioned has, sectionedEdits, parts, ← lineEdits_eq]
          rw [sectioned, ← List.append_assoc] at parts
          have start : (NetworkLine.ofLine line).address.length + 1 =
              ((NetworkLine.ofLine line).address ++ [CodePoint.char '$']).length := by
            rw [List.length_append, List.length_singleton]
          rw [start]
          exact (of_lineEdits line).append (of_sectionEdits parts.symm)
  | cosmetic hostname rest filter =>
      subst kept
      exact of_lineEdits filter.line

end Asked

section Reasons

theorem inRange (warranted : Warranted line edits) : ∀ e ∈ edits, e.InRange line.length := by
  induction warranted with
  | nil => exact List.forall_mem_nil _
  | trim isTrim whole blank later ih =>
      refine List.forall_mem_cons.mpr ⟨?_, ih⟩
      simp only [InRange, whole, List.length_append]
      omega
  | rename whole short later ih =>
      refine List.forall_mem_cons.mpr ⟨?_, List.forall_mem_cons.mpr ⟨?_, ih⟩⟩
      · simp only [InRange, whole, List.length_append]
        omega
      · simp only [InRange, whole, List.length_append]
        omega

theorem plain (warranted : Warranted line edits) : ∀ e ∈ edits,
    .char '\n' ∉ e.rule ∧ ∀ text ∈ e.text?, .char '\n' ∉ text ∧ .char '^' ∉ text := by
  have rules : ∀ rule ∈ fullNameRule :: blankRules, .char '\n' ∉ rule := by decide +kernel
  have names : ∀ pair ∈ fullNames, .char '\n' ∉ pair.2 ∧ .char '^' ∉ pair.2 := by decide +kernel
  rw [List.forall_mem_cons] at rules
  induction warranted with
  | nil => exact List.forall_mem_nil _
  | trim isTrim whole blank later ih =>
      exact List.forall_mem_cons.mpr ⟨⟨rules.2 _ isTrim, fun _ offers => nomatch offers⟩, ih⟩
  | rename whole short later ih =>
      refine List.forall_mem_cons.mpr ⟨⟨rules.1, fun _ offers => nomatch offers⟩,
        List.forall_mem_cons.mpr ⟨⟨rules.1, ?_⟩, ih⟩⟩
      rintro _ ⟨⟩
      exact names _ (mem_of_fullName? short)

theorem isBlank_of_trim (warranted : Warranted line edits) {rule : Text} {offset count : Int}
    (isTrim : rule ∈ blankRules) (isThere : .delete rule offset count ∈ edits) :
    ∀ c ∈ line.between offset (offset + count), Text.isBlank c := by
  induction warranted with
  | nil => cases isThere
  | trim _ whole blank later ih =>
      rcases List.mem_cons.mp isThere with same | isThere
      · cases same
        rw [whole, Text.between_append]
        exact blank
      · exact ih isThere
  | rename whole short later ih =>
      rcases List.mem_cons.mp isThere with same | isThere
      · cases same
        exact absurd isTrim fullNameRule_not_mem
      · rcases List.mem_cons.mp isThere with same | isThere
        · cases same
        · exact ih isThere

/-- What goes under the rule on full names is a short name, and its full name comes next. -/
theorem exists_fullName_of_rename (warranted : Warranted line edits) {before behind : List Edit}
    {offset count : Int} (parts : edits = before ++ .delete fullNameRule offset count :: behind) :
    ∃ full, fullName? (line.between offset (offset + count)).trimBlanks = some full ∧
      behind.head? = some (.insert fullNameRule offset full) := by
  induction warranted generalizing before with
  | nil => simp at parts
  | trim isTrim whole blank later ih =>
      rcases List.cons_eq_append_iff.mp parts with ⟨rfl, same⟩ | ⟨before, rfl, rest⟩
      · cases same
        exact absurd isTrim fullNameRule_not_mem
      · exact ih rest
  | rename whole short later ih =>
      rcases List.cons_eq_append_iff.mp parts with ⟨rfl, same⟩ | ⟨before, rfl, rest⟩
      · cases same
        rw [whole, Text.between_append]
        exact ⟨_, short, rfl⟩
      · rcases List.cons_eq_append_iff.mp rest with ⟨rfl, same⟩ | ⟨before, rfl, tail⟩
        · cases same
        · exact ih tail

end Reasons

end Warranted

/-- Every edit that the layout of a line asks for finds its place in the line, and its report has two
    rows that are aligned. What goes under a rule on blanks is blank, and what goes under the rule on
    full names is a short name, for which the next edit puts in the full one. -/
theorem report_layoutEdits_aligned {line : Text} {record : Record} (unbroken : .char '\n' ∉ line)
    (read : Record.ofLine line = .ok record) :
    (∀ e ∈ record.layoutEdits, e.InRange line.length ∧ ∃ first second,
      (e.report line).splitOn (.char '\n') = [first, second] ∧ e.Aligned line first second) ∧
    (∀ rule ∈ blankRules, ∀ offset count, .delete rule offset count ∈ record.layoutEdits →
      ∀ c ∈ line.between offset (offset + count), Text.isBlank c) ∧
    ∀ before offset count behind,
      record.layoutEdits = before ++ .delete fullNameRule offset count :: behind →
      ∃ full, fullName? (line.between offset (offset + count)).trimBlanks = some full ∧
        behind.head? = some (.insert fullNameRule offset full) := by
  have warranted := Warranted.of_layoutEdits read
  refine ⟨fun e isThere => ?_, fun _ isTrim _ _ => warranted.isBlank_of_trim isTrim,
    fun _ _ _ _ => warranted.exists_fullName_of_rename⟩
  have inRange := warranted.inRange e isThere
  obtain ⟨named, plain⟩ := warranted.plain e isThere
  exact ⟨inRange, report_aligned inRange unbroken named plain⟩

/-- The blanks around the name are taken out, and again with the name. -/
theorem report_layoutEdits_aligned_short_name :
    let line := "||a.b^$ 3p =1".toText
    (∃ first second,
      ((Edit.insert fullNameRule 7 "third-party".toText).report line).splitOn (.char '\n') =
      [first, second] ∧
        (Edit.insert fullNameRule 7 "third-party".toText).Aligned line first second) ∧
    (∀ c ∈ Text.between line 10 11, Text.isBlank c) ∧
    ∃ full, fullName? (Text.between line 7 11).trimBlanks = some full := by
  intro line
  have read : Record.ofLine line = .ok (.network (NetworkLine.ofLine line).toFilter) := rfl
  have edits : (Record.network (NetworkLine.ofLine line).toFilter).layoutEdits =
      [.delete nameRule 7 1, .delete nameRule 10 1] ++ .delete fullNameRule 7 4 ::
        [.insert fullNameRule 7 "third-party".toText] := by decide +kernel
  obtain ⟨aligned, blank, renamed⟩ := report_layoutEdits_aligned (by decide) read
  rw [edits] at aligned blank
  refine ⟨(aligned _ (by simp)).2, blank nameRule (by decide) 10 1 (by simp), ?_⟩
  obtain ⟨full, short, -⟩ := renamed _ _ _ _ edits
  exact ⟨full, short⟩

end Layout

end Blocklist
