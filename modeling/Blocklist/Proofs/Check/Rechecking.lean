import Blocklist.Check
import Blocklist.Proofs.Layout.SameKind

/-! # Checking a list again

A check that does not fail at a bad line takes in every line: it leaves the line in the canonical
layout, or as it is if it cannot be read. No edit breaks a line in two, so a second check comes upon
the very lines that the first one left, and upon the same errors.
-/

namespace Blocklist

namespace Edit

variable {c : CodePoint}

theorem mem_applyTo {line : Text} {e : Edit} (isThere : c ∈ e.applyTo line) :
    c ∈ line ∨ e.Adds c := by
  cases e with
  | delete rule offset length =>
      rw [applyTo] at isThere
      split at isThere
      · exact .inl isThere
      · rcases List.mem_append.mp isThere with front | back
        · exact .inl (List.mem_of_mem_take front)
        · exact .inl (List.mem_of_mem_drop back)
  | insert rule offset text =>
      simp only [applyTo, List.mem_append] at isThere
      rcases isThere with (front | new) | back
      · exact .inl (List.mem_of_mem_take front)
      · exact .inr new
      · exact .inl (List.mem_of_mem_drop back)

theorem mem_applyAll {line : Text} {edits : List Edit} (isThere : c ∈ applyAll line edits) :
    c ∈ line ∨ ∃ e ∈ edits, e.Adds c := by
  induction line, edits using applyAll_induction with
  | nil line =>
      rw [applyAll_nil] at isThere
      exact .inl isThere
  | cons line edit rest ih =>
      rw [applyAll_cons] at isThere
      rcases ih isThere with before | ⟨e, later, adds⟩
      · exact (mem_applyTo before).imp_right fun adds => ⟨edit, List.mem_cons_self, adds⟩
      · obtain ⟨e, among, rfl⟩ := List.mem_map.mp later
        exact .inr ⟨e, List.mem_cons_of_mem _ among, (adds_rebase edit e).mp adds⟩

end Edit

namespace Layout

variable {c : CodePoint} {e : Edit}

theorem not_adds_of_mem_trimEdits {rule text : Text} {span : Span}
    (isThere : e ∈ trimEdits rule text span) : ¬e.Adds c := by
  simp only [trimEdits, List.mem_append, mem_deleteSome] at isThere
  rcases isThere with ⟨-, rfl⟩ | ⟨-, rfl⟩ <;> exact id

theorem exists_fullName_of_mem_nameEdits {name : Text} {span : Span}
    (isThere : e ∈ nameEdits name span) (adds : e.Adds c) : ∃ pair ∈ fullNames, c ∈ pair.2 := by
  cases short : fullName? name.trimBlanks with
  | none => simp [nameEdits, short] at isThere
  | some full =>
      simp only [nameEdits, short, List.mem_cons, List.not_mem_nil, or_false] at isThere
      rcases isThere with rfl | rfl
      · exact adds.elim
      · exact ⟨_, mem_of_fullName? short, adds⟩

theorem exists_fullName_of_mem_modifierEdits {m : Modifier} {mark : ModifierMark}
    (isThere : e ∈ modifierEdits m mark) (adds : e.Adds c) : ∃ pair ∈ fullNames, c ∈ pair.2 := by
  rw [modifierEdits, List.mem_append, List.mem_append] at isThere
  rcases isThere with (trims | names) | values
  · exact absurd adds (not_adds_of_mem_trimEdits trims)
  · exact exists_fullName_of_mem_nameEdits names adds
  · split at values
    · exact absurd adds (not_adds_of_mem_trimEdits values)
    · cases values

theorem exists_fullName_of_mem_layoutEdits {record : Record} (isThere : e ∈ record.layoutEdits)
    (adds : e.Adds c) : ∃ pair ∈ fullNames, c ∈ pair.2 := by
  cases record with
  | network f =>
      rw [Record.layoutEdits, List.mem_append] at isThere
      rcases isThere with trims | sections
      · exact absurd adds (not_adds_of_mem_trimEdits trims)
      · obtain ⟨edits, among, isThere⟩ := List.mem_flatten.mp sections
        obtain ⟨i, place⟩ := List.mem_iff_getElem?.mp among
        obtain ⟨m, mark, -, -, rfl⟩ := List.getElem?_zipWith_eq_some.mp place
        exact exists_fullName_of_mem_modifierEdits isThere adds
  | other line => exact absurd adds (not_adds_of_mem_trimEdits isThere)
  | cosmetic f => exact absurd adds (not_adds_of_mem_trimEdits isThere)

end Layout

namespace Check

/-- Take in a line, whether or not it can be read. -/
def absorb (c : Check) (line : Text) : Check :=
  match Record.ofLine line with
  | .ok record => c.repair line record.layoutEdits
  | .error fault => c.keep line fault

/-- A line as a check leaves it. -/
def leave (line : Text) : Text :=
  match Layout.tidy line with
  | .ok fixed => fixed
  | .error _ => line

def isUnreadable (line : Text) : Bool :=
  !(Record.ofLine line).isOk

section Leaving

variable {line : Text}

theorem leave_of_ok {record : Record} (read : Record.ofLine line = .ok record) :
    leave line = Edit.applyAll line record.layoutEdits := by
  rw [leave, Layout.tidy_of_ofLine read]

theorem leave_of_error {fault : MarkerFault} (read : Record.ofLine line = .error fault) :
    leave line = line := by
  rw [leave, Layout.tidy, read]
  rfl

theorem isUnreadable_leave (line : Text) : isUnreadable (leave line) = isUnreadable line := by
  cases read : Record.ofLine line with
  | ok record =>
      have again := Record.ofLine_applyAll read
      rw [← leave_of_ok read] at again
      rw [isUnreadable, isUnreadable, again, read]
      rfl
  | error fault => rw [leave_of_error read]

/-- A character that no full name has comes into no line. -/
theorem not_mem_leave {c : CodePoint} (names : ∀ pair ∈ Layout.fullNames, c ∉ pair.2)
    (whole : c ∉ line) : c ∉ leave line := by
  cases read : Record.ofLine line with
  | ok record =>
      rw [leave_of_ok read]
      intro isThere
      rcases Edit.mem_applyAll isThere with before | ⟨e, among, adds⟩
      · exact whole before
      · obtain ⟨pair, isName, isThere⟩ := Layout.exists_fullName_of_mem_layoutEdits among adds
        exact names pair isName isThere
  | error fault =>
      rw [leave_of_error read]
      exact whole

end Leaving

section Running

variable (c : Check) (line : Text) (lines : List Text)

theorem step_eq_absorb : step false c line = .ok (c.absorb line) := by
  cases read : Record.ofLine line <;> simp [step, absorb, read]

theorem lines_absorb : (c.absorb line).lines.toList = c.lines.toList ++ [leave line] := by
  cases read : Record.ofLine line with
  | ok record => simp [absorb, read, repair, leave_of_ok read]
  | error fault => simp [absorb, read, keep, leave_of_error read]

theorem errors_absorb :
    (c.absorb line).errors = c.errors + if isUnreadable line then 1 else 0 := by
  cases read : Record.ofLine line <;>
    simp [absorb, read, repair, keep, isUnreadable, Except.isOk, Except.toBool]

theorem foldlM_step : lines.foldlM (step false) c = .ok (lines.foldl absorb c) := by
  have total : step false = fun c line => pure (c.absorb line) :=
    funext fun c => funext fun line => step_eq_absorb c line
  rw [total, List.foldlM_pure]
  rfl

theorem lines_foldl_absorb :
    (lines.foldl absorb c).lines.toList = c.lines.toList ++ lines.map leave := by
  induction lines generalizing c with
  | nil => simp
  | cons line rest ih => simp [ih, lines_absorb]

theorem errors_foldl_absorb :
    (lines.foldl absorb c).errors = c.errors + lines.countP isUnreadable := by
  induction lines generalizing c with
  | nil => rfl
  | cons line rest ih =>
      rw [List.foldl_cons, ih, errors_absorb, List.countP_cons]
      omega

end Running

/-- A check that does not fail at a bad line comes to an end, with each line as it leaves it and the
    count of those that cannot be read. -/
theorem exists_ofText (text : Text) : ∃ c, ofText false text = .ok c ∧
    c.text = Text.unlines ((text.splitOn (.char '\n')).map leave) ∧
    c.errors = (text.splitOn (.char '\n')).countP isUnreadable := by
  refine ⟨_, foldlM_step empty _, ?_, ?_⟩
  · rw [Check.text, lines_foldl_absorb]
    rfl
  · rw [errors_foldl_absorb, empty, Nat.zero_add]

theorem splitOn_unlines_leave (text : Text) :
    (Text.unlines ((text.splitOn (.char '\n')).map leave)).splitOn (.char '\n') =
      (text.splitOn (.char '\n')).map leave := by
  apply Text.splitOn_unlines
  · exact mt List.map_eq_nil_iff.mp (List.splitOn_ne_nil _ text)
  · rw [List.forall_mem_map]
    exact fun line among => not_mem_leave (by decide) (Text.not_mem_of_mem_splitOn among)

end Check

namespace Layout

/-- A line that can be read can be read in the canonical layout too, and as a record of its kind. So
    a check of a list that was checked before comes upon as many errors as the first one. -/
theorem tidy_keeps_kind :
    (∀ {line record}, Record.ofLine line = .ok record → ∃ fixed record',
      tidy line = .ok fixed ∧ Record.ofLine fixed = .ok record' ∧ record.KeepsKind record') ∧
    ∀ text, ∃ c c', Check.ofText false text = .ok c ∧ Check.ofText false c.text = .ok c' ∧
      c'.errors = c.errors := by
  refine ⟨fun {line record} read => ?_, fun text => ?_⟩
  · exact ⟨_, _, tidy_of_ofLine read, Record.ofLine_applyAll read, Record.keepsKind_tidied read⟩
  · obtain ⟨c, first, left, errors⟩ := Check.exists_ofText text
    obtain ⟨c', second, -, errors'⟩ := Check.exists_ofText c.text
    refine ⟨c, c', first, second, ?_⟩
    have same : Check.isUnreadable ∘ Check.leave = Check.isUnreadable :=
      funext Check.isUnreadable_leave
    rw [errors', left, Check.splitOn_unlines_leave, List.countP_map, same, errors]

/-- A cosmetic filter keeps its marker. Its list has one line that cannot be read, even when the CR
    is gone that ended the first line. -/
theorem tidy_keeps_kind_cosmetic :
    (∃ fixed f', tidy " a.b#@# c\r".toText = .ok fixed ∧
      Record.ofLine fixed = .ok (.cosmetic f') ∧ f'.isException = true ∧
      f'.hostname = "a.b".toText ∧ f'.selector = " c".toText) ∧
    ∃ c c', Check.ofText false " a.b#@# c\r\n#x \n ".toText = .ok c ∧
      Check.ofText false c.text = .ok c' ∧ c.errors = 1 ∧ c'.errors = 1 := by
  have read : Record.ofLine " a.b#@# c\r".toText =
      .ok (.cosmetic ⟨" a.b#@# c\r".toText, " a.b".toText, " c\r".toText, true⟩) := rfl
  obtain ⟨kinds, errors⟩ := tidy_keeps_kind
  constructor
  · obtain ⟨fixed, record', tidied, reread, keeps⟩ := kinds read
    cases keeps with
    | @cosmetic _ f' isException hostname selector =>
        exact ⟨fixed, f', tidied, reread, isException, hostname.trans (by decide),
          selector.trans (by decide)⟩
  · obtain ⟨c, c', first, second, same⟩ := errors " a.b#@# c\r\n#x \n ".toText
    have one : (Check.ofText false " a.b#@# c\r\n#x \n ".toText).map (·.errors) = .ok 1 := by
      decide +kernel
    rw [first] at one
    have errors : c.errors = 1 := Except.ok.inj one
    exact ⟨c, c', first, second, errors, same.trans errors⟩

end Layout

end Blocklist
