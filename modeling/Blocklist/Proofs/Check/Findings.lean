import Blocklist.Proofs.Check.Rechecking
import Blocklist.Proofs.Layout.Change

/-! # What a check finds

A check reports the edits that the layouts of its lines ask for, each with the number of its line.
Since the edits of a line never make up for each other, a check that finds anything changes the
list, and one that finds nothing gives it back.
-/

namespace Blocklist

namespace Check

/-- The edits that the layout of a line asks for. A line that cannot be read is not laid out. -/
def editsOf (line : Text) : List Edit :=
  match Record.ofLine line with
  | .ok record => record.layoutEdits
  | .error _ => []

/-- The edits of neighbouring lines, the first of which has the given number. -/
def findingsFrom (number : Nat) (lines : List Text) : List (Nat × Edit) :=
  (lines.zipIdx number).flatMap fun numbered => (editsOf numbered.1).map (numbered.2, ·)

section Findings

variable {line : Text} {lines : List Text}

theorem leave_eq_self_iff : leave line = line ↔ editsOf line = [] := by
  cases read : Record.ofLine line with
  | ok record =>
      rw [leave_of_ok read, Layout.applyAll_layoutEdits_eq_self_iff read, editsOf, read]
  | error fault => simp [leave_of_error read, editsOf, read]

theorem findings_absorb (c : Check) (line : Text) : (c.absorb line).findings.toList =
    c.findings.toList ++ (editsOf line).map (c.lines.size, ·) := by
  cases read : Record.ofLine line <;> simp [absorb, editsOf, read, repair, keep]

theorem size_lines_absorb (c : Check) (line : Text) :
    (c.absorb line).lines.size = c.lines.size + 1 := by
  rw [← Array.length_toList, lines_absorb, List.length_append, Array.length_toList]
  rfl

/-- After any lines a check has come to the edits of those lines, whose numbers go on where the
    ones before them ended. -/
theorem findings_foldl_absorb (c : Check) (lines : List Text) :
    (lines.foldl absorb c).findings.toList =
      c.findings.toList ++ findingsFrom c.lines.size lines := by
  induction lines generalizing c with
  | nil => simp [findingsFrom]
  | cons line rest ih =>
      rw [List.foldl_cons, ih, findings_absorb, size_lines_absorb, findingsFrom, findingsFrom,
        List.zipIdx_cons, List.flatMap_cons, List.append_assoc]

theorem findingsFrom_eq_nil_iff {number : Nat} :
    findingsFrom number lines = [] ↔ ∀ line ∈ lines, editsOf line = [] := by
  induction lines generalizing number with
  | nil => simp [findingsFrom]
  | cons line rest ih =>
      rw [findingsFrom, List.zipIdx_cons, List.flatMap_cons, List.append_eq_nil_iff,
        List.map_eq_nil_iff, List.forall_mem_cons, ← findingsFrom, ih]

theorem unlines_map_leave_eq_self_iff {text : Text} :
    Text.unlines ((text.splitOn (.char '\n')).map leave) = text ↔
      ∀ line ∈ text.splitOn (.char '\n'), editsOf line = [] := by
  have unchanged : (text.splitOn (.char '\n')).map leave = text.splitOn (.char '\n') ↔
      ∀ line ∈ text.splitOn (.char '\n'), editsOf line = [] := by
    nth_rewrite 2 [← List.map_id (text.splitOn (.char '\n'))]
    rw [List.map_inj_left]
    exact forall₂_congr fun line _ => leave_eq_self_iff
  rw [← unchanged]
  constructor
  · intro same
    -- Only joined lines are known to be the same, so they are taken apart again.
    have split := splitOn_unlines_leave text
    rw [same] at split
    exact split.symm
  · intro same
    rw [same, Text.unlines_splitOn]

theorem text_foldl_absorb (lines : List Text) :
    (lines.foldl absorb empty).text = Text.unlines (lines.map leave) := by
  rw [Check.text, lines_foldl_absorb]
  rfl

end Findings

end Check

namespace Layout

/-- What is reported is what changes: a line that can be read is in the canonical layout exactly if
    it has no edits, and a list exactly if a check of it finds none. -/
theorem tidy_eq_self_iff :
    (∀ {line record}, Record.ofLine line = .ok record →
      (tidy line = .ok line ↔ record.layoutEdits = [])) ∧
    ∀ text, ∃ c, Check.ofText false text = .ok c ∧ (c.text = text ↔ c.findings = #[]) := by
  refine ⟨fun {line record} read => ?_, fun text => ?_⟩
  · rw [tidy_of_ofLine read, Except.ok.injEq]
    exact applyAll_layoutEdits_eq_self_iff read
  · refine ⟨_, Check.foldlM_step Check.empty (text.splitOn (.char '\n')), ?_⟩
    rw [Check.text_foldl_absorb, Check.unlines_map_leave_eq_self_iff, ← Array.toList_eq_nil_iff,
      Check.findings_foldl_absorb]
    exact Check.findingsFrom_eq_nil_iff.symm

/-- Nine blanks go and nine characters come, but the line is not the same. -/
theorem tidy_ne_self_of_equal_length :
    let line := "||a.b^$         3p".toText
    (∃ fixed, tidy line = .ok fixed ∧ fixed.length = line.length ∧ fixed ≠ line) ∧
    ∃ c, Check.ofText false line = .ok c ∧ c.findings.size = 3 ∧ c.text ≠ line := by
  intro line
  have read : Record.ofLine line = .ok (.network (NetworkLine.ofLine line).toFilter) := rfl
  obtain ⟨lines, texts⟩ := tidy_eq_self_iff
  constructor
  · have edits : (Record.network (NetworkLine.ofLine line).toFilter).layoutEdits ≠ [] := by
      decide +kernel
    have changes := mt (lines read).mp edits
    rw [tidy_of_ofLine read, Except.ok.injEq] at changes
    refine ⟨_, tidy_of_ofLine read, ?_, changes⟩
    decide +kernel
  · obtain ⟨c, checked, same⟩ := texts line
    have three : (Check.ofText false line).map (·.findings.size) = .ok 3 := by decide +kernel
    rw [checked] at three
    have size : c.findings.size = 3 := Except.ok.inj three
    refine ⟨c, checked, size, mt same.mp fun none => ?_⟩
    rw [none] at size
    cases size

end Layout

end Blocklist
