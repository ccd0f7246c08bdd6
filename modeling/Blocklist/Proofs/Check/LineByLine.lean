import Blocklist.Proofs.Check.Findings
import Blocklist.Proofs.Message.Description

/-! # A check goes line by line

What a check comes to is told by its lines one at a time, so the check of two texts with a break
between them is the two checks put together. A check that is to fail at a bad line differs only from
that line on: until then it has logged the same reports, and without such a line it is the same.
-/

namespace Blocklist

namespace Text

theorem unlines_append {a b : List Text} (some : a ≠ []) (some' : b ≠ []) :
    unlines (a ++ b) = unlines a ++ .char '\n' :: unlines b := by
  induction a with
  | nil => exact absurd rfl some
  | cons piece rest ih =>
      cases rest with
      | nil =>
          obtain ⟨first, later, rfl⟩ := List.exists_cons_of_ne_nil some'
          simp [unlines]
      | cons next rest =>
          have later := ih (List.cons_ne_nil next rest)
          simp only [unlines, List.cons_append, List.intercalate_cons_cons] at later ⊢
          rw [later]
          simp

end Text

namespace Check

/-- The warnings of a check for a line: each edit as it is reported, or that the line is no
    filter. -/
def reports (line : Text) : List Log.Entry :=
  match Record.ofLine line with
  | .ok record => record.layoutEdits.map fun edit => ⟨.warning, .check, edit.report line⟩
  | .error fault => [⟨.warning, .check, Log.invalidFilter line fault⟩]

/-- How a check that is to fail at a bad line ends, when one that goes on comes to `c`. -/
inductive FailsFast (lines : List Text) (c : Check) : Except CheckFailure Check → Prop where
  /-- No line is bad. -/
  | passes (clean : c.errors = 0) : FailsFast lines c (.ok c)
  /-- The check has failed at the first bad line, with the reports of the lines before. -/
  | fails {before after : List Text} {bad : Text} {failure : CheckFailure} (marred : c.errors ≠ 0)
      (whole : lines = before ++ bad :: after)
      (readable : ∀ line ∈ before, isUnreadable line = false)
      (fault : Record.ofLine bad = .error failure.fault)
      (logged : failure.log.toList = before.flatMap reports) : FailsFast lines c (.error failure)

section Logging

variable (c : Check) (line : Text) (lines : List Text)

theorem log_absorb : (c.absorb line).log.toList = c.log.toList ++ reports line := by
  cases read : Record.ofLine line with
  | ok record => simp [absorb, reports, read, repair, reportEntry]
  | error fault =>
      rw [absorb, reports, read]
      simp only [keep, Array.toList_push, Log.skipped_toProblem]

theorem log_foldl_absorb :
    (lines.foldl absorb c).log.toList = c.log.toList ++ lines.flatMap reports := by
  induction lines generalizing c with
  | nil => simp
  | cons line rest ih =>
      rw [List.foldl_cons, ih, log_absorb, List.flatMap_cons, List.append_assoc]

end Logging

section FailFast

variable {c : Check} {line : Text} {lines : List Text}

theorem isUnreadable_iff :
    isUnreadable line = true ↔ ∃ fault, Record.ofLine line = .error fault := by
  unfold isUnreadable
  cases read : Record.ofLine line <;> simp [Except.isOk, Except.toBool]

theorem step_true_of_readable (readable : isUnreadable line = false) :
    step true c line = .ok (c.absorb line) := by
  cases read : Record.ofLine line with
  | ok record => simp [step, absorb, read]
  | error fault => simp [isUnreadable_iff.mpr ⟨fault, read⟩] at readable

theorem foldlM_step_true (readable : ∀ line ∈ lines, isUnreadable line = false) :
    lines.foldlM (step true) c = .ok (lines.foldl absorb c) := by
  induction lines generalizing c with
  | nil => rfl
  | cons line rest ih =>
      rw [List.forall_mem_cons] at readable
      rw [List.foldlM_cons, step_true_of_readable readable.1]
      exact ih readable.2

theorem foldlM_step_true_of_error {before after : List Text} {bad : Text} {fault : MarkerFault}
    (readable : ∀ line ∈ before, isUnreadable line = false)
    (unread : Record.ofLine bad = .error fault) :
    (before ++ bad :: after).foldlM (step true) c =
      .error ⟨fault, (before.foldl absorb c).log⟩ := by
  rw [List.foldlM_append, foldlM_step_true readable]
  simp only [List.foldlM_cons, step, unread]
  rfl

theorem ofText_false (text : Text) :
    ofText false text = .ok ((text.splitOn (.char '\n')).foldl absorb empty) :=
  foldlM_step empty _

theorem errors_eq_zero_iff : (lines.foldl absorb empty).errors = 0 ↔
    ∀ line ∈ lines, isUnreadable line = false := by
  rw [errors_foldl_absorb]
  simp [empty]

/-- A check that is to fail at a bad line does so exactly if there is one. -/
theorem failsFast_foldlM (lines : List Text) :
    FailsFast lines (lines.foldl absorb empty) (lines.foldlM (step true) empty) := by
  cases first : lines.find? isUnreadable with
  | none =>
      have clean : ∀ line ∈ lines, isUnreadable line = false := by
        simpa using List.find?_eq_none.mp first
      rw [foldlM_step_true clean]
      exact .passes (errors_eq_zero_iff.mpr clean)
  | some bad =>
      obtain ⟨isBad, before, after, rfl, earlier⟩ := List.find?_eq_some_iff_append.mp first
      obtain ⟨fault, unread⟩ := isUnreadable_iff.mp isBad
      have readable : ∀ line ∈ before, isUnreadable line = false := by simpa using earlier
      rw [foldlM_step_true_of_error readable unread]
      refine .fails ?_ rfl readable unread ?_
      · intro clean
        have bad_readable := errors_eq_zero_iff.mp clean bad (by simp)
        rw [isBad] at bad_readable
        cases bad_readable
      · rw [log_foldl_absorb]
        rfl

end FailFast

section Joining

variable (number count : Nat) (lines lines' : List Text)

theorem findingsFrom_append : findingsFrom number (lines ++ lines') =
    findingsFrom number lines ++ findingsFrom (number + lines.length) lines' := by
  simp only [findingsFrom, List.zipIdx_append, List.flatMap_append]

theorem findingsFrom_add : findingsFrom (number + count) lines =
    (findingsFrom number lines).map (Prod.map (· + count) id) := by
  induction lines generalizing number with
  | nil => rfl
  | cons line rest ih =>
      have later := ih (number + 1)
      simp only [findingsFrom, List.zipIdx_cons, List.flatMap_cons, List.map_append,
        List.map_map] at later ⊢
      rw [← later, Nat.add_right_comm]
      rfl

end Joining

/-- What a check that goes on at bad lines comes to. -/
structure ComesTo (lines : List Text) (c : Check) : Prop where
  text : c.text = Text.unlines (lines.map leave)
  errors : c.errors = lines.countP isUnreadable
  findings : c.findings.toList = findingsFrom 0 lines
  log : c.log.toList = lines.flatMap reports

theorem comesTo_foldl_absorb (lines : List Text) : ComesTo lines (lines.foldl absorb empty) where
  text := text_foldl_absorb lines
  errors := by
    rw [errors_foldl_absorb, empty, Nat.zero_add]
  findings := findings_foldl_absorb empty lines
  log := log_foldl_absorb empty lines

/-- A check comes to the lines of its text, each as it leaves it, with their edits under their
    numbers and a count of the bad ones, and a check that is to fail does so at the first of those.
    Of two texts with a break between them it comes to the one and then to the other. -/
theorem ofText_line_by_line :
    (∀ text, ∃ c, ofText false text = .ok c ∧
      c.text.splitOn (.char '\n') = (text.splitOn (.char '\n')).map leave ∧
      c.errors = (text.splitOn (.char '\n')).countP isUnreadable ∧
      c.findings.toList = findingsFrom 0 (text.splitOn (.char '\n')) ∧
      c.log.toList = (text.splitOn (.char '\n')).flatMap reports ∧
      FailsFast (text.splitOn (.char '\n')) c (ofText true text)) ∧
    ∀ a b, ∃ ca cb c, ofText false a = .ok ca ∧ ofText false b = .ok cb ∧
      ofText false (a ++ .char '\n' :: b) = .ok c ∧
      c.text = ca.text ++ .char '\n' :: cb.text ∧
      c.errors = ca.errors + cb.errors ∧
      c.findings.toList = ca.findings.toList ++
        cb.findings.toList.map (Prod.map (· + (a.splitOn (.char '\n')).length) id) := by
  constructor
  · intro text
    have comes := comesTo_foldl_absorb (text.splitOn (.char '\n'))
    refine ⟨_, ofText_false text, ?_, comes.errors, comes.findings, comes.log, failsFast_foldlM _⟩
    rw [comes.text, splitOn_unlines_leave]
  · intro a b
    have comes := comesTo_foldl_absorb (a.splitOn (.char '\n'))
    have comes' := comesTo_foldl_absorb (b.splitOn (.char '\n'))
    have both := comesTo_foldl_absorb ((a ++ .char '\n' :: b).splitOn (.char '\n'))
    have lines : (a ++ .char '\n' :: b).splitOn (.char '\n') =
        a.splitOn (.char '\n') ++ b.splitOn (.char '\n') :=
      List.splitOn_append_cons_self a b
    refine ⟨_, _, _, ofText_false a, ofText_false b, ofText_false _, ?_, ?_, ?_⟩
    · rw [both.text, comes.text, comes'.text, lines, List.map_append]
      apply Text.unlines_append
      · exact mt List.map_eq_nil_iff.mp (List.splitOn_ne_nil _ a)
      · exact mt List.map_eq_nil_iff.mp (List.splitOn_ne_nil _ b)
    · rw [both.errors, comes.errors, comes'.errors, lines, List.countP_append]
    · rw [both.findings, comes.findings, comes'.findings, lines, findingsFrom_append,
        findingsFrom_add]

/-- A blank is taken out of the first line, and the second and the third one are bad. -/
theorem ofText_line_by_line_marred :
    let text := " a\na#b\n#x ".toText
    let blank : Log.Entry := ⟨.warning, .check,
      "Format error: line=\" a\" rule=\"no-whitespaces\"\n                    ^".toText⟩
    let bad : Log.Entry := ⟨.warning, .check,
      "Invalid filter: line=\"a#b\" e=\"FilterSyntaxError: Expected \"#\" or \"@\" for cosmetic ".toText ++
        "filter marker but saw \"b\" at position \"2\"!\"".toText⟩
    (∃ c, ofText false text = .ok c ∧ c.errors = 2 ∧ c.log.toList.take 2 = [blank, bad]) ∧
      ofText true text = .error ⟨⟨'b', 2⟩, #[blank]⟩ := by
  intro text blank bad
  obtain ⟨c, checked, -, errors, -, log, ending⟩ := ofText_line_by_line.1 text
  refine ⟨⟨c, checked, errors.trans (by decide +kernel), ?_⟩, ?_⟩
  · rw [log]
    decide +kernel
  · decide +kernel

end Check

end Blocklist
