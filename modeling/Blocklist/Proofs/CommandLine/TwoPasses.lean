import Blocklist.Proofs.Check.LineByLine
import Blocklist.Proofs.CommandLine.Jobs
import Blocklist.Proofs.Text.Breaks
import Blocklist.Proofs.Text.Utf8
import Blocklist.Proofs.Wire.ReadBack

/-! # One pass and two passes

A list can be checked, fixed and compiled in one run. It can also be checked in one run, and what
that run has written can be saved and compiled in another. Both come to the same, but for the empty
line behind the last break of the saved file.
-/

namespace Blocklist

namespace Check

/-- A check is to fail at a bad line, and there is one. -/
def Aborts (failFast : Bool) (text : Text) : Prop :=
  failFast = true ∧ ∃ line ∈ text.splitOn (.char '\n'), isUnreadable line = true

/-- A list as a check leaves it. -/
def leaveAll (text : Text) : Text :=
  Text.unlines ((text.splitOn (.char '\n')).map leave)

section Aborts

variable {failFast : Bool} {text : Text}

theorem ofText_of_aborts (aborts : Aborts failFast text) :
    ∃ failure, ofText failFast text = .error failure := by
  obtain ⟨rfl, line, isThere, bad⟩ := aborts
  have ending : FailsFast _ _ (ofText true text) := failsFast_foldlM (text.splitOn (.char '\n'))
  cases run : ofText true text with
  | error failure => exact ⟨failure, rfl⟩
  | ok c =>
      rw [run] at ending
      cases ending with
      | passes clean =>
          have readable := errors_eq_zero_iff.mp clean line isThere
          rw [bad] at readable
          cases readable

theorem ofText_of_not_aborts (passes : ¬Aborts failFast text) :
    ∃ c, ofText failFast text = .ok c ∧ c.text = leaveAll text := by
  refine ⟨(text.splitOn (.char '\n')).foldl absorb empty, ?_, text_foldl_absorb _⟩
  cases failFast with
  | false => exact ofText_false text
  | true =>
      apply foldlM_step_true
      intro line isThere
      rw [← Bool.not_eq_true]
      exact fun bad => passes ⟨rfl, line, isThere, bad⟩

/-- A check brings nothing into a list but the full names of modifiers. -/
theorem not_mem_leaveAll {c : CodePoint} (other : c ≠ '\n')
    (names : ∀ pair ∈ Layout.fullNames, c ∉ pair.2) (foreign : c ∉ text) : c ∉ leaveAll text := by
  rw [leaveAll, Text.mem_unlines_iff other]
  rintro ⟨piece, among, isThere⟩
  obtain ⟨line, isLine, rfl⟩ := List.mem_map.mp among
  refine not_mem_leave names (fun before => foreign ?_) isThere
  rw [← Text.unlines_splitOn text, Text.mem_unlines_iff other]
  exact ⟨line, isLine, before⟩

theorem cr_not_mem_leaveAll (foreign : .char '\r' ∉ text) : .char '\r' ∉ leaveAll text :=
  not_mem_leaveAll (by decide) (by decide) foreign

theorem plain_leaveAll (plain : ∀ c ∈ text, c.isSurrogate = false) :
    ∀ c ∈ leaveAll text, c.isSurrogate = false := by
  intro c isThere
  cases c with
  | char c => rfl
  | surrogate offset =>
      refine absurd isThere (not_mem_leaveAll (by simp) ?_ fun before => ?_)
      · simp [Layout.fullNames, String.toText, Text.ofChars]
      · cases plain _ before

end Aborts

end Check

section LastBreak

variable {text : Text}

theorem Hosts.render_concat_lf (strict : Bool) (plain : .char '\r' ∉ text) :
    (Hosts.ofText strict (text ++ [.char '\n'])).render = (Hosts.ofText strict text).render := by
  rw [ofText, Text.lines_concat_lf plain, feedAll, List.foldl_concat, ← feedAll]
  rfl

theorem Wire.records_concat_lf (plain : .char '\r' ∉ text) :
    Wire.records (text ++ [.char '\n']) = Wire.records text ++ [.other []] := by
  rw [records, Text.lines_concat_lf plain, List.filterMap_append]
  rfl

/-- A list without a surrogate is read back from the line that is written. -/
theorem Wire.exists_read?_compile_line (whole : .char '\r' ∉ text)
    (plain : ∀ c ∈ text, c.isSurrogate = false) :
    ∃ wires, (records text).mapM Record.toWire? = .ok wires ∧
      Json.read? (Wire.compile text ++ [.char '\n']) = some (.list wires) := by
  have encodable : ∀ line ∈ text.lines, Encodable line := by
    intro line isThere _ _ c inside
    cases c with
    | char c => rfl
    | surrogate offset =>
        refine plain _ ?_
        rw [← Text.unlines_splitOn text, Text.mem_unlines_iff (by simp),
          ← Text.lines_of_no_cr whole]
        exact ⟨line, isThere, inside⟩
  obtain ⟨wires, written⟩ := exists_mapM_iff.mpr (forall_mem_records_iff.mpr encodable)
  have reads : Json.read? (Wire.compile text ++ [.char '\n']) = some (.list (items text)) :=
    Json.read?_write_append _ (by decide)
  rw [items_eq, filterMap_of_mapM written] at reads
  exact ⟨wires, written, reads⟩

end LastBreak

namespace CommandLine

/-- A run that was aborted ends with 1 and has written nothing. -/
def Outcome.IsAborted (outcome : Outcome) : Prop :=
  outcome.ending = .exit 1 ∧ outcome.stdout = []

section Runs

variable {o : Options} {text source checked : Text} {log : List Log.Entry}

theorem isAborted_transform_iff (checks : o.check = true) :
    (transform o text).IsAborted ↔ Check.Aborts o.failFast text := by
  rw [transform, if_pos checks]
  constructor
  · intro aborted
    by_contra passes
    obtain ⟨c, ends, -⟩ := Check.ofText_of_not_aborts passes
    rw [ends] at aborted
    have ending := aborted.1
    rw [ending_emit] at ending
    cases ending
  · intro aborts
    obtain ⟨failure, fails⟩ := Check.ofText_of_aborts aborts
    rw [fails]
    exact ⟨rfl, rfl⟩

theorem transform_of_not_aborts (checks : o.check = true)
    (passes : ¬Check.Aborts o.failFast text) : ∃ log, transform o text =
      emit o (if o.fix then Check.leaveAll text else text) (Check.leaveAll text) log := by
  obtain ⟨c, ends, left⟩ := Check.ofText_of_not_aborts passes
  refine ⟨c.log.toList, ?_⟩
  rw [transform, if_pos checks, ends, ← left]

theorem run_of_plan {e : Environment} {files : Files} {arguments : List Text} {path list : Text}
    {bytes : List UInt8} (asked : plan e arguments = .ok ⟨path, o⟩)
    (isThere : files path = .ok bytes) (decoded : Text.Utf8.decode bytes = .ok list) :
    run e files arguments = transform o list.unifyBreaks := by
  rw [run, asked]
  dsimp only
  rw [isThere, Job.run, decoded]

end Runs

section Passes

variable (files : Files) (format : OutputFormat) (strict failFast : Bool) (path : Text)

/-- Check a list, fix it, and compile it. -/
def onePass : Outcome :=
  run Environment.empty files (fixing format strict failFast ++ [path])

/-- Check a list, and write it out as it is to be. -/
def firstPass : Outcome :=
  run Environment.empty files (checking failFast ++ [path])

/-- Compile a list as it is. -/
def secondPass : Outcome :=
  run Environment.empty files (compiling format strict ++ [path])

variable {files path}

section Listed

variable {list : Text} {bytes : List UInt8} (operand : IsOperand path)
  (isThere : files path = .ok bytes) (decoded : Text.Utf8.decode bytes = .ok list)
include operand isThere decoded

theorem isAborted_onePass_iff : (onePass files format strict failFast path).IsAborted ↔
    Check.Aborts failFast list.unifyBreaks := by
  rw [onePass, run_of_plan (plan_fixing format strict failFast operand) isThere decoded]
  exact isAborted_transform_iff rfl

theorem isAborted_firstPass_iff :
    (firstPass files failFast path).IsAborted ↔ Check.Aborts failFast list.unifyBreaks := by
  rw [firstPass, run_of_plan (plan_checking failFast operand) isThere decoded]
  exact isAborted_transform_iff rfl

variable {failFast} (passes : ¬Check.Aborts failFast list.unifyBreaks)
include passes

theorem exists_onePass_eq_emit : ∃ log, onePass files format strict failFast path =
    emit ⟨format, strict, false, true, true, failFast⟩ (Check.leaveAll list.unifyBreaks)
      (Check.leaveAll list.unifyBreaks) log := by
  rw [onePass, run_of_plan (plan_fixing format strict failFast operand) isThere decoded]
  exact transform_of_not_aborts rfl passes

theorem firstPass_of_not_aborts : (firstPass files failFast path).ending = .exit 0 ∧
    (firstPass files failFast path).stdout = Check.leaveAll list.unifyBreaks ++ [.char '\n'] := by
  rw [firstPass, run_of_plan (plan_checking failFast operand) isThere decoded]
  obtain ⟨log, comes⟩ := transform_of_not_aborts (o := ⟨.list, false, false, true, false, failFast⟩)
    rfl passes
  rw [comes]
  exact ⟨rfl, rfl⟩

end Listed

theorem secondPass_eq_emit {written : Text} {saved : List UInt8} (plain : .char '\r' ∉ written)
    (encoded : Text.Utf8.encode? written = some saved) (operand : IsOperand path)
    (isThere : files path = .ok saved) : secondPass files format strict path =
      emit ⟨format, strict, false, false, false, false⟩ written written [] := by
  rw [secondPass, run_of_plan (plan_compiling format strict operand) isThere
    (Text.Utf8.decode_encode? encoded), Text.unifyBreaks_of_no_cr plain]
  rfl

/-- One pass comes to the same as two. Runs that are to fail at a bad line are aborted on the same
    lists. On all the others both end well, with the same hosts file, and with the same records but
    for one that the saved list ends with. -/
theorem onePass_eq_twoPasses {list : Text} {bytes : List UInt8} (operand : IsOperand path)
    (isThere : files path = .ok bytes) (decoded : Text.Utf8.decode bytes = .ok list) :
    ((firstPass files failFast path).IsAborted ↔ Check.Aborts failFast list.unifyBreaks) ∧
    (∀ format, (onePass files format strict failFast path).IsAborted ↔
      (firstPass files failFast path).IsAborted) ∧
    (¬(firstPass files failFast path).IsAborted →
      (firstPass files failFast path).ending = .exit 0 ∧
      ∃ saved, Text.Utf8.encode? (firstPass files failFast path).stdout = some saved ∧
        ∀ (files' : Files) (path' : Text), IsOperand path' → files' path' = .ok saved →
          (∀ format, (onePass files format strict failFast path).ending = .exit 0 ∧
            (secondPass files' format strict path').ending = .exit 0) ∧
          (onePass files .hosts strict failFast path).stdout =
            (secondPass files' .hosts strict path').stdout ∧
          ∃ (records : List Record) (wires : List Json) (last : Json),
            records.mapM Record.toWire? = .ok wires ∧ (Record.other []).toWire? = .ok last ∧
            Json.read? (onePass files .json strict failFast path).stdout = some (.list wires) ∧
            Json.read? (secondPass files' .json strict path').stdout =
              some (.list (wires ++ [last]))) := by
  have first := isAborted_firstPass_iff failFast operand isThere decoded
  refine ⟨first, fun format => ?_, ?_⟩
  · exact (isAborted_onePass_iff format strict failFast operand isThere decoded).trans first.symm
  · intro runs
    have passes : ¬Check.Aborts failFast list.unifyBreaks := mt first.mpr runs
    obtain ⟨ending, written⟩ := firstPass_of_not_aborts operand isThere decoded passes
    have whole := Check.cr_not_mem_leaveAll (Text.not_mem_unifyBreaks list)
    have plain := Check.plain_leaveAll (Text.plain_unifyBreaks (Text.Utf8.plain_of_decode decoded))
    have whole' := Text.cr_not_mem_concat_lf whole
    have plain' : ∀ c ∈ Check.leaveAll list.unifyBreaks ++ [.char '\n'], c.isSurrogate = false :=
      List.forall_mem_append.mpr ⟨plain, List.forall_mem_singleton.mpr rfl⟩
    obtain ⟨saved, encoded⟩ := Text.Utf8.exists_encode? plain'
    refine ⟨ending, saved, written ▸ encoded, fun files' path' operand' isThere' => ?_⟩
    have one format := exists_onePass_eq_emit format strict operand isThere decoded passes
    have two format := secondPass_eq_emit format strict whole' encoded operand' isThere'
    obtain ⟨wires, areWires, reads⟩ := Wire.exists_read?_compile_line whole plain
    obtain ⟨wires', areWires', reads'⟩ := Wire.exists_read?_compile_line whole' plain'
    refine ⟨fun format => ?_, ?_, _, wires, _, areWires, rfl, ?_, ?_⟩
    · obtain ⟨log, one⟩ := one format
      rw [one, two, ending_emit, ending_emit]
      exact ⟨rfl, rfl⟩
    · obtain ⟨log, one⟩ := one .hosts
      rw [one, two]
      change Hosts.render _ ++ _ = Hosts.render _ ++ _
      exact congrArg (· ++ [.char '\n']) (Hosts.render_concat_lf strict whole).symm
    · obtain ⟨log, one⟩ := one .json
      rw [one]
      exact reads
    · rw [Wire.records_concat_lf whole, mapM_append_singleton areWires rfl] at areWires'
      cases areWires'
      rw [two]
      exact reads'

/-- A byte order mark, a CR and blanks come before a line that cannot be read, and a path reads like
    a negative number. -/
theorem onePass_eq_twoPasses_marred :
    let files := (FileTree.ofPaths
      [("-1".toText, .file "\ufeff||a.b^ \r\na#b\n||c.d^$ 3p".toUTF8.toList)]).read
    let fixed := "\ufeff||a.b^\na#b\n||c.d^$third-party\n"
    let files' := (FileTree.ofPaths [("k".toText, .file fixed.toUTF8.toList)]).read
    (firstPass files false "-1".toText).ending = .exit 0 ∧
    (firstPass files false "-1".toText).stdout = fixed.toText ∧
    (onePass files .hosts true false "-1".toText).stdout = "127.0.0.1 c.d\n".toText ∧
    (secondPass files' .hosts true "k".toText).stdout = "127.0.0.1 c.d\n".toText ∧
    (firstPass files true "-1".toText).IsAborted ∧
    (onePass files .hosts true true "-1".toText).IsAborted := by
  intro files fixed files'
  let list : Text := "\ufeff||a.b^ \r\na#b\n||c.d^$ 3p".toText
  let bytes := "\ufeff||a.b^ \r\na#b\n||c.d^$ 3p".toUTF8.toList
  have isThere : files "-1".toText = .ok bytes := rfl
  have decoded : Text.Utf8.decode bytes = .ok list :=
    Text.Utf8.decode_encode? (by decide +kernel)
  have operand : IsOperand "-1".toText := ⟨by decide, by decide, by decide⟩
  have operand' : IsOperand "k".toText := ⟨by decide, by decide, by decide⟩
  obtain ⟨aborts, -, ends⟩ := onePass_eq_twoPasses true false operand isThere decoded
  obtain ⟨aborts', same, -⟩ := onePass_eq_twoPasses true true operand isThere decoded
  have runs : ¬(firstPass files false "-1".toText).IsAborted :=
    mt aborts.mp fun fails => absurd fails.1 (by decide)
  obtain ⟨ending, saved, encoded, ends⟩ := ends runs
  have written : (firstPass files false "-1".toText).stdout = fixed.toText := by decide +kernel
  have isSaved : some saved = some fixed.toUTF8.toList := by
    rw [← encoded, written]
    decide +kernel
  cases isSaved
  obtain ⟨-, hosts, -⟩ := ends files' "k".toText operand' rfl
  have bad : Check.Aborts true list.unifyBreaks := ⟨rfl, "a#b".toText, by decide +kernel, by decide⟩
  have stops := aborts'.mpr bad
  have prints : (onePass files .hosts true false "-1".toText).stdout =
      "127.0.0.1 c.d\n".toText := by decide +kernel
  exact ⟨ending, written, prints, hosts.symm.trans prints, stops, (same .hosts).mpr stops⟩

end Passes

end CommandLine

end Blocklist
