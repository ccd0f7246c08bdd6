import Blocklist.Proofs.Edit.Rebase
import Blocklist.Text.Lines

/-! # Where the report of an edit points

The report of an edit of a line without breaks has two rows. The first one shows the line and names
the rule. In the second one carets stand below the characters that are to go, or below the place
where a text is missing, and then the text stands below the name of the rule.
-/

namespace Blocklist.Edit

/-- The column of a report from which on the line is shown. -/
def lineColumn : Nat :=
  "Format error: line=\"".toText.length

/-- The column of a report from which on the rule of an edit is named, behind the line. -/
def ruleColumn (line : Text) : Nat :=
  lineColumn + line.length + "\" ".toText.length

/-- The edit takes out the character at an index, or puts a text in there. -/
def IsAbout (index : Nat) : Edit → Prop
  | delete _ offset count => offset ≤ index ∧ index < offset + count
  | insert _ offset _ => offset = index

/-- The text that an edit puts in. -/
def text? : Edit → Option Text
  | delete .. => none
  | insert _ _ text => some text

/-- The second row of a report stands in line with the first one. -/
structure Aligned (line : Text) (e : Edit) (first second : Text) : Prop where
  shown : (first.drop lineColumn).take line.length = line
  named : first.drop (ruleColumn line) = "rule=\"".toText ++ e.rule ++ "\"".toText
  /-- Carets stand below what the edit is about, and nowhere else. -/
  marked : ∀ column : Nat, second[column]? = some (.char '^') ↔
    ∃ index : Nat, e.IsAbout index ∧ column = lineColumn + index
  offered : ∀ text ∈ e.text?,
    second.drop (ruleColumn line) = "use=\"".toText ++ text ++ "\"".toText

section Rows

variable {line : Text}

def firstRow (line rule : Text) : Text :=
  "Format error: line=\"".toText ++ (line ++
    ("\" ".toText ++ ("rule=\"".toText ++ rule ++ "\"".toText)))

/-- The row below a line of which a stretch is to go. -/
def deleteRow (offset count : Nat) : Text :=
  List.replicate (lineColumn + offset) (.char ' ') ++ List.replicate count (.char '^')

/-- The row below a line into which a text is to be put, with so many characters behind the
    place. -/
def insertRow (offset behind : Nat) (text : Text) : Text :=
  List.replicate (lineColumn + offset) (.char ' ') ++
    .char '^' :: (List.replicate (behind + 1) (.char ' ') ++
      ("use=\"".toText ++ text ++ "\"".toText))

theorem lineColumn_eq : lineColumn = 20 := rfl

theorem toNat_column (offset : Nat) : ((20 : Int) + offset).toNat = lineColumn + offset := by
  rw [lineColumn_eq]
  omega

theorem heading_eq (line rule : Text) : "Format error: line=\"".toText ++ line ++
    "\" rule=\"".toText ++ rule ++ "\"\n".toText = firstRow line rule ++ [.char '\n'] := by
  have parts (a b c d : Text) : a ++ line ++ (b ++ c) ++ rule ++ (d ++ [.char '\n']) =
      a ++ (line ++ (b ++ (c ++ rule ++ d))) ++ [.char '\n'] := by simp only [List.append_assoc]
  exact parts "Format error: line=\"".toText "\" ".toText "rule=\"".toText "\"".toText

theorem report_delete (line rule : Text) (offset count : Nat) :
    (delete rule offset count).report line =
      firstRow line rule ++ .char '\n' :: deleteRow offset count := by
  have rows : (delete rule offset count).report line =
      "Format error: line=\"".toText ++ line ++ "\" rule=\"".toText ++ rule ++ "\"\n".toText ++
        List.replicate ((20 : Int) + offset).toNat (.char ' ') ++
          List.replicate (count : Int).toNat (.char '^') := rfl
  rw [rows, heading_eq, toNat_column, Int.toNat_natCast, deleteRow]
  simp only [List.append_assoc, List.cons_append, List.nil_append]

theorem report_insert (rule text : Text) {offset behind : Nat}
    (length : line.length = offset + behind) :
    (insert rule offset text).report line =
      firstRow line rule ++ .char '\n' :: insertRow offset behind text := by
  have rows : (insert rule offset text).report line =
      "Format error: line=\"".toText ++ line ++ "\" rule=\"".toText ++ rule ++ "\"\n".toText ++
        List.replicate ((20 : Int) + offset).toNat (.char ' ') ++ .char '^' ::
          List.replicate ((line.length : Int) - offset + 1).toNat (.char ' ') ++
            "use=\"".toText ++ text ++ "\"".toText := rfl
  have gap : ((line.length : Int) - offset + 1).toNat = behind + 1 := by omega
  rw [rows, heading_eq, toNat_column, gap, insertRow]
  simp only [List.append_assoc, List.cons_append, List.nil_append]

theorem caret_behind_spaces_iff {width column : Nat} {s : Text} :
    (List.replicate width (.char ' ') ++ s)[column]? = some (.char '^') ↔
      ∃ index, s[index]? = some (.char '^') ∧ column = width + index := by
  rw [List.getElem?_append, List.length_replicate]
  split
  · next inSpaces =>
      rw [List.getElem?_replicate_of_lt inSpaces]
      refine iff_of_false (by decide) ?_
      rintro ⟨index, -, rfl⟩
      omega
  · next behind =>
      constructor
      · intro caret
        exact ⟨column - width, caret, by omega⟩
      · rintro ⟨index, caret, rfl⟩
        rwa [Nat.add_sub_cancel_left]

theorem caret_deleteRow_iff {offset count column : Nat} :
    (deleteRow offset count)[column]? = some (.char '^') ↔
      ∃ index, (offset ≤ index ∧ index < offset + count) ∧ column = lineColumn + index := by
  rw [deleteRow, caret_behind_spaces_iff]
  constructor
  · rintro ⟨index, caret, rfl⟩
    rw [List.getElem?_replicate] at caret
    split at caret
    · exact ⟨offset + index, by omega, by omega⟩
    · cases caret
  · rintro ⟨index, marked, rfl⟩
    exact ⟨index - offset, List.getElem?_replicate_of_lt (by omega), by omega⟩

theorem caret_insertRow_iff {offset behind column : Nat} {text : Text} (free : .char '^' ∉ text) :
    (insertRow offset behind text)[column]? = some (.char '^') ↔ column = lineColumn + offset := by
  have alone : .char '^' ∉ List.replicate (behind + 1) (.char ' ') ++
      ("use=\"".toText ++ text ++ "\"".toText) := by
    simp [free]
  rw [insertRow, caret_behind_spaces_iff]
  constructor
  · rintro ⟨index, caret, rfl⟩
    cases index with
    | zero => rfl
    | succ index =>
        rw [List.getElem?_cons_succ] at caret
        exact absurd (List.mem_of_getElem? caret) alone
  · rintro rfl
    exact ⟨0, rfl, rfl⟩

theorem ruleColumn_eq (line : Text) : ruleColumn line = lineColumn + line.length + 2 := rfl

theorem drop_insertRow {offset behind : Nat} (length : line.length = offset + behind)
    (text : Text) : (insertRow offset behind text).drop (ruleColumn line) =
      "use=\"".toText ++ text ++ "\"".toText := by
  let front : Text := List.replicate (lineColumn + offset) (.char ' ') ++
    .char '^' :: List.replicate (behind + 1) (.char ' ')
  have whole : insertRow offset behind text =
      front ++ ("use=\"".toText ++ text ++ "\"".toText) := by
    simp only [insertRow, front, List.append_assoc, List.cons_append]
  have long : front.length = ruleColumn line := by
    simp only [front, List.length_append, List.length_cons, List.length_replicate, ruleColumn_eq,
      length]
    omega
  rw [whole]
  exact List.drop_left' long

theorem shown_firstRow (line rule : Text) :
    ((firstRow line rule).drop lineColumn).take line.length = line := by
  have parts (a b : Text) : ((a ++ (line ++ b)).drop a.length).take line.length = line := by
    rw [List.drop_left, List.take_left]
  exact parts "Format error: line=\"".toText _

theorem named_firstRow (line rule : Text) : (firstRow line rule).drop (ruleColumn line) =
    "rule=\"".toText ++ rule ++ "\"".toText := by
  have parts (a b c : Text) :
      (a ++ (line ++ (b ++ c))).drop (a.length + line.length + b.length) = c := by
    rw [← List.append_assoc, ← List.append_assoc]
    exact List.drop_left' (by simp only [List.length_append])
  exact parts "Format error: line=\"".toText "\" ".toText _

theorem not_mem_firstRow {rule : Text} (unbroken : .char '\n' ∉ line) (rule' : .char '\n' ∉ rule) :
    .char '\n' ∉ firstRow line rule := by
  have parts {a b c d : Text} (free : ∀ label ∈ [a, b, c, d], .char '\n' ∉ label) :
      .char '\n' ∉ a ++ (line ++ (b ++ (c ++ rule ++ d))) := by
    simp only [List.forall_mem_cons] at free
    simp only [List.mem_append, not_or]
    exact ⟨free.1, unbroken, free.2.1, ⟨free.2.2.1, rule'⟩, free.2.2.2.1⟩
  exact parts (a := "Format error: line=\"".toText) (b := "\" ".toText) (c := "rule=\"".toText)
    (d := "\"".toText) (by decide +kernel)

theorem splitOn_rows {first second : Text} (whole : .char '\n' ∉ first)
    (whole' : .char '\n' ∉ second) :
    (first ++ .char '\n' :: second).splitOn (.char '\n') = [first, second] := by
  have rows : (Text.unlines [first, second]).splitOn (.char '\n') = [first, second] :=
    Text.splitOn_unlines (by simp) (by simp [whole, whole'])
  rwa [Text.unlines, List.intercalate_cons_cons, List.intercalate_singleton, List.append_assoc]
    at rows

theorem not_mem_deleteRow (offset count : Nat) : .char '\n' ∉ deleteRow offset count := by
  simp [deleteRow]

theorem not_mem_insertRow (offset behind : Nat) {text : Text} (whole : .char '\n' ∉ text) :
    .char '\n' ∉ insertRow offset behind text := by
  simp [insertRow, whole]

theorem report_delete_aligned {rule : Text} (offset count : Nat) (unbroken : .char '\n' ∉ line)
    (named : .char '\n' ∉ rule) : ∃ first second,
      ((delete rule offset count).report line).splitOn (.char '\n') = [first, second] ∧
      (delete rule offset count).Aligned line first second := by
  refine ⟨firstRow line rule, deleteRow offset count, ?_, shown_firstRow _ _, named_firstRow _ _,
    fun column => ?_, fun _ offers => nomatch offers⟩
  · rw [report_delete]
    exact splitOn_rows (not_mem_firstRow unbroken named) (not_mem_deleteRow offset count)
  · rw [caret_deleteRow_iff]
    refine exists_congr fun index => and_congr_left fun _ => ?_
    simp only [IsAbout]
    omega

theorem report_insert_aligned {rule text : Text} {offset : Nat} (inside : offset ≤ line.length)
    (unbroken : .char '\n' ∉ line) (named : .char '\n' ∉ rule)
    (plain : .char '\n' ∉ text ∧ .char '^' ∉ text) :
    ∃ first second, ((insert rule offset text).report line).splitOn (.char '\n') = [first, second] ∧
      (insert rule offset text).Aligned line first second := by
  obtain ⟨behind, length⟩ := Nat.exists_eq_add_of_le inside
  refine ⟨firstRow line rule, insertRow offset behind text, ?_, shown_firstRow _ _,
    named_firstRow _ _, fun column => ?_, ?_⟩
  · rw [report_insert rule text length]
    exact splitOn_rows (not_mem_firstRow unbroken named) (not_mem_insertRow offset behind plain.1)
  · rw [caret_insertRow_iff plain.2]
    simp only [IsAbout, Int.natCast_inj, exists_eq_left']
  · rintro _ ⟨⟩
    exact drop_insertRow length text

/-- The rows of a report are aligned, as long as nothing breaks them and no text brings in a
    caret. -/
theorem report_aligned {e : Edit} (inRange : e.InRange line.length) (unbroken : .char '\n' ∉ line)
    (named : .char '\n' ∉ e.rule) (plain : ∀ text ∈ e.text?, .char '\n' ∉ text ∧ .char '^' ∉ text) :
    ∃ first second, (e.report line).splitOn (.char '\n') = [first, second] ∧
      e.Aligned line first second := by
  cases e with
  | delete rule offset count =>
      simp only [InRange] at inRange
      obtain ⟨offset, rfl⟩ := Int.eq_ofNat_of_zero_le inRange.1
      obtain ⟨count, rfl⟩ := Int.eq_ofNat_of_zero_le inRange.2.1
      exact report_delete_aligned offset count unbroken named
  | insert rule offset text =>
      simp only [InRange] at inRange
      obtain ⟨offset, rfl⟩ := Int.eq_ofNat_of_zero_le inRange.1
      exact report_insert_aligned (Int.ofNat_le.mp inRange.2) unbroken named (plain text rfl)

end Rows

end Blocklist.Edit
