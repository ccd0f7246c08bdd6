import Blocklist.Proofs.Check.LineByLine
import Blocklist.Proofs.Hosts.Standing
import Blocklist.Proofs.Text.Parting
import Blocklist.Proofs.Wire.ReadBack

/-! # Line numbers

The compilations take any line break for one, but a check knows only LFs. A list as it is read from a
file has no other breaks left, and then all passes come upon the same lines under the same numbers.
To the compilations it makes no difference whether the breaks have been unified before.
-/

namespace Blocklist

namespace Wire

/-- The records of a list with the numbers of their lines. -/
def numberedRecords (text : Text) : List (Nat × Record) :=
  text.lines.zipIdx.filterMap fun numbered =>
    (Record.ofLine numbered.1).toOption.map (numbered.2, ·)

variable {text : Text} {number : Nat} {record : Record}

/-- What is written of a list is written of its records with their numbers. -/
theorem items_eq_numberedRecords (text : Text) :
    items text = (numberedRecords text).filterMap fun numbered =>
      numbered.2.toWire?.toOption := by
  have lines : text.lines = text.lines.zipIdx.map Prod.fst := (List.zipIdx_map_fst 0 _).symm
  rw [items_eq, records, numberedRecords, List.filterMap_filterMap, List.filterMap_filterMap]
  nth_rewrite 1 [lines]
  rw [List.filterMap_map]
  congr 1
  funext numbered
  rw [Option.bind_map]
  rfl

theorem mem_numberedRecords_iff : (number, record) ∈ numberedRecords text ↔
    ∃ line, text.lines[number]? = some line ∧ Record.ofLine line = .ok record := by
  simp only [numberedRecords, List.mem_filterMap, Prod.exists, List.mk_mem_zipIdx_iff_getElem?,
    Option.map_eq_some_iff, toOption_ofLine_eq_some_iff, Prod.mk.injEq]
  constructor
  · rintro ⟨line, _, here, _, read, rfl, rfl⟩
    exact ⟨line, here, read⟩
  · rintro ⟨line, here, read⟩
    exact ⟨line, number, here, record, read, rfl, rfl⟩

end Wire

namespace Check

theorem mem_editsOf_iff {line : Text} {edit : Edit} :
    edit ∈ editsOf line ↔ ∃ record, Record.ofLine line = .ok record ∧ edit ∈ record.layoutEdits := by
  rw [editsOf]
  cases Record.ofLine line <;> simp

theorem mem_findingsFrom_iff {text : Text} {number : Nat} {edit : Edit} :
    (number, edit) ∈ findingsFrom 0 text.lines ↔
      ∃ record, (number, record) ∈ Wire.numberedRecords text ∧ edit ∈ record.layoutEdits := by
  simp only [findingsFrom, List.mem_flatMap, Prod.exists, List.mk_mem_zipIdx_iff_getElem?,
    List.mem_map, mem_editsOf_iff, Wire.mem_numberedRecords_iff, Prod.mk.injEq]
  constructor
  · rintro ⟨line, _, here, _, ⟨record, read, isThere⟩, rfl, rfl⟩
    exact ⟨record, ⟨line, here, read⟩, isThere⟩
  · rintro ⟨record, ⟨line, here, read⟩, isThere⟩
    exact ⟨line, number, here, edit, ⟨record, read, isThere⟩, rfl, rfl⟩

/-- A check numbers the lines of a list from zero on, as the compilations do. -/
structure NumbersAlike (text : Text) (c : Check) : Prop where
  /-- A compilation to hosts has counted as many lines as the number says when it comes to a line,
      and the check leaves that line under the number. -/
  line : ∀ number line, text.lines[number]? = some line →
    (∀ strict, (Hosts.empty.feedAll strict (text.lines.take number)).lines = number) ∧
      c.lines[number]? = some (leave line)
  /-- No pass comes upon more lines than another. -/
  count : ∀ strict, (Hosts.ofText strict text).lines = c.lines.size
  /-- What the check finds are the edits of the records of the list, under their numbers. -/
  finding : ∀ number edit, (number, edit) ∈ c.findings.toList ↔
    ∃ record, (number, record) ∈ Wire.numberedRecords text ∧ edit ∈ record.layoutEdits

theorem numbersAlike_foldl_absorb (text : Text) :
    NumbersAlike text (text.lines.foldl absorb empty) where
  line number line here := by
    have inside := (List.getElem?_eq_some_iff.mp here).1
    refine ⟨fun strict => ?_, ?_⟩
    · rw [(Hosts.accounts_feedAll strict _).lineCount, List.length_take]
      omega
    · rw [← Array.getElem?_toList, lines_foldl_absorb]
      simp [empty, here]
  count strict := by
    rw [← Array.length_toList, lines_foldl_absorb, Hosts.ofText,
      (Hosts.accounts_feedAll strict _).lineCount]
    simp [empty]
  finding number edit := by
    rw [findings_foldl_absorb]
    exact mem_findingsFrom_iff

end Check

/-- Unifying the breaks of a list is to write an LF for each CR LF and then one for each CR that is
    left. It changes no line, and leaves the LFs alone to tell the lines by. So a list and the list
    with its breaks unified are compiled alike, and a check of the latter numbers the lines in the
    same way. The lines themselves have no CR and no LF. A text is parted at its breaks in one way
    only, and is what the lines are with the breaks between them. -/
theorem passes_number_alike (text : Text) :
    let unified := Text.replaceAll [.char '\r'] [.char '\n']
      (Text.replaceAll [.char '\r', .char '\n'] [.char '\n'] text)
    text.unifyBreaks = unified ∧
    text.lines = unified.lines ∧ unified.lines = unified.splitOn (.char '\n') ∧
    (∀ strict, Hosts.compile strict text = Hosts.compile strict unified) ∧
    Wire.compile text = Wire.compile unified ∧ Wire.textLog text = Wire.textLog unified ∧
    Wire.items unified = ((Wire.numberedRecords unified).filterMap fun numbered =>
      numbered.2.toWire?.toOption) ∧
    (∃ c, Check.ofText false unified = .ok c ∧ c.NumbersAlike unified) ∧
    (∀ line ∈ text.lines, .char '\r' ∉ line ∧ .char '\n' ∉ line) ∧
    (∀ lines marks, Text.Parted text lines marks ↔ lines = text.lines ∧ marks = text.breaks) ∧
    Text.interleave text.lines text.breaks = text := by
  intro unified
  have same : text.unifyBreaks = unified := Text.unifyBreaks_eq_replaceAll text
  have lines : text.lines = unified.lines := by
    rw [← same, Text.lines_unifyBreaks]
  have byLf : unified.lines = unified.splitOn (.char '\n') := by
    rw [← same]
    exact Text.lines_of_no_cr (Text.not_mem_unifyBreaks text)
  refine ⟨same, lines, byLf, fun strict => ?_, ?_, ?_, Wire.items_eq_numberedRecords unified,
    ⟨_, Check.ofText_false unified, ?_⟩, ?_, fun _ _ => Text.parted_iff,
    (Text.parted text).interleave⟩
  · rw [Hosts.compile, Hosts.compile, Hosts.ofText, Hosts.ofText, lines]
  · rw [Wire.compile, Wire.compile, Wire.items, Wire.items, lines]
  · rw [Wire.textLog, Wire.textLog, lines]
  · rw [← byLf]
    exact Check.numbersAlike_foldl_absorb unified
  · intro line isThere
    have whole := (Text.parted text).whole line isThere
    exact ⟨fun cr => (Text.isInner_iff.mp (whole _ cr)).1 rfl,
      fun lf => (Text.isInner_iff.mp (whole _ lf)).2 rfl⟩

/-- A CR in front of a CR LF, and one behind an LF, are breaks of their own. -/
theorem passes_number_alike_mixed :
    let text : Text := "a\r\r\n b\n\rc\r".toText
    text.lines = ["a".toText, [], " b".toText, [], "c".toText, []] ∧
      .char '\r' ∉ " b".toText ∧ .char '\n' ∉ " b".toText ∧
      Text.interleave text.lines text.breaks = text ∧
      ∃ c, Check.ofText false "a\n\n b\n\nc\n".toText = .ok c ∧
        (Hosts.ofText false text).lines = c.lines.size ∧
        (2, Edit.delete Layout.lineRule 0 1) ∈ c.findings.toList := by
  intro text
  obtain ⟨same, lines, -, -, -, -, -, ⟨c, checked, alike⟩, free, -, whole⟩ :=
    passes_number_alike text
  have unified : text.unifyBreaks = "a\n\n b\n\nc\n".toText := by decide +kernel
  have count := alike.count false
  rw [← same, unified] at checked alike
  have unbroken := free " b".toText (by decide +kernel)
  refine ⟨by decide +kernel, unbroken.1, unbroken.2, whole, c, checked, ?_,
    (alike.finding 2 _).mpr ⟨.network (NetworkLine.ofLine " b".toText).toFilter, ?_, ?_⟩⟩
  · rw [Hosts.ofText, lines]
    exact count
  · decide +kernel
  · decide +kernel

end Blocklist
