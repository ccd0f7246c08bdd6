import Blocklist.Proofs.Layout.Rereading

/-! # What kind of record the canonical layout leaves

The canonical layout makes no kind of line into another one, except that nothing is left of a line
of blanks. A network filter keeps the marks in front of its pattern, and a cosmetic filter its
marker.
-/

namespace Blocklist

namespace NetworkLine

theorem isBlank_exceptionMark (isException : Bool) :
    ∀ c ∈ exceptionMark isException, Text.isBlank c = false := by
  cases isException <;> decide

theorem isBlank_anchorMark (anchor : Anchor) : ∀ c ∈ anchor.mark, Text.isBlank c = false := by
  cases anchor <;> decide

/-- The marks in front of a pattern are found again when the line is trimmed, and behind them the
    blanks at the end of the line are gone. -/
theorem marks_trimBlanks (line : Text) :
    (ofLine line.trimBlanks).isException = (ofLine line).isException ∧
      (ofLine line.trimBlanks).anchor = (ofLine line).anchor ∧
      (ofLine line.trimBlanks).unanchored =
        Text.dropEndWhile Text.isBlank (ofLine line).unanchored := by
  have proper := proper_ofLine line
  have shorter (s : Text) : Text.dropEndWhile Text.isBlank s <+: s :=
    List.rdropWhile_prefix Text.isBlank s
  have unmarked : Text.dropEndWhile Text.isBlank (ofLine line).unmarked =
      (ofLine line).anchor.mark ++ Text.dropEndWhile Text.isBlank (ofLine line).unanchored :=
    Text.dropEndWhile_append_of_stops (isBlank_anchorMark _) _
  have unindented : line.trimBlanks = exceptionMark (ofLine line).isException ++
      Text.dropEndWhile Text.isBlank (ofLine line).unmarked := by
    rw [Text.trimBlanks, Text.dropEdgesWhile, ← unindented_ofLine]
    exact Text.dropEndWhile_append_of_stops (isBlank_exceptionMark _) _
  have exception := takeException_mark (ofLine line).isException
    fun plain start => proper.unmarked plain (start.trans (shorter _))
  have anchor := takeAnchor_mark (ofLine line).anchor
    fun open' start => proper.unanchored open' (start.trans (shorter _))
  rw [← unindented] at exception
  rw [← unmarked] at anchor
  refine ⟨?_, ?_, ?_⟩
  · have taken : (ofLine line.trimBlanks).isException =
        (takeException (line.trimBlanks.dropWhile Text.isBlank)).1 := rfl
    rw [taken, Text.dropWhile_trimBlanks, exception]
  · have taken : (ofLine line.trimBlanks).anchor =
        (takeAnchor (takeException (line.trimBlanks.dropWhile Text.isBlank)).2).1 := rfl
    rw [taken, Text.dropWhile_trimBlanks, exception, anchor]
  · rw [unanchored_ofLine, Text.dropWhile_trimBlanks, exception, anchor]

end NetworkLine

namespace Record

/-- How a record goes on in the canonical layout: as a record of its own kind, unless it is that of
    a line of blanks. -/
inductive KeepsKind : Record → Record → Prop where
  | other (line line' : Text) : KeepsKind (other line) (other line')
  | network {f f' : NetworkFilter} (visible : ∃ c ∈ f.line, Text.isBlank c = false)
      (isException : f'.isException = f.isException)
      (matchSubdomains : f'.matchSubdomains = f.matchSubdomains)
      (matchBeginning : f'.matchBeginning = f.matchBeginning) :
      KeepsKind (network f) (network f')
  | blank {f : NetworkFilter} (some : f.line ≠ []) (blank : ∀ c ∈ f.line, Text.isBlank c) :
      KeepsKind (network f) (other [])
  | cosmetic {f f' : CosmeticFilter} (isException : f'.isException = f.isException)
      (hostname : f'.hostname = f.hostname.dropWhile Text.isBlank)
      (selector : f'.selector = Text.dropEndWhile Text.isBlank f.selector) :
      KeepsKind (cosmetic f) (cosmetic f')

theorem keepsKind_network {line : Text} (some : line ≠ []) :
    (network (NetworkLine.ofLine line).toFilter).KeepsKind
      (network (NetworkLine.ofLine line).toFilter).tidied := by
  have whole : (NetworkLine.ofLine line).toFilter.line = line := NetworkLine.toLine_ofLine line
  cases has : (NetworkLine.ofLine line).modifierSection with
  | some modifiers =>
      rw [tidied_of_section has]
      refine .network ⟨'$', ?_, by decide⟩ rfl rfl rfl
      rw [whole]
      by_contra without
      have none := NetworkLine.modifierSection_ofLine_eq_none_iff.mpr without
      rw [has] at none
      cases none
  | none =>
      have marks := NetworkLine.marks_trimBlanks line
      rw [tidied_of_no_section has]
      split
      · next empty =>
          have blank := Text.trimBlanks_eq_nil_iff.mp empty
          rw [← whole] at some blank
          exact .blank some blank
      · next visible =>
          simp only [Text.trimBlanks_eq_nil_iff, not_forall, Bool.not_eq_true,
            exists_prop] at visible
          refine .network ?_ marks.1 ?_ ?_
          · rw [whole]
            exact visible
          · exact congrArg (· == Anchor.subdomains) marks.2.1
          · exact congrArg (· == Anchor.address) marks.2.1

theorem keepsKind_tidied {line : Text} {record : Record} (read : ofLine line = .ok record) :
    record.KeepsKind record.tidied := by
  cases kind_of_ofLine read with
  | empty => exact .other _ _
  | other => exact .other _ _
  | network some => exact keepsKind_network some
  | cosmetic => exact .cosmetic rfl rfl rfl

end Record

end Blocklist
