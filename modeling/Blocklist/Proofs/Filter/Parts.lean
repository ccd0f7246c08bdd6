import Blocklist.Filter.Reading
import Mathlib.Data.List.TakeWhile

/-! # Proper parts of a network line

Taking a line apart gives parts in which nothing is left that an earlier part would have taken.
Parts of that kind are found again when the line they make up is taken apart.
-/

namespace Blocklist.NetworkLine

/-- What stands behind the anchor. -/
def unanchored (l : NetworkLine) : Text :=
  l.pattern ++ l.back

/-- What stands behind the exception mark. -/
def unmarked (l : NetworkLine) : Text :=
  l.anchor.mark ++ l.unanchored

/-- What stands behind the blanks in front. -/
def unindented (l : NetworkLine) : Text :=
  exceptionMark l.isException ++ l.unmarked

/-- No part of a network line leaves anything behind that belongs to it. -/
structure Proper (l : NetworkLine) : Prop where
  indent : ∀ c ∈ l.indent, Text.isBlank c
  unindented : ∀ c ∈ l.unindented.head?, ¬Text.isBlank c
  unmarked : l.isException = false → ¬[.char '@', .char '@'] <+: l.unmarked
  unanchored : l.anchor ≠ .subdomains → ¬[.char '|'] <+: l.unanchored
  unended : l.endAnchor = false → l.pattern.getLast? ≠ some (.char '|')
  cut : Section.cut l.unanchored = (l.pattern ++ endMark l.endAnchor, l.modifierSection)

theorem toLine_eq_front_append (l : NetworkLine) : l.toLine = l.front ++ l.unanchored := by
  rw [toLine, unanchored, List.append_assoc]

theorem toLine_eq (l : NetworkLine) : l.toLine = l.indent ++ l.unindented := by
  simp only [toLine, front, unindented, unmarked, unanchored, List.append_assoc]

section Taking

theorem takeException_of_not_prefix {s : Text} (unmarked : ¬[.char '@', .char '@'] <+: s) :
    takeException s = (false, s) := by
  fun_cases takeException s with
  | case1 rest => exact absurd (List.prefix_append [.char '@', .char '@'] rest) unmarked
  | case2 => rfl

theorem takeException_mark (isException : Bool) {s : Text}
    (unmarked : isException = false → ¬[.char '@', .char '@'] <+: s) :
    takeException (exceptionMark isException ++ s) = (isException, s) := by
  cases isException with
  | true => rfl
  | false => exact takeException_of_not_prefix (unmarked rfl)

theorem not_prefix_of_takeException {s : Text} (unmarked : (takeException s).1 = false) :
    ¬[.char '@', .char '@'] <+: (takeException s).2 := by
  fun_cases takeException s with
  | case1 rest => simp [takeException] at unmarked
  | case2 s other =>
      rintro ⟨rest, rfl⟩
      exact other rest rfl

theorem takeAnchor_mark (anchor : Anchor) {s : Text}
    (unanchored : anchor ≠ .subdomains → ¬[.char '|'] <+: s) :
    takeAnchor (anchor.mark ++ s) = (anchor, s) := by
  cases anchor with
  | none =>
      have free := unanchored (by simp)
      fun_cases takeAnchor s with
      | case1 rest => exact absurd (List.prefix_append [.char '|'] (.char '|' :: rest)) free
      | case2 rest => exact absurd (List.prefix_append [.char '|'] rest) free
      | case3 => rfl
  | subdomains => rfl
  | address =>
      have free := unanchored (by simp)
      cases s with
      | nil => rfl
      | cons c rest =>
          have other : c ≠ '|' := by
            rintro rfl
            exact free (List.prefix_append [.char '|'] rest)
          simp [Anchor.mark, takeAnchor, other]

theorem not_prefix_of_takeAnchor {s : Text} (unanchored : (takeAnchor s).1 ≠ .subdomains) :
    ¬[.char '|'] <+: (takeAnchor s).2 := by
  fun_cases takeAnchor s with
  | case1 rest => simp [takeAnchor] at unanchored
  | case2 rest other =>
      rintro ⟨rest', rfl⟩
      exact other rest' rfl
  | case3 s _ other =>
      rintro ⟨rest, rfl⟩
      exact other rest rfl

theorem takeEndAnchor_mark (endAnchor : Bool) {s : Text}
    (unended : endAnchor = false → s.getLast? ≠ some (.char '|')) :
    takeEndAnchor (s ++ endMark endAnchor) = (s, endAnchor) := by
  cases endAnchor with
  | true => simp [takeEndAnchor, endMark]
  | false => simp [takeEndAnchor, endMark, unended rfl]

theorem getLast?_of_takeEndAnchor {s : Text} (unended : (takeEndAnchor s).2 = false) :
    (takeEndAnchor s).1.getLast? ≠ some (.char '|') := by
  unfold takeEndAnchor at unended ⊢
  split
  · simp_all
  · assumption

end Taking

theorem unanchored_ofLine (line : Text) : (ofLine line).unanchored =
    (takeAnchor (takeException (line.dropWhile Text.isBlank)).2).2 := by
  simp only [ofLine, unanchored, back]
  rw [← List.append_assoc, takeEndAnchor_append, cut_append]

theorem unmarked_ofLine (line : Text) :
    (ofLine line).unmarked = (takeException (line.dropWhile Text.isBlank)).2 := by
  rw [unmarked, unanchored_ofLine]
  exact takeAnchor_append _

theorem unindented_ofLine (line : Text) :
    (ofLine line).unindented = line.dropWhile Text.isBlank := by
  rw [unindented, unmarked_ofLine]
  exact takeException_append _

theorem proper_ofLine (line : Text) : (ofLine line).Proper where
  indent := fun _ isThere => List.mem_takeWhile_imp isThere
  unindented := by
    intro c first
    rw [unindented_ofLine] at first
    have := List.head?_dropWhile_not Text.isBlank line
    rw [first] at this
    simpa using this
  unmarked := by
    rw [unmarked_ofLine]
    exact not_prefix_of_takeException
  unanchored := by
    rw [unanchored_ofLine]
    exact not_prefix_of_takeAnchor
  unended := getLast?_of_takeEndAnchor
  cut := by
    rw [unanchored_ofLine]
    simp only [ofLine, takeEndAnchor_append]

theorem dropWhile_toLine {l : NetworkLine} (proper : l.Proper) :
    l.toLine.dropWhile Text.isBlank = l.unindented := by
  rw [toLine_eq, List.dropWhile_append_of_pos proper.indent]
  cases start : l.unindented with
  | nil => rfl
  | cons c rest => exact List.dropWhile_cons_of_neg (proper.unindented c (by simp [start]))

theorem takeWhile_toLine {l : NetworkLine} (proper : l.Proper) :
    l.toLine.takeWhile Text.isBlank = l.indent := by
  rw [toLine_eq, List.takeWhile_append_of_pos proper.indent]
  cases start : l.unindented with
  | nil => simp
  | cons c rest =>
      rw [List.takeWhile_cons_of_neg (proper.unindented c (by simp [start])), List.append_nil]

/-- Proper parts are the parts of the line they make up. -/
theorem ofLine_toLine {l : NetworkLine} (proper : l.Proper) : ofLine l.toLine = l := by
  have exception : takeException l.unindented = (l.isException, l.unmarked) :=
    takeException_mark l.isException proper.unmarked
  have anchor : takeAnchor l.unmarked = (l.anchor, l.unanchored) :=
    takeAnchor_mark l.anchor proper.unanchored
  have ending := takeEndAnchor_mark l.endAnchor proper.unended
  simp only [ofLine, dropWhile_toLine proper, takeWhile_toLine proper, exception, anchor,
    proper.cut, ending]

end Blocklist.NetworkLine
