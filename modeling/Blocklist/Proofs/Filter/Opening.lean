import Blocklist.Proofs.Filter.Parts

/-! # Where the modifier section opens

A line up to the dollar sign that opens its section does not depend on what the section says, as
long as the section does not hold a dollar sign in front of every equals sign itself. So the section
can be exchanged for another one without any effect on the parts in front of it.
-/

namespace Blocklist

namespace Section

theorem opensLater_congr {s t : Text}
    (same : s.filter (fun c : CodePoint => c == '=' || c == '$') =
      t.filter fun c : CodePoint => c == '=' || c == '$') :
    opensLater s = opensLater t := by
  rw [opensLater, opensLater, ← List.head?_filter, ← List.head?_filter, same]

theorem opensLater_append_cons (s t t' : Text) :
    opensLater (s ++ .char '$' :: t) = opensLater (s ++ .char '$' :: t') := by
  simp [opensLater, List.find?_append]

/-- The dollar sign that opens a section goes on opening it as long as no other one does. -/
theorem cut_congr {s modifiers modifiers' : Text}
    (opens : cut (s ++ .char '$' :: modifiers) = (s, some modifiers))
    (same : opensLater modifiers' = opensLater modifiers) :
    cut (s ++ .char '$' :: modifiers') = (s, some modifiers') := by
  induction s with
  | nil =>
      rw [List.nil_append, cut] at opens ⊢
      rw [same]
      split
      · rfl
      · next later =>
          rw [if_neg later] at opens
          cases opens
  | cons c rest ih =>
      rw [List.cons_append, cut] at opens ⊢
      rw [opensLater_append_cons rest modifiers' modifiers]
      split
      · next now =>
          rw [if_pos now] at opens
          cases opens
      · next later =>
          rw [if_neg later] at opens
          simp only [Prod.mk.injEq, List.cons.injEq, true_and] at opens
          rw [ih (Prod.ext opens.1 opens.2)]

/-- Up to its first equals sign a text holds a dollar sign, or none that matters follows. -/
theorem opensLater_eq_false_iff {s : Text} :
    opensLater s = false ↔ .char '$' ∉ s.takeWhile (· ≠ .char '=') := by
  induction s with
  | nil => simp [opensLater]
  | cons c rest ih =>
      by_cases equals : c = '='
      · simp [opensLater, equals]
      · by_cases dollar : c = '$'
        · simp [opensLater, dollar]
        · rw [List.takeWhile_cons_of_pos (by simpa using equals), List.mem_cons,
            or_iff_right (Ne.symm dollar), ← ih]
          simp [opensLater, equals, dollar]

theorem cut_append_of_not_mem {s : Text} (free : .char '$' ∉ s) (t : Text) :
    cut (s ++ t) = (s ++ (cut t).1, (cut t).2) := by
  induction s with
  | nil => rfl
  | cons c rest ih =>
      rw [List.mem_cons, not_or] at free
      simp [cut, Ne.symm free.1, ih free.2]

theorem cut_of_not_mem {s modifiers : Text} (free : .char '$' ∉ s)
    (opens : opensLater modifiers = false) :
    cut (s ++ .char '$' :: modifiers) = (s, some modifiers) := by
  rw [cut_append_of_not_mem free]
  simp [cut, opens]

theorem cut_eq_none_iff {s : Text} : (cut s).2 = none ↔ .char '$' ∉ s := by
  fun_induction cut s with
  | case1 => simp
  | case2 c rest opens =>
      simp only [Bool.and_eq_true, decide_eq_true_eq] at opens
      simp [opens.1]
  | case3 c rest passed ih =>
      rw [ih, List.mem_cons, not_or, and_iff_right_of_imp]
      rintro none rfl
      have later : opensLater rest = true := by simpa using passed
      rw [opensLater, beq_iff_eq] at later
      exact none (List.mem_of_find?_eq_some later)

end Section

namespace NetworkLine

/-- What stands in front of the modifier section and its dollar sign. -/
def address (l : NetworkLine) : Text :=
  l.front ++ l.pattern ++ endMark l.endAnchor

/-- Where the dollar sign stands that opens the modifier section, if there is one. -/
def opening? (l : NetworkLine) : Option Nat :=
  l.modifierSection.map fun _ => l.address.length

section Sectioned

variable {l : NetworkLine} {modifiers : Text}

theorem toLine_of_section (has : l.modifierSection = some modifiers) :
    l.toLine = l.address ++ ([.char '$'] ++ modifiers) := by
  simp [toLine, back, sectionMark, address, has]

theorem sectionStart_eq (l : NetworkLine) : l.sectionStart = l.address.length + 1 := by
  simp only [sectionStart, patternEnd, patternStart, address, List.length_append]

theorem unanchored_of_section (has : l.modifierSection = some modifiers) :
    l.unanchored = l.pattern ++ endMark l.endAnchor ++ .char '$' :: modifiers := by
  rw [unanchored, back, has, sectionMark, List.append_assoc]

theorem unmarked_of_section (has : l.modifierSection = some modifiers) :
    l.unmarked = l.anchor.mark ++ (l.pattern ++ endMark l.endAnchor) ++ .char '$' :: modifiers := by
  simp only [unmarked, unanchored_of_section has, List.append_assoc]

/-- The address of a line without the blanks in front of it. -/
def unindentedAddress (l : NetworkLine) : Text :=
  exceptionMark l.isException ++ (l.anchor.mark ++ (l.pattern ++ endMark l.endAnchor))

theorem unindented_of_section (has : l.modifierSection = some modifiers) :
    l.unindented = l.unindentedAddress ++ .char '$' :: modifiers := by
  simp only [unindented, unmarked_of_section has, unindentedAddress, List.append_assoc]

theorem address_eq (l : NetworkLine) : l.address = l.indent ++ l.unindentedAddress := by
  simp only [address, front, unindentedAddress, List.append_assoc]

theorem prefix_append_cons {mark s t t' : Text} {c : CodePoint} (free : c ∉ mark)
    (starts : mark <+: s ++ c :: t) : mark <+: s ++ c :: t' := by
  induction mark generalizing s with
  | nil => exact List.nil_prefix
  | cons d rest ih =>
      rw [List.mem_cons, not_or] at free
      cases s with
      | nil => exact absurd (List.cons_prefix_cons.mp starts).1.symm free.1
      | cons e s =>
          obtain ⟨same, later⟩ := List.cons_prefix_cons.mp starts
          exact List.cons_prefix_cons.mpr ⟨same, ih free.2 later⟩

/-- Neither the blanks in front nor the section have a part in what makes the rest proper, as long
    as the same dollar sign opens the section. -/
theorem Proper.of_section {l' : NetworkLine} {indent modifiers' : Text} (proper : l.Proper)
    (has : l.modifierSection = some modifiers) (blank : ∀ c ∈ indent, Text.isBlank c)
    (same : Section.opensLater modifiers' = Section.opensLater modifiers)
    (rest : l' = { l with indent := indent, modifierSection := some modifiers' }) :
    l'.Proper := by
  have has' : l'.modifierSection = some modifiers' := by rw [rest]
  have exception : l'.isException = l.isException := by rw [rest]
  have anchor : l'.anchor = l.anchor := by rw [rest]
  have address : l'.pattern ++ endMark l'.endAnchor = l.pattern ++ endMark l.endAnchor := by
    rw [rest]
  have unindented' : l'.unindentedAddress = l.unindentedAddress := by
    rw [unindentedAddress, exception, anchor, address, unindentedAddress]
  refine ⟨?_, ?_, ?_, ?_, ?_, ?_⟩
  · rw [rest]
    exact blank
  · have first := proper.unindented
    rw [unindented_of_section has']
    rw [unindented_of_section has] at first
    rw [unindented']
    simpa [List.head?_append] using first
  · intro plain starts
    rw [unmarked_of_section has', anchor, address] at starts
    rw [exception] at plain
    have unmarked := proper.unmarked plain
    rw [unmarked_of_section has] at unmarked
    exact unmarked (prefix_append_cons (by decide) starts)
  · intro free starts
    rw [unanchored_of_section has', address] at starts
    rw [anchor] at free
    have unanchored := proper.unanchored free
    rw [unanchored_of_section has] at unanchored
    exact unanchored (prefix_append_cons (by decide) starts)
  · rw [rest]
    exact proper.unended
  · have cut := proper.cut
    rw [unanchored_of_section has, has] at cut
    rw [unanchored_of_section has', has', address]
    exact Section.cut_congr cut same

end Sectioned

theorem modifierSection_eq_none_iff {l : NetworkLine} (proper : l.Proper) :
    l.modifierSection = none ↔ .char '$' ∉ l.toLine := by
  have front : .char '$' ∉ l.front := by
    have indent : .char '$' ∉ l.indent :=
      fun isThere => absurd (proper.indent '$' isThere) (by decide)
    have exception : .char '$' ∉ exceptionMark l.isException := by cases l.isException <;> decide
    have anchor : .char '$' ∉ l.anchor.mark := by cases l.anchor <;> decide
    simp only [NetworkLine.front, List.mem_append, not_or]
    exact ⟨⟨indent, exception⟩, anchor⟩
  have cut : (Section.cut l.unanchored).2 = l.modifierSection := congrArg Prod.snd proper.cut
  rw [← cut, Section.cut_eq_none_iff, toLine_eq_front_append, List.mem_append, or_iff_right front]

theorem modifierSection_ofLine_eq_none_iff {line : Text} :
    (ofLine line).modifierSection = none ↔ .char '$' ∉ line := by
  rw [modifierSection_eq_none_iff (proper_ofLine line), toLine_ofLine]

end NetworkLine

end Blocklist
