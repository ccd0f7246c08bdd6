import Blocklist.Proofs.Filter.Kinds
import Blocklist.Proofs.Filter.Opening
import Blocklist.Proofs.Hostname.Shape

/-! # A hostname as a line

A hostname that stands on a line of its own is mostly read as a filter about itself. But the marks in
front of a pattern and the section behind it no longer protect what is inside: a bracket or an
exclamation mark may make the line a header or a comment, and a dollar sign opens a section.
-/

namespace Blocklist

namespace Section

theorem cut_of_no_dollar {s : Text} (free : .char '$' ∉ s) : cut s = (s, none) := by
  have without : (cut s).2 = none := cut_eq_none_iff.mpr free
  have whole := NetworkLine.cut_append s
  rw [without, NetworkLine.sectionMark, List.append_nil] at whole
  exact Prod.ext whole without

end Section

namespace NetworkLine

/-- A line that consists of its pattern. -/
def bare (pattern : Text) : NetworkLine :=
  ⟨[], false, .none, pattern, false, none⟩

section Bare

variable {h : Text}

theorem unanchored_bare (pattern : Text) : (bare pattern).unanchored = pattern := by
  simp only [unanchored, back, bare, endMark, sectionMark, List.append_nil]

theorem unmarked_bare (pattern : Text) : (bare pattern).unmarked = pattern :=
  unanchored_bare pattern

theorem unindented_bare (pattern : Text) : (bare pattern).unindented = pattern :=
  unanchored_bare pattern

theorem toLine_bare (pattern : Text) : (bare pattern).toLine = pattern := by
  rw [toLine_eq, unindented_bare]
  rfl

theorem not_prefix_hostname {c : CodePoint} {mark : Text} (shape : h.IsHostname)
    (special : c.isAlphanum = false) : ¬c :: mark <+: h := by
  intro starts
  have first : h.head? = some c := by
    obtain ⟨rest, rfl⟩ := starts
    rfl
  have alphanumeric := shape.first c first
  rw [special] at alphanumeric
  cases alphanumeric

/-- A hostname without a dollar sign is the pattern of its line, and there is nothing else. -/
theorem proper_bare (shape : h.IsHostname) (free : .char '$' ∉ h) : (bare h).Proper where
  indent := List.forall_mem_nil _
  unindented := by
    intro c first
    rw [unindented_bare] at first
    rw [Hostname.isBlank_of_isAlphanum (shape.first c first)]
    exact Bool.false_ne_true
  unmarked := by
    intro _
    rw [unmarked_bare]
    exact not_prefix_hostname shape (by decide)
  unanchored := by
    intro _
    rw [unanchored_bare]
    exact not_prefix_hostname shape (by decide)
  unended := by
    intro _ ends
    exact absurd (shape.last '|' ends) (by decide)
  cut := by
    rw [unanchored_bare, Section.cut_of_no_dollar free]
    simp only [bare, endMark, List.append_nil]

theorem ofLine_hostname (shape : h.IsHostname) (free : .char '$' ∉ h) : ofLine h = bare h := by
  have again := ofLine_toLine (proper_bare shape free)
  rwa [toLine_bare] at again

/-- Nothing stands behind a pattern that is as long as all that stands behind the anchor. -/
theorem modifierSection_eq_none_of_length_le {l : NetworkLine}
    (long : l.unanchored.length ≤ l.pattern.length) : l.modifierSection = none := by
  rw [unanchored, back, List.length_append, List.length_append] at long
  have nothing : sectionMark l.modifierSection = [] := List.length_eq_zero_iff.mp (by omega)
  cases has : l.modifierSection with
  | none => rfl
  | some modifiers =>
      rw [has] at nothing
      cases nothing

theorem length_le_of_pattern {pattern : Text} (whole : pattern = h ∨ pattern = h ++ [.char '^']) :
    h.length ≤ pattern.length := by
  rcases whole with same | same
  · rw [same]
  · rw [same, List.length_append]
    exact Nat.le_add_right _ _

theorem not_mem_of_pattern (whole : (ofLine h).pattern = h ∨ (ofLine h).pattern = h ++ [.char '^']) :
    .char '$' ∉ h := by
  have parts := congrArg List.length (toLine_ofLine h)
  have long := length_le_of_pattern whole
  rw [toLine, List.append_assoc, ← unanchored, List.length_append] at parts
  exact modifierSection_ofLine_eq_none_iff.mp (modifierSection_eq_none_of_length_le (by omega))

end Bare

end NetworkLine

namespace Hostname

/-- The hostname that a line is about: the line is read as a network filter, which is about it. -/
def ofLine? (line : Text) : Option Text :=
  match Record.ofLine line with
  | .ok (.network f) => f.hostname?
  | _ => none

variable {line h : Text}

theorem ofLine?_eq_some_iff : ofLine? line = some h ↔
    ∃ f, Record.ofLine line = .ok (.network f) ∧ f.hostname? = some h := by
  unfold ofLine?
  split
  · next f read => simp [read]
  · next other =>
      refine iff_of_false (by simp) ?_
      intro ⟨f, read, _⟩
      exact other f read

/-- A hostname that a line is about is read back from a line of its own exactly if it has no dollar
    sign, and neither a bracket nor an exclamation mark comes before all characters that make a line
    a network line. -/
theorem ofLine?_again_iff (about : ofLine? line = some h) :
    ofLine? h = some h ↔
      .char '$' ∉ h ∧ ∀ c ∈ h.find? Record.isDecisive, c ≠ '[' ∧ c ≠ '!' := by
  obtain ⟨f, _, about⟩ := ofLine?_eq_some_iff.mp about
  have shape : h.IsHostname := (NetworkFilter.hostname?_eq_some_iff.mp about).2.2.1
  have noSign : ∀ c ∈ h.find? Record.isDecisive, c ≠ '#' := by
    intro c first sign
    have native := shape.native c (List.mem_of_find?_eq_some first)
    rw [sign] at native
    cases native
  rw [ofLine?_eq_some_iff]
  constructor
  · intro found
    obtain ⟨f', read, again⟩ := found
    cases Record.kind_of_ofLine read with
    | network some first =>
        have pattern := (NetworkFilter.hostname?_eq_some_iff.mp again).2.2.2
        refine ⟨NetworkLine.not_mem_of_pattern pattern, ?_⟩
        intro c isFirst
        have own := first c isFirst
        simp only [Record.isForeign, Bool.or_eq_false_iff, beq_eq_false_iff_ne] at own
        exact own.1
  · intro plain
    obtain ⟨free, first⟩ := plain
    refine ⟨_, Record.ofLine_network ?_ ?_, ?_⟩
    · intro empty
      rw [empty] at shape
      exact List.not_mem_nil shape.dotted
    · intro c isFirst
      simp only [Record.isForeign, Bool.or_eq_false_iff, beq_eq_false_iff_ne]
      exact ⟨first c isFirst, noSign c isFirst⟩
    · rw [NetworkLine.ofLine_hostname shape free, NetworkFilter.hostname?_eq_some_iff]
      exact ⟨rfl, rfl, shape, .inl rfl⟩

/-- The separator mark comes before the bracket, so the line is no header. -/
theorem ofLine?_again_separated :
    ofLine? "||a^[b.com^$3p".toText = some "a^[b.com".toText ∧
      ofLine? "a^[b.com".toText = some "a^[b.com".toText := by
  have about : ofLine? "||a^[b.com^$3p".toText = some "a^[b.com".toText := by decide +kernel
  have first : "a^[b.com".toText.find? Record.isDecisive = some (.char '^') := by decide
  refine ⟨about, (ofLine?_again_iff about).mpr ⟨by decide, ?_⟩⟩
  rw [first]
  rintro _ ⟨⟩
  exact ⟨by decide, by decide⟩

/-- Without the marks in front the line is a header, and without the second dollar sign the section
    opens elsewhere. -/
theorem ofLine?_not_again :
    ofLine? "||a[b.com^".toText = some "a[b.com".toText ∧
      Record.ofLine "a[b.com".toText = .ok (.other "a[b.com".toText) ∧
      ofLine? "a.b$$3p$".toText = some "a.b$$3p".toText ∧ ofLine? "a.b$$3p".toText = none := by
  decide +kernel

end Hostname

end Blocklist
