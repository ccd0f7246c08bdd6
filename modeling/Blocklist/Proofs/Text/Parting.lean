import Blocklist.Proofs.Text.Breaks

/-! # Parting a text at its line breaks

Of the breaks that could start at a place the longest one is taken, so a CR LF is never read as two
breaks. Parted in this way, from the left to the right, a text has its lines and one break between
each two of them, and joined again they give it back. Once the breaks are unified the lines are still
the same, and they can be told by the LFs alone.
-/

namespace Blocklist.Text

variable {s line : Text} {lines marks : List Text} {c : CodePoint}

/-- What breaks a line, in the order in which it is looked for. -/
def lineBreaks : List Text :=
  [[.char '\r', .char '\n'], [.char '\r'], [.char '\n']]

/-- The break that a text starts with, if it starts with one. -/
def breakAt? (s : Text) : Option Text :=
  lineBreaks.find? (·.isPrefixOf s)

/-- A character that no line break has. -/
def isInner (c : CodePoint) : Bool :=
  c != '\r' && c != '\n'

theorem isInner_iff : isInner c ↔ c ≠ '\r' ∧ c ≠ '\n' := by
  rw [isInner, Bool.and_eq_true, bne_iff_ne, bne_iff_ne]

/-- The lines of a text, and the breaks behind all of them but the last. -/
inductive Parted : Text → List Text → List Text → Prop where
  /-- Nothing breaks the last line. -/
  | last {line : Text} (whole : ∀ c ∈ line, isInner c) : Parted line [line] []
  /-- A line goes up to the first break. -/
  | next {line mark rest : Text} {lines marks : List Text} (whole : ∀ c ∈ line, isInner c)
      (starts : breakAt? (mark ++ rest) = some mark) (behind : Parted rest lines marks) :
      Parted (line ++ (mark ++ rest)) (line :: lines) (mark :: marks)

/-- The line breaks of a text. -/
def breaks : Text → List Text
  | [] => []
  | .char '\r' :: .char '\n' :: rest => [.char '\r', .char '\n'] :: breaks rest
  | c :: rest => if c = '\r' ∨ c = '\n' then [c] :: breaks rest else breaks rest

/-- Lines with a break between each two of them. -/
def interleave : List Text → List Text → Text
  | line :: lines, mark :: marks => line ++ (mark ++ interleave lines marks)
  | lines, _ => lines.flatten

/-- Write a text in place of another one wherever that occurs, from the left to the right. -/
def replaceAll (old new : Text) : Text → Text
  | [] => []
  | c :: rest =>
      if old.isPrefixOf (c :: rest) then new ++ replaceAll old new (rest.drop (old.length - 1))
      else c :: replaceAll old new rest
termination_by s => s.length
decreasing_by
  · rw [List.length_drop, List.length_cons]
    omega
  · exact Nat.lt_succ_self _

/-- A text is read from its first break on, or from its first character if that is no break. -/
@[elab_as_elim]
theorem break_induction {motive : Text → Prop} (nil : motive [])
    (crlf : ∀ rest : Text, motive rest → motive (.char '\r' :: .char '\n' :: rest))
    (cr : ∀ rest : Text, (∀ later, rest ≠ .char '\n' :: later) → motive rest →
      motive (.char '\r' :: rest))
    (lf : ∀ rest : Text, motive rest → motive (.char '\n' :: rest))
    (inner : ∀ (c : CodePoint) (rest : Text), isInner c → motive rest → motive (c :: rest))
    (s : Text) : motive s := by
  fun_induction Text.lines s with
  | case1 => exact nil
  | case2 rest ih => exact crlf rest ih
  | case3 c rest single isBreak ih =>
      rcases isBreak with rfl | rfl
      · exact cr rest (fun later => single later rfl) ih
      · exact lf rest ih
  | case4 c rest single noBreak ih =>
      exact inner c rest (isInner_iff.mpr (not_or.mp noBreak)) ih

section Parting

theorem Parted.interleave (parted : Parted s lines marks) : interleave lines marks = s := by
  induction parted with
  | last whole => exact List.append_nil _
  | next whole starts behind ih => rw [Text.interleave, ih]

theorem Parted.whole (parted : Parted s lines marks) :
    ∀ line ∈ lines, ∀ c ∈ line, isInner c := by
  induction parted with
  | last whole => exact List.forall_mem_singleton.mpr whole
  | next whole starts behind ih => exact List.forall_mem_cons.mpr ⟨whole, ih⟩

theorem Parted.inner (inner : isInner c) (parted : Parted s lines marks) :
    Parted (c :: s) (lines.modifyHead (c :: ·)) marks := by
  cases parted with
  | last whole => exact .last (List.forall_mem_cons.mpr ⟨inner, whole⟩)
  | next whole starts behind =>
      exact .next (List.forall_mem_cons.mpr ⟨inner, whole⟩) starts behind

theorem breakAt?_cr (single : ∀ rest, s ≠ .char '\n' :: rest) :
    breakAt? (.char '\r' :: s) = some [.char '\r'] := by
  cases s with
  | nil => rfl
  | cons c rest =>
      have other : c ≠ '\n' := fun same => single rest (by rw [same])
      simp [breakAt?, lineBreaks, other.symm]

theorem lines_of_breakAt? {mark : Text} (starts : breakAt? (mark ++ s) = some mark) :
    Text.lines (mark ++ s) = [] :: s.lines ∧ breaks (mark ++ s) = mark :: s.breaks := by
  have isBreak : mark ∈ lineBreaks := List.mem_of_find?_eq_some starts
  simp only [lineBreaks, List.mem_cons, List.not_mem_nil, or_false] at isBreak
  rcases isBreak with rfl | rfl | rfl
  · exact ⟨rfl, rfl⟩
  · have single : ∀ rest, s ≠ .char '\n' :: rest := by
      rintro rest rfl
      cases starts
    simp [Text.lines, breaks, single]
  · simp [Text.lines, breaks]

theorem parted_of_breakAt? (mark : Text) (starts : breakAt? (mark ++ s) = some mark)
    (behind : Parted s s.lines s.breaks) :
    Parted (mark ++ s) (Text.lines (mark ++ s)) (breaks (mark ++ s)) := by
  obtain ⟨lines, breaks⟩ := lines_of_breakAt? starts
  rw [lines, breaks]
  exact .next (List.forall_mem_nil _) starts behind

theorem parted (s : Text) : Parted s s.lines s.breaks := by
  induction s using break_induction with
  | nil => exact .last (List.forall_mem_nil _)
  | crlf rest ih => exact parted_of_breakAt? [.char '\r', .char '\n'] rfl ih
  | cr rest single ih => exact parted_of_breakAt? [.char '\r'] (breakAt?_cr single) ih
  | lf rest ih => exact parted_of_breakAt? [.char '\n'] rfl ih
  | inner c rest inner ih =>
      have first := ih.inner inner
      rw [isInner_iff] at inner
      simpa [Text.lines, breaks, inner] using first

theorem lines_append_of_inner (whole : ∀ c ∈ line, isInner c) (s : Text) :
    Text.lines (line ++ s) = s.lines.modifyHead (line ++ ·) ∧ breaks (line ++ s) = s.breaks := by
  induction line with
  | nil =>
      rw [List.nil_append]
      refine ⟨?_, rfl⟩
      cases s.lines <;> rfl
  | cons c rest ih =>
      rw [List.forall_mem_cons, isInner_iff] at whole
      obtain ⟨lines, breaks⟩ := ih whole.2
      simp [Text.lines, Text.breaks, whole.1, lines, breaks, Function.comp_def]

/-- There is no other way to part a text. -/
theorem parted_iff : Parted s lines marks ↔ lines = s.lines ∧ marks = s.breaks := by
  constructor
  · intro parted
    induction parted with
    | @last line whole =>
        have alone := lines_append_of_inner whole []
        rw [List.append_nil] at alone
        rw [alone.1, alone.2]
        exact ⟨by simp [Text.lines], rfl⟩
    | @next line mark rest lines marks whole starts behind ih =>
        have first := lines_append_of_inner whole (mark ++ rest)
        have next := lines_of_breakAt? starts
        rw [first.1, first.2, next.1, next.2, ih.1, ih.2]
        exact ⟨by simp, rfl⟩
  · rintro ⟨rfl, rfl⟩
    exact parted s

end Parting

section Unifying

theorem lines_unifyBreaks (s : Text) : s.unifyBreaks.lines = s.lines := by
  induction s using break_induction with
  | nil => rfl
  | crlf rest ih => simp [unifyBreaks, Text.lines, ih]
  | cr rest single ih => simp [unifyBreaks, Text.lines, single, ih]
  | lf rest ih => simp [unifyBreaks, Text.lines, ih]
  | inner c rest inner ih =>
      rw [isInner_iff] at inner
      simp [unifyBreaks, Text.lines, inner, ih]

theorem not_prefix_of_single (single : ∀ rest, s ≠ .char '\n' :: rest) :
    ¬[.char '\r', .char '\n'] <+: .char '\r' :: s := by
  rintro ⟨rest, whole⟩
  exact single rest (List.cons.inj whole).2.symm

/-- Unifying the breaks is to write an LF for each CR LF, and then one for each CR that is left. -/
theorem unifyBreaks_eq_replaceAll (s : Text) :
    s.unifyBreaks = replaceAll [.char '\r'] [.char '\n']
      (replaceAll [.char '\r', .char '\n'] [.char '\n'] s) := by
  induction s using break_induction with
  | nil => simp [unifyBreaks, replaceAll]
  | crlf rest ih => simp [unifyBreaks, replaceAll, ih]
  | cr rest single ih =>
      have kept : replaceAll [.char '\r', .char '\n'] [.char '\n'] (.char '\r' :: rest) =
          .char '\r' :: replaceAll [.char '\r', .char '\n'] [.char '\n'] rest := by
        rw [replaceAll, if_neg (mt List.isPrefixOf_iff_prefix.mp (not_prefix_of_single single))]
      rw [kept]
      simp [unifyBreaks, replaceAll, single, ih]
  | lf rest ih => simp [unifyBreaks, replaceAll, ih]
  | inner c rest inner ih =>
      rw [isInner_iff] at inner
      simp [unifyBreaks, replaceAll, inner, ih, Ne.symm inner.1]

end Unifying

end Blocklist.Text
