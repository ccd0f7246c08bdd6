import Blocklist.Text.Lines

/-! # Line breaks without a CR

Once the breaks of a text are unified there is no CR left in it, and a text without a CR has the same
lines for every pass, whichever breaks the pass knows of.
-/

namespace Blocklist.Text

variable {s : Text}

theorem not_mem_unifyBreaks (s : Text) : .char '\r' ∉ unifyBreaks s := by
  fun_induction unifyBreaks s with
  | case1 => exact List.not_mem_nil
  | case2 rest ih => simpa using ih
  | case3 c rest _ ih =>
      rw [List.mem_cons, not_or]
      refine ⟨?_, ih⟩
      split
      · decide
      · next other => exact fun same => other same.symm

theorem plain_unifyBreaks (plain : ∀ c ∈ s, c.isSurrogate = false) :
    ∀ c ∈ unifyBreaks s, c.isSurrogate = false := by
  fun_induction unifyBreaks s with
  | case1 => exact List.forall_mem_nil _
  | case2 rest ih =>
      obtain ⟨-, behind⟩ := List.forall_mem_cons.mp plain
      exact List.forall_mem_cons.mpr ⟨rfl, ih (List.forall_mem_cons.mp behind).2⟩
  | case3 c rest _ ih =>
      obtain ⟨first, later⟩ := List.forall_mem_cons.mp plain
      rw [List.forall_mem_cons]
      refine ⟨?_, ih later⟩
      split
      · rfl
      · exact first

theorem unifyBreaks_of_no_cr (plain : .char '\r' ∉ s) : unifyBreaks s = s := by
  fun_induction unifyBreaks s with
  | case1 => rfl
  | case2 rest _ => exact absurd List.mem_cons_self plain
  | case3 c rest _ ih =>
      rw [List.mem_cons, not_or] at plain
      rw [if_neg (Ne.symm plain.1), ih plain.2]

/-- Only a CR makes lines anything but the pieces between LFs. -/
theorem lines_of_no_cr (plain : .char '\r' ∉ s) : lines s = s.splitOn (.char '\n') := by
  fun_induction lines s with
  | case1 => exact (List.splitOn_nil _).symm
  | case2 rest _ => exact absurd List.mem_cons_self plain
  | case3 c rest _ isBreak ih =>
      rw [List.mem_cons, not_or] at plain
      have lf : c = '\n' := isBreak.resolve_left (Ne.symm plain.1)
      rw [List.splitOn_cons_eq_if_modifyHead, if_pos (beq_iff_eq.mpr lf), ih plain.2]
  | case4 c rest _ noBreak ih =>
      rw [List.mem_cons, not_or] at plain
      rw [not_or] at noBreak
      rw [List.splitOn_cons_eq_if_modifyHead, if_neg (mt beq_iff_eq.mp noBreak.2), ih plain.2]

theorem cr_not_mem_concat_lf (plain : .char '\r' ∉ s) : .char '\r' ∉ s ++ [.char '\n'] := by
  rw [List.mem_append, not_or]
  exact ⟨plain, by decide⟩

theorem lines_concat_lf (plain : .char '\r' ∉ s) : lines (s ++ [.char '\n']) = lines s ++ [[]] := by
  rw [lines_of_no_cr plain, lines_of_no_cr (cr_not_mem_concat_lf plain),
    List.splitOn_append_cons_self, List.splitOn_nil]

theorem mem_unlines_iff {c : CodePoint} {pieces : List Text} (other : c ≠ '\n') :
    c ∈ unlines pieces ↔ ∃ piece ∈ pieces, c ∈ piece := by
  induction pieces with
  | nil => simp [unlines]
  | cons piece rest ih =>
      cases rest with
      | nil => simp [unlines]
      | cons next rest =>
          rw [unlines] at ih ⊢
          rw [List.intercalate_cons_cons, List.append_assoc, List.mem_append, List.mem_append, ih,
            List.mem_singleton, or_iff_right other]
          simp only [List.mem_cons, exists_eq_or_imp]

end Blocklist.Text
