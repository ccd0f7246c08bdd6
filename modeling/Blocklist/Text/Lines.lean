import Blocklist.Text.Basic

/-! # Lines

A list file breaks its lines at CR LF, at a lone CR, or at a lone LF. Splitting keeps the empty line
after a final break, so a text always has at least one line. Once the breaks are unified, the lines
are the pieces between LFs.
-/

namespace Blocklist.Text

/-- The lines of a text, whatever breaks them. -/
def lines : Text → List Text
  | [] => [[]]
  | .char '\r' :: .char '\n' :: rest => [] :: lines rest
  | c :: rest =>
      if c = '\r' ∨ c = '\n' then [] :: lines rest else (lines rest).modifyHead (c :: ·)

/-- Write every line break as a lone LF. -/
def unifyBreaks : Text → Text
  | [] => []
  | .char '\r' :: .char '\n' :: rest => .char '\n' :: unifyBreaks rest
  | c :: rest => (if c = '\r' then .char '\n' else c) :: unifyBreaks rest

/-- Write texts as lines, with an LF between neighbours. -/
def unlines (pieces : List Text) : Text :=
  [.char '\n'].intercalate pieces

theorem unlines_splitOn (s : Text) : unlines (s.splitOn (.char '\n')) = s :=
  List.intercalate_splitOn _

theorem not_mem_of_mem_splitOn {s piece : Text} (among : piece ∈ s.splitOn (.char '\n')) :
    .char '\n' ∉ piece := by
  induction s generalizing piece with
  | nil =>
      rw [List.splitOn_nil, List.mem_singleton] at among
      rw [among]
      exact List.not_mem_nil
  | cons c rest ih =>
      rw [List.splitOn_cons_eq_if_modifyHead] at among
      split at among
      · rcases List.mem_cons.mp among with rfl | later
        · exact List.not_mem_nil
        · exact ih later
      · next other =>
          obtain ⟨first, pieces, split⟩ := List.exists_cons_of_ne_nil
            (List.splitOn_ne_nil _ rest)
          rw [split] at ih
          rw [split, List.modifyHead_cons] at among
          rcases List.mem_cons.mp among with rfl | later
          · simpa [ih List.mem_cons_self] using Ne.symm (by simpa using other)
          · exact ih (List.mem_cons_of_mem _ later)

theorem splitOn_unlines {pieces : List Text} (some : pieces ≠ [])
    (whole : ∀ piece ∈ pieces, .char '\n' ∉ piece) :
    (unlines pieces).splitOn (.char '\n') = pieces :=
  List.splitOn_intercalate _ whole some

end Blocklist.Text
