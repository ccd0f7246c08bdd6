import Blocklist.Proofs.Text.Blanks
import Blocklist.Text.Escaped

/-! # Cutting at bare separators

Cutting loses nothing: with the separators between them the pieces are the text again. A text that
ends with a lone backslash takes the character behind it for protected, so what is put behind such a
text does not separate.
-/

namespace Blocklist.Text

variable {sep : CodePoint}

theorem intercalate_append_singleton {sep : Text} {pieces : List Text} (some : pieces ≠ [])
    (last : Text) : sep.intercalate (pieces ++ [last]) = sep.intercalate pieces ++ sep ++ last := by
  induction pieces with
  | nil => exact absurd rfl some
  | cons piece rest ih =>
      cases rest with
      | nil => simp
      | cons next rest =>
          rw [List.cons_append, List.intercalate_cons_of_ne_nil (by simp), ih (by simp),
            List.intercalate_cons_cons]
          simp only [List.append_assoc]

theorem intercalate_splitBare (sep : CodePoint) (s : Text) :
    [sep].intercalate (splitBare sep s) = s := by
  fun_induction splitBare sep s with
  | case1 => rfl
  | case2 c rest ih =>
      obtain ⟨piece, pieces, split⟩ := List.exists_cons_of_ne_nil (splitBare_ne_nil sep rest)
      rw [split] at ih ⊢
      simp [ih]
  | case3 rest _ ih =>
      rw [List.intercalate_cons_of_ne_nil (splitBare_ne_nil sep rest), ih]
      rfl
  | case4 c rest _ other ih =>
      obtain ⟨piece, pieces, split⟩ := List.exists_cons_of_ne_nil (splitBare_ne_nil sep rest)
      rw [split] at ih ⊢
      simp [ih]

theorem cutBare_fst_of_none {s : Text} (uncut : (cutBare sep s).2 = none) :
    (cutBare sep s).1 = s := by
  fun_induction cutBare sep s with
  | case1 => rfl
  | case2 c rest ih => rw [ih uncut]
  | case3 => simp at uncut
  | case4 c rest _ other ih => rw [ih uncut]

theorem cutBare_append_of_some {s back : Text} (cut : (cutBare sep s).2 = some back) :
    (cutBare sep s).1 ++ sep :: back = s := by
  fun_induction cutBare sep s with
  | case1 => simp at cut
  | case2 c rest ih => rw [List.cons_append, List.cons_append, ih cut]
  | case3 rest =>
      simp only [Option.some.injEq] at cut
      rw [cut, List.nil_append]
  | case4 c rest _ other ih => rw [List.cons_append, ih cut]

/-- A text ends with a backslash that stands alone and would protect what comes behind. -/
def dangles : Text → Bool
  | [] => false
  | .char '\\' :: _ :: rest => dangles rest
  | c :: rest => c == '\\' || dangles rest

/-- The pieces of a text, cut off one by one. -/
theorem splitBare_eq (sep : CodePoint) (s : Text) :
    splitBare sep s = (cutBare sep s).1 ::
      match (cutBare sep s).2 with
      | none => []
      | some rest => splitBare sep rest := by
  fun_induction cutBare sep s with
  | case1 => rfl
  | case2 c rest ih => rw [splitBare, ih, List.modifyHead_cons]
  | case3 rest lone => simp [splitBare]
  | case4 c rest lone other ih =>
      rw [splitBare, if_neg other, ih, List.modifyHead_cons]
      exact lone

theorem cutBare_cons {c : CodePoint} (lone : c ≠ '\\') (rest : Text) : cutBare sep (c :: rest) =
    if c = sep then ([], some rest) else (c :: (cutBare sep rest).1, (cutBare sep rest).2) := by
  rw [cutBare]
  exact fun _ _ same _ => lone same

section Appending

variable {s : Text}

theorem cutBare_append_of_cut (bare : sep ≠ '\\') {back : Text}
    (cut : (cutBare sep s).2 = some back) (t : Text) :
    cutBare sep (s ++ t) = ((cutBare sep s).1, some (back ++ t)) := by
  fun_induction cutBare sep s with
  | case1 => cases cut
  | case2 c rest ih => simp [cutBare, ih cut]
  | case3 rest =>
      cases cut
      simp [cutBare_cons bare]
  | case4 c rest lone other ih =>
      have plain : c ≠ '\\' := by
        rintro rfl
        cases rest with
        | nil => cases cut
        | cons d rest => exact lone d rest rfl rfl
      simp [cutBare_cons plain, other, ih cut]

theorem cutBare_append (uncut : (cutBare sep s).2 = none) (whole : s.dangles = false) (t : Text) :
    cutBare sep (s ++ t) = (s ++ (cutBare sep t).1, (cutBare sep t).2) := by
  fun_induction cutBare sep s with
  | case1 => rfl
  | case2 c rest ih => simp [cutBare, ih uncut whole]
  | case3 => cases uncut
  | case4 c rest lone other ih =>
      rw [dangles, Bool.or_eq_false_iff] at whole
      · have plain : c ≠ '\\' := by simpa using whole.1
        simp [cutBare_cons plain, other, ih uncut whole.2]
      · exact lone

/-- A text that dangles protects the character behind it. -/
theorem cutBare_append_cons (uncut : (cutBare sep s).2 = none) (open' : s.dangles = true)
    (c : CodePoint) (t : Text) :
    cutBare sep (s ++ c :: t) = (s ++ c :: (cutBare sep t).1, (cutBare sep t).2) := by
  fun_induction cutBare sep s with
  | case1 => cases open'
  | case2 d rest ih => simp [cutBare, ih uncut open']
  | case3 => cases uncut
  | case4 d rest lone other ih =>
      rw [dangles, Bool.or_eq_true] at open'
      · rcases open' with backslash | later
        · have same : d = '\\' := by simpa using backslash
          cases rest with
          | nil => simp [same, cutBare]
          | cons e rest => exact (lone e rest same rfl).elim
        · have plain : d ≠ '\\' := by
            rintro rfl
            cases rest with
            | nil => cases later
            | cons e rest => exact lone e rest rfl rfl
          simp [cutBare_cons plain, other, ih uncut later]
      · exact lone

theorem cutBare_append_cons_snd (uncut : (cutBare sep s).2 = none) {c : CodePoint} (lone : c ≠ '\\')
    (other : c ≠ sep) (t : Text) : (cutBare sep (s ++ c :: t)).2 = (cutBare sep t).2 := by
  cases ends : s.dangles with
  | true => rw [cutBare_append_cons uncut ends]
  | false => rw [cutBare_append uncut ends, cutBare_cons lone, if_neg other]

theorem uncut_of_not_mem (free : sep ∉ s) : (cutBare sep s).2 = none := by
  cases cut : (cutBare sep s).2 with
  | none => rfl
  | some back =>
      rw [← cutBare_append_of_some cut] at free
      exact absurd (List.mem_append_right _ List.mem_cons_self) free

theorem uncut_append {t : Text} (uncut : (cutBare sep s).2 = none) (free : sep ∉ t) :
    (cutBare sep (s ++ t)).2 = none := by
  cases ends : s.dangles with
  | false => rw [cutBare_append uncut ends, uncut_of_not_mem free]
  | true =>
      cases t with
      | nil => rw [List.append_nil, uncut]
      | cons c rest =>
          rw [cutBare_append_cons uncut ends, uncut_of_not_mem fun later =>
            free (List.mem_cons_of_mem c later)]

theorem cutBare_of_append (bare : sep ≠ '\\') {t : Text}
    (uncut : (cutBare sep (s ++ t)).2 = none) : (cutBare sep s).2 = none := by
  cases cut : (cutBare sep s).2 with
  | none => rfl
  | some back =>
      rw [cutBare_append_of_cut bare cut] at uncut
      cases uncut

theorem cutBare_of_append_left {a : Text} (plain : .char '\\' ∉ a)
    (uncut : (cutBare sep (a ++ s)).2 = none) : (cutBare sep s).2 = none := by
  induction a with
  | nil => exact uncut
  | cons c rest ih =>
      rw [List.mem_cons, not_or] at plain
      rw [List.cons_append, cutBare_cons (Ne.symm plain.1)] at uncut
      split at uncut
      · cases uncut
      · exact ih plain.2 uncut

theorem cutBare_trimBlanks (bare : sep ≠ '\\') (uncut : (cutBare sep s).2 = none) :
    (cutBare sep s.trimBlanks).2 = none := by
  obtain ⟨a, b, whole, blank, -⟩ := exists_blanks_around s
  have plain : .char '\\' ∉ a := not_mem_of_blank (by decide) blank
  rw [whole] at uncut
  exact cutBare_of_append bare (cutBare_of_append_left plain uncut)

theorem cutBare_cutBare_fst (sep : CodePoint) (s : Text) :
    (cutBare sep (cutBare sep s).1).2 = none := by
  fun_induction cutBare sep s with
  | case1 => rfl
  | case2 c rest ih => simpa [cutBare] using ih
  | case3 rest => rfl
  | case4 c rest lone other ih =>
      by_cases backslash : c = '\\'
      · subst backslash
        cases rest with
        | nil => simp [cutBare, other]
        | cons d rest => exact (lone d rest rfl rfl).elim
      · rw [cutBare_cons backslash, if_neg other]
        exact ih

theorem cutBare_of_mem_splitBare {s piece : Text} (isThere : piece ∈ splitBare sep s) :
    (cutBare sep piece).2 = none := by
  rw [splitBare_eq] at isThere
  rcases List.mem_cons.mp isThere with rfl | later
  · exact cutBare_cutBare_fst sep s
  · cases cut : (cutBare sep s).2 with
    | none => simp [cut] at later
    | some rest =>
        have whole := congrArg List.length (cutBare_append_of_some cut)
        have shorter : rest.length < s.length := by
          rw [List.length_append, List.length_cons] at whole
          omega
        rw [cut] at later
        exact cutBare_of_mem_splitBare later
termination_by s.length

theorem dangles_cutBare_fst {s back : Text} (cut : (cutBare sep s).2 = some back) :
    (cutBare sep s).1.dangles = false := by
  fun_induction cutBare sep s with
  | case1 => cases cut
  | case2 c rest ih => simpa [dangles] using ih cut
  | case3 => rfl
  | case4 c rest lone other ih =>
      have plain : c ≠ '\\' := by
        rintro rfl
        cases rest with
        | nil => cases cut
        | cons d rest => exact lone d rest rfl rfl
      rw [dangles, ih cut, Bool.or_false, beq_eq_false_iff_ne]
      · exact plain
      · exact fun _ _ same _ => plain same

/-- Only the last piece of a text may end with a lone backslash. -/
theorem dangles_of_mem_splitBare {s piece : Text} (isThere : piece ∈ (splitBare sep s).dropLast) :
    piece.dangles = false := by
  rw [splitBare_eq] at isThere
  cases cut : (cutBare sep s).2 with
  | none => simp [cut] at isThere
  | some rest =>
      have shorter : rest.length < s.length := by
        have whole := congrArg List.length (cutBare_append_of_some cut)
        rw [List.length_append, List.length_cons] at whole
        omega
      simp only [cut, List.dropLast_cons_of_ne_nil (splitBare_ne_nil sep rest),
        List.mem_cons] at isThere
      rcases isThere with rfl | later
      · exact dangles_cutBare_fst cut
      · exact dangles_of_mem_splitBare later
termination_by s.length

theorem splitBare_of_uncut (uncut : (cutBare sep s).2 = none) : splitBare sep s = [s] := by
  rw [splitBare_eq, uncut, cutBare_fst_of_none uncut]

theorem exists_splitBare_append (bare : sep ≠ '\\') (s : Text) {t : Text} (free : sep ∉ t) :
    ∃ pieces last, splitBare sep s = pieces ++ [last] ∧
      splitBare sep (s ++ t) = pieces ++ [last ++ t] := by
  cases cut : (cutBare sep s).2 with
  | none => exact ⟨[], s, splitBare_of_uncut cut, splitBare_of_uncut (uncut_append cut free)⟩
  | some rest =>
      have shorter : rest.length < s.length := by
        have whole := congrArg List.length (cutBare_append_of_some cut)
        rw [List.length_append, List.length_cons] at whole
        omega
      obtain ⟨pieces, last, split, split'⟩ := exists_splitBare_append bare rest free
      refine ⟨(cutBare sep s).1 :: pieces, last, ?_, ?_⟩
      · rw [splitBare_eq, cut, List.cons_append, ← split]
      · rw [splitBare_eq, cutBare_append_of_cut bare cut, List.cons_append, ← split']
termination_by s.length

theorem splitBare_append_cons (bare : sep ≠ '\\') (uncut : (cutBare sep s).2 = none) (t : Text) :
    splitBare sep (s ++ sep :: t) =
      if s.dangles then (splitBare sep t).modifyHead (s ++ sep :: ·) else s :: splitBare sep t := by
  cases ends : s.dangles with
  | true =>
      rw [splitBare_eq, cutBare_append_cons uncut ends, splitBare_eq sep t, if_pos rfl,
        List.modifyHead_cons]
  | false =>
      rw [splitBare_eq, cutBare_append uncut ends, cutBare_cons bare, if_pos rfl]
      simp

/-- Pieces without bare separators are found again between the separators, as long as none but the
    last one protects what comes behind. -/
theorem splitBare_intercalate (bare : sep ≠ '\\') {pieces : List Text} (some : pieces ≠ [])
    (uncut : ∀ piece ∈ pieces, (cutBare sep piece).2 = none)
    (whole : ∀ piece ∈ pieces.dropLast, piece.dangles = false) :
    splitBare sep ([sep].intercalate pieces) = pieces := by
  induction pieces with
  | nil => exact absurd rfl some
  | cons piece rest ih =>
      rw [List.forall_mem_cons] at uncut
      cases rest with
      | nil => rw [List.intercalate_singleton, splitBare_of_uncut uncut.1]
      | cons next rest =>
          rw [List.dropLast_cons_cons, List.forall_mem_cons] at whole
          rw [List.intercalate_cons_cons, List.append_assoc, List.singleton_append,
            splitBare_append_cons bare uncut.1, whole.1, if_neg Bool.false_ne_true,
            ih (by simp) uncut.2 whole.2]

end Appending

end Blocklist.Text
