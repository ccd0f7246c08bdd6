import Blocklist.Proofs.Text.Bare

/-! # Well escaped texts

A text is well escaped for some stops when it is made of pairs of a backslash and the character
behind it, and of single characters that are neither backslashes nor stops. None of the stops cuts
such a text, and it leaves what is put behind it as it is.
-/

namespace Blocklist.Text

/-- A text made of whole units without a bare stop among them. -/
inductive WellEscaped (stops : List CodePoint) : Text → Prop where
  | nil : WellEscaped stops []
  | pair (c : CodePoint) {rest : Text} (behind : WellEscaped stops rest) :
      WellEscaped stops (.char '\\' :: c :: rest)
  | single {c : CodePoint} {rest : Text} (plain : c ≠ '\\') (free : c ∉ stops)
      (behind : WellEscaped stops rest) : WellEscaped stops (c :: rest)

namespace WellEscaped

variable {stops : List CodePoint} {s t : Text}

theorem mono {fewer : List CodePoint} (fewer_subset : fewer ⊆ stops)
    (escaped : WellEscaped stops s) :
    WellEscaped fewer s := by
  induction escaped with
  | nil => exact .nil
  | pair c _ ih => exact .pair c ih
  | single plain free _ ih => exact .single plain (fun stop => free (fewer_subset stop)) ih

theorem append (escaped : WellEscaped stops s) (escaped' : WellEscaped stops t) :
    WellEscaped stops (s ++ t) := by
  induction escaped with
  | nil => exact escaped'
  | pair c _ ih => exact .pair c ih
  | single plain free _ ih => exact .single plain free ih

theorem whole (escaped : WellEscaped stops s) : s.dangles = false := by
  induction escaped with
  | nil => rfl
  | pair c _ ih => simpa [dangles] using ih
  | single plain _ _ ih =>
      rw [dangles, ih, Bool.or_false, beq_eq_false_iff_ne]
      · exact plain
      · exact fun _ _ same _ => plain same

theorem uncut {sep : CodePoint} (escaped : WellEscaped stops s) (stop : sep ∈ stops) :
    (cutBare sep s).2 = none := by
  induction escaped with
  | nil => rfl
  | pair c _ ih => simpa [cutBare] using ih
  | @single c _ plain free _ ih =>
      have other : c ≠ sep := fun same => free (same ▸ stop)
      rw [cutBare_cons plain, if_neg other]
      exact ih

end WellEscaped

theorem wellEscaped_iff {stops : List CodePoint} {s : Text} : WellEscaped stops s ↔
    s.dangles = false ∧ ∀ sep ∈ stops, (cutBare sep s).2 = none := by
  refine ⟨fun escaped => ⟨escaped.whole, fun _ => escaped.uncut⟩, ?_⟩
  rintro ⟨whole, uncut⟩
  fun_induction dangles s with
  | case1 => exact .nil
  | case2 c rest ih =>
      exact .pair c (ih whole fun sep stop => by simpa [cutBare] using uncut sep stop)
  | case3 c rest lone ih =>
      rw [Bool.or_eq_false_iff, beq_eq_false_iff_ne] at whole
      have free : c ∉ stops := fun stop => by
        have cut := uncut c stop
        rw [cutBare_cons whole.1, if_pos rfl] at cut
        cases cut
      refine .single whole.1 free (ih whole.2 fun sep stop => ?_)
      have cut := uncut sep stop
      have other : c ≠ sep := fun same => free (same ▸ stop)
      rw [cutBare_cons whole.1, if_neg other] at cut
      exact cut

instance (stops : List CodePoint) (s : Text) : Decidable (WellEscaped stops s) :=
  decidable_of_iff _ wellEscaped_iff.symm

section Trimming

variable {s : Text}

theorem wellEscaped_of_not_mem (plain : .char '\\' ∉ s) : WellEscaped [] s := by
  induction s with
  | nil => exact .nil
  | cons c rest ih =>
      rw [List.mem_cons, not_or] at plain
      exact .single (Ne.symm plain.1) List.not_mem_nil (ih plain.2)

theorem dangles_append (whole : s.dangles = false) (t : Text) : (s ++ t).dangles = t.dangles := by
  have escaped : WellEscaped [] s := wellEscaped_iff.mpr ⟨whole, List.forall_mem_nil _⟩
  induction escaped with
  | nil => rfl
  | pair c _ ih => simpa [dangles] using ih (by simpa [dangles] using whole)
  | @single c rest plain _ behind ih =>
      rw [List.cons_append, dangles, ih behind.whole, beq_eq_false_iff_ne.mpr plain, Bool.false_or]
      exact fun _ _ same _ => plain same

theorem exists_of_dangles (open' : s.dangles = true) :
    ∃ front, s = front ++ [.char '\\'] ∧ WellEscaped [] front := by
  fun_induction dangles s with
  | case1 => cases open'
  | case2 c rest ih =>
      obtain ⟨front, rfl, escaped⟩ := ih open'
      exact ⟨_ :: _ :: front, rfl, .pair c escaped⟩
  | case3 c rest lone ih =>
      by_cases backslash : c = '\\'
      · cases rest with
        | nil => exact ⟨[], by rw [backslash]; rfl, .nil⟩
        | cons d rest => exact (lone d rest backslash rfl).elim
      · obtain ⟨front, rfl, escaped⟩ := ih (by simpa [backslash] using open')
        exact ⟨c :: front, rfl, .single backslash List.not_mem_nil escaped⟩

/-- The character at a place is none of the blanks around a text. -/
def StaysAt (s : Text) (i : Nat) : Prop :=
  s.leadingBlanks ≤ i ∧ i < s.length - s.trailingBlanks

/-- Trimming takes a blank off and leaves the backslash that protects it. -/
def LaysBare (s : Text) : Prop :=
  ∃ front c back, s = front ++ .char '\\' :: c :: back ∧ WellEscaped [] front ∧ isBlank c ∧
    StaysAt s front.length ∧ ¬StaysAt s (front.length + 1)

/-- A text that trimming leaves with a lone backslash either had it or had a blank behind it. -/
theorem laysBare_of_dangles (whole : s.dangles = false) (open' : s.trimBlanks.dangles = true) :
    LaysBare s := by
  obtain ⟨front, trimmed, escaped⟩ := exists_of_dangles open'
  obtain ⟨a, b, parts, blank, blank'⟩ := exists_blanks_around s
  have units : WellEscaped [] (a ++ front) :=
    (wellEscaped_of_not_mem (not_mem_of_blank (by decide) blank)).append escaped
  rw [trimmed] at parts
  cases b with
  | nil =>
      have ends : s = (a ++ front) ++ [.char '\\'] := by simp [parts]
      rw [ends, dangles_append units.whole] at whole
      cases whole
  | cons c back =>
      have split : s = (a ++ front) ++ .char '\\' :: c :: back := by simp [parts]
      have leading : s.leadingBlanks ≤ (a ++ front).length := by
        rw [split, leadingBlanks_append_cons (by decide)]
        exact leadingBlanks_le_length _
      have trailing : s.trailingBlanks = (c :: back).length := by
        rw [split, trailingBlanks_append_cons (by decide), trailingBlanks,
          leadingBlanks_of_blank fun d isThere => blank' d (List.mem_reverse.mp isThere),
          List.length_reverse]
      have length : s.length = (a ++ front).length + 1 + (c :: back).length := by
        rw [split, List.length_append, List.length_cons]
        omega
      refine ⟨a ++ front, c, back, split, units, blank' c List.mem_cons_self, ?_, ?_⟩
      · simp only [StaysAt]
        omega
      · simp only [StaysAt]
        omega

/-- Trimming lays a backslash bare when it leaves the text with a lone one that it did not end with
    before. -/
theorem laysBare_iff : LaysBare s ↔ s.dangles = false ∧ s.trimBlanks.dangles = true := by
  refine ⟨?_, fun both => laysBare_of_dangles both.1 both.2⟩
  rintro ⟨front, c, back, rfl, escaped, blank, stays, goes⟩
  have trailing : (front ++ .char '\\' :: c :: back).trailingBlanks =
      Text.trailingBlanks (c :: back) :=
    trailingBlanks_append_cons (by decide) _ _
  have nothing : dropEndWhile isBlank (c :: back) = [] := by
    rw [dropEndWhile_isBlank, List.take_eq_nil_iff, Nat.sub_eq_zero_iff_le]
    simp only [StaysAt, trailing, List.length_append, List.length_cons] at stays goes ⊢
    omega
  have unblank : WellEscaped [] (front.dropWhile isBlank) := by
    have indent : WellEscaped [] (front.takeWhile isBlank) :=
      wellEscaped_of_not_mem fun isThere => absurd (List.mem_takeWhile_imp isThere) (by decide)
    have whole := escaped.whole
    rw [← List.takeWhile_append_dropWhile (p := isBlank) (l := front),
      dangles_append indent.whole] at whole
    exact wellEscaped_iff.mpr ⟨whole, List.forall_mem_nil _⟩
  refine ⟨?_, ?_⟩
  · rw [dangles_append escaped.whole]
    have blanks := List.dropWhile_eq_nil_iff.mp (List.reverse_eq_nil_iff.mp nothing)
    have plain : WellEscaped [] back :=
      wellEscaped_of_not_mem fun isThere => absurd (blanks '\\' (by simp [isThere])) (by decide)
    exact (WellEscaped.pair c plain).whole
  · rw [trimBlanks_append_cons (by decide), nothing, dangles_append unblank.whole]
    rfl

instance (s : Text) : Decidable s.LaysBare :=
  decidable_of_iff _ laysBare_iff.symm

theorem dangles_trimBlanks (whole : s.dangles = false) (kept : ¬LaysBare s) :
    s.trimBlanks.dangles = false := by
  rw [laysBare_iff, not_and, Bool.not_eq_true] at kept
  exact kept whole

end Trimming

end Blocklist.Text
