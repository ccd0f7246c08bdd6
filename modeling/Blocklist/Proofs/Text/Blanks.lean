import Blocklist.Text.Basic
import Mathlib.Data.List.DropRight

/-! # Trimming blanks

Blanks are trimmed up to the first and from the last character that is not blank, so such a
character parts what happens in front of it from what happens behind it.
-/

namespace Blocklist.Text

variable {p : CodePoint → Bool} {s t : Text} {c : CodePoint}

/-- Whether something holds of the characters of a text is decided by looking at them alone, not at
    all the characters there are. -/
instance (p : CodePoint → Prop) [DecidablePred p] (s : Text) : Decidable (∀ c ∈ s, p c) :=
  List.decidableBAll p s

/-- A text neither starts nor ends with a blank. -/
structure Trimmed (s : Text) : Prop where
  first : ∀ c ∈ s.head?, isBlank c = false
  last : ∀ c ∈ s.getLast?, isBlank c = false

theorem not_mem_of_blank (visible : isBlank c = false) (blank : ∀ d ∈ s, isBlank d) : c ∉ s := by
  intro isThere
  rw [blank c isThere] at visible
  cases visible

theorem dropWhile_append_cons (stops : p c = false) (s t : Text) :
    (s ++ c :: t).dropWhile p = s.dropWhile p ++ c :: t := by
  induction s with
  | nil => simp [stops]
  | cons d rest ih =>
      by_cases passes : p d
      · simp [passes, ih]
      · simp [passes]

theorem takeWhile_append_cons (stops : p c = false) (s t : Text) :
    (s ++ c :: t).takeWhile p = s.takeWhile p := by
  induction s with
  | nil => simp [stops]
  | cons d rest ih =>
      by_cases passes : p d
      · simp [passes, ih]
      · simp [passes]

theorem dropEndWhile_append_cons (stops : p c = false) (s t : Text) :
    dropEndWhile p (s ++ c :: t) = s ++ c :: dropEndWhile p t := by
  have parts : (s ++ c :: t).reverse = t.reverse ++ c :: s.reverse := by simp
  rw [dropEndWhile, parts, dropWhile_append_cons stops]
  simp [dropEndWhile]

theorem dropEndWhile_append_of_stops (stops : ∀ c ∈ s, p c = false) (t : Text) :
    dropEndWhile p (s ++ t) = s ++ dropEndWhile p t := by
  induction s with
  | nil => rfl
  | cons c rest ih =>
      rw [List.forall_mem_cons] at stops
      have front := dropEndWhile_append_cons stops.1 [] (rest ++ t)
      rw [ih stops.2] at front
      exact front

theorem trimBlanks_append_cons (stops : isBlank c = false) (s t : Text) :
    trimBlanks (s ++ c :: t) = s.dropWhile isBlank ++ c :: dropEndWhile isBlank t := by
  rw [trimBlanks, dropEdgesWhile, dropWhile_append_cons stops, dropEndWhile_append_cons stops]

theorem leadingBlanks_append_cons (stops : isBlank c = false) (s t : Text) :
    leadingBlanks (s ++ c :: t) = leadingBlanks s := by
  rw [leadingBlanks, takeWhile_append_cons stops, leadingBlanks]

theorem trailingBlanks_append_cons (stops : isBlank c = false) (s t : Text) :
    trailingBlanks (s ++ c :: t) = trailingBlanks t := by
  have parts : (s ++ c :: t).reverse = t.reverse ++ c :: s.reverse := by simp
  rw [trailingBlanks, parts, leadingBlanks_append_cons stops, trailingBlanks]

theorem head?_dropWhile_stops (p : CodePoint → Bool) (s : Text) :
    ∀ c ∈ (s.dropWhile p).head?, p c = false := by
  intro c first
  have stops := List.head?_dropWhile_not p s
  rw [first] at stops
  exact stops

/-- All of a text passes the test, or the first character that does not can be pointed out. -/
theorem passes_or_split (p : CodePoint → Bool) (s : Text) :
    (∀ c ∈ s, p c) ∨ ∃ a c b, s = a ++ c :: b ∧ (∀ d ∈ a, p d) ∧ p c = false := by
  cases drop : s.dropWhile p with
  | nil => exact .inl (List.dropWhile_eq_nil_iff.mp drop)
  | cons c b =>
      refine .inr ⟨s.takeWhile p, c, b, ?_, fun d => List.mem_takeWhile_imp, ?_⟩
      · rw [← drop, List.takeWhile_append_dropWhile]
      · exact head?_dropWhile_stops p s c (by rw [drop, List.head?_cons]; rfl)

theorem dropWhile_isBlank (s : Text) : s.dropWhile isBlank = s.drop (leadingBlanks s) := by
  calc
    s.dropWhile isBlank
      = (s.takeWhile isBlank ++ s.dropWhile isBlank).drop (leadingBlanks s) :=
          List.drop_left.symm
    _ = s.drop (leadingBlanks s) := by rw [List.takeWhile_append_dropWhile]

theorem dropEndWhile_isBlank (s : Text) :
    dropEndWhile isBlank s = s.take (s.length - trailingBlanks s) := by
  rw [dropEndWhile, dropWhile_isBlank, List.drop_reverse, List.reverse_reverse, trailingBlanks]

theorem leadingBlanks_of_blank (blank : ∀ c ∈ s, isBlank c) : leadingBlanks s = s.length := by
  rw [leadingBlanks, List.takeWhile_eq_self_iff.mpr blank]

theorem trimBlanks_eq_drop_take (s : Text) :
    trimBlanks s = (s.take (s.length - trailingBlanks s)).drop (leadingBlanks s) := by
  rw [trimBlanks, dropEdgesWhile, dropWhile_isBlank, dropEndWhile_isBlank]
  obtain blank | ⟨a, c, b, rfl, blank, stops⟩ := passes_or_split isBlank s
  · simp [leadingBlanks_of_blank blank, List.drop_eq_nil_of_le]
  · have drop : (a ++ c :: b).drop (leadingBlanks (a ++ c :: b)) = c :: b := by
      rw [leadingBlanks_append_cons stops, leadingBlanks_of_blank blank, List.drop_left]
    have same := trailingBlanks_append_cons stops [] b
    rw [List.nil_append] at same
    rw [List.drop_take, drop, same, trailingBlanks_append_cons stops,
      leadingBlanks_append_cons stops, leadingBlanks_of_blank blank]
    congr 1
    simp only [List.length_append]
    omega

/-- What is dropped from the two ends passes the test, and nothing else is dropped. -/
theorem exists_dropped_around (p : CodePoint → Bool) (s : Text) :
    ∃ a b, s = a ++ (dropEdgesWhile p s ++ b) ∧ (∀ c ∈ a, p c) ∧ ∀ c ∈ b, p c := by
  refine ⟨s.takeWhile p, (s.dropWhile p).rtakeWhile p, ?_, fun c => List.mem_takeWhile_imp,
    fun c => List.mem_rtakeWhile_imp⟩
  have back : dropEdgesWhile p s ++ (s.dropWhile p).rtakeWhile p = s.dropWhile p :=
    List.rdropWhile_append_rtakeWhile
  rw [back, List.takeWhile_append_dropWhile]

theorem exists_blanks_around (s : Text) :
    ∃ a b, s = a ++ (trimBlanks s ++ b) ∧ (∀ c ∈ a, isBlank c) ∧ ∀ c ∈ b, isBlank c :=
  exists_dropped_around isBlank s

theorem getLast?_dropEndWhile_stops (p : CodePoint → Bool) (s : Text) :
    ∀ c ∈ (dropEndWhile p s).getLast?, p c = false := by
  rw [dropEndWhile, List.getLast?_reverse]
  exact head?_dropWhile_stops p s.reverse

theorem head?_dropEdgesWhile_stops (p : CodePoint → Bool) (s : Text) :
    ∀ c ∈ (dropEdgesWhile p s).head?, p c = false := by
  intro c first
  obtain ⟨back, whole⟩ : dropEdgesWhile p s <+: s.dropWhile p := List.rdropWhile_prefix p _
  apply head?_dropWhile_stops p s
  rw [← whole, List.head?_append, first]
  rfl

theorem leadingBlanks_eq_zero_iff : leadingBlanks s = 0 ↔ ∀ c ∈ s.head?, isBlank c = false := by
  cases s with
  | nil => simp [leadingBlanks]
  | cons c rest => simp [leadingBlanks, List.takeWhile_cons]

theorem leadingBlanks_dropWhile (s : Text) : leadingBlanks (s.dropWhile isBlank) = 0 :=
  leadingBlanks_eq_zero_iff.mpr (head?_dropWhile_stops isBlank s)

theorem trailingBlanks_eq_zero_iff :
    trailingBlanks s = 0 ↔ ∀ c ∈ s.getLast?, isBlank c = false := by
  rw [trailingBlanks, leadingBlanks_eq_zero_iff, List.head?_reverse]

theorem trimBlanks_of_trimmed (trimmed : Trimmed s) : trimBlanks s = s := by
  rw [trimBlanks_eq_drop_take, leadingBlanks_eq_zero_iff.mpr trimmed.first,
    trailingBlanks_eq_zero_iff.mpr trimmed.last]
  simp

theorem trimmed_trimBlanks (s : Text) : Trimmed (trimBlanks s) where
  first := head?_dropEdgesWhile_stops isBlank s
  last := getLast?_dropEndWhile_stops isBlank (s.dropWhile isBlank)

theorem dropWhile_trimBlanks (s : Text) : s.trimBlanks.dropWhile isBlank = s.trimBlanks := by
  rw [dropWhile_isBlank, leadingBlanks_eq_zero_iff.mpr (trimmed_trimBlanks s).first, List.drop_zero]

theorem trimmed_append_cons (stops : isBlank c = false) (first : ∀ d ∈ s.head?, isBlank d = false)
    (last : ∀ d ∈ t.getLast?, isBlank d = false) : Trimmed (s ++ c :: t) where
  first := by
    cases s with
    | nil => simpa using stops
    | cons d rest => simpa using first
  last := by
    rw [List.getLast?_append_cons]
    cases t with
    | nil => simp [stops]
    | cons d rest => simpa [List.getLast?_cons_cons] using last

theorem trimBlanks_eq_nil_iff : trimBlanks s = [] ↔ ∀ c ∈ s, isBlank c := by
  obtain blank | ⟨a, c, b, rfl, -, stops⟩ := passes_or_split isBlank s
  · have nothing : s.dropWhile isBlank = [] := List.dropWhile_eq_nil_iff.mpr blank
    exact iff_of_true (by simp [trimBlanks, dropEdgesWhile, nothing]) blank
  · rw [trimBlanks_append_cons stops]
    refine iff_of_false (by simp) fun blank => ?_
    rw [blank c (by simp)] at stops
    cases stops

theorem trimBlanks_around {a b : Text} (blank : ∀ c ∈ a, isBlank c) (blank' : ∀ c ∈ b, isBlank c)
    (s : Text) : trimBlanks (a ++ (s ++ b)) = trimBlanks s := by
  obtain inside | ⟨x, c, y, rfl, -, stops⟩ := passes_or_split isBlank s
  · rw [trimBlanks_eq_nil_iff.mpr inside, trimBlanks_eq_nil_iff]
    exact List.forall_mem_append.mpr ⟨blank, List.forall_mem_append.mpr ⟨inside, blank'⟩⟩
  · have back : ∀ d ∈ b.reverse, isBlank d :=
      fun d isThere => blank' d (List.mem_reverse.mp isThere)
    have ending : dropEndWhile isBlank (y ++ b) = dropEndWhile isBlank y := by
      rw [dropEndWhile, List.reverse_append, List.dropWhile_append_of_pos back, dropEndWhile]
    have whole : a ++ (x ++ c :: y ++ b) = a ++ x ++ c :: (y ++ b) := by simp
    rw [whole, trimBlanks_append_cons stops, trimBlanks_append_cons stops, ending,
      List.dropWhile_append_of_pos blank]

theorem trimBlanks_eq_self_iff : trimBlanks s = s ↔ Trimmed s :=
  ⟨fun same => same ▸ trimmed_trimBlanks s, trimBlanks_of_trimmed⟩

end Blocklist.Text
