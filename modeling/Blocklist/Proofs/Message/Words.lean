import Blocklist.Message
import Blocklist.Proofs.Text.Blanks
import Mathlib.Data.List.Chain

/-! # The words of a message

The words of a message are its longest stretches without a gap. A gap cuts them apart, so what is
done to the gaps leaves the words alone. A message without any gaps but single spaces between its
words is spelled by its words, and on one line a message is such a one.
-/

namespace Blocklist.Message

variable {s t w a b : Text} {c d : CodePoint}

/-- The longest stretches of a message without a gap, in their order. -/
def words (s : Text) : List Text :=
  (s.splitOnP isGap).filter (· ≠ [])

section Words

/-- A message is read from gap to gap. -/
@[elab_as_elim]
theorem gap_induction {motive : Text → Prop}
    (last : ∀ w, (∀ c ∈ w, isGap c = false) → motive w)
    (gap : ∀ w c s, (∀ d ∈ w, isGap d = false) → isGap c → motive s → motive (w ++ c :: s))
    (s : Text) : motive s := by
  obtain free | ⟨w, c, rest, whole, free, gapped⟩ := Text.passes_or_split (!isGap ·) s
  · exact last s (by simpa using free)
  · rw [whole]
    exact gap w c rest (by simpa using free) (by simpa using gapped)
      (gap_induction last gap rest)
termination_by s.length
decreasing_by
  simp only [whole, List.length_append, List.length_cons]
  omega

@[simp] theorem words_nil : words [] = [] := by
  simp [words]

theorem words_append_cons (gap : isGap c) (a b : Text) :
    words (a ++ c :: b) = words a ++ words b := by
  rw [words, List.splitOnP_append_cons _ _ gap, List.filter_append, words, words]

theorem words_cons (gap : isGap c) (s : Text) : words (c :: s) = words s :=
  words_append_cons gap [] s

theorem words_of_no_gap (free : ∀ c ∈ w, isGap c = false) (some : w ≠ []) : words w = [w] := by
  rw [words, List.splitOnP_eq_singleton free]
  exact List.filter_cons_of_pos (by simpa using some)

theorem words_of_gaps_append (gaps : ∀ c ∈ a, isGap c) (s : Text) : words (a ++ s) = words s := by
  induction a with
  | nil => rfl
  | cons c rest ih =>
      rw [List.forall_mem_cons] at gaps
      rw [List.cons_append, words_cons gaps.1, ih gaps.2]

theorem words_append_of_gaps (gaps : ∀ c ∈ b, isGap c) (s : Text) : words (s ++ b) = words s := by
  cases b with
  | nil => rw [List.append_nil]
  | cons c rest =>
      have behind := words_of_gaps_append (List.forall_mem_of_forall_mem_cons gaps) []
      rw [List.append_nil, words_nil] at behind
      rw [words_append_cons (gaps c List.mem_cons_self), behind, List.append_nil]

theorem words_dropEdgesWhile {p : CodePoint → Bool} (gaps : ∀ c, p c → isGap c) (s : Text) :
    words (Text.dropEdgesWhile p s) = words s := by
  obtain ⟨a, b, whole, front, back⟩ := Text.exists_dropped_around p s
  rw [whole, words_of_gaps_append fun c isThere => gaps c (front c isThere),
    words_append_of_gaps fun c isThere => gaps c (back c isThere), ← whole]

theorem words_append_left (ends : ∀ c ∈ a.getLast?, isGap c) (s : Text) :
    words (a ++ s) = words a ++ words s := by
  obtain rfl | ⟨front, c, rfl⟩ := List.eq_nil_or_concat' a
  · rfl
  · have gap : isGap c := ends c (List.getLast?_concat ..)
    rw [List.append_assoc, List.singleton_append, words_append_cons gap, words_append_cons gap,
      words_nil, List.append_nil]

theorem words_append_right (starts : ∀ c ∈ b.head?, isGap c) (s : Text) :
    words (s ++ b) = words s ++ words b := by
  cases b with
  | nil => rw [List.append_nil, words_nil, List.append_nil]
  | cons c rest =>
      have gap : isGap c := starts c rfl
      rw [words_append_cons gap, words_cons gap]

/-- A word is a stretch without gaps that cannot be made longer. -/
theorem mem_words_iff : w ∈ words s ↔ w ≠ [] ∧ (∀ c ∈ w, isGap c = false) ∧
    ∃ a b, s = a ++ (w ++ b) ∧ (∀ c ∈ a.getLast?, isGap c) ∧ ∀ c ∈ b.head?, isGap c := by
  constructor
  · intro isThere
    induction s using gap_induction with
    | last v free =>
        by_cases some : v = []
        · simp [some] at isThere
        · rw [words_of_no_gap free some, List.mem_singleton] at isThere
          subst isThere
          exact ⟨some, free, [], [], by simp, by simp, by simp⟩
    | gap v c rest free gap ih =>
        rw [words_append_cons gap, List.mem_append] at isThere
        rcases isThere with front | behind
        · by_cases some : v = []
          · simp [some] at front
          · rw [words_of_no_gap free some, List.mem_singleton] at front
            subst front
            exact ⟨some, free, [], c :: rest, rfl, by simp, by simpa using gap⟩
        · obtain ⟨some, whole, a, b, rfl, ends, starts⟩ := ih behind
          refine ⟨some, whole, v ++ c :: a, b, by simp, ?_, starts⟩
          cases a with
          | nil => simpa using gap
          | cons d a => simpa [List.getLast?_cons_cons] using ends
  · rintro ⟨some, free, a, b, rfl, ends, starts⟩
    rw [words_append_left ends, words_append_right starts, words_of_no_gap free some]
    simp

/-- Behind any text, also one that ends inside a word, the two make for the same words. -/
def Alike (s t : Text) : Prop :=
  ∀ a, words (a ++ s) = words (a ++ t)

theorem Alike.refl (s : Text) : Alike s s :=
  fun _ => rfl

theorem Alike.words (alike : Alike s t) : words s = words t :=
  alike []

theorem Alike.cons (alike : Alike s t) (c : CodePoint) : Alike (c :: s) (c :: t) := by
  intro a
  have behind := alike (a ++ [c])
  simpa only [List.append_assoc, List.singleton_append] using behind

theorem Alike.gap (gap : isGap c) (gap' : isGap d) (same : Message.words s = Message.words t) :
    Alike (c :: s) (d :: t) := by
  intro a
  rw [words_append_cons gap, words_append_cons gap', same]

end Words

/-- The only gaps of a message are single spaces. -/
structure Spaced (s : Text) : Prop where
  plain : ∀ c ∈ s, isGap c → c = ' '
  single : s.IsChain fun c d : CodePoint => c = ' ' → d ≠ ' '

/-- The only gaps of a message are single spaces between words. -/
structure Tidy (s : Text) : Prop extends Spaced s where
  first : ∀ c ∈ s.head?, c ≠ ' '
  last : ∀ c ∈ s.getLast?, c ≠ ' '

theorem Spaced.nil : Spaced [] :=
  ⟨List.forall_mem_nil _, .nil⟩

theorem Spaced.cons (spaced : Spaced s) (plain : isGap c → c = ' ')
    (single : c = ' ' → ∀ d ∈ s.head?, d ≠ ' ') : Spaced (c :: s) where
  plain := List.forall_mem_cons.mpr ⟨plain, spaced.plain⟩
  single := List.isChain_cons.mpr ⟨fun d first same => single same d first, spaced.single⟩

theorem Spaced.of_infix (spaced : Spaced s) (inside : t <:+: s) : Spaced t where
  plain c isThere := spaced.plain c (inside.subset isThere)
  single := spaced.single.infix inside

theorem ne_space_of_no_gap (free : isGap c = false) : c ≠ ' ' := by
  rintro rfl
  exact absurd free (by decide)

theorem Tidy.behind (tidy : Tidy (w ++ c :: s)) (gap : isGap c) :
    c = ' ' ∧ w ≠ [] ∧ s ≠ [] ∧ Tidy s := by
  have space : c = ' ' := tidy.plain c (by simp) gap
  subst space
  have more : s ≠ [] := by
    rintro rfl
    exact tidy.last ' ' (by simp) rfl
  refine ⟨rfl, ?_, more, ⟨tidy.of_infix ⟨w ++ [.char ' '], [], by simp⟩, ?_, ?_⟩⟩
  · rintro rfl
    exact tidy.first ' ' rfl rfl
  · have chain := (List.isChain_append.mp tidy.single).2.1
    exact fun c first => (List.isChain_cons.mp chain).1 c first rfl
  · obtain ⟨front, d, rfl⟩ := (List.eq_nil_or_concat' s).resolve_left more
    intro c last
    rw [List.getLast?_concat] at last
    refine tidy.last c ?_
    rw [← List.cons_append, ← List.append_assoc, List.getLast?_concat]
    exact last

theorem Tidy.intercalate_words (tidy : Tidy s) : [.char ' '].intercalate (words s) = s := by
  induction s using gap_induction with
  | last w free =>
      by_cases some : w = []
      · rw [some, words_nil, List.intercalate_nil]
      · rw [words_of_no_gap free some, List.intercalate_singleton]
  | gap w c s free gap ih =>
      obtain ⟨rfl, front, back, behind⟩ := tidy.behind gap
      have spelled := ih behind
      have more : words s ≠ [] := by
        intro none
        rw [none, List.intercalate_nil] at spelled
        exact back spelled.symm
      rw [words_append_cons gap, words_of_no_gap free front, List.singleton_append,
        List.intercalate_cons_of_ne_nil more, spelled, List.append_assoc, List.singleton_append]

section OneLine

theorem isGap_of_isSpace (space : Text.isSpace c) : isGap c := by
  simp [isGap, space]

theorem isSpace_space : Text.isSpace ' ' := by
  decide +kernel

theorem ne_space_of_not_isSpace (word : Text.isSpace c = false) : c ≠ ' ' := by
  rintro rfl
  rw [isSpace_space] at word
  cases word

theorem Spaced.trimSpaces (spaced : Spaced s) : Tidy (Text.trimSpaces s) where
  toSpaced := by
    obtain ⟨a, b, whole, -, -⟩ := Text.exists_dropped_around Text.isSpace s
    exact spaced.of_infix ⟨a, b, by rw [List.append_assoc]; exact whole.symm⟩
  first c first := ne_space_of_not_isSpace (Text.head?_dropEdgesWhile_stops Text.isSpace s c first)
  last c last := ne_space_of_not_isSpace (Text.getLast?_dropEndWhile_stops Text.isSpace _ c last)

theorem words_trimSpaces (s : Text) : words (Text.trimSpaces s) = words s :=
  words_dropEdgesWhile (fun _ => isGap_of_isSpace) s

theorem isGap_space : isGap ' ' :=
  isGap_of_isSpace isSpace_space

/-- Squeezing the gaps of a message leaves its words alone. -/
theorem squeeze_alike (s : Text) : Alike (squeeze s) s := by
  fun_induction squeeze s with
  | case1 => exact .refl []
  | case2 c =>
      split
      · next gap => exact .gap isGap_space gap rfl
      · exact .refl [c]
  | case3 c d rest gap gap' ih =>
      -- the second of two gaps takes the place of both
      have fewer : Alike (d :: rest) (c :: d :: rest) := .gap gap' gap (words_cons gap' rest).symm
      exact fun a => (ih a).trans (fewer a)
  | case4 c d rest gap word ih => exact .gap isGap_space gap ih.words
  | case5 c d rest word ih => exact ih.cons c

theorem head?_squeeze (word : isGap c = false) (s : Text) :
    (squeeze (c :: s)).head? = some c := by
  cases s <;> simp [squeeze, word]

theorem spaced_squeeze (s : Text) : Spaced (squeeze s) := by
  fun_induction squeeze s with
  | case1 => exact .nil
  | case2 c =>
      split
      · exact Spaced.nil.cons (fun _ => rfl) (by simp)
      · next word => exact Spaced.nil.cons (fun gap => absurd gap word) (by simp)
  | case3 c d rest gap gap' ih => exact ih
  | case4 c d rest gap word ih =>
      rw [Bool.not_eq_true] at word
      refine ih.cons (fun _ => rfl) fun _ e first => ?_
      rw [head?_squeeze word] at first
      cases first
      exact ne_space_of_no_gap word
  | case5 c d rest word ih =>
      rw [Bool.not_eq_true] at word
      exact ih.cons (fun gap => by rw [word] at gap; cases gap)
        fun same => absurd same (ne_space_of_no_gap word)

theorem tidy_oneLine (s : Text) : Tidy (oneLine s) :=
  (spaced_squeeze s).trimSpaces

theorem words_oneLine (s : Text) : words (oneLine s) = words s :=
  (words_trimSpaces _).trans (squeeze_alike s).words

/-- On one line a message is its words with single spaces between them. -/
theorem oneLine_eq (s : Text) : oneLine s = [.char ' '].intercalate (words s) := by
  rw [← words_oneLine, (tidy_oneLine s).intercalate_words]

theorem Tidy.oneLine (tidy : Tidy s) : oneLine s = s := by
  rw [oneLine_eq, tidy.intercalate_words]

end OneLine

end Blocklist.Message
