import Blocklist.Proofs.Message.Words

/-! # Cleaning a message

A message is put on one line in a few passes, each over its own class of characters: line breaks,
control characters, and then runs of spaces. No pass touches a word, and after the last one nothing
but single spaces is left between the words. A line that is cut short stays tidy, so that there is
nothing left to clean.
-/

namespace Blocklist.Message

variable {s : Text} {c : CodePoint}

section Passes

/-- Write a space in place of each character that passes the test. -/
def blankOut (p : CodePoint → Bool) (s : Text) : Text :=
  s.map fun c => if p c then .char ' ' else c

/-- Write every run of spaces as a single one. -/
def mergeSpaces : Text → Text
  | [] => []
  | c :: rest =>
      if Text.isSpace c then .char ' ' :: mergeSpaces (rest.dropWhile Text.isSpace)
      else c :: mergeSpaces rest
termination_by s => s.length
decreasing_by
  · exact Nat.lt_succ_of_le (List.dropWhile_sublist _).length_le
  · exact Nat.lt_succ_self _

/-- A character in front of the space, or DEL. -/
def isControl (c : CodePoint) : Bool :=
  c.toNat < 0x20 || c.toNat == 0x7F

/-- Put a message on one line pass by pass. -/
def inPasses (s : Text) : Text :=
  let unbroken := Text.trimSpaces (blankOut (· == .char '\n') (blankOut (· == .char '\r') s))
  Text.trimSpaces (mergeSpaces (blankOut isControl unbroken))

theorem isGap_iff : isGap c ↔ Text.isSpace c ∨ isControl c := by
  rw [isGap, isControl, Bool.or_assoc, Bool.or_eq_true]

theorem isGap_of_beq {d : CodePoint} (gap : isGap d) (c : CodePoint) (same : (c == d) = true) :
    isGap c := by
  rw [beq_iff_eq.mp same]
  exact gap

theorem blankOut_alike {p : CodePoint → Bool} (gaps : ∀ c, p c → isGap c) (s : Text) :
    Alike (blankOut p s) s := by
  induction s with
  | nil => exact .refl []
  | cons c rest ih =>
      have first : blankOut p (c :: rest) = (if p c then .char ' ' else c) :: blankOut p rest := rfl
      rw [first]
      split
      · next passes => exact .gap isGap_space (gaps c passes) ih.words
      · exact ih.cons c

theorem mergeSpaces_alike (s : Text) : Alike (mergeSpaces s) s := by
  fun_induction mergeSpaces s with
  | case1 => exact .refl []
  | case2 c rest space ih =>
      have dropped : ∀ d ∈ rest.takeWhile Text.isSpace, isGap d :=
        fun d isThere => isGap_of_isSpace (List.mem_takeWhile_imp isThere)
      have kept := words_of_gaps_append dropped (rest.dropWhile Text.isSpace)
      rw [List.takeWhile_append_dropWhile] at kept
      exact .gap isGap_space (isGap_of_isSpace space) (ih.words.trans kept.symm)
  | case3 c rest word ih => exact ih.cons c

theorem ne_space_of_head?_mergeSpaces (stops : ∀ c ∈ s.head?, Text.isSpace c = false) :
    ∀ c ∈ (mergeSpaces s).head?, c ≠ ' ' := by
  cases s with
  | nil => simp [mergeSpaces]
  | cons d rest =>
      have word : Text.isSpace d = false := stops d rfl
      have first : (mergeSpaces (d :: rest)).head? = some d := by simp [mergeSpaces, word]
      rw [first]
      rintro _ ⟨⟩
      exact ne_space_of_not_isSpace word

theorem spaced_mergeSpaces (plain : ∀ c ∈ s, isGap c → Text.isSpace c) :
    Spaced (mergeSpaces s) := by
  fun_induction mergeSpaces s with
  | case1 => exact .nil
  | case2 c rest space ih =>
      have behind := List.dropWhile_sublist Text.isSpace (l := rest)
      refine (ih fun d isThere => plain d (List.mem_cons_of_mem _ (behind.subset isThere))).cons
        (fun _ => rfl) fun _ => ?_
      exact ne_space_of_head?_mergeSpaces (Text.head?_dropWhile_stops Text.isSpace rest)
  | case3 c rest word ih =>
      rw [List.forall_mem_cons] at plain
      refine (ih plain.2).cons (fun gap => absurd (plain.1 gap) word) fun same => ?_
      rw [Bool.not_eq_true] at word
      exact absurd same (ne_space_of_not_isSpace word)

theorem isSpace_of_mem_blankOut : ∀ c ∈ blankOut isControl s, isGap c → Text.isSpace c := by
  intro c isThere gap
  obtain ⟨d, -, rfl⟩ := List.mem_map.mp isThere
  by_cases control : isControl d
  · rw [if_pos control]
    exact isSpace_space
  · rw [if_neg control] at gap ⊢
    exact (isGap_iff.mp gap).resolve_right control

/-- The passes one after the other put a message on one line. -/
theorem inPasses_eq (s : Text) : inPasses s = oneLine s := by
  have tidy : Tidy (inPasses s) := (spaced_mergeSpaces isSpace_of_mem_blankOut).trimSpaces
  have control : ∀ c, isControl c → isGap c := fun c control => isGap_iff.mpr (.inr control)
  have cr : isGap '\r' := by decide
  have lf : isGap '\n' := by decide
  have kept : words (inPasses s) = words s := by
    rw [inPasses, words_trimSpaces, (mergeSpaces_alike _).words, (blankOut_alike control _).words,
      words_trimSpaces, (blankOut_alike (isGap_of_beq lf) _).words,
      (blankOut_alike (isGap_of_beq cr) _).words]
  rw [← tidy.intercalate_words, kept, oneLine_eq]

end Passes

section Cut

theorem Tidy.ellipsis {front : Text} (tidy : Tidy s) (start : front <+: s)
    (last : ∀ c ∈ front.getLast?, c ≠ ' ') : Tidy (front ++ [.char '…']) := by
  have spaced := tidy.of_infix start.isInfix
  refine ⟨⟨?_, ?_⟩, ?_, ?_⟩
  · refine List.forall_mem_append.mpr ⟨spaced.plain, ?_⟩
    decide +kernel
  · refine List.isChain_append.mpr ⟨spaced.single, .singleton _, ?_⟩
    rintro c - _ ⟨⟩ -
    decide
  · cases front with
    | nil => simp
    | cons c rest =>
        obtain ⟨back, rfl⟩ := start
        exact tidy.first
  · simp

theorem clean_of_fits {limit : Int} (fits : limit = 0 ∨ (oneLine s).length ≤ limit) :
    clean limit s = oneLine s := by
  rw [clean, if_neg]
  omega

/-- A line that is too long is cut in front of the limit, and no space stays at the cut. -/
theorem exists_clean_of_long {limit : Int} (some : limit ≠ 0) (long : limit < (oneLine s).length) :
    ∃ front, front <+: oneLine s ∧ (∀ c ∈ front.getLast?, c ≠ ' ') ∧
      (1 ≤ limit → front.length < limit) ∧ clean limit s = front ++ [.char '…'] := by
  have start : Text.trimEndSpaces ((oneLine s).before (limit - 1)) <+:
      (oneLine s).before (limit - 1) := List.rdropWhile_prefix _ _
  refine ⟨_, start.trans (List.take_prefix _ _), fun c last => ?_, fun positive => ?_, ?_⟩
  · exact ne_space_of_not_isSpace (Text.getLast?_dropEndWhile_stops Text.isSpace _ c last)
  · have room : ((oneLine s).before (limit - 1)).length ≤ (limit - 1).toNat := by
      rw [Text.before, Text.place, if_neg (by omega), List.length_take]
      omega
    have short := start.length_le
    omega
  · rw [clean, if_pos ⟨some, long⟩]

theorem tidy_clean (limit : Int) (s : Text) : Tidy (clean limit s) := by
  by_cases fits : limit = 0 ∨ (oneLine s).length ≤ limit
  · rw [clean_of_fits fits]
    exact tidy_oneLine s
  · rw [not_or, Int.not_le] at fits
    obtain ⟨front, start, last, -, cut⟩ := exists_clean_of_long fits.1 fits.2
    rw [cut]
    exact (tidy_oneLine s).ellipsis start last

theorem length_clean_le {limit : Int} (positive : 1 ≤ limit) (s : Text) :
    (clean limit s).length ≤ limit := by
  by_cases fits : (oneLine s).length ≤ limit
  · rw [clean_of_fits (.inr fits)]
    exact fits
  · obtain ⟨front, -, -, short, cut⟩ := exists_clean_of_long (by omega) (Int.not_le.mp fits)
    have room := short positive
    rw [cut, List.length_append, List.length_singleton]
    omega

theorem clean_clean {limit : Int} (positive : 0 ≤ limit) (s : Text) :
    clean limit (clean limit s) = clean limit s := by
  have same := (tidy_clean limit s).oneLine
  rw [clean_of_fits, same]
  rw [same]
  by_cases none : limit = 0
  · exact .inl none
  · exact .inr (length_clean_le (by omega) s)

/-- Without a limit the passes leave the words of a message with single spaces between them. With a
    limit the result keeps to it: it is that line, or a start of it that does not end with a space
    and an ellipsis. Either way there is nothing left to clean. The words are the longest stretches
    without a gap. -/
theorem clean_spelled_by_words (s : Text) :
    (clean 0 s = inPasses s ∧ clean 0 s = [.char ' '].intercalate (words s)) ∧
    (∀ limit : Int, 1 ≤ limit → (clean limit s).length ≤ limit ∧
      (clean limit s = [.char ' '].intercalate (words s) ∨
        ∃ front, front <+: [.char ' '].intercalate (words s) ∧ (∀ c ∈ front.getLast?, c ≠ ' ') ∧
          clean limit s = front ++ [.char '…'])) ∧
    (∀ limit : Int, 0 ≤ limit → clean limit (clean limit s) = clean limit s) ∧
    ∀ w, w ∈ words s ↔ w ≠ [] ∧ (∀ c ∈ w, isGap c = false) ∧
      ∃ a b, s = a ++ (w ++ b) ∧ (∀ c ∈ a.getLast?, isGap c) ∧ ∀ c ∈ b.head?, isGap c := by
  have unlimited : clean 0 s = oneLine s := clean_of_fits (.inl rfl)
  rw [unlimited, inPasses_eq, ← oneLine_eq]
  refine ⟨⟨rfl, rfl⟩, fun limit positive => ⟨length_clean_le positive s, ?_⟩,
    fun _ positive => clean_clean positive s, fun _ => mem_words_iff⟩
  by_cases fits : (oneLine s).length ≤ limit
  · exact .inl (clean_of_fits (.inr fits))
  · obtain ⟨front, start, last, -, cut⟩ := exists_clean_of_long (by omega) (Int.not_le.mp fits)
    exact .inr ⟨front, start, last, cut⟩

/-- The cut falls behind a space. -/
theorem clean_spelled_by_words_cut :
    let s : Text := "a\r\n\tbc".toText
    clean 3 s = "a…".toText ∧ (clean 3 s).length ≤ (3 : Int) ∧ clean 3 (clean 3 s) = clean 3 s := by
  intro s
  obtain ⟨-, limited, again, -⟩ := clean_spelled_by_words s
  exact ⟨by decide +kernel, (limited 3 (by decide)).1, again 3 (by decide)⟩

end Cut

end Blocklist.Message
