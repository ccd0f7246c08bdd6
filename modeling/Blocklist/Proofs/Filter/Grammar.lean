import Blocklist.Log
import Blocklist.Proofs.Filter.Kinds
import Blocklist.Proofs.Text.Blanks

/-! # The grammar of a line

What a line is can be told from its characters alone, without walking along it. A cosmetic line has a
number sign in front of all other decisive characters, and a marker of at signs behind it that a
second number sign or the end of the line closes; if anything else comes there, the line cannot be
read. An empty line, a comment and a header say nothing, and every other line is a network filter.
-/

namespace Blocklist

/-- No character of a text decides what kind of line it stands in. -/
def Text.IsPlain (s : Text) : Prop :=
  ∀ c ∈ s, c ∉ "[!/:^@|#".toText

namespace Record

/-- How a cosmetic line starts: with a hostname, the number sign of its marker, and at signs. -/
def cosmeticStart (hostname : Text) (ats : Nat) : Text :=
  hostname ++ .char '#' :: List.replicate ats (CodePoint.char '@')

/-- A line starts like a cosmetic line, but a character comes that has no place in the marker. -/
structure Strays (line hostname : Text) (ats : Nat) (found : CodePoint) : Prop where
  plain : hostname.IsPlain
  foreign : found ≠ '@' ∧ found ≠ '#'
  starts : cosmeticStart hostname ats ++ [found] <+: line

/-- A line is a cosmetic line with some selector. -/
inductive Selects (line hostname : Text) (ats : Nat) : Text → Prop where
  /-- The line ends inside the marker. -/
  | ended (plain : hostname.IsPlain) (whole : line = cosmeticStart hostname ats) :
      Selects line hostname ats []
  /-- The marker is closed, and the selector comes behind it. -/
  | closed {selector : Text} (plain : hostname.IsPlain)
      (whole : line = cosmeticStart hostname ats ++ .char '#' :: selector) :
      Selects line hostname ats selector

/-- A line that says nothing. -/
inductive IsRemark (line : Text) : Prop where
  | empty (nothing : line = [])
  /-- A bracket or an exclamation mark comes first. -/
  | opened {front rest : Text} {c : CodePoint} (plain : front.IsPlain) (opens : c = '[' ∨ c = '!')
      (whole : line = front ++ c :: rest)

section Rules

variable {line hostname selector front rest tail : Text} {ats : Nat} {found c : CodePoint}

theorem not_isDecisive_of_isPlain (plain : front.IsPlain) : ∀ c ∈ front, isDecisive c = false := by
  intro c isThere
  rw [isDecisive, ← Bool.not_eq_true, List.contains_iff_mem]
  exact plain c isThere

theorem find?_isDecisive_of_isPlain (plain : front.IsPlain) : front.find? isDecisive = none := by
  rw [List.find?_eq_none]
  intro d isThere
  rw [not_isDecisive_of_isPlain plain d isThere]
  exact Bool.false_ne_true

theorem find?_isDecisive_append (plain : front.IsPlain) (decisive : isDecisive c = true) :
    (front ++ c :: rest).find? isDecisive = some c := by
  rw [List.find?_append, find?_isDecisive_of_isPlain plain, Option.none_or,
    List.find?_cons_of_pos decisive]

theorem isPlain_or_split (line : Text) : line.IsPlain ∨
    ∃ front c rest, front.IsPlain ∧ isDecisive c = true ∧ line = front ++ c :: rest := by
  have plain {s : Text} (free : ∀ c ∈ s, (!isDecisive c) = true) : s.IsPlain := by
    intro c isThere
    have own := free c isThere
    rwa [Bool.not_eq_true', isDecisive, ← Bool.not_eq_true, List.contains_iff_mem] at own
  obtain free | ⟨front, c, rest, whole, free, decisive⟩ :=
    Text.passes_or_split (!isDecisive ·) line
  · exact .inl (plain free)
  · exact .inr ⟨front, c, rest, plain free, by simpa using decisive, whole⟩

theorem exists_ats (rest : Text) : ∃ ats tail,
    rest = List.replicate ats (CodePoint.char '@') ++ tail ∧ tail.head? ≠ some (.char '@') := by
  induction rest with
  | nil => exact ⟨0, [], rfl, by simp⟩
  | cons c behind ih =>
      by_cases at' : c = '@'
      · obtain ⟨ats, tail, rfl, stops⟩ := ih
        exact ⟨ats + 1, tail, by rw [at', List.replicate_succ, List.cons_append], stops⟩
      · exact ⟨0, c :: behind, rfl, by simpa using at'⟩

theorem takeWhile_ats (ats : Nat) (stops : tail.head? ≠ some (.char '@')) :
    (List.replicate ats (CodePoint.char '@') ++ tail).takeWhile (· == .char '@') =
      List.replicate ats (.char '@') := by
  induction ats with
  | zero =>
      cases tail with
      | nil => rfl
      | cons c behind => simpa using stops
  | succ ats ih => rw [List.replicate_succ, List.cons_append, List.takeWhile_cons_of_pos rfl, ih]

theorem dropWhile_ats (ats : Nat) (stops : tail.head? ≠ some (.char '@')) :
    (List.replicate ats (CodePoint.char '@') ++ tail).dropWhile (· == .char '@') = tail := by
  have parts := List.takeWhile_append_dropWhile (p := (· == .char '@'))
    (l := List.replicate ats (CodePoint.char '@') ++ tail)
  rw [takeWhile_ats ats stops] at parts
  exact List.append_cancel_left parts

/-- What a cosmetic line is read as depends on what stands behind the at signs of its marker. -/
theorem ofLine_cosmeticStart (plain : hostname.IsPlain) (ats : Nat) (tail : Text) :
    ofLine (cosmeticStart hostname ats ++ tail) =
      (CosmeticFilter.ofMarker (cosmeticStart hostname ats ++ tail) hostname
        (List.replicate ats (CodePoint.char '@') ++ tail)).map cosmetic := by
  rw [cosmeticStart, List.append_assoc, List.cons_append]
  exact ofLine_cosmetic (not_isDecisive_of_isPlain plain)

theorem isEmpty_ats (ats : Nat) :
    (!(List.replicate ats (CodePoint.char '@')).isEmpty) = decide (0 < ats) := by
  cases ats <;> rfl

theorem ofLine_of_strays (strays : Strays line hostname ats found) :
    ofLine line = .error ⟨found, hostname.length + 1 + ats⟩ := by
  obtain ⟨plain, ⟨notAt, notNumber⟩, rest, rfl⟩ := strays
  have stops : (found :: rest).head? ≠ some (.char '@') := by simpa using notAt
  rw [List.append_assoc, List.singleton_append, ofLine_cosmeticStart plain,
    CosmeticFilter.ofMarker, takeWhile_ats ats stops, dropWhile_ats ats stops,
    List.length_replicate]
  split
  · next nothing => cases nothing
  · next number =>
      cases number
      exact absurd rfl notNumber
  · next same =>
      cases same
      rfl

theorem ofLine_of_selects (selects : Selects line hostname ats selector) :
    ofLine line = .ok (cosmetic ⟨line, hostname, selector, decide (0 < ats)⟩) := by
  cases selects with
  | ended plain whole =>
      have read := ofLine_cosmeticStart plain ats []
      have stops : ([] : Text).head? ≠ some (.char '@') := by simp
      rw [CosmeticFilter.ofMarker, takeWhile_ats ats stops, dropWhile_ats ats stops,
        isEmpty_ats, List.append_nil, ← whole] at read
      exact read
  | closed plain whole =>
      have read := ofLine_cosmeticStart plain ats (.char '#' :: selector)
      have stops : (.char '#' :: selector).head? ≠ some (.char '@') := by simp
      rw [CosmeticFilter.ofMarker, takeWhile_ats ats stops, dropWhile_ats ats stops,
        isEmpty_ats, ← whole] at read
      exact read

theorem ofLine_of_isRemark (remark : IsRemark line) : ofLine line = .ok (other line) := by
  cases remark with
  | empty nothing =>
      rw [nothing]
      rfl
  | opened plain opens whole =>
      apply ofLine_other opens
      rw [whole]
      apply find?_isDecisive_append plain
      rcases opens with rfl | rfl <;> rfl

/-- What a line is read as, by its grammar. -/
inductive Outcome (line : Text) : Except MarkerFault Record → Prop where
  | strays {hostname : Text} {ats : Nat} {found : CodePoint}
      (strays : Strays line hostname ats found) :
      Outcome line (.error ⟨found, hostname.length + 1 + ats⟩)
  | selects {hostname selector : Text} {ats : Nat} (selects : Selects line hostname ats selector) :
      Outcome line (.ok (cosmetic ⟨line, hostname, selector, decide (0 < ats)⟩))
  | remark (remark : IsRemark line) : Outcome line (.ok (other line))
  | network : Outcome line (.ok (network (NetworkLine.ofLine line).toFilter))

theorem outcome_cosmeticStart (plain : hostname.IsPlain) (ats : Nat)
    (stops : tail.head? ≠ some (.char '@')) : Outcome (cosmeticStart hostname ats ++ tail)
      (ofLine (cosmeticStart hostname ats ++ tail)) := by
  cases tail with
  | nil =>
      have selects : Selects (cosmeticStart hostname ats ++ []) hostname ats [] :=
        .ended plain (List.append_nil _)
      rw [ofLine_of_selects selects]
      exact .selects selects
  | cons found behind =>
      by_cases closes : found = '#'
      · have selects : Selects (cosmeticStart hostname ats ++ found :: behind) hostname ats behind :=
          .closed plain (by rw [closes])
        rw [ofLine_of_selects selects]
        exact .selects selects
      · have foreign : found ≠ '@' ∧ found ≠ '#' := ⟨by simpa using stops, closes⟩
        have strays : Strays (cosmeticStart hostname ats ++ found :: behind) hostname ats found :=
          ⟨plain, foreign, behind, by simp⟩
        rw [ofLine_of_strays strays]
        exact .strays strays

/-- Every line is read as its grammar says. -/
theorem outcome_ofLine (line : Text) : Outcome line (ofLine line) := by
  by_cases nothing : line = []
  · rw [ofLine_of_isRemark (.empty nothing)]
    exact .remark (.empty nothing)
  obtain plain | ⟨front, c, rest, plain, decisive, rfl⟩ := isPlain_or_split line
  · have first : ∀ d ∈ line.find? isDecisive, isForeign d = false := by
      rw [find?_isDecisive_of_isPlain plain]
      rintro _ ⟨⟩
    rw [ofLine_network nothing first]
    exact .network
  · by_cases opens : c = '[' ∨ c = '!'
    · have remark : IsRemark (front ++ c :: rest) := .opened plain opens rfl
      rw [ofLine_of_isRemark remark]
      exact .remark remark
    by_cases number : c = '#'
    · subst number
      obtain ⟨ats, tail, rfl, stops⟩ := exists_ats rest
      have whole : front ++ .char '#' :: (List.replicate ats (CodePoint.char '@') ++ tail) =
          cosmeticStart front ats ++ tail := by
        rw [cosmeticStart, List.append_assoc, List.cons_append]
      rw [whole]
      exact outcome_cosmeticStart plain ats stops
    · have first : ∀ d ∈ (front ++ c :: rest).find? isDecisive, isForeign d = false := by
        rw [find?_isDecisive_append plain decisive]
        rintro _ ⟨⟩
        simp only [isForeign, Bool.or_eq_false_iff, beq_eq_false_iff_ne]
        exact ⟨not_or.mp opens, number⟩
      rw [ofLine_network nothing first]
      exact .network

theorem ofLine_eq_error_iff {fault : MarkerFault} : ofLine line = .error fault ↔
    ∃ hostname ats found, Strays line hostname ats found ∧
      fault = ⟨found, hostname.length + 1 + ats⟩ := by
  constructor
  · intro unread
    have outcome := outcome_ofLine line
    rw [unread] at outcome
    cases outcome with
    | strays strays => exact ⟨_, _, _, strays, rfl⟩
  · intro ⟨hostname, ats, found, strays, same⟩
    rw [ofLine_of_strays strays, same]

theorem ofLine_eq_cosmetic_iff {f : CosmeticFilter} : ofLine line = .ok (cosmetic f) ↔
    ∃ hostname ats selector, Selects line hostname ats selector ∧
      f = ⟨line, hostname, selector, decide (0 < ats)⟩ := by
  constructor
  · intro read
    have outcome := outcome_ofLine line
    rw [read] at outcome
    cases outcome with
    | selects selects => exact ⟨_, _, _, selects, rfl⟩
  · intro ⟨hostname, ats, selector, selects, same⟩
    rw [ofLine_of_selects selects, same]

theorem ofLine_eq_other_iff {text : Text} :
    ofLine line = .ok (other text) ↔ IsRemark line ∧ text = line := by
  constructor
  · intro read
    have outcome := outcome_ofLine line
    rw [read] at outcome
    cases outcome with
    | remark remark => exact ⟨remark, rfl⟩
  · intro ⟨remark, same⟩
    rw [ofLine_of_isRemark remark, same]

theorem exists_network_iff : (∃ f, ofLine line = .ok (network f)) ↔
    (¬∃ hostname ats found, Strays line hostname ats found) ∧
      (¬∃ hostname ats selector, Selects line hostname ats selector) ∧ ¬IsRemark line := by
  constructor
  · intro ⟨f, read⟩
    refine ⟨?_, ?_, ?_⟩
    · intro ⟨hostname, ats, found, strays⟩
      cases read.symm.trans (ofLine_of_strays strays)
    · intro ⟨hostname, ats, selector, selects⟩
      cases read.symm.trans (ofLine_of_selects selects)
    · intro remark
      cases read.symm.trans (ofLine_of_isRemark remark)
  · intro ⟨noStray, noSelector, noRemark⟩
    have outcome := outcome_ofLine line
    generalize ofLine line = result at outcome
    cases outcome with
    | strays strays => exact absurd ⟨_, _, _, strays⟩ noStray
    | selects selects => exact absurd ⟨_, _, _, selects⟩ noSelector
    | remark remark => exact absurd remark noRemark
    | network => exact ⟨_, rfl⟩

end Rules

/-- Lines are read by their grammar, each in one way: a line cannot be read exactly if a character
    strays into its marker, and the problem names that character and its place; it is a cosmetic
    filter exactly if it has the parts of one, and a remark exactly if it is empty or a bracket or an
    exclamation mark comes first; and exactly the lines that are none of these are network
    filters. -/
theorem ofLine_follows_grammar (line : Text) :
    (∀ fault, ofLine line = .error fault ↔
      ∃ hostname ats found, Strays line hostname ats found ∧
        fault = ⟨found, hostname.length + 1 + ats⟩) ∧
    (∀ fault : MarkerFault, fault.toProblem.kind = "FilterSyntaxError".toText ∧
      fault.toProblem.detail =
        "Expected \"#\" or \"@\" for cosmetic filter marker but saw \"".toText ++ fault.found ::
          "\" at position \"".toText ++ Text.ofCount fault.position ++ "\"!".toText) ∧
    (∀ f, ofLine line = .ok (cosmetic f) ↔
      ∃ hostname ats selector, Selects line hostname ats selector ∧
        f = ⟨line, hostname, selector, decide (0 < ats)⟩) ∧
    (∀ text, ofLine line = .ok (other text) ↔ IsRemark line ∧ text = line) ∧
    ((∃ f, ofLine line = .ok (network f)) ↔
      (¬∃ hostname ats found, Strays line hostname ats found) ∧
        (¬∃ hostname ats selector, Selects line hostname ats selector) ∧ ¬IsRemark line) := by
  refine ⟨fun fault => ofLine_eq_error_iff, fun fault => ⟨rfl, rfl⟩,
    fun f => ofLine_eq_cosmetic_iff, fun text => ofLine_eq_other_iff, exists_network_iff⟩

end Record

end Blocklist
