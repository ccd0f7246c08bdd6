import Blocklist.Log
import Blocklist.Proofs.Message.Cleaning

/-! # Describing a problem

A problem is described by its kind and its message on one line, and nothing in the description breaks
the line. The limit is meant for the whole description but the kind comes on top of a message that
has the limit for itself. So the description keeps to the limit only if there is no message, or one
that is short enough to leave room for the kind.
-/

namespace Blocklist

namespace Message

variable {s : Text} {limit : Int}

theorem lt_length_trimEndSpaces {c : CodePoint} (word : Text.isSpace c = false)
    (front back : Text) :
    front.length < (Text.trimEndSpaces (front ++ c :: back)).length := by
  rw [Text.trimEndSpaces, Text.dropEndWhile_append_cons word, List.length_append, List.length_cons]
  omega

theorem Spaced.length_le_trimEndSpaces (spaced : Spaced s) :
    s.length ≤ (Text.trimEndSpaces s).length + 1 := by
  obtain rfl | ⟨front, c, rfl⟩ := List.eq_nil_or_concat' s
  · exact Nat.zero_le _
  · rw [List.length_append, List.length_singleton]
    by_cases space : Text.isSpace c
    · obtain rfl | ⟨front, d, rfl⟩ := List.eq_nil_or_concat' front
      · exact Nat.le_add_left _ _
      · have same : c = ' ' := spaced.plain c (by simp) (isGap_of_isSpace space)
        have other : d ≠ ' ' := by
          intro before
          exact (List.isChain_append.mp spaced.single).2.2 d (by simp) c (by simp) before same
        have word : Text.isSpace d = false := by
          by_contra space
          exact other (spaced.plain d (by simp) (isGap_of_isSpace (by simpa using space)))
        have kept := lt_length_trimEndSpaces word front [c]
        rw [List.append_assoc, List.length_append, List.length_singleton]
        exact Nat.succ_le_succ kept
    · rw [Bool.not_eq_true] at space
      have kept := lt_length_trimEndSpaces space front []
      omega

/-- A message that is cut short fills the limit but for a space at the cut. -/
theorem le_length_clean_of_long (positive : 1 ≤ limit) (long : limit < (oneLine s).length) :
    limit ≤ (clean limit s).length + 1 := by
  have start : (oneLine s).before (limit - 1) <+: oneLine s := List.take_prefix _ _
  have fewer := ((tidy_oneLine s).toSpaced.of_infix start.isInfix).length_le_trimEndSpaces
  have length : ((oneLine s).before (limit - 1)).length = (limit - 1).toNat := by
    rw [Text.before, Text.place, if_neg (by omega), List.length_take]
    omega
  rw [clean, if_pos ⟨by omega, long⟩, List.length_append, List.length_singleton]
  omega

theorem oneLine_eq_nil_iff : oneLine s = [] ↔ words s = [] := by
  constructor
  · intro none
    rw [← words_oneLine, none, words_nil]
  · intro none
    rw [oneLine_eq, none, List.intercalate_nil]

theorem clean_eq_nil_iff (positive : 0 ≤ limit) : clean limit s = [] ↔ words s = [] := by
  rw [← oneLine_eq_nil_iff]
  by_cases fits : limit = 0 ∨ (oneLine s).length ≤ limit
  · rw [clean_of_fits fits]
  · rw [not_or, Int.not_le] at fits
    obtain ⟨front, -, -, -, cut⟩ := exists_clean_of_long fits.1 fits.2
    rw [cut]
    refine iff_of_false (by simp) fun none => ?_
    rw [none, List.length_nil] at fits
    omega

theorem Tidy.not_isControl (tidy : Tidy s) : ∀ c ∈ s, isControl c = false := by
  intro c isThere
  by_contra control
  rw [Bool.not_eq_false] at control
  have space := tidy.plain c isThere (isGap_iff.mpr (.inr control))
  rw [space] at control
  cases control

end Message

namespace Problem

open Message

variable {p : Problem} {limit : Int}

theorem describe_of_nil (none : clean limit p.detail = []) : p.describe limit = p.kind := by
  simp [describe, none]

theorem describe_of_ne_nil (some : clean limit p.detail ≠ []) :
    p.describe limit = p.kind ++ ": ".toText ++ clean limit p.detail := by
  simp [describe, some]

theorem length_describe_of_ne_nil (some : clean limit p.detail ≠ []) :
    (p.describe limit).length = p.kind.length + 2 + (clean limit p.detail).length := by
  rw [describe_of_ne_nil some, List.length_append, List.length_append]
  rfl

theorem describe_eq_kind_iff : p.describe limit = p.kind ↔ clean limit p.detail = [] := by
  refine ⟨fun same => ?_, describe_of_nil⟩
  by_contra some
  have length := length_describe_of_ne_nil some
  rw [same] at length
  omega

theorem not_isControl_describe_iff : (∀ c ∈ p.describe limit, isControl c = false) ↔
    ∀ c ∈ p.kind, isControl c = false := by
  by_cases none : clean limit p.detail = []
  · rw [describe_of_nil none]
  · rw [describe_of_ne_nil none, List.forall_mem_append, List.forall_mem_append, and_assoc,
      and_iff_left_iff_imp]
    exact fun _ => ⟨by decide, (tidy_clean limit p.detail).not_isControl⟩

/-- What is said about a problem keeps to the limit only if nothing has to be cut to make room for
    the kind. -/
theorem length_describe_le_iff (room : p.kind.length ≤ limit) : (p.describe limit).length ≤ limit ↔
    words p.detail = [] ∨ p.kind.length + 2 + (oneLine p.detail).length ≤ limit := by
  by_cases none : clean limit p.detail = []
  · rw [describe_of_nil none]
    exact iff_of_true room (.inl ((clean_eq_nil_iff (by omega)).mp none))
  · have some : words p.detail ≠ [] := mt (clean_eq_nil_iff (by omega)).mpr none
    rw [length_describe_of_ne_nil none, or_iff_right some]
    by_cases fits : limit = 0 ∨ (oneLine p.detail).length ≤ limit
    · rw [clean_of_fits fits]
      omega
    · rw [not_or, Int.not_le] at fits
      have filled := le_length_clean_of_long (by omega) fits.2
      refine iff_of_false ?_ ?_
      · omega
      · omega

/-- The description keeps to the limit only if the message is short enough to leave room for the
    kind, or there is none. In any case it exceeds it by no more than what the kind takes up. It has
    no control characters but those of the kind, and it is the kind alone only if nothing is left of
    the message. -/
theorem describe_keeps_to_limit_iff {p : Problem} {limit : Int}
    (room : p.kind.length ≤ limit) :
    ((p.describe limit).length ≤ limit ↔ words p.detail = [] ∨
      p.kind.length + 2 + ([.char ' '].intercalate (words p.detail)).length ≤ limit) ∧
    (p.kind ≠ [] → (p.describe limit).length ≤ p.kind.length + 2 + limit) ∧
    ((∀ c ∈ p.describe limit, isControl c = false) ↔ ∀ c ∈ p.kind, isControl c = false) ∧
    (p.describe limit = p.kind ↔ clean limit p.detail = []) ∧
    (clean limit p.detail = [] ↔ words p.detail = []) := by
  rw [← oneLine_eq]
  refine ⟨length_describe_le_iff room, fun named => ?_, not_isControl_describe_iff,
    describe_eq_kind_iff, clean_eq_nil_iff (by omega)⟩
  have positive : 1 ≤ limit := by
    have some := List.length_pos_iff.mpr named
    omega
  have kept := length_clean_le positive p.detail
  by_cases none : clean limit p.detail = []
  · rw [describe_of_nil none]
    omega
  · rw [length_describe_of_ne_nil none]
    omega

/-- There is just enough room. -/
theorem describe_keeps_to_limit_exactly :
    let p : Problem := .malformedFilter "a\r\n b".toText
    p.kind.length ≤ (22 : Int) ∧ p.describe 22 = "FilterSyntaxError: a b".toText ∧
      (p.describe 22).length ≤ (22 : Int) ∧ ∀ c ∈ p.describe 22, isControl c = false := by
  intro p
  have room : p.kind.length ≤ (22 : Int) := by decide
  obtain ⟨kept, -, plain, -⟩ := describe_keeps_to_limit_iff room
  refine ⟨room, by decide +kernel, kept.mpr (.inr ?_), plain.mpr ?_⟩
  · decide +kernel
  · decide

/-- The message is cut to the limit, and the kind comes on top of it. -/
theorem describe_exceeds_limit :
    let p : Problem := .other "ValueError".toText "a rather long message".toText
    p.kind.length ≤ (20 : Int) ∧ p.describe 20 = "ValueError: a rather long messa…".toText ∧
      ¬(p.describe 20).length ≤ (20 : Int) := by
  decide +kernel

end Problem

namespace Log

/-- The warning of a line that is no filter. -/
def invalidFilter (line : Text) (fault : MarkerFault) : Text :=
  "Invalid filter: line=\"".toText ++ line ++ "\" e=\"FilterSyntaxError: ".toText ++
    Message.clean 200 fault.message ++ "\"".toText

theorem clean_message_ne_nil (fault : MarkerFault) : Message.clean 200 fault.message ≠ [] := by
  have first : fault.message = "Expected".toText ++ .char ' ' ::
      ("\"#\" or \"@\" for cosmetic filter marker but saw \"".toText ++ fault.found ::
        "\" at position \"".toText ++ Text.ofCount fault.position ++ "\"!".toText) := rfl
  have word : Message.words "Expected".toText = ["Expected".toText] :=
    Message.words_of_no_gap (by decide) (by decide)
  rw [ne_eq, Message.clean_eq_nil_iff (by decide), first,
    Message.words_append_cons Message.isGap_space, word]
  exact List.cons_ne_nil _ _

theorem describe_toProblem (fault : MarkerFault) :
    fault.toProblem.describe Message.defaultLimit =
      "FilterSyntaxError: ".toText ++ Message.clean 200 fault.message := by
  have described := Problem.describe_of_ne_nil (p := fault.toProblem) (clean_message_ne_nil fault)
  exact described

theorem lineText_append (label line kind cause : Text) : lineText label line (kind ++ cause) =
    (label ++ ": line=\"".toText) ++ line ++ ("\" e=\"".toText ++ kind) ++ cause ++
      "\"".toText := by
  simp only [lineText, List.append_assoc]

theorem skipped_toProblem (pass : Pass) (line : Text) (fault : MarkerFault) :
    skipped pass line fault.toProblem = ⟨.warning, pass, invalidFilter line fault⟩ := by
  have text : lineText "Invalid filter".toText line
      (fault.toProblem.describe Message.defaultLimit) = invalidFilter line fault := by
    rw [describe_toProblem, lineText_append]
    rfl
  rw [← text, MarkerFault.toProblem, skipped]

end Log

end Blocklist
