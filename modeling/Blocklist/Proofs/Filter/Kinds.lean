import Blocklist.Filter.Reading
import Mathlib.Data.List.TakeWhile

/-! # What a line is

The first decisive character tells a comment or a header from a cosmetic filter and from a network
filter. A line without any is a network filter, unless it is empty.
-/

namespace Blocklist.Record

/-- The characters that make a line anything but a network line when they come first. -/
def isForeign (c : CodePoint) : Bool :=
  c == '[' || c == '!' || c == '#'

theorem ofLine_other {line : Text} {c : CodePoint} (opens : c = '[' ∨ c = '!')
    (first : line.find? isDecisive = some c) : ofLine line = .ok (other line) := by
  cases line with
  | nil => rfl
  | cons d rest =>
      rw [List.find?_eq_head?_dropWhile_not] at first
      obtain ⟨behind, drop⟩ := List.head?_eq_some_iff.mp first
      simp only [ofLine, drop]
      rcases opens with rfl | rfl <;> rfl

theorem ofLine_network {line : Text} (some : line ≠ [])
    (first : ∀ c ∈ line.find? isDecisive, isForeign c = false) :
    ofLine line = .ok (network (NetworkLine.ofLine line).toFilter) := by
  rw [List.find?_eq_head?_dropWhile_not] at first
  cases line with
  | nil => exact absurd rfl some
  | cons d rest =>
      simp only [ofLine]
      split
      · next drop => simp [drop, isForeign] at first
      · next drop => simp [drop, isForeign] at first
      · next drop => simp [drop, isForeign] at first
      · rfl

theorem ofLine_cosmetic {hostname rest : Text} (plain : ∀ c ∈ hostname, isDecisive c = false) :
    ofLine (hostname ++ .char '#' :: rest) =
      (CosmeticFilter.ofMarker (hostname ++ .char '#' :: rest) hostname rest).map cosmetic := by
  have passed : ∀ c ∈ hostname, (!isDecisive c) = true := fun c isThere => by simp [plain c isThere]
  have drop : (hostname ++ .char '#' :: rest).dropWhile (!isDecisive ·) = .char '#' :: rest := by
    rw [List.dropWhile_append_of_pos passed]
    rfl
  have take : (hostname ++ .char '#' :: rest).takeWhile (!isDecisive ·) = hostname := by
    rw [List.takeWhile_append_of_pos passed]
    exact List.append_nil _
  cases start : hostname ++ .char '#' :: rest with
  | nil => simp at start
  | cons d rest' =>
      rw [start] at drop take
      simp only [ofLine, drop, take]

/-- What a line is read as, by its first decisive character. -/
inductive Kind (line : Text) : Record → Prop where
  | empty (isEmpty : line = []) : Kind line (other line)
  | other (c : CodePoint) (opens : c = '[' ∨ c = '!') (first : line.find? isDecisive = some c) :
      Kind line (other line)
  | network (some : line ≠ []) (first : ∀ c ∈ line.find? isDecisive, isForeign c = false) :
      Kind line (network (NetworkLine.ofLine line).toFilter)
  | cosmetic (hostname rest : Text) (filter : CosmeticFilter)
      (whole : line = hostname ++ .char '#' :: rest) (plain : ∀ c ∈ hostname, isDecisive c = false)
      (marker : CosmeticFilter.ofMarker line hostname rest = .ok filter) :
      Kind line (cosmetic filter)

theorem kind_of_ofLine {line : Text} {record : Record} (read : ofLine line = .ok record) :
    Kind line record := by
  have first := (List.find?_eq_head?_dropWhile_not isDecisive line).symm
  cases start : line with
  | nil =>
      subst start
      cases read
      exact .empty rfl
  | cons d behind =>
      rw [← start]
      simp only [start, ofLine] at read
      simp only [← start] at read
      split at read
      · next drop =>
          cases read
          rw [drop] at first
          exact .other '[' (.inl rfl) first.symm
      · next drop =>
          cases read
          rw [drop] at first
          exact .other '!' (.inr rfl) first.symm
      · next rest drop =>
          cases marker : CosmeticFilter.ofMarker line (line.takeWhile (!isDecisive ·)) rest with
          | error fault => simp [marker, Except.map] at read
          | ok filter =>
              simp only [marker, Except.map, Except.ok.injEq] at read
              rw [← read]
              refine .cosmetic _ rest filter ?_ ?_ marker
              · rw [← drop, List.takeWhile_append_dropWhile]
              · intro c isThere
                simpa using List.mem_takeWhile_imp isThere
      · next header comment element =>
          cases read
          refine .network (by simp [start]) fun c isFirst => ?_
          rw [← first] at isFirst
          obtain ⟨rest, drop⟩ := List.head?_eq_some_iff.mp isFirst
          simp only [isForeign, Bool.or_eq_false_iff, beq_eq_false_iff_ne]
          refine ⟨⟨?_, ?_⟩, ?_⟩
          · rintro rfl
            exact header rest drop
          · rintro rfl
            exact comment rest drop
          · rintro rfl
            exact element rest drop

theorem line_ofMarker {line hostname rest : Text} {filter : CosmeticFilter}
    (marker : CosmeticFilter.ofMarker line hostname rest = .ok filter) : filter.line = line := by
  unfold CosmeticFilter.ofMarker at marker
  split at marker
  · cases marker
    rfl
  · cases marker
    rfl
  · cases marker

theorem hostname_ofMarker {line hostname rest : Text} {filter : CosmeticFilter}
    (marker : CosmeticFilter.ofMarker line hostname rest = .ok filter) :
    filter.hostname = hostname := by
  unfold CosmeticFilter.ofMarker at marker
  split at marker
  · cases marker
    rfl
  · cases marker
    rfl
  · cases marker

theorem line_of_ofLine {line : Text} {record : Record} (read : ofLine line = .ok record) :
    record.line = line := by
  cases kind_of_ofLine read with
  | empty => rfl
  | other => rfl
  | network => exact NetworkLine.toLine_ofLine line
  | cosmetic hostname rest filter whole plain marker => exact line_ofMarker marker

end Blocklist.Record
