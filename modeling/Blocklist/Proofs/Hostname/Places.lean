import Blocklist.Hosts
import Blocklist.Proofs.Hostname.Shape

/-! # Looking for a hostname place by place

The hostname of a pattern can be looked for place by place, from both ends inwards. Asking for a
character at a place where there is none would be a fault of the search and not of the pattern, and
a pass would have to leave out the line for it. The search never asks for one: it finds the hostname
that the pattern is about, whatever the pattern, and the same holds of the search in front of a path.
-/

namespace Blocklist

namespace Text

/-- A text has no character at a place that was asked for. -/
def noSuchPlace : Problem :=
  .other "IndexError".toText "string index out of range".toText

/-- The character at a place. A negative place counts from the end. -/
def charAt (s : Text) (place : Int) : Except Problem CodePoint :=
  let fromStart := if place < 0 then place + s.length else place
  if fromStart < 0 then .error noSuchPlace
  else
    match s[fromStart.toNat]? with
    | some c => .ok c
    | none => .error noSuchPlace

section CharAt

variable (front : Text) (c : CodePoint) (back : Text)

theorem charAt_append : charAt (front ++ c :: back) front.length = .ok c := by
  have inside : ¬(front.length : Int) < 0 := by omega
  simp [charAt, inside]

theorem charAt_append_succ (d : CodePoint) :
    charAt (front ++ c :: d :: back) (front.length + 1) = .ok d := by
  have next := charAt_append (front ++ [c]) d back
  rwa [List.append_assoc, List.length_append, List.length_singleton, Int.natCast_add] at next

theorem charAt_last : charAt (front ++ [c]) (-1) = .ok c := by
  have length : ((front ++ [c]).length : Int) = front.length + 1 := by simp
  have negative : (-1 : Int) < 0 := by decide
  have same : charAt (front ++ [c]) (-1) = charAt (front ++ [c]) front.length := by
    rw [charAt, charAt, if_pos negative, length, if_neg (Int.not_lt.mpr (Int.natCast_nonneg _)),
      Int.add_comm, Int.add_neg_cancel_right]
  rw [same, charAt_append]

end CharAt

end Text

namespace Hostname

open Text

/-- Whether a pattern stands between slashes, by its first and its last place. -/
def isRegexByPlaces (pattern : Text) : Except Problem Bool :=
  if pattern = [] then .ok false
  else do
    let first ← pattern.charAt 0
    let last ← pattern.charAt (-1)
    return first == '/' && last == '/'

/-- Whether the characters at some places can stand inside of a hostname, with a dot among them or
    before them. Behind a dot the place that follows is looked at too. -/
def insideByPlaces (pattern : Text) (dotted : Bool) : List Nat → Except Problem Bool
  | [] => .ok dotted
  | place :: places => do
      let c ← pattern.charAt place
      if isForeign c then return false
      else if c = '.' then do
        let next ← pattern.charAt (place + 1)
        if next = '.' then return false else insideByPlaces pattern true places
      else insideByPlaces pattern dotted places

end Hostname

namespace NetworkFilter

open Hostname

/-- The hostname that a filter is about, by the places of its pattern. -/
def hostnameByPlaces (f : NetworkFilter) : Except Problem (Option Text) := do
  let regex ← isRegexByPlaces f.pattern
  if regex || f.matchEnd || f.matchBeginning || f.pattern.length < 3 then return none
  else
    let first ← f.pattern.charAt 0
    if !first.isAlphanum then return none
    else
      let last ← f.pattern.charAt (-1)
      let stop := if last = '^' then f.pattern.length - 1 else f.pattern.length
      let ending ← f.pattern.charAt (stop - 1)
      if !ending.isAlpha then return none
      else
        let fits ← insideByPlaces f.pattern false (List.range' 1 (stop - 2))
        return if fits then some (f.pattern.take stop) else none

/-- The hostname in front of the path of a filter, by the places of its pattern. -/
def pathHostnameByPlaces (f : NetworkFilter) : Except Problem (Option Text) :=
  if f.pattern.contains '/' then
    hostnameByPlaces { f with pattern := f.pattern.takeWhile (· != .char '/') }
  else .ok none

end NetworkFilter

namespace Hostname

open Text

theorem isRegexByPlaces_eq (pattern : Text) : isRegexByPlaces pattern = .ok (isRegex pattern) := by
  by_cases some : pattern = []
  · rw [some]
    rfl
  · obtain ⟨c, rest, starts⟩ := List.exists_cons_of_ne_nil some
    obtain ⟨front, d, ends⟩ := (List.eq_nil_or_concat' pattern).resolve_left some
    have first : pattern.charAt 0 = .ok c := by
      rw [starts]
      exact charAt_append [] c rest
    have last : pattern.charAt (-1) = .ok d := by
      rw [ends]
      exact charAt_last front d
    have regex : isRegex pattern = (c == '/' && d == '/') := by
      have head : pattern.head? = Option.some c := by rw [starts, List.head?_cons]
      have tail : pattern.getLast? = Option.some d := by rw [ends, List.getLast?_concat]
      rw [isRegex, head, tail]
      rfl
    rw [isRegexByPlaces, if_neg some, first, last, regex]
    rfl

theorem insideByPlaces_cons {pattern : Text} {place : Nat} {c d : CodePoint}
    (here : pattern.charAt place = .ok c) (there : pattern.charAt (place + 1) = .ok d)
    (dotted : Bool) (places : List Nat) :
    insideByPlaces pattern dotted (place :: places) =
      if !isForeign c && !(c == '.' && d == '.') then
        insideByPlaces pattern (dotted || c == '.') places
      else .ok false := by
  rw [insideByPlaces, here]
  by_cases foreign : isForeign c
  · simp [bind, Except.bind, pure, Except.pure, foreign]
  · by_cases dot : c = '.'
    · have native : isForeign '.' = false := by decide
      by_cases dots : d = '.'
      · simp [bind, Except.bind, pure, Except.pure, native, dot, dots, there]
      · simp [bind, Except.bind, native, dot, dots, there]
    · have other : (c == '.') = false := beq_eq_false_iff_ne.mpr dot
      simp [bind, Except.bind, foreign, dot, other]

theorem insideByPlaces_eq {z : CodePoint} (letter : z.isAlpha) (front s back : Text)
    (dotted : Bool) :
    insideByPlaces (front ++ (s ++ z :: back)) dotted (List.range' front.length s.length) =
      .ok (continues dotted (s ++ [z])) := by
  induction s generalizing front dotted with
  | nil => simp [insideByPlaces, continues, letter]
  | cons c s ih =>
      obtain ⟨d, behind, rest, next, next'⟩ :
          ∃ d behind rest, s ++ z :: back = d :: behind ∧ s ++ [z] = d :: rest := by
        cases s with
        | nil => exact ⟨z, back, [], rfl, rfl⟩
        | cons d s => exact ⟨d, s ++ z :: back, s ++ [z], rfl, rfl⟩
      have here : charAt (front ++ (c :: s ++ z :: back)) front.length = .ok c :=
        charAt_append front c (s ++ z :: back)
      have there : charAt (front ++ (c :: s ++ z :: back)) (front.length + 1) = .ok d := by
        rw [List.cons_append, next]
        exact charAt_append_succ front c behind d
      have later := ih (front ++ [c]) (dotted || c == '.')
      rw [List.append_assoc, List.length_append, List.length_singleton] at later
      have walk : continues dotted (c :: s ++ [z]) = (!isForeign c && !(c == '.' && d == '.') &&
          continues (dotted || c == '.') (s ++ [z])) := by
        rw [List.cons_append, next', continues]
      rw [List.length_cons, List.range'_succ, insideByPlaces_cons here there, walk]
      split
      · next passes => rw [passes, Bool.true_and]; exact later
      · next stops =>
          rw [Bool.not_eq_true] at stops
          rw [stops, Bool.false_and]

/-- A text of three characters or more has a first one, one that ends its hostname, and the separator
    mark behind that one if the last place holds it. -/
theorem exists_parts {pattern : Text} (long : 3 ≤ pattern.length) :
    ∃ c s z back last, pattern = c :: (s ++ z :: back) ∧
      dropSeparator pattern = c :: (s ++ [z]) ∧ pattern.charAt (-1) = .ok last ∧
      (if last = '^' then pattern.length - 1 else pattern.length) = s.length + 2 := by
  have split (t : Text) (long : 2 ≤ t.length) : ∃ c s z, t = c :: (s ++ [z]) := by
    obtain ⟨c, rest, rfl⟩ := List.exists_cons_of_length_pos (Nat.lt_of_succ_lt long)
    have some : rest ≠ [] := by
      rintro rfl
      simp at long
    obtain ⟨s, z, rfl⟩ := (List.eq_nil_or_concat' rest).resolve_left some
    exact ⟨c, s, z, rfl⟩
  have some : pattern ≠ [] := by
    rintro rfl
    simp at long
  obtain ⟨front, last, rfl⟩ := (List.eq_nil_or_concat' pattern).resolve_left some
  rw [List.length_append, List.length_singleton] at long
  by_cases separated : last = '^'
  · obtain ⟨c, s, z, rfl⟩ := split front (Nat.le_of_succ_le_succ long)
    refine ⟨c, s, z, [last], last, by simp, ?_, charAt_last _ last, ?_⟩
    · rw [dropSeparator, List.getLast?_concat, if_pos (congrArg _ separated), List.dropLast_concat]
    · rw [if_pos separated]
      simp
  · obtain ⟨c, s, rfl⟩ := List.exists_cons_of_length_pos (l := front) (by omega)
    refine ⟨c, s, last, [], last, rfl, ?_, charAt_last _ last, ?_⟩
    · rw [dropSeparator, List.getLast?_concat, if_neg fun same => separated (Option.some.inj same)]
      rfl
    · rw [if_neg separated]
      simp

theorem continues_of_not_isAlpha {dotted : Bool} {s : Text} {z : CodePoint}
    (other : z.isAlpha = false) :
    continues dotted (s ++ [z]) = false := by
  rw [← Bool.not_eq_true, continues_iff]
  intro ⟨⟨c, ends, letter⟩, _⟩
  rw [List.getLast?_concat, Option.mem_some_iff] at ends
  rw [← ends, other] at letter
  cases letter

theorem three_le_length {h : Text} (shape : h.IsHostname) : 3 ≤ h.length := by
  have inner := List.length_pos_of_mem shape.dotted
  rw [List.length_dropLast, List.length_tail] at inner
  omega

end Hostname

namespace NetworkFilter

open Hostname Text

theorem hostname?_of_short {f : NetworkFilter} (short : f.pattern.length < 3) :
    f.hostname? = none := by
  rw [Option.eq_none_iff_forall_ne_some]
  intro h about
  obtain ⟨-, -, shape, whole⟩ := hostname?_eq_some_iff.mp about
  have long := three_le_length shape
  rcases whole with same | same
  · rw [same] at short
    exact Nat.not_lt_of_le long short
  · rw [same, List.length_append] at short
    exact Nat.not_lt_of_le (Nat.le_add_right_of_le long) short

/-- The search for the hostname of a filter misses no place, and finds what there is to be found. -/
theorem hostnameByPlaces_eq (f : NetworkFilter) : f.hostnameByPlaces = .ok f.hostname? := by
  unfold hostnameByPlaces
  rw [isRegexByPlaces_eq]
  by_cases long : 3 ≤ f.pattern.length
  · obtain ⟨c, s, z, back, last, whole, host, ends, stop⟩ := exists_parts long
    have first : f.pattern.charAt 0 = .ok c := by
      rw [whole]
      exact charAt_append [] c (s ++ z :: back)
    have ending : f.pattern.charAt ((s.length + 2 : Nat) - 1) = .ok z := by
      have place : ((s.length + 2 : Nat) - 1 : Int) = (c :: s).length := by
        rw [List.length_cons]
        omega
      rw [whole, place]
      exact charAt_append (c :: s) z back
    have inside (letter : z.isAlpha) :
        insideByPlaces f.pattern false (List.range' 1 (s.length + 2 - 2)) =
          .ok (continues false (s ++ [z])) := by
      rw [whole]
      exact insideByPlaces_eq letter [c] s back false
    have taken : f.pattern.take (s.length + 2) = c :: (s ++ [z]) := by
      have parts : c :: (s ++ z :: back) = (c :: (s ++ [z])) ++ back := by simp
      rw [whole, parts]
      exact List.take_left' (by simp)
    have enough : ¬f.pattern.length < 3 := Nat.not_lt_of_le long
    rw [hostname?, ofPattern?, host]
    simp only [bind, Except.bind, first, ends, stop, ending, enough, decide_false, Bool.or_false]
    by_cases tied : (isRegex f.pattern || f.matchEnd || f.matchBeginning) = true
    · rw [if_pos tied, if_pos tied]
      rfl
    · rw [if_neg tied, if_neg tied]
      cases opens : c.isAlphanum with
      | false => rfl
      | true =>
          cases letter : z.isAlpha with
          | false =>
              rw [continues_of_not_isAlpha letter]
              rfl
          | true =>
              rw [inside letter, taken]
              rfl
  · have few : f.pattern.length < 3 := Nat.lt_of_not_le long
    rw [hostname?_of_short few]
    simp [bind, Except.bind, pure, Except.pure, few]

theorem pathHostnameByPlaces_eq (f : NetworkFilter) :
    f.pathHostnameByPlaces = .ok f.pathHostname? := by
  unfold pathHostnameByPlaces pathHostname?
  split
  · exact hostnameByPlaces_eq _
  · rfl

end NetworkFilter

end Blocklist
