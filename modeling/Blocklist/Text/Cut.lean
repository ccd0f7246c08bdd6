import Blocklist.Text.Basic

/-! # Cuts at signed offsets

An offset counts characters from the start of a text, a negative one from its end. Past either end
it stands for that end. Two offsets cut out what lies between them, and nothing when they are in the
wrong order.
-/

namespace Blocklist.Text

/-- The place in a text of `length` characters that a signed offset stands for. -/
def place (length : Nat) (offset : Int) : Nat :=
  if offset < 0 then (offset + length).toNat else min offset.toNat length

/-- The part of a text in front of an offset. -/
def before (s : Text) (offset : Int) : Text :=
  s.take (place s.length offset)

/-- The part of a text from an offset on. -/
def after (s : Text) (offset : Int) : Text :=
  s.drop (place s.length offset)

/-- The part of a text between two offsets. -/
def between (s : Text) (start stop : Int) : Text :=
  (s.take (place s.length stop)).drop (place s.length start)

theorem place_natCast {length n : Nat} (h : n ≤ length) : place length (n : Int) = n := by
  unfold place
  split <;> omega

theorem before_natCast {s : Text} {n : Nat} (h : n ≤ s.length) : before s (n : Int) = s.take n := by
  rw [before, place_natCast h]

theorem after_natCast {s : Text} {n : Nat} (h : n ≤ s.length) : after s (n : Int) = s.drop n := by
  rw [after, place_natCast h]

theorem between_natCast {s : Text} {m n : Nat} (hm : m ≤ s.length) (hn : n ≤ s.length) :
    between s (m : Int) (n : Int) = (s.take n).drop m := by
  rw [between, place_natCast hm, place_natCast hn]

end Blocklist.Text
