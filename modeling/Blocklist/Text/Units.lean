import Blocklist.Text.Cut
import Blocklist.Text.Surrogate

/-! # UTF-16 code units

Readers of the wire format index strings by UTF-16 code units: one for a character of the basic
plane, two for any other. Offsets that count code points are re-expressed here. A surrogate that is
not part of a pair has no code units, so a text that holds one cannot be written in them.
-/

namespace Blocklist.Text

/-- The code units of one character: itself, or a high and a low surrogate. -/
def unitsOfChar (c : Char) : List Nat :=
  if c.toNat < 0x10000 then [c.toNat]
  else [0xD800 + (c.toNat - 0x10000) / 0x400, 0xDC00 + (c.toNat - 0x10000) % 0x400]

/-- The code units of a text whose first code point stands at a position. -/
def unitsFrom (position : Nat) : Text → Except EncodeFault (List Nat)
  | [] => .ok []
  | .char c :: rest => (unitsFrom (position + 1) rest).map (unitsOfChar c ++ ·)
  | .surrogate offset :: _ => .error ⟨"utf-16-le".toText, offset, position, 0⟩

/-- The code units of a text, unless there is a surrogate in it. -/
def units? (s : Text) : Except EncodeFault (List Nat) :=
  unitsFrom 0 s

def unitCount? (s : Text) : Except EncodeFault Nat :=
  (units? s).map (·.length)

end Blocklist.Text
