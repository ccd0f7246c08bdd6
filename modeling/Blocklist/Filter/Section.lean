import Blocklist.Filter.Basic
import Blocklist.Text.Escaped

/-! # Modifier sections

A network filter may end in a dollar sign and a section of modifiers, separated by commas. Dollar
signs also occur inside patterns, so the one that opens the section has to be found first: it is the
last dollar sign before the first equals sign that follows any dollar sign.
-/

namespace Blocklist

namespace Section

/-- Whether a dollar sign comes before any equals sign. -/
def opensLater (s : Text) : Bool :=
  s.find? (fun c : CodePoint => c == '=' || c == '$') == some (.char '$')

/-- The part of a text in front of the dollar sign that opens its modifier section, and the section
    behind it if there is one. A dollar sign is passed over when another one follows it before any
    equals sign. -/
def cut : Text → Text × Option Text
  | [] => ([], none)
  | c :: rest =>
      if c = '$' && !opensLater rest then ([], some rest) else (c :: (cut rest).1, (cut rest).2)

/-- The entries of a section as they are written. Commas separate, and a comma at the very end
    closes the last entry. An empty section has no entries. -/
def entries (s : Text) : List Text :=
  let pieces := s.splitBare ','
  if pieces.getLast? = some [] then pieces.dropLast else pieces

end Section

namespace Modifier

/-- Read an entry: the first bare equals sign ends the name. -/
def ofEntry (entry : Text) : Modifier :=
  ⟨(entry.cutBare '=').1, (entry.cutBare '=').2⟩

end Modifier

namespace ModifierMark

/-- Where the parts of an entry stand when the entry starts at an offset. -/
def ofEntry (start : Nat) (entry : Text) : ModifierMark :=
  let nameEnd := start + (entry.cutBare '=').1.length
  ⟨⟨start, nameEnd⟩, (entry.cutBare '=').2.map fun _ => ⟨nameEnd + 1, start + entry.length⟩⟩

/-- Where the parts of neighbouring entries stand, each one comma behind the one before it. -/
def ofEntries (start : Nat) : List Text → List ModifierMark
  | [] => []
  | entry :: rest => ofEntry start entry :: ofEntries (start + entry.length + 1) rest

end ModifierMark

end Blocklist
