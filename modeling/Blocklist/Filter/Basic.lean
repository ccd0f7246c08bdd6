import Blocklist.Text.Basic

/-! # Filters

A line of a filter list is a comment or a header, a network filter, or a cosmetic filter. A network
filter names addresses to block or to let through; a cosmetic filter names page elements to hide.
Every record keeps the line it was read from.
-/

namespace Blocklist

/-- A stretch of a line, from the offset `start` up to but not including `stop`. -/
structure Span where
  start : Int
  stop : Int
  deriving Repr, DecidableEq

/-- One entry of a modifier section: a name, and a value when an equals sign follows the name. -/
structure Modifier where
  name : Text
  value : Option Text
  deriving Repr, DecidableEq

/-- Where an entry of a modifier section stands in its line. -/
structure ModifierMark where
  name : Span
  value : Option Span
  deriving Repr, DecidableEq

/-- Where the parts of a network filter stand in its line. -/
structure Markers where
  pattern : Span
  modifiers : List ModifierMark
  deriving Repr, DecidableEq

/-- A filter on addresses. The markers are notes for display and repair: what the filter matches is
    told by the other fields alone. -/
structure NetworkFilter where
  line : Text
  pattern : Text
  /-- The filter lets through what others block. -/
  isException : Bool
  /-- The pattern starts at a hostname or at one of its parent domains. -/
  matchSubdomains : Bool
  /-- The pattern starts where the address starts. -/
  matchBeginning : Bool
  /-- The pattern ends where the address ends. -/
  matchEnd : Bool
  modifiers : List Modifier
  markers : Markers
  deriving Repr, DecidableEq

/-- A filter on page elements: the pages are told by `hostname`, the elements by `selector`. -/
structure CosmeticFilter where
  line : Text
  hostname : Text
  selector : Text
  isException : Bool
  deriving Repr, DecidableEq

/-- What a line of a filter list says. -/
inductive Record where
  /-- A comment, a section header, or an empty line. -/
  | other (line : Text)
  | network (filter : NetworkFilter)
  | cosmetic (filter : CosmeticFilter)
  deriving Repr, DecidableEq

namespace Record

def line : Record → Text
  | other line => line
  | network filter => filter.line
  | cosmetic filter => filter.line

end Record

namespace NetworkFilter

def modifierNames (f : NetworkFilter) : List Text :=
  f.modifiers.map (·.name)

end NetworkFilter

end Blocklist
