import Blocklist.Json
import Blocklist.Log
import Blocklist.Text.Lines
import Blocklist.Text.Units

/-! # Wire records

Records as JSON objects for other programs. Their readers index strings by UTF-16 code units, so the
markers are re-expressed in those. That fails for a line with a surrogate in it, and such a line is
left out like one that cannot be read, but not as a mere warning.
-/

namespace Blocklist

namespace Span

/-- A stretch of a line in UTF-16 code units. The stretch is as long as what it cuts out, even if
    its ends are in the wrong order. -/
def unitEnds? (line : Text) (span : Span) : Except Text.EncodeFault (Nat × Nat) := do
  let start ← (line.before span.start).unitCount?
  let length ← (line.between span.start span.stop).unitCount?
  return (start, start + length)

def toWire? (line : Text) (span : Span) : Except Text.EncodeFault Json := do
  let (start, stop) ← span.unitEnds? line
  return .list [.number start, .number stop]

end Span

namespace Json

/-- A value that may be missing. -/
def ofOption (toJson : α → Json) : Option α → Json
  | none => .null
  | some value => toJson value

end Json

namespace Modifier

def toWire (m : Modifier) : Json :=
  .list [.text m.name, .ofOption .text m.value]

end Modifier

namespace ModifierMark

/-- The place of a name and the place of a value as a list. -/
def toWire? (line : Text) (m : ModifierMark) : Except Text.EncodeFault Json := do
  let name ← m.name.toWire? line
  match m.value with
  | none => return .list [name, .null]
  | some span => return .list [name, ← span.toWire? line]

end ModifierMark

namespace NetworkFilter

/-- The marks of a filter, if its line has code units as far as they go. -/
def marks? (f : NetworkFilter) : Except Text.EncodeFault Json := do
  let pattern ← f.markers.pattern.toWire? f.line
  let modifiers ← f.markers.modifiers.mapM (ModifierMark.toWire? f.line)
  return .object [("pattern".toText, pattern), ("modifiers".toText, .list modifiers)]

end NetworkFilter

namespace Record

/-- The wire form of a record. The type is 0 for comments and the like, 1 for network filters, and
    2 for cosmetic filters. -/
def toWire? : Record → Except Text.EncodeFault Json
  | other line =>
      .ok (.object [("type".toText, .number 0), ("line".toText, .text line)])
  | cosmetic f =>
      .ok (.object [("type".toText, .number 2), ("line".toText, .text f.line),
        ("hostname".toText, .text f.hostname), ("selector".toText, .text f.selector),
        ("isException".toText, .bool f.isException)])
  | network f => do
      let marks ← f.marks?
      return .object [("type".toText, .number 1), ("line".toText, .text f.line),
        ("pattern".toText, .text f.pattern),
        ("modifiers".toText, .list (f.modifiers.map Modifier.toWire)),
        ("isException".toText, .bool f.isException),
        ("matchSubdomains".toText, .bool f.matchSubdomains),
        ("matchBeginningOfAddress".toText, .bool f.matchBeginning),
        ("matchEndOfAddress".toText, .bool f.matchEnd),
        ("markers".toText, marks)]

end Record

/-- A surrogate without a pair as the problem of its line. -/
def Text.EncodeFault.toProblem (f : Text.EncodeFault) : Problem :=
  .other "UnicodeEncodeError".toText f.message

namespace Wire

/-- What becomes of a line: the wire form of its record, or the problem for which it is left out. -/
def ofLine (line : Text) : Except Problem Json :=
  match Record.ofLine line with
  | .error fault => .error fault.toProblem
  | .ok record => record.toWire?.mapError Text.EncodeFault.toProblem

/-- The wire forms of a list. Lines that cannot be read or written are left out. -/
def items (text : Text) : List Json :=
  text.lines.filterMap fun line => (ofLine line).toOption

/-- A list as one line of JSON. -/
def compile (text : Text) : Text :=
  Json.write (.list (items text))

/-- What taking in a line leaves in the log. -/
def lineLog (line : Text) : List Log.Entry :=
  match ofLine line with
  | .ok _ => []
  | .error problem => [Log.skipped .records line problem]

def textLog (text : Text) : List Log.Entry :=
  text.lines.flatMap lineLog

end Wire

end Blocklist
