import Blocklist.Edit
import Blocklist.Filter.Reading

/-! # Layout

In the canonical layout a line neither starts nor ends with blanks, the same holds of the names and
the values of its modifiers, and the modifiers go by their full names. The edits that lead there are
found in reading order: the line first, then each modifier from left to right.
-/

namespace Blocklist

namespace Layout

/-- No blanks around a line. -/
def lineRule : Text :=
  "no-whitespaces".toText

/-- No blanks around the name of a modifier. -/
def nameRule : Text :=
  "no-modifier-whitespaces".toText

/-- No blanks around the value of a modifier. -/
def valueRule : Text :=
  "no-modifier-value-whitespaces".toText

/-- No short names of modifiers. -/
def fullNameRule : Text :=
  "full-modifier-name".toText

/-- The short names of modifiers and the full ones. -/
def fullNames : List (Text × Text) :=
  [("1p".toText, "first-party".toText),
    ("3p".toText, "third-party".toText),
    ("xhr".toText, "xmlhttprequest".toText)]

/-- The full name that a short name stands for. -/
def fullName? (name : Text) : Option Text :=
  fullNames.lookup name

def deleteSome (rule : Text) (offset : Int) (count : Nat) : List Edit :=
  if count = 0 then [] else [.delete rule offset count]

/-- Take the blanks around a text out of the stretch where it stands. Where there is nothing but
    blanks they are taken out twice, which does no harm. -/
def trimEdits (rule : Text) (text : Text) (span : Span) : List Edit :=
  deleteSome rule span.start text.leadingBlanks ++
    deleteSome rule (span.stop - text.trailingBlanks) text.trailingBlanks

/-- Write the full name in place of a short one. -/
def nameEdits (name : Text) (span : Span) : List Edit :=
  match fullName? name.trimBlanks with
  | none => []
  | some full =>
      [.delete fullNameRule span.start (span.stop - span.start),
        .insert fullNameRule span.start full]

def modifierEdits (modifier : Modifier) (mark : ModifierMark) : List Edit :=
  trimEdits nameRule modifier.name mark.name ++ nameEdits modifier.name mark.name ++
    match modifier.value, mark.value with
    | some value, some span => trimEdits valueRule value span
    | _, _ => []

def lineEdits (line : Text) : List Edit :=
  trimEdits lineRule line ⟨0, line.length⟩

end Layout

namespace Record

/-- The edits that bring the line of a record to the canonical layout. -/
def layoutEdits : Record → List Edit
  | network f =>
      Layout.lineEdits f.line ++
        (f.modifiers.zipWith Layout.modifierEdits f.markers.modifiers).flatten
  | record => Layout.lineEdits record.line

end Record

namespace Layout

/-- A line in the canonical layout. -/
def tidy (line : Text) : Except MarkerFault Text :=
  (Record.ofLine line).map fun record => Edit.applyAll line record.layoutEdits

end Layout

end Blocklist
