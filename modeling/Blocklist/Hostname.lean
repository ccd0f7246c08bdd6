import Blocklist.Filter.Basic

/-! # Hostnames

A network filter blocks a whole host when its pattern is a bare hostname, possibly followed by the
separator mark. Regular expressions, patterns tied to an end of the address, paths, wildcards and
names without a dot do not.
-/

namespace Blocklist

/-- A pattern between slashes is a regular expression; a single slash counts as both. -/
def isRegex (pattern : Text) : Bool :=
  pattern.head? == some (.char '/') && pattern.getLast? == some (.char '/')

namespace Hostname

/-- The characters that occur in paths, queries, fragments and wildcards, and the blanks. -/
def isForeign (c : CodePoint) : Bool :=
  "|#/?&*".toText.contains c || Text.isBlank c

/-- Whether a text can follow the first character of a hostname: no character inside is foreign,
    no two dots are neighbours, there is a dot, and the last character is a letter. `dotted` tells
    whether a dot came before. -/
def continues (dotted : Bool) : Text → Bool
  | [] => false
  | [c] => dotted && c.isAlpha
  | c :: d :: rest =>
      !isForeign c && !(c == '.' && d == '.') && continues (dotted || c == '.') (d :: rest)

def dropSeparator (pattern : Text) : Text :=
  if pattern.getLast? = some (.char '^') then pattern.dropLast else pattern

/-- The hostname that a pattern consists of. -/
def ofPattern? (pattern : Text) : Option Text :=
  match dropSeparator pattern with
  | [] => none
  | c :: rest => if c.isAlphanum && continues false rest then some (c :: rest) else none

end Hostname

namespace NetworkFilter

/-- The hostname that a filter is about, if it is about one. -/
def hostname? (f : NetworkFilter) : Option Text :=
  if isRegex f.pattern || f.matchEnd || f.matchBeginning then none
  else Hostname.ofPattern? f.pattern

/-- The hostname in front of the path of a filter, if it has a path. -/
def pathHostname? (f : NetworkFilter) : Option Text :=
  if f.pattern.contains '/' then
    hostname? { f with pattern := f.pattern.takeWhile (· != .char '/') }
  else none

end NetworkFilter

end Blocklist
