import Blocklist.Hostname
import Blocklist.Log
import Blocklist.Text.Lines

/-! # Hosts files

A hosts file can only block whole hosts. Compiling a list means following its lines in order: a
filter on a bare hostname blocks the host, an exception takes it out again, and a later filter may
block it once more.

Blocking a whole host is coarse, so two readings err on the side of letting pages load, unless the
compilation is strict. An exception for a path counts for the whole host, and a filter that is meant
for third-party requests only counts as an exception.
-/

namespace Blocklist

/-- Why a host is let through. -/
inductive Ground where
  /-- An exception names the host. -/
  | exception
  /-- An exception names a path on the host. -/
  | path
  /-- The host is only to be blocked for third parties. -/
  | thirdParty
  deriving Repr, DecidableEq

/-- What a line means for a host. -/
inductive Ruling where
  | block (host : Text)
  | allow (host : Text) (ground : Ground)
  deriving Repr, DecidableEq

/-- The two names of the modifier that limits a filter to third-party requests. -/
def isThirdParty (name : Text) : Bool :=
  name == "3p".toText || name == "third-party".toText

namespace NetworkFilter

/-- What a filter means for a host, if it is about one. -/
def ruling? (strict : Bool) (f : NetworkFilter) : Option Ruling :=
  match f.isException, f.hostname? with
  | true, some host => some (.allow host .exception)
  | true, none => if strict then none else f.pathHostname?.map (.allow · .path)
  | false, some host =>
      if !strict && f.modifierNames.any isThirdParty then some (.allow host .thirdParty)
      else some (.block host)
  | false, none => none

end NetworkFilter

namespace Record

/-- What a record means for a host. Only network filters speak of hosts. -/
def ruling? (strict : Bool) : Record → Option Ruling
  | network f => f.ruling? strict
  | other _ | cosmetic _ => none

end Record

/-- What is known after some lines of a list: the blocked hosts and the hosts with an exception,
    each in the order in which they came to be there, and the counts of lines and of lines that
    could not be read. -/
structure Hosts where
  blocked : List Text
  excepted : List Text
  lines : Nat
  errors : Nat
  deriving Repr, DecidableEq

namespace Hosts

def empty : Hosts :=
  ⟨[], [], 0, 0⟩

/-- Put a host at the end, unless it is there already. -/
def enter (host : Text) (hosts : List Text) : List Text :=
  if host ∈ hosts then hosts else hosts ++ [host]

/-- Follow a ruling. An exception only takes out what has been blocked so far. -/
def follow (h : Hosts) : Ruling → Hosts
  | .block host => { h with blocked := enter host h.blocked }
  | .allow host _ =>
      { h with excepted := enter host h.excepted, blocked := h.blocked.filter (· ≠ host) }

def feed (strict : Bool) (h : Hosts) (line : Text) : Hosts :=
  let counted := { h with lines := h.lines + 1 }
  match Record.ofLine line with
  | .error _ => { counted with errors := h.errors + 1 }
  | .ok record =>
      match record.ruling? strict with
      | none => counted
      | some ruling => counted.follow ruling

def feedAll (strict : Bool) (h : Hosts) (lines : List Text) : Hosts :=
  lines.foldl (feed strict) h

/-- A host let through by a reading of a line, in the form of a log text. -/
def allowedText (label host line : Text) : Text :=
  label ++ ": hostname=\"".toText ++ host ++ "\" line=\"".toText ++ line ++ "\"".toText

/-- What taking in a line leaves in the log: a line that cannot be read, or a host that is let
    through though no exception names it. -/
def lineLog (strict : Bool) (line : Text) : List Log.Entry :=
  match Record.ofLine line with
  | .error fault => [Log.skipped .hosts line fault.toProblem]
  | .ok record =>
      match record.ruling? strict with
      | some (.allow host .path) =>
          [⟨.debug, .hosts, allowedText "Path-level exception set".toText host line⟩]
      | some (.allow host .thirdParty) =>
          [⟨.debug, .hosts, allowedText "Third-party exception set".toText host line⟩]
      | _ => []

/-- The hosts file: one line per blocked host, leading it to the machine itself. -/
def render (h : Hosts) : Text :=
  Text.unlines (h.blocked.map ("127.0.0.1 ".toText ++ ·))

def summary (h : Hosts) : Text :=
  "hosts compiled: lines=".toText ++ Text.ofCount h.lines ++
    " blocked=".toText ++ Text.ofCount h.blocked.length ++
    " excepted=".toText ++ Text.ofCount h.excepted.length ++
    " errors=".toText ++ Text.ofCount h.errors

/-- What is known after a whole list. -/
def ofText (strict : Bool) (text : Text) : Hosts :=
  empty.feedAll strict text.lines

/-- A whole list: what is known after it, and the log of it, closed by the counts. -/
def compile (strict : Bool) (text : Text) : Hosts × List Log.Entry :=
  let h := ofText strict text
  (h, text.lines.flatMap (lineLog strict) ++ [⟨.debug, .hosts, h.summary⟩])

end Hosts

end Blocklist
