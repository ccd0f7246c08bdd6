import Blocklist.Filter.Reading
import Blocklist.Message
import Blocklist.Text.Quoted

/-! # Problems and the log

A pass over a list goes on after a line that it cannot use. It says so in the log, with the line and
the cause on one line. A malformed filter is only a warning, since lists in the wild are full of
them; any other cause is an error.
-/

namespace Blocklist

/-- Why something could not be used. -/
inductive Problem where
  /-- A line is no filter. -/
  | malformedFilter (detail : Text)
  /-- A key has no entry. -/
  | missingKey (key : Text)
  /-- Anything else, by the name of its kind. -/
  | other (kind detail : Text)
  deriving Repr, DecidableEq

namespace Problem

def kind : Problem → Text
  | malformedFilter _ => "FilterSyntaxError".toText
  | missingKey _ => "KeyError".toText
  | other kind _ => kind

/-- What is wrong. A missing key is shown in quotes. -/
def detail : Problem → Text
  | malformedFilter detail => detail
  | missingKey key => Text.Quoted.encode key
  | other _ detail => detail

/-- The kind of a problem, and what is wrong if anything can be said. The limit is on what is
    wrong, not on the whole. -/
def describe (limit : Int) (p : Problem) : Text :=
  let detail := Message.clean limit p.detail
  if detail.isEmpty then p.kind else p.kind ++ ": ".toText ++ detail

end Problem

/-- A malformed marker as the problem of its line. -/
def MarkerFault.toProblem (f : MarkerFault) : Problem :=
  .malformedFilter f.message

namespace Log

/-- How serious a log entry is. -/
inductive Level where
  | debug
  | warning
  | error
  deriving Repr, DecidableEq

/-- The passes that keep a log. -/
inductive Pass where
  | hosts
  | records
  | check
  deriving Repr, DecidableEq

structure Entry where
  level : Level
  pass : Pass
  text : Text
  deriving Repr, DecidableEq

/-- A line and a cause in the form of a log text. -/
def lineText (label line cause : Text) : Text :=
  label ++ ": line=\"".toText ++ line ++ "\" e=\"".toText ++ cause ++ "\"".toText

/-- The entry for a line that a pass left out. -/
def skipped (pass : Pass) (line : Text) (p : Problem) : Entry :=
  let cause := p.describe Message.defaultLimit
  match p with
  | .malformedFilter _ => ⟨.warning, pass, lineText "Invalid filter".toText line cause⟩
  | _ => ⟨.error, pass, lineText "Unknown error".toText line cause⟩

end Log

end Blocklist
