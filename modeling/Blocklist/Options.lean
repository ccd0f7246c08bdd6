import Blocklist.Text.LowerCase
import Blocklist.Text.Space

/-! # Options

What a run of the program is to do. The options come from the environment first and may be changed
one by one afterwards.
-/

namespace Blocklist

/-- What is written out. -/
inductive OutputFormat where
  /-- The list itself. -/
  | list
  /-- A hosts file. -/
  | hosts
  /-- Wire records. -/
  | json
  deriving Repr, DecidableEq

namespace OutputFormat

def name : OutputFormat → Text
  | list => "list".toText
  | hosts => "hosts".toText
  | json => "json".toText

def all : List OutputFormat :=
  [list, hosts, json]

end OutputFormat

/-- A name that is not the name of a format. -/
structure InvalidFormat where
  name : Text
  deriving Repr, DecidableEq

namespace InvalidFormat

def message (e : InvalidFormat) : Text :=
  let known := OutputFormat.all.map fun format => .char '"' :: format.name ++ [.char '"']
  .char '"' :: e.name ++ "\" is not a valid output format! Possible values are ".toText ++
    ", ".toText.intercalate known

end InvalidFormat

namespace OutputFormat

def ofName (name : Text) : Except InvalidFormat OutputFormat :=
  match all.find? (·.name == name) with
  | some format => .ok format
  | none => .error ⟨name⟩

/-- The format of a name if one is given, and else the format there was. -/
def change (current : OutputFormat) : Option Text → Except InvalidFormat OutputFormat
  | none => .ok current
  | some name => ofName name

end OutputFormat

/-- The environment variables that the program looks at. -/
structure Environment where
  format : Option Text
  strict : Option Text
  debug : Option Text
  check : Option Text
  fix : Option Text
  failFast : Option Text
  deriving Repr, DecidableEq

/-- What a run is to do. -/
structure Options where
  format : OutputFormat
  /-- No reading of a line errs on the side of letting pages load. -/
  strict : Bool
  /-- The log is shown in full. -/
  debug : Bool
  /-- The layout is checked. -/
  check : Bool
  /-- What the check makes of the list is what is compiled. -/
  fix : Bool
  /-- The check fails at the first line that cannot be read. -/
  failFast : Bool
  deriving Repr, DecidableEq

/-- Changes to options. What is not given stays as it is. -/
structure Overrides where
  format : Option Text
  strict : Option Bool
  debug : Option Bool
  check : Option Bool
  fix : Option Bool
  failFast : Option Bool
  deriving Repr, DecidableEq

namespace Overrides

def none : Overrides :=
  ⟨.none, .none, .none, .none, .none, .none⟩

end Overrides

namespace Environment

def empty : Environment :=
  ⟨none, none, none, none, none, none⟩

/-- The text of a setting without the spaces around it, in lower case. -/
def normalize (value : Text) : Text :=
  (Text.trimSpaces value).lowerCase

/-- Whether a variable is set to one of the words for yes. -/
def isOn (value : Option Text) : Bool :=
  ["1".toText, "true".toText, "yes".toText, "on".toText].contains (normalize (value.getD []))

/-- The name of the format that a variable asks for. An empty variable asks for none, but a variable
    of spaces alone asks for a format without a name. -/
def formatName (value : Option Text) : Text :=
  match value with
  | none | some [] => OutputFormat.list.name
  | some name => normalize name

end Environment

namespace Options

def default : Options :=
  ⟨.list, false, false, false, false, false⟩

def override (o : Options) (c : Overrides) : Except InvalidFormat Options :=
  (o.format.change c.format).map fun format =>
    ⟨format, c.strict.getD o.strict, c.debug.getD o.debug, c.check.getD o.check,
      c.fix.getD o.fix, c.failFast.getD o.failFast⟩

def ofEnvironment (e : Environment) : Except InvalidFormat Options :=
  (OutputFormat.ofName (Environment.formatName e.format)).map fun format =>
    ⟨format, Environment.isOn e.strict, Environment.isOn e.debug, Environment.isOn e.check,
      Environment.isOn e.fix, Environment.isOn e.failFast⟩

end Options

end Blocklist
