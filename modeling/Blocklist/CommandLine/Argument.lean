import Blocklist.Text.Digit
import Blocklist.Text.Quoted

/-! # Arguments

What each argument of the command line is, taken by itself. An option has a long name, which may be
shortened as long as it stays the only one, and mostly a letter. A value may be attached to either:
behind an equals sign, or behind the letter directly.
-/

namespace Blocklist.CommandLine

/-- The options of the program. -/
inductive Opt where
  | help
  | input
  | format
  | strict
  | debug
  | check
  | fix
  | failFast
  deriving Repr, DecidableEq

namespace Opt

/-- All options, in the order in which they are listed to the user. -/
def all : List Opt :=
  [help, input, format, strict, debug, check, fix, failFast]

def letter? : Opt → Option CodePoint
  | help => some (.char 'h')
  | input => some (.char 'i')
  | format => some (.char 'f')
  | strict => some (.char 's')
  | debug => some (.char 'd')
  | check => some (.char 'c')
  | fix => some (.char 'a')
  | failFast => none

def longName : Opt → Text
  | help => "--help".toText
  | input => "--input".toText
  | format => "--format".toText
  | strict => "--strict".toText
  | debug => "--debug".toText
  | check => "--check".toText
  | fix => "--fix".toText
  | failFast => "--fail-fast".toText

/-- Whether an option is given a value. The others are switches. -/
def takesValue : Opt → Bool
  | input | format => true
  | _ => false

def ofLetter? (c : CodePoint) : Option Opt :=
  all.find? (·.letter? == some c)

def startingWith (start : Text) : List Opt :=
  all.filter fun o => start.isPrefixOf o.longName

def label (o : Opt) : Text :=
  match o.letter? with
  | none => o.longName
  | some c => .char '-' :: c :: .char '/' :: o.longName

end Opt

/-- What is wrong with a command line. -/
inductive UsageError where
  /-- A shortened long name stands for several options. -/
  | ambiguous (argument : Text) (candidates : List Opt)
  /-- An option that needs a value has none. -/
  | missingValue (o : Opt)
  /-- A switch has a value attached, or a letter behind it is no option. -/
  | unusedValue (o : Opt) (value : Text)
  /-- Nothing can be made of some arguments. -/
  | unrecognized (arguments : List Text)
  deriving Repr, DecidableEq

namespace UsageError

def message : UsageError → Text
  | ambiguous argument candidates =>
      "ambiguous option: ".toText ++ argument ++ " could match ".toText ++
        ", ".toText.intercalate (candidates.map (·.longName))
  | missingValue o => "argument ".toText ++ o.label ++ ": expected one argument".toText
  | unusedValue o value =>
      "argument ".toText ++ o.label ++ ": ignored explicit argument ".toText ++
        Text.Quoted.encode value
  | unrecognized arguments =>
      "unrecognized arguments: ".toText ++ [.char ' '].intercalate arguments

end UsageError

def endOfOptions : Text :=
  [.char '-', .char '-']

/-- What an argument is. -/
inductive Token where
  /-- A file name, or the value of the option before it. -/
  | operand (text : Text)
  /-- The end of the options: all that follows is an operand. -/
  | terminator
  /-- An option, by its letter or by its long name, with what is attached to it. -/
  | option (o : Opt) (byLetter : Bool) (attached : Option Text)
  /-- It looks like an option but is none. -/
  | unknown (text : Text)
  deriving Repr, DecidableEq

namespace Token

/-- Whether what follows a hyphen makes it the sign of a number: digits, possibly with a point in
    front of the last of them, and possibly a line feed. -/
def isNumber (s : Text) : Bool :=
  let digits := if s.getLast? = some (.char '\n') then s.dropLast else s
  let whole := digits.takeWhile Text.isDigit
  match digits.dropWhile Text.isDigit with
  | [] => !whole.isEmpty
  | .char '.' :: decimals => !decimals.isEmpty && decimals.all Text.isDigit
  | _ => false

/-- An argument with a hyphen in front that is no option. Negative numbers and texts with a space in
    them are operands. -/
def ofOther (argument : Text) : Token :=
  if isNumber (argument.drop 1) || argument.contains ' ' then operand argument
  else unknown argument

def ofShort (letter : CodePoint) (rest : Text) : Token :=
  match Opt.ofLetter? letter, rest with
  | some o, [] => option o true none
  | some o, .char '=' :: value => option o true (some value)
  | some o, value => option o true (some value)
  | none, _ => ofOther (.char '-' :: letter :: rest)

def ofLong (argument : Text) : Except UsageError Token :=
  let name := argument.takeWhile (· != .char '=')
  let attached := (argument.dropWhile (· != .char '=')).tail?
  match Opt.startingWith name with
  | [] => .ok (ofOther argument)
  | [o] => .ok (option o false attached)
  | candidates => .error (.ambiguous argument candidates)

/-- What an argument in front of the end of the options is. A lone hyphen is an operand. -/
def ofArgument (argument : Text) : Except UsageError Token :=
  match argument with
  | .char '-' :: .char '-' :: _ => ofLong argument
  | .char '-' :: letter :: rest => .ok (ofShort letter rest)
  | _ => .ok (operand argument)

def ofArguments : List Text → Except UsageError (List Token)
  | [] => .ok []
  | argument :: rest =>
      if argument = endOfOptions then .ok (terminator :: rest.map operand)
      else
        match ofArgument argument with
        | .error e => .error e
        | .ok token => (ofArguments rest).map (token :: ·)

end Token

end Blocklist.CommandLine
