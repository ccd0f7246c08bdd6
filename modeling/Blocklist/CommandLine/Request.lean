import Blocklist.CommandLine.Argument
import Blocklist.Options

/-! # Requests

What a command line asks for as a whole. There is room for one operand. Letters of switches may be
written in one argument, and the last of them may take a value. Options act in their order, so the
last one counts, and a request for help is met as soon as it is reached.
-/

namespace Blocklist.CommandLine

/-- What a command line asks for. -/
structure Request where
  /-- The operand, which names the file to read. -/
  operand : Option Text
  /-- The file to read by option, which goes before the operand. -/
  input : Option Text
  overrides : Overrides
  extras : List Text
  deriving Repr, DecidableEq

/-- Why a command line does not lead to a run. -/
inductive Stop where
  | help
  | usage (e : UsageError)
  deriving Repr, DecidableEq

/-- The options written in one argument: switches, and a last one that may have a value attached. -/
structure Cluster where
  switches : List Opt
  last : Opt
  attached : Option Text
  deriving Repr, DecidableEq

namespace Cluster

/-- Read what is attached to a letter. Behind a switch it is more letters, and a switch is left
    without a value. -/
def ofAttached (o : Opt) : Text → Except UsageError Cluster
  | [] => if o.takesValue then .ok ⟨[], o, some []⟩ else .error (.unusedValue o [])
  | c :: rest =>
      if o.takesValue then .ok ⟨[], o, some (c :: rest)⟩
      else
        match Opt.ofLetter? c with
        | none => .error (.unusedValue o (c :: rest))
        | some next =>
            if rest = [] then .ok ⟨[o], next, none⟩
            else (ofAttached next rest).map fun k => { k with switches := o :: k.switches }

/-- Read an option. Behind a long name only a value can be attached. -/
def ofOption (o : Opt) (byLetter : Bool) : Option Text → Except UsageError Cluster
  | none => .ok ⟨[], o, none⟩
  | some attached =>
      if byLetter then ofAttached o attached
      else if o.takesValue then .ok ⟨[], o, some attached⟩
      else .error (.unusedValue o attached)

/-- Whether the argument that follows is the value of the last option. -/
def needsNext (k : Cluster) : Bool :=
  k.last.takesValue && k.attached.isNone

end Cluster

namespace Request

def empty : Request :=
  ⟨none, none, Overrides.none, []⟩

def setAside (r : Request) (argument : Text) : Request :=
  { r with extras := r.extras ++ [argument] }

def takeOperand (r : Request) (text : Text) : Request :=
  if r.operand.isNone then { r with operand := some text } else r.setAside text

/-- The mark that ends the options is of no further use before the operand, and is set aside behind
    it like another operand. -/
def takeTerminator (r : Request) : Request :=
  if r.operand.isNone then r else r.setAside endOfOptions

def turnOn (r : Request) : Opt → Except Stop Request
  | .help => .error .help
  | .strict => .ok { r with overrides := { r.overrides with strict := some true } }
  | .debug => .ok { r with overrides := { r.overrides with debug := some true } }
  | .check => .ok { r with overrides := { r.overrides with check := some true } }
  | .fix => .ok { r with overrides := { r.overrides with fix := some true } }
  | .failFast => .ok { r with overrides := { r.overrides with failFast := some true } }
  | .input | .format => .ok r

def give (r : Request) (value : Text) : Opt → Request
  | .input => { r with input := some value }
  | .format => { r with overrides := { r.overrides with format := some value } }
  | _ => r

/-- The value of an option that has a text attached. The mark that ends the options is no value:
    what is left is an empty list, which names no file and is shown in brackets. -/
def attachedValue (o : Opt) (text : Text) : Text :=
  if text = endOfOptions then
    match o with
    | .format => [.char '[', .char ']']
    | _ => []
  else text

/-- Follow the options of a cluster. The last one has its value by now, if it takes one. -/
def follow (r : Request) (k : Cluster) (value : Option Text) : Except Stop Request :=
  (k.switches.foldlM turnOn r).bind fun turned =>
    match value with
    | some value => .ok (turned.give value k.last)
    | none => turned.turnOn k.last

/-- Read the arguments that follow, as far as `r` has come. -/
def readFrom (r : Request) : List Token → Except Stop Request
  | [] => .ok r
  | .operand text :: .terminator :: rest =>
      -- The mark right behind the operand belongs to it.
      if r.operand.isNone then readFrom (r.takeOperand text) rest
      else readFrom ((r.setAside text).setAside endOfOptions) rest
  | .operand text :: rest => readFrom (r.takeOperand text) rest
  | .terminator :: rest => readFrom r.takeTerminator rest
  | .unknown text :: rest => readFrom (r.setAside text) rest
  | .option o byLetter attached :: rest =>
      match Cluster.ofOption o byLetter attached with
      | .error e => .error (.usage e)
      | .ok k =>
          if k.needsNext then
            match rest with
            | .operand text :: rest => (r.follow k (some text)).bind (readFrom · rest)
            | _ => .error (.usage (.missingValue k.last))
          else
            (r.follow k (k.attached.map (attachedValue k.last))).bind (readFrom · rest)

def ofArguments (arguments : List Text) : Except Stop Request :=
  ((Token.ofArguments arguments).mapError Stop.usage).bind fun tokens =>
    (readFrom empty tokens).bind fun r =>
      if r.extras = [] then .ok r else .error (.usage (.unrecognized r.extras))

/-- The file to read. An empty name by option leaves it to the operand. -/
def path (r : Request) : Text :=
  match r.input with
  | none | some [] => r.operand.getD []
  | some name => name

end Request

end Blocklist.CommandLine
