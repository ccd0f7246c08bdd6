import Blocklist.Check
import Blocklist.CommandLine.Request
import Blocklist.CommandLine.Usage
import Blocklist.FileTree
import Blocklist.Hosts
import Blocklist.Text.Utf8
import Blocklist.Wire

/-! # Runs

A run reads a command line, then one file, and writes its results to the standard output and the log
to the standard error. Everything but the reading of the file is decided here: `plan` says which
file is to be read, and `Job.run` what comes of its content.
-/

namespace Blocklist.CommandLine

/-- How a run ends. -/
inductive Ending where
  | exit (code : Nat)
  /-- The file is not UTF-8. -/
  | undecodable (fault : Text.Utf8.Fault)
  /-- No file can have the path, because of a surrogate in it. -/
  | unencodable (fault : Text.EncodeFault)
  /-- No file can have the path, because of a character U+0000 in it. -/
  | nulInPath
  deriving Repr, DecidableEq

/-- What a run leaves behind. -/
structure Outcome where
  ending : Ending
  stdout : Text
  stderr : Text
  deriving Repr, DecidableEq

def note (s : Text) : Text :=
  "[transform_list] ".toText ++ s ++ [.char '\n']

def Outcome.noted (code : Nat) (s : Text) : Outcome :=
  ⟨.exit code, [], note s⟩

/-- The log as it is shown: each text on a line of its own, and the finest level only on demand. -/
def showLog (debug : Bool) (log : List Log.Entry) : Text :=
  (log.filter fun entry => debug || entry.level != .debug).flatMap (·.text ++ [.char '\n'])

/-- Write out a list: `checked` where the list itself is asked for, and what `source` compiles to
    otherwise. `log` is the log so far. -/
def emit (o : Options) (source checked : Text) (log : List Log.Entry) : Outcome :=
  match o.format with
  | .list => ⟨.exit 0, checked ++ [.char '\n'], showLog o.debug log⟩
  | .hosts =>
      let (hosts, hostsLog) := Hosts.compile o.strict source
      ⟨.exit 0, hosts.render ++ [.char '\n'], showLog o.debug (log ++ hostsLog)⟩
  | .json =>
      ⟨.exit 0, Wire.compile source ++ [.char '\n'], showLog o.debug (log ++ Wire.textLog source)⟩

/-- Do with a list what the options ask for. -/
def transform (o : Options) (list : Text) : Outcome :=
  if o.check then
    match Check.ofText o.failFast list with
    | .error failure =>
        ⟨.exit 1, [], showLog o.debug failure.log.toList ++
          note ("check aborted: ".toText ++
            failure.fault.toProblem.describe Message.defaultLimit)⟩
    | .ok check => emit o (if o.fix then check.text else list) check.text check.log.toList
  else emit o list list []

/-- A file that is to be read, and what is to be done with it. -/
structure Job where
  path : Text
  options : Options
  deriving Repr, DecidableEq

/-- The options of a run. What the command line says goes before what the environment says, but the
    environment has to make sense by itself. -/
def options (e : Environment) (r : Request) : Except InvalidFormat Options :=
  (Options.ofEnvironment e).bind (·.override r.overrides)

/-- How a run ends when no file can have the path. -/
def unopenable? (path : Text) : Option Ending :=
  match path.pathFault? with
  | some fault => some (.unencodable fault)
  | none => if .char '\x00' ∈ path then some .nulInPath else none

/-- What a command line leads to: a job, or the end of the run. -/
def plan (e : Environment) (arguments : List Text) : Except Outcome Job :=
  match Request.ofArguments arguments with
  | .error .help => .error ⟨.exit 0, help, []⟩
  | .error (.usage wrong) => .error ⟨.exit 2, [], complaint wrong⟩
  | .ok request =>
      match options e request with
      | .error invalid => .error (.noted 2 invalid.message)
      | .ok o =>
          if request.path = [] then .error (.noted 2 "an input file is required".toText)
          else
            match unopenable? request.path with
            | some ending => .error ⟨ending, [], []⟩
            | none => .ok ⟨request.path, o⟩

namespace Job

/-- Do a job with what reading its file has given. The list is told from its bytes, and its line
    breaks are unified. -/
def run (job : Job) : Except ReadFailure (List UInt8) → Outcome
  | .error failure =>
      .noted 2 ("failed reading ".toText ++ job.path ++ ": ".toText ++
        (failure.toProblem job.path).describe Message.defaultLimit)
  | .ok bytes =>
      match Text.Utf8.decode bytes with
      | .error fault => ⟨.undecodable fault, [], []⟩
      | .ok list => transform job.options list.unifyBreaks

end Job

/-- A whole run, with the files that there are to read. -/
def run (e : Environment) (files : Files) (arguments : List Text) : Outcome :=
  match plan e arguments with
  | .error outcome => outcome
  | .ok job => job.run (files job.path)

end Blocklist.CommandLine
