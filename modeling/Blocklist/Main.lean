import Blocklist.CommandLine.Run

/-! # The program

Reads the environment, the command line and one file, and writes what the run leaves behind.
-/

namespace Blocklist

/-- A text as it is printed. A surrogate is shown by its code. -/
def Text.printed (s : Text) : String :=
  let shown (c : CodePoint) : Text := if c.isSurrogate then Quoted.escapeCode c.toNat else [c]
  String.ofList ((s.flatMap shown).filterMap fun
    | .char c => some c
    | .surrogate _ => none)

/-- The variables that are set for this process. -/
def Environment.ofProcess : IO Environment := do
  let get (name : String) : IO (Option Text) :=
    return (← IO.getEnv name).map (·.toText)
  return {
    format := ← get "FILTERLIST_FORMAT"
    strict := ← get "FILTERLIST_STRICT"
    debug := ← get "FILTERLIST_DEBUG"
    check := ← get "FILTERLIST_CHECK"
    fix := ← get "FILTERLIST_FIX"
    failFast := ← get "FILTERLIST_FAIL_FAST" }

/-- The cause of a failure that the system reports. -/
def ReadFailure.ofError : IO.Error → ReadFailure
  | .noFileOrDirectory .. => missing
  | .permissionDenied .. => denied
  | .inappropriateType _ code _ => if code = 21 then isFolder else notFolder
  | .invalidArgument _ code words =>
      if code = 36 then tooLong else other code.toNat words.toText
  | .resourceExhausted _ code words | .noSuchThing _ code words => other code.toNat words.toText
  | .hardwareFault code words | .otherError code words => other code.toNat words.toText
  | e => other 0 (toString e).toText

def readFile (path : Text) : IO (Except ReadFailure (List UInt8)) := do
  try
    let bytes ← IO.FS.readBinFile path.printed
    return .ok bytes.toList
  catch e => return .error (.ofError e)

/-- Write an outcome, and give the exit code. A run without one of its own exits with 1. -/
def CommandLine.Outcome.report (o : Outcome) : IO UInt32 := do
  IO.print o.stdout.printed
  IO.eprint o.stderr.printed
  match o.ending with
  | .exit code => return code.toUInt32
  | .undecodable fault =>
      IO.eprintln fault.message.printed
      return 1
  | .unencodable fault =>
      IO.eprintln fault.message.printed
      return 1
  | .nulInPath =>
      IO.eprintln "embedded null byte"
      return 1

end Blocklist

def main (arguments : List String) : IO UInt32 := do
  let environment ← Blocklist.Environment.ofProcess
  match Blocklist.CommandLine.plan environment (arguments.map (·.toText)) with
  | .error outcome => outcome.report
  | .ok job => (job.run (← Blocklist.readFile job.path)).report
