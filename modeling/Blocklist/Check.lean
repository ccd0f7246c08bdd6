import Blocklist.Layout
import Blocklist.Log
import Blocklist.Text.Lines

/-! # Checking a list

The check reports every edit that the layout of a list asks for, and makes it. Lines that cannot be
read are left as they are, unless the check is to fail at the first of them. Only LF breaks a line
here, so the CR of a CR LF counts as a blank at the end of its line and goes.
-/

namespace Blocklist

/-- What a check has come to after some lines. -/
structure Check where
  lines : Array Text
  /-- Every edit, with the number of its line, counted from zero. -/
  findings : Array (Nat × Edit)
  errors : Nat
  log : Array Log.Entry
  deriving Repr, DecidableEq

/-- A check that failed at a line. -/
structure CheckFailure where
  fault : MarkerFault
  log : Array Log.Entry
  deriving Repr, DecidableEq

namespace Check

def empty : Check :=
  ⟨#[], #[], 0, #[]⟩

/-- Take in a line that cannot be read. -/
def keep (c : Check) (line : Text) (fault : MarkerFault) : Check :=
  { c with
    lines := c.lines.push line
    errors := c.errors + 1
    log := c.log.push (Log.skipped .check line fault.toProblem) }

def reportEntry (line : Text) (edit : Edit) : Log.Entry :=
  ⟨.warning, .check, edit.report line⟩

/-- Take in a line with the edits that its layout asks for. -/
def repair (c : Check) (line : Text) (edits : List Edit) : Check :=
  { c with
    lines := c.lines.push (Edit.applyAll line edits)
    findings := c.findings.appendList (edits.map (c.lines.size, ·))
    log := c.log.appendList (edits.map (reportEntry line)) }

def step (failFast : Bool) (c : Check) (line : Text) : Except CheckFailure Check :=
  match Record.ofLine line with
  | .ok record => .ok (c.repair line record.layoutEdits)
  | .error fault => if failFast then .error ⟨fault, c.log⟩ else .ok (c.keep line fault)

def ofText (failFast : Bool) (text : Text) : Except CheckFailure Check :=
  (text.splitOn (.char '\n')).foldlM (step failFast) empty

/-- The list as it is to be. -/
def text (c : Check) : Text :=
  Text.unlines c.lines.toList

end Check

end Blocklist
