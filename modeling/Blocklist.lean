import Blocklist.Text.Basic
import Blocklist.Text.CodeRange
import Blocklist.Text.Space
import Blocklist.Text.Cut
import Blocklist.Text.Lines
import Blocklist.Text.Escaped
import Blocklist.Text.Surrogate
import Blocklist.Text.Units
import Blocklist.Text.Utf8
import Blocklist.Text.Printable
import Blocklist.Text.Digit
import Blocklist.Text.Cased
import Blocklist.Text.LowerCase
import Blocklist.Text.Quoted
import Blocklist.Filter.Basic
import Blocklist.Filter.Section
import Blocklist.Filter.Reading
import Blocklist.Hostname
import Blocklist.Message
import Blocklist.Log
import Blocklist.Hosts
import Blocklist.Edit
import Blocklist.Layout
import Blocklist.Check
import Blocklist.Json
import Blocklist.Wire
import Blocklist.Options
import Blocklist.FileTree
import Blocklist.CommandLine.Argument
import Blocklist.CommandLine.Request
import Blocklist.CommandLine.Usage
import Blocklist.CommandLine.Run
import Blocklist.Main
import Blocklist.Proofs.Edit.Simultaneous
import Blocklist.Proofs.Filter.Tiling
import Blocklist.Proofs.Hosts.Standing
import Blocklist.Proofs.Layout.Settling
import Blocklist.Proofs.Layout.Retained
import Blocklist.Proofs.Layout.SameKind
import Blocklist.Proofs.Check.Rechecking
import Blocklist.Proofs.Check.Findings
import Blocklist.Proofs.Hosts.Strictness
import Blocklist.Proofs.Wire.Marks
import Blocklist.Proofs.Wire.ReadBack
import Blocklist.Proofs.Hostname.AsLine
import Blocklist.Proofs.Check.LineByLine
import Blocklist.Proofs.Hostname.Places
import Blocklist.Proofs.Text.Breaks
import Blocklist.Proofs.Hosts.ByPlaces
import Blocklist.Proofs.Passes.Agreement
import Blocklist.Proofs.Text.Utf8
import Blocklist.Proofs.CommandLine.Jobs
import Blocklist.Proofs.CommandLine.TwoPasses
import Blocklist.Proofs.CommandLine.Precedence
import Blocklist.Proofs.Check.CarriageReturns
import Blocklist.Proofs.Hosts.Tidied
import Blocklist.Proofs.Layout.Limited
import Blocklist.Proofs.Edit.Surviving
import Blocklist.Proofs.Filter.Grammar
import Blocklist.Proofs.Hostname.Spelling
import Blocklist.Proofs.Hosts.Rendering
import Blocklist.Proofs.Hosts.Paths
import Blocklist.Proofs.Edit.Report
import Blocklist.Proofs.Layout.Warranted
import Blocklist.Proofs.Message.Cleaning
import Blocklist.Proofs.Filter.LookAhead
import Blocklist.Proofs.Message.Description
import Blocklist.Proofs.Passes.LineNumbers
