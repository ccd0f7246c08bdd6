import Blocklist.CommandLine.Argument
import Blocklist.Text.Lines

/-! # Usage

What the user is told about the command line.
-/

namespace Blocklist.CommandLine

def usage : Text :=
  Text.unlines [
    "usage: transform_list.py [-h] [-i INPUT_OPT] [-f OUTPUT_FORMAT] [-s] [-d] [-c]".toText,
    "                         [-a] [--fail-fast]".toText,
    "                         [input]".toText,
    []]

def help : Text :=
  usage ++ Text.unlines [
    [],
    "Check, fix and compile ad-filtering lists".toText,
    [],
    "positional arguments:".toText,
    "  input                 Path to the filter list".toText,
    [],
    "options:".toText,
    "  -h, --help            show this help message and exit".toText,
    "  -i INPUT_OPT, --input INPUT_OPT".toText,
    "                        Path to the filter list".toText,
    "  -f OUTPUT_FORMAT, --format OUTPUT_FORMAT".toText,
    "                        Output format: list, hosts or json".toText,
    "  -s, --strict          Disable hosts exception heuristics".toText,
    "  -d, --debug           Print debug messages to stderr".toText,
    "  -c, --check           Report formatting issues".toText,
    "  -a, --fix             Feed the fixed list to later stages".toText,
    "  --fail-fast           Abort the check on the first invalid line".toText,
    []]

/-- What a wrong command line is answered with. -/
def complaint (e : UsageError) : Text :=
  usage ++ "transform_list.py: error: ".toText ++ e.message ++ [.char '\n']

end Blocklist.CommandLine
