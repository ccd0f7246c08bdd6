import Blocklist.Text.CodeRange

/-! # Unicode spaces

The spaces, line ends and separators that Unicode knows, used where a text is a message or a setting
and not a filter.
-/

namespace Blocklist.Text

/-- Tabs and line ends, the four information separators, the space, NEL, the no-break space and the
    typographic spaces, and the line and paragraph separators. -/
def spaceRanges : CodeRanges :=
  [(0x9, 0xD), (0x1C, 0x20), (0x85, 0x85), (0xA0, 0xA0), (0x1680, 0x1680), (0x2000, 0x200A),
    (0x2028, 0x2029), (0x202F, 0x202F), (0x205F, 0x205F), (0x3000, 0x3000)]

/-- Whether the character is a space in the sense of Unicode. -/
def isSpace (c : CodePoint) : Bool :=
  spaceRanges.holds c

def trimSpaces (s : Text) : Text :=
  dropEdgesWhile isSpace s

def trimEndSpaces (s : Text) : Text :=
  dropEndWhile isSpace s

end Blocklist.Text
