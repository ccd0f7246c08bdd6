import Blocklist.Text.Cut
import Blocklist.Text.Space

/-! # Messages on one line

A message may come with line breaks and control characters. Written to a log it is one line of
words with single spaces between them, cut short with an ellipsis when it is too long.
-/

namespace Blocklist.Message

/-- A character that can only stand between words. -/
def isGap (c : CodePoint) : Bool :=
  Text.isSpace c || c.toNat < 0x20 || c.toNat == 0x7F

/-- Write every run of gaps as a single space. -/
def squeeze : Text → Text
  | [] => []
  | [c] => [if isGap c then .char ' ' else c]
  | c :: d :: rest =>
      if isGap c then
        if isGap d then squeeze (d :: rest) else .char ' ' :: squeeze (d :: rest)
      else c :: squeeze (d :: rest)

/-- The words of a message with single spaces between them. -/
def oneLine (s : Text) : Text :=
  Text.trimSpaces (squeeze s)

/-- A message on one line of at most `limit` characters. A limit of zero is none; a negative one
    leaves out that many characters and one more at the end. -/
def clean (limit : Int) (s : Text) : Text :=
  let line := oneLine s
  if limit ≠ 0 ∧ limit < line.length then
    Text.trimEndSpaces (line.before (limit - 1)) ++ [.char '…']
  else line

/-- The limit that messages are held to when none is asked for. -/
def defaultLimit : Int :=
  200

end Blocklist.Message
