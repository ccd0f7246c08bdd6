import Blocklist.Text.Printable

/-! # Quoted text

A text between quotes, with everything that could not be read off a screen written as an escape. The
quotes are single ones, unless the text holds a single and no double one. All of this output is
ASCII and printable characters.
-/

namespace Blocklist.Text.Quoted

/-- The quote that a text is put in. -/
def quoteFor (s : Text) : CodePoint :=
  if s.contains '\'' && !s.contains '"' then .char '"' else .char '\''

/-- A number in lower-case hexadecimal, filled up with zeros to a width. -/
def hex (width : Nat) (n : Nat) : Text :=
  let digits := Nat.toDigits 16 n
  .ofChars (List.replicate (width - digits.length) '0' ++ digits)

/-- The escape of a character by its code point, in two, four or eight digits. -/
def escapeCode (code : Nat) : Text :=
  if code < 0x100 then .char '\\' :: .char 'x' :: hex 2 code
  else if code < 0x10000 then .char '\\' :: .char 'u' :: hex 4 code
  else .char '\\' :: .char 'U' :: hex 8 code

def encodeChar (quote c : CodePoint) : Text :=
  if c = quote || c = '\\' then [.char '\\', c]
  else if c = '\n' then [.char '\\', .char 'n']
  else if c = '\r' then [.char '\\', .char 'r']
  else if c = '\t' then [.char '\\', .char 't']
  else if isPrintable c then [c]
  else escapeCode c.toNat

def encode (s : Text) : Text :=
  let quote := quoteFor s
  quote :: s.flatMap (encodeChar quote) ++ [quote]

end Blocklist.Text.Quoted
