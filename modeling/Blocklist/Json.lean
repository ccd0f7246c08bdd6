import Blocklist.Text.Basic

/-! # JSON

The values of the wire format and their text: one line, a space after every comma and colon, and
escapes only for quotes, backslashes and control characters. The fields of an object keep their
order.
-/

namespace Blocklist

/-- A value of the wire format. Its numbers are counts. -/
inductive Json where
  | null
  | bool (value : Bool)
  | number (value : Nat)
  | text (value : Text)
  | list (items : List Json)
  | object (fields : List (Text × Json))

namespace Json

def writeNumber (n : Nat) : Text :=
  Text.ofCount n

def hexDigits (n : Nat) : Text :=
  .ofChars ([n / 4096 % 16, n / 256 % 16, n / 16 % 16, n % 16].map Nat.digitChar)

def writeChar (c : CodePoint) : Text :=
  if c = '"' then [.char '\\', .char '"']
  else if c = '\\' then [.char '\\', .char '\\']
  else if c = '\n' then [.char '\\', .char 'n']
  else if c = '\r' then [.char '\\', .char 'r']
  else if c = '\t' then [.char '\\', .char 't']
  else if c = '\x08' then [.char '\\', .char 'b']
  else if c = '\x0c' then [.char '\\', .char 'f']
  else if c.toNat < 0x20 then .char '\\' :: .char 'u' :: hexDigits c.toNat
  else [c]

def writeText (s : Text) : Text :=
  .char '"' :: s.flatMap writeChar ++ [.char '"']

mutual
def write : Json → Text
  | null => "null".toText
  | bool true => "true".toText
  | bool false => "false".toText
  | number n => writeNumber n
  | text s => writeText s
  | list items => .char '[' :: writeItems items ++ [.char ']']
  | object fields => .char '\x7b' :: writeFields fields ++ [.char '\x7d']

def writeItems : List Json → Text
  | [] => []
  | [item] => write item
  | item :: rest => write item ++ .char ',' :: .char ' ' :: writeItems rest

def writeFields : List (Text × Json) → Text
  | [] => []
  | [(key, value)] => writeText key ++ .char ':' :: .char ' ' :: write value
  | (key, value) :: rest =>
      writeText key ++ .char ':' :: .char ' ' :: write value ++
        .char ',' :: .char ' ' :: writeFields rest
end

end Json

end Blocklist
