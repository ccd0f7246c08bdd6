import Blocklist.Text.Basic

/-! # UTF-8

The bytes of a text, and the strict reading of bytes as text. Surrogates have no bytes, and no bytes
are read as one. A fault is reported at the character it spoils: a byte no character starts with, a
character whose next byte is out of range, or a character that the end of the input cuts short. The
faulty byte itself is not part of the character, so a report never covers it.
-/

namespace Blocklist.Text.Utf8

/-- What is wrong at a fault. -/
inductive Reason where
  /-- No character starts with the byte. -/
  | start
  /-- The byte after the reported ones does not carry the character on. -/
  | continuation
  /-- The input ends inside a character. -/
  | truncated
  deriving Repr, DecidableEq

/-- The first fault of an input: the bytes of the spoilt character and where they start. -/
structure Fault where
  position : Nat
  /-- The byte that the character starts with. -/
  lead : UInt8
  /-- How many further bytes of it were read. -/
  more : Nat
  reason : Reason
  deriving Repr, DecidableEq

/-- A character that has been read in part: where it starts, its first byte, how many bytes follow
    that one so far and how many are still owed, the range of the next byte, and the bits so far. -/
structure Partial where
  position : Nat
  lead : UInt8
  seen : Nat
  owed : Nat
  low : UInt8
  high : UInt8
  bits : Nat
  deriving Repr, DecidableEq

/-- How a byte starts a character of several bytes. The second byte is confined where a longer
    spelling of a shorter character, a surrogate, or a value past U+10FFFF would arise. -/
def Partial.start? (position : Nat) (b : UInt8) : Option Partial :=
  if 0xC2 ≤ b ∧ b ≤ 0xDF then some ⟨position, b, 0, 1, 0x80, 0xBF, b.toNat - 0xC0⟩
  else if 0xE0 ≤ b ∧ b ≤ 0xEF then
    some ⟨position, b, 0, 2, if b = 0xE0 then 0xA0 else 0x80, if b = 0xED then 0x9F else 0xBF,
      b.toNat - 0xE0⟩
  else if 0xF0 ≤ b ∧ b ≤ 0xF4 then
    some ⟨position, b, 0, 3, if b = 0xF0 then 0x90 else 0x80, if b = 0xF4 then 0x8F else 0xBF,
      b.toNat - 0xF0⟩
  else none

def Partial.fault (p : Partial) (reason : Reason) : Fault :=
  ⟨p.position, p.lead, p.seen, reason⟩

/-- Read on from a position, inside a character or between two. -/
def decodeFrom (position : Nat) (pending : Option Partial) : List UInt8 → Except Fault Text
  | [] =>
      match pending with
      | none => .ok []
      | some p => .error (p.fault .truncated)
  | b :: rest =>
      match pending with
      | none =>
          if b < 0x80 then
            (decodeFrom (position + 1) none rest).map (.char (Char.ofNat b.toNat) :: ·)
          else
            match Partial.start? position b with
            | some p => decodeFrom (position + 1) (some p) rest
            | none => .error ⟨position, b, 0, .start⟩
      | some p =>
          if p.low ≤ b ∧ b ≤ p.high then
            let bits := p.bits * 64 + (b.toNat - 0x80)
            if p.owed = 1 then
              (decodeFrom (position + 1) none rest).map (.char (Char.ofNat bits) :: ·)
            else
              decodeFrom (position + 1)
                (some { p with seen := p.seen + 1, owed := p.owed - 1, low := 0x80, high := 0xBF,
                               bits := bits }) rest
          else
            .error (p.fault .continuation)

def decode (bytes : List UInt8) : Except Fault Text :=
  decodeFrom 0 none bytes

/-- The bytes of a text, unless a surrogate is in it. -/
def encode? : Text → Option (List UInt8)
  | [] => some []
  | .surrogate _ :: _ => none
  | .char c :: rest => (encode? rest).map (String.utf8EncodeChar c ++ ·)

def hexByte (b : UInt8) : Text :=
  .ofChars [Nat.digitChar (b.toNat / 16), Nat.digitChar (b.toNat % 16)]

def Reason.message : Reason → Text
  | .start => "invalid start byte".toText
  | .continuation => "invalid continuation byte".toText
  | .truncated => "unexpected end of data".toText

/-- A single byte is shown with its value, several only with their positions. -/
def Fault.message (f : Fault) : Text :=
  let subject :=
    if f.more = 0 then
      "byte 0x".toText ++ hexByte f.lead ++ " in position ".toText ++ Text.ofCount f.position
    else
      "bytes in position ".toText ++ ofCount f.position ++ .char '-' ::
        ofCount (f.position + f.more)
  "'utf-8' codec can't decode ".toText ++ subject ++ ": ".toText ++ f.reason.message

end Blocklist.Text.Utf8
