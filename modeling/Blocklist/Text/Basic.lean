/-! # Text and its blanks

Text is a list of code points, so that offsets and lengths count those. Nearly all of them are
characters. A surrogate is none, but texts from elsewhere may hold one that is not part of a pair.
Blanks are the characters that only lay a list line out; the Unicode notion of white space is wider
and is treated in `Blocklist.Text.Space`.
-/

namespace Blocklist

/-- A code point of a text. -/
inductive CodePoint where
  | char (c : Char)
  /-- One of the code points from U+D800 on that are only meant for halves of a pair. -/
  | surrogate (offset : Fin 0x800)
  deriving Repr, DecidableEq

namespace CodePoint

instance : Coe Char CodePoint := ⟨char⟩

def toNat : CodePoint → Nat
  | char c => c.toNat
  | surrogate offset => 0xD800 + offset

def ofNat (code : Nat) : CodePoint :=
  if surrogates : 0xD800 ≤ code ∧ code < 0xE000 then surrogate ⟨code - 0xD800, by omega⟩
  else char (Char.ofNat code)

/-- Whether the code point is an ASCII letter. -/
def isAlpha : CodePoint → Bool
  | char c => c.isAlpha
  | surrogate _ => false

/-- Whether the code point is an ASCII digit. -/
def isDigit : CodePoint → Bool
  | char c => c.isDigit
  | surrogate _ => false

def isAlphanum (c : CodePoint) : Bool :=
  c.isAlpha || c.isDigit

def isSurrogate : CodePoint → Bool
  | char _ => false
  | surrogate _ => true

@[simp] theorem toNat_char (c : Char) : (char c).toNat = c.toNat := rfl

end CodePoint

/-- Text, by its code points. -/
abbrev Text := List CodePoint

namespace Text

/-- A text of characters. -/
def ofChars (s : List Char) : Text :=
  s.map .char

/-- A count in decimal digits. -/
def ofCount (n : Nat) : Text :=
  ofChars (Nat.toDigits 10 n)

/-- A control character, the space, or DEL. Wider spaces such as U+00A0 are not blank: they belong
    to the filter they stand in. -/
def isBlank (c : CodePoint) : Bool :=
  c.toNat ≤ 32 || c.toNat == 127

/-- Drop the longest end of a text all of whose characters pass the test. -/
def dropEndWhile (p : CodePoint → Bool) (s : Text) : Text :=
  (s.reverse.dropWhile p).reverse

/-- Drop the characters that pass the test from both ends. -/
def dropEdgesWhile (p : CodePoint → Bool) (s : Text) : Text :=
  dropEndWhile p (s.dropWhile p)

def leadingBlanks (s : Text) : Nat :=
  (s.takeWhile isBlank).length

/-- How many blanks a text ends with. A text of blanks alone both starts and ends with all of
    them. -/
def trailingBlanks (s : Text) : Nat :=
  leadingBlanks s.reverse

/-- A text without the blanks at its two ends. -/
def trimBlanks (s : Text) : Text :=
  dropEdgesWhile isBlank s

@[simp] theorem char_mem_ofChars {c : Char} {s : List Char} : .char c ∈ ofChars s ↔ c ∈ s := by
  simp [ofChars]

@[simp] theorem dropEndWhile_nil (p : CodePoint → Bool) : dropEndWhile p [] = [] := rfl

theorem take_leadingBlanks (s : Text) : s.take (leadingBlanks s) = s.takeWhile isBlank :=
  (List.prefix_iff_eq_take.1 (List.takeWhile_prefix isBlank)).symm

theorem leadingBlanks_le_length (s : Text) : leadingBlanks s ≤ s.length :=
  (List.takeWhile_sublist isBlank).length_le

theorem trailingBlanks_le_length (s : Text) : trailingBlanks s ≤ s.length := by
  simpa [trailingBlanks] using leadingBlanks_le_length s.reverse

end Text

end Blocklist

/-- The characters of a string as a text. -/
def String.toText (s : String) : Blocklist.Text :=
  .ofChars s.toList

@[simp] theorem String.char_mem_toText {c : Char} {s : String} :
    .char c ∈ s.toText ↔ c ∈ s.toList :=
  Blocklist.Text.char_mem_ofChars
