import Blocklist.Json
import Blocklist.Proofs.Text.Surrogates

/-! # Reading JSON

The text of a value is read in two steps, first into tokens and then into the value. Blanks may
stand between tokens, strings may hold any escape, and objects keep their fields in the order in
which they are written. Of the numbers only counts are read, since the values have no others.
-/

namespace Blocklist

namespace Json

/-- The blanks that may stand between tokens. -/
def isSpace (c : CodePoint) : Bool :=
  c == ' ' || c == '\t' || c == '\n' || c == '\r'

/-- A piece of the text that means something by itself. -/
inductive Token where
  | openList
  | closeList
  | openObject
  | closeObject
  | comma
  | colon
  /-- A string, a number, or a literal. -/
  | atom (value : Json)

namespace Token

def ofMark? : CodePoint → Option Token
  | .char '[' => some openList
  | .char ']' => some closeList
  | .char '\x7b' => some openObject
  | .char '\x7d' => some closeObject
  | .char ',' => some comma
  | .char ':' => some colon
  | _ => none

end Token

section Words

/-- The character can follow a number or a literal without being part of it. -/
def endsWord (c : CodePoint) : Bool :=
  isSpace c || c == '"' || (Token.ofMark? c).isSome

/-- The count that digits stand for. A count does not start with a zero, unless it is zero. -/
def count? (word : Text) : Option Nat :=
  if word ≠ [] ∧ word.all CodePoint.isDigit ∧
      (word = [.char '0'] ∨ word.head? ≠ some (.char '0')) then
    some (word.foldl (fun n c => 10 * n + (c.toNat - '0'.toNat)) 0)
  else none

/-- The number or the literal that a word is. -/
def word? (word : Text) : Option Json :=
  if word = "null".toText then some .null
  else if word = "true".toText then some (.bool true)
  else if word = "false".toText then some (.bool false)
  else (count? word).map .number

end Words

section Strings

/-- The character that a backslash and a letter stand for. -/
def escaped? : CodePoint → Option CodePoint
  | .char '"' => some (.char '"')
  | .char '\\' => some (.char '\\')
  | .char '/' => some (.char '/')
  | .char 'b' => some (.char '\x08')
  | .char 'f' => some (.char '\x0c')
  | .char 'n' => some (.char '\n')
  | .char 'r' => some (.char '\r')
  | .char 't' => some (.char '\t')
  | _ => none

def hexDigit? : CodePoint → Option Nat
  | .surrogate _ => none
  | .char c =>
      if '0' ≤ c ∧ c ≤ '9' then some (c.toNat - '0'.toNat)
      else if 'a' ≤ c ∧ c ≤ 'f' then some (c.toNat - 'a'.toNat + 10)
      else if 'A' ≤ c ∧ c ≤ 'F' then some (c.toNat - 'A'.toNat + 10)
      else none

/-- The code unit that four hexadecimal digits stand for. -/
def hexUnit? (a b c d : CodePoint) : Option Nat := do
  return (← hexDigit? a) * 4096 + (← hexDigit? b) * 256 + (← hexDigit? c) * 16 + (← hexDigit? d)

/-- Put what an escape for a code unit stands for in front of what is read behind it. Two escapes
    for the units of a pair stand for one character, and any other unit for a code point of its
    own. -/
def joinUnit (unit : Nat) (escapeFollows : Bool) : Text → Text
  | next :: rest =>
      if escapeFollows && Text.isHigh unit && Text.isLow next.toNat then
        .char (Text.ofPair unit next.toNat) :: rest
      else CodePoint.ofNat unit :: next :: rest
  | [] => [CodePoint.ofNat unit]

/-- Read a string whose opening quote has been taken, up to the quote that closes it, and what
    stands behind. -/
def readString : Text → Option (Text × Text)
  | [] => none
  | .char '"' :: rest => some ([], rest)
  | .char '\\' :: .char 'u' :: a :: b :: c :: d :: rest => do
      let unit ← hexUnit? a b c d
      let escapeFollows := rest.take 2 == [.char '\\', .char 'u']
      (readString rest).map (Prod.map (joinUnit unit escapeFollows) id)
  | .char '\\' :: letter :: rest => do
      let c ← escaped? letter
      (readString rest).map (Prod.map (c :: ·) id)
  | c :: rest =>
      if c = '\\' ∨ c.toNat < 0x20 then none
      else (readString rest).map (Prod.map (c :: ·) id)

theorem length_of_readString {s : Text} {read : Text × Text} (found : readString s = some read) :
    read.2.length < s.length := by
  fun_induction readString s generalizing read with
  | case1 => cases found
  | case2 rest =>
      cases found
      exact Nat.lt_succ_self _
  | case3 a b c d rest ih =>
      obtain ⟨unit, -, more⟩ := Option.bind_eq_some_iff.mp found
      obtain ⟨read', found', rfl⟩ := Option.map_eq_some_iff.mp more
      have shorter := ih found'
      simp only [Prod.map_snd, id_eq, List.length_cons]
      omega
  | case4 letter rest more ih =>
      obtain ⟨c, -, more⟩ := Option.bind_eq_some_iff.mp found
      obtain ⟨read', found', rfl⟩ := Option.map_eq_some_iff.mp more
      have shorter := ih found'
      simp only [Prod.map_snd, id_eq, List.length_cons]
      omega
  | case5 => cases found
  | case6 c rest _ _ _ _ ih =>
      obtain ⟨read', found', rfl⟩ := Option.map_eq_some_iff.mp found
      have shorter := ih found'
      simp only [Prod.map_snd, id_eq, List.length_cons]
      omega

end Strings

/-- Take a text apart into tokens. -/
def tokens? (s : Text) : Option (List Token) :=
  match s with
  | [] => some []
  | c :: rest =>
      if isSpace c then tokens? rest
      else if c = '"' then
        match _found : readString rest with
        | some (t, behind) => (tokens? behind).map (.atom (.text t) :: ·)
        | none => none
      else
        match Token.ofMark? c with
        | some mark => (tokens? rest).map (mark :: ·)
        | none =>
            match word? (c :: rest.takeWhile (!endsWord ·)) with
            | some value => (tokens? (rest.dropWhile (!endsWord ·))).map (.atom value :: ·)
            | none => none
termination_by s.length
decreasing_by
  · exact Nat.lt_succ_self _
  · exact Nat.lt_succ_of_lt (length_of_readString _found)
  · exact Nat.lt_succ_self _
  · exact Nat.lt_succ_of_le (List.dropWhile_sublist _).length_le

/-- What is left of tokens when something has been read off their front. -/
abbrev Rest (tokens : List Token) :=
  { rest : List Token // rest.length < tokens.length }

mutual
/-- Read the value that the tokens start with. -/
def readValue : (tokens : List Token) → Option (Json × Rest tokens)
  | .atom value :: rest => some (value, ⟨rest, Nat.lt_succ_self _⟩)
  | .openList :: .closeList :: rest =>
      some (.list [], ⟨rest, by simp only [List.length_cons]; omega⟩)
  | .openList :: rest =>
      match readItems rest with
      | some (items, ⟨behind, shorter⟩) => some (.list items, ⟨behind, Nat.lt_succ_of_lt shorter⟩)
      | none => none
  | .openObject :: .closeObject :: rest =>
      some (.object [], ⟨rest, by simp only [List.length_cons]; omega⟩)
  | .openObject :: rest =>
      match readFields rest with
      | some (fields, ⟨behind, shorter⟩) =>
          some (.object fields, ⟨behind, Nat.lt_succ_of_lt shorter⟩)
      | none => none
  | _ => none
termination_by tokens => (tokens.length, 0)

/-- Read items up to the bracket that closes their list. -/
def readItems (tokens : List Token) : Option (List Json × Rest tokens) :=
  match readValue tokens with
  | some (item, ⟨.closeList :: rest, shorter⟩) =>
      some ([item], ⟨rest, Nat.lt_of_succ_lt shorter⟩)
  | some (item, ⟨.comma :: rest, shorter⟩) =>
      match readItems rest with
      | some (items, ⟨behind, shorter'⟩) =>
          some (item :: items, ⟨behind, Nat.lt_trans shorter' (Nat.lt_of_succ_lt shorter)⟩)
      | none => none
  | _ => none
termination_by (tokens.length, 1)
decreasing_by
  · exact Prod.Lex.right _ Nat.zero_lt_one
  · exact Prod.Lex.left _ _ (Nat.lt_of_succ_lt shorter)

/-- Read fields up to the brace that closes their object. -/
def readFields : (tokens : List Token) → Option (List (Text × Json) × Rest tokens)
  | .atom (.text key) :: .colon :: tokens =>
      match readValue tokens with
      | some (value, ⟨.closeObject :: rest, shorter⟩) =>
          some ([(key, value)], ⟨rest, by simp only [List.length_cons] at shorter ⊢; omega⟩)
      | some (value, ⟨.comma :: rest, shorter⟩) =>
          match readFields rest with
          | some (fields, ⟨behind, shorter'⟩) =>
              some ((key, value) :: fields,
                ⟨behind, by simp only [List.length_cons] at shorter ⊢; omega⟩)
          | none => none
      | _ => none
  | _ => none
termination_by tokens => (tokens.length, 0)
decreasing_by
  · exact Prod.Lex.left _ _ (by simp only [List.length_cons]; omega)
  · exact Prod.Lex.left _ _ (by simp only [List.length_cons] at shorter ⊢; omega)
end

/-- Read a text that holds a value and nothing else. -/
def read? (s : Text) : Option Json :=
  match tokens? s with
  | some tokens =>
      match readValue tokens with
      | some (value, ⟨[], _⟩) => some value
      | _ => none
  | none => none

end Json

end Blocklist
