import Blocklist.Proofs.Json.Reader

/-! # Reading what was written

The text of a value is read as that value, whatever its strings hold, and the text is one line.
-/

namespace Blocklist

namespace Json

mutual
/-- The tokens of a value. -/
def tokens : Json → List Token
  | list items => .openList :: itemTokens items ++ [.closeList]
  | object fields => .openObject :: fieldTokens fields ++ [.closeObject]
  | null => [.atom null]
  | bool value => [.atom (bool value)]
  | number value => [.atom (number value)]
  | text value => [.atom (text value)]

def itemTokens : List Json → List Token
  | [] => []
  | [item] => tokens item
  | item :: next :: rest => tokens item ++ .comma :: itemTokens (next :: rest)

def fieldTokens : List (Text × Json) → List Token
  | [] => []
  | [(key, value)] => .atom (text key) :: .colon :: tokens value
  | (key, value) :: next :: rest =>
      .atom (text key) :: .colon :: tokens value ++ .comma :: fieldTokens (next :: rest)
end

section Strings

variable {c : CodePoint} {rest : Text}

/-- A character is written with a short escape, with four digits, or as it is. -/
theorem written_writeChar (c : CodePoint) :
    (∃ letter, escaped? letter = some c ∧ writeChar c = [.char '\\', letter]) ∨
      c.toNat < 0x20 ∧ writeChar c = .char '\\' :: .char 'u' :: hexDigits c.toNat ∨
      c ≠ '"' ∧ c ≠ '\\' ∧ ¬c.toNat < 0x20 ∧ writeChar c = [c] := by
  by_cases short : ∃ letter, escaped? letter = some c ∧ writeChar c = [.char '\\', letter]
  · exact .inl short
  -- The letters of all short escapes are tried, so that c is none of their characters.
  have bare : ∀ letter d, escaped? letter = some d → writeChar d = [.char '\\', letter] → c ≠ d := by
    rintro letter d escape written rfl
    exact short ⟨letter, escape, written⟩
  have quote := bare '"' '"' rfl rfl
  have backslash := bare '\\' '\\' rfl rfl
  have lf := bare 'n' '\n' rfl rfl
  have cr := bare 'r' '\r' rfl rfl
  have tab := bare 't' '\t' rfl rfl
  have back := bare 'b' '\x08' rfl rfl
  have feed := bare 'f' '\x0c' rfl rfl
  unfold writeChar
  rw [if_neg quote, if_neg backslash, if_neg lf, if_neg cr, if_neg tab, if_neg back, if_neg feed]
  by_cases control : c.toNat < 0x20
  · rw [if_pos control]
    exact .inr (.inl ⟨control, rfl⟩)
  · rw [if_neg control]
    exact .inr (.inr ⟨quote, backslash, control, rfl⟩)

theorem hexDigit?_digitChar {n : Nat} (small : n < 16) : hexDigit? n.digitChar = some n := by
  have all : ∀ m < 16, hexDigit? (Nat.digitChar m) = some m := by decide
  exact all n small

theorem hexUnit?_digitChar {n : Nat} (small : n < 65536) :
    hexUnit? (n / 4096 % 16).digitChar (n / 256 % 16).digitChar (n / 16 % 16).digitChar
      (n % 16).digitChar = some n := by
  have whole : n / 4096 % 16 * 4096 + n / 256 % 16 * 256 + n / 16 % 16 * 16 + n % 16 = n := by omega
  simp only [hexUnit?, hexDigit?_digitChar (Nat.mod_lt _ (by decide : 0 < 16)),
    Option.bind_eq_bind, Option.bind_some, Option.pure_def, whole]

theorem joinUnit_of_not_isHigh {unit : Nat} (single : Text.isHigh unit = false)
    (escapeFollows : Bool) (s : Text) :
    joinUnit unit escapeFollows s = CodePoint.ofNat unit :: s := by
  cases s <;> simp [joinUnit, single]

/-- A control character is read from its four digits, since it is no half of a pair. -/
theorem readString_hexDigits (control : c.toNat < 0x20) (rest : Text) :
    readString (.char '\\' :: .char 'u' :: hexDigits c.toNat ++ rest) =
      (readString rest).map (Prod.map (c :: ·) id) := by
  have single : Text.isHigh c.toNat = false := by
    simp only [Text.isHigh, Bool.and_eq_false_iff, decide_eq_false_iff_not]
    omega
  have same : CodePoint.ofNat c.toNat = c := by
    cases c with
    | surrogate offset => simp only [CodePoint.toNat] at control; omega
    | char c =>
        rw [CodePoint.ofNat, dif_neg (by omega), CodePoint.toNat_char, Char.ofNat_toNat]
  have joined : ∀ escapeFollows, joinUnit c.toNat escapeFollows = (c :: ·) := by
    intro escapeFollows
    funext s
    rw [joinUnit_of_not_isHigh single, same]
  simp only [hexDigits, Text.ofChars, List.map_cons, List.map_nil, List.cons_append,
    List.nil_append]
  rw [readString, hexUnit?_digitChar (by omega)]
  simp only [Option.bind_eq_bind, Option.bind_some, joined]

theorem readString_escape {letter : CodePoint} (escape : escaped? letter = some c) (rest : Text) :
    readString (.char '\\' :: letter :: rest) =
      (readString rest).map (Prod.map (c :: ·) id) := by
  have short : letter ≠ 'u' := by
    rintro rfl
    cases escape
  rw [readString, escape]
  · rfl
  · intro _ _ _ _ _ same
    exact absurd same short

theorem readString_bare (quote : c ≠ '"') (backslash : c ≠ '\\') (control : ¬c.toNat < 0x20)
    (rest : Text) : readString (c :: rest) = (readString rest).map (Prod.map (c :: ·) id) := by
  rw [readString, if_neg (not_or.mpr ⟨backslash, control⟩)]
  · exact quote
  · intro _ _ _ _ _ same
    exact absurd same backslash
  · intro _ _ same
    exact absurd same backslash

theorem readString_writeChar (c : CodePoint) (rest : Text) :
    readString (writeChar c ++ rest) = (readString rest).map (Prod.map (c :: ·) id) := by
  rcases written_writeChar c with ⟨letter, escape, written⟩ | ⟨control, written⟩ |
    ⟨quote, backslash, control, written⟩
  · rw [written]
    exact readString_escape escape rest
  · rw [written]
    exact readString_hexDigits control rest
  · rw [written]
    exact readString_bare quote backslash control rest

theorem readString_flatMap_writeChar (s rest : Text) :
    readString (s.flatMap writeChar ++ .char '"' :: rest) = some (s, rest) := by
  induction s with
  | nil => rfl
  | cons c s ih =>
      rw [List.flatMap_cons, List.append_assoc, readString_writeChar, ih]
      rfl

end Strings

section Words

variable {c : CodePoint} {word rest : Text} {value : Json}

theorem head?_toDigits {n : Nat} (positive : 0 < n) : (Nat.toDigits 10 n).head? ≠ some '0' := by
  induction n using Nat.strongRecOn with
  | ind n ih =>
      by_cases small : n < 10
      · have digits : ∀ m < 10, 0 < m → (Nat.toDigits 10 m).head? ≠ some '0' := by decide
        exact digits n small positive
      · have first := ih (n / 10) (by omega) (by omega)
        obtain ⟨d, digits, front⟩ := List.exists_cons_of_ne_nil
          (Nat.toDigits_ne_nil : Nat.toDigits 10 (n / 10) ≠ [])
        rw [front] at first
        rw [Nat.toDigits_of_base_le (by decide) (Nat.le_of_not_lt small), front]
        exact first

theorem isDigit_of_mem_writeNumber {n : Nat} : ∀ c ∈ writeNumber n, c.isDigit = true :=
  List.forall_mem_map.mpr fun _ isThere =>
    Nat.isDigit_of_mem_toDigits (by decide) (by decide) isThere

theorem count?_writeNumber (n : Nat) : count? (writeNumber n) = some n := by
  have filled : writeNumber n ≠ [] := mt List.map_eq_nil_iff.mp Nat.toDigits_ne_nil
  have digits := List.all_eq_true.mpr (isDigit_of_mem_writeNumber (n := n))
  have first : writeNumber n = [.char '0'] ∨ (writeNumber n).head? ≠ some (.char '0') := by
    rcases Nat.eq_zero_or_pos n with rfl | positive
    · exact .inl rfl
    · right
      simpa [writeNumber, Text.ofCount, Text.ofChars] using head?_toDigits positive
  rw [count?, if_pos ⟨filled, digits, first⟩, writeNumber, Text.ofCount, Text.ofChars,
    List.foldl_map]
  exact congrArg some Nat.ofDigitChars_ten_toDigits

theorem word?_writeNumber (n : Nat) : word? (writeNumber n) = some (.number n) := by
  -- A literal starts with a letter, so digits are none.
  have apart : ∀ {literal : Text} {c : CodePoint}, c ∈ literal → c.isDigit = false →
      writeNumber n ≠ literal := by
    rintro _ c isThere letter rfl
    have digit := isDigit_of_mem_writeNumber c isThere
    rw [letter] at digit
    cases digit
  rw [word?, if_neg (apart (c := 'n') (by decide) rfl), if_neg (apart (c := 't') (by decide) rfl),
    if_neg (apart (c := 'f') (by decide) rfl), count?_writeNumber]
  rfl

theorem endsWord_eq_false_iff : endsWord c = false ↔
    isSpace c = false ∧ c ≠ '"' ∧ Token.ofMark? c = none := by
  simp [endsWord, and_assoc]

theorem apart_of_ofMark? {mark : Token} (isMark : Token.ofMark? c = some mark) :
    isSpace c = false ∧ c ≠ '"' ∧ c.isDigit = false := by
  unfold Token.ofMark? at isMark
  split at isMark
  · decide
  · decide
  · decide
  · decide
  · decide
  · decide
  · cases isMark

theorem endsWord_of_isDigit (digit : c.isDigit = true) : endsWord c = false := by
  rw [endsWord_eq_false_iff]
  refine ⟨?_, ?_, ?_⟩
  · simp only [isSpace, Bool.or_eq_false_iff, beq_eq_false_iff_ne]
    refine ⟨⟨⟨?_, ?_⟩, ?_⟩, ?_⟩ <;> (rintro rfl; cases digit)
  · rintro rfl
    cases digit
  · refine Option.eq_none_iff_forall_ne_some.mpr fun mark isMark => ?_
    rw [(apart_of_ofMark? isMark).2.2] at digit
    cases digit

end Words

/-- A word does not go on in a text. -/
def Apart (rest : Text) : Prop :=
  ∀ c ∈ rest.head?, endsWord c = true

section Tokens

variable {c : CodePoint} {word rest : Text} {value : Json}

theorem apart_cons (ends : endsWord c = true) (rest : Text) : Apart (c :: rest) := by
  rintro _ ⟨⟩
  exact ends

theorem tokens?_mark {mark : Token} (isMark : Token.ofMark? c = some mark) (rest : Text) :
    tokens? (c :: rest) = (tokens? rest).map (mark :: ·) := by
  obtain ⟨space, quote, -⟩ := apart_of_ofMark? isMark
  rw [tokens?, if_neg (ne_true_of_eq_false space), if_neg quote, isMark]

theorem tokens?_space (rest : Text) : tokens? (.char ' ' :: rest) = tokens? rest := by
  rw [tokens?, if_pos (by decide)]

theorem tokens?_blanks {blanks : Text} (blank : ∀ c ∈ blanks, isSpace c = true) :
    tokens? blanks = some [] := by
  induction blanks with
  | nil => rw [tokens?]
  | cons c rest ih =>
      rw [List.forall_mem_cons] at blank
      rw [tokens?, if_pos blank.1, ih blank.2]

theorem takeWhile_word (plain : ∀ c ∈ word, endsWord c = false) (apart : Apart rest) :
    (word ++ rest).takeWhile (!endsWord ·) = word := by
  rw [List.takeWhile_append_of_pos fun c isThere => by simp [plain c isThere]]
  cases rest with
  | nil => exact List.append_nil word
  | cons c rest => simp [apart c rfl]

theorem dropWhile_word (plain : ∀ c ∈ word, endsWord c = false) (apart : Apart rest) :
    (word ++ rest).dropWhile (!endsWord ·) = rest := by
  rw [List.dropWhile_append_of_pos fun c isThere => by simp [plain c isThere]]
  cases rest with
  | nil => rfl
  | cons c rest => simp [apart c rfl]

theorem tokens?_word (plain : ∀ c ∈ word, endsWord c = false)
    (apart : Apart rest) (isWord : word? word = some value) :
    tokens? (word ++ rest) = (tokens? rest).map (.atom value :: ·) := by
  cases word with
  | nil => cases isWord
  | cons c word =>
      obtain ⟨ends, plain⟩ := List.forall_mem_cons.mp plain
      obtain ⟨space, quote, mark⟩ := endsWord_eq_false_iff.mp ends
      rw [List.cons_append, tokens?, if_neg (ne_true_of_eq_false space), if_neg quote, mark]
      dsimp only
      rw [takeWhile_word plain apart, dropWhile_word plain apart, isWord]

theorem tokens?_writeText (s rest : Text) :
    tokens? (writeText s ++ rest) = (tokens? rest).map (.atom (.text s) :: ·) := by
  have read := readString_flatMap_writeChar s rest
  rw [writeText, List.cons_append, List.cons_append, List.append_assoc, List.singleton_append,
    tokens?, if_neg (by decide), if_pos rfl]
  split
  · next t behind found =>
      rw [read] at found
      cases found
      rfl
  · next found =>
      rw [read] at found
      cases found

mutual
/-- What is written is taken apart into its tokens, and what stands behind does not matter unless
    it goes on with a word. -/
theorem tokens?_write (value : Json) {rest : Text} (apart : Apart rest) :
    tokens? (write value ++ rest) = (tokens? rest).map (tokens value ++ ·) := by
  cases value with
  | null => exact tokens?_word (by decide) apart rfl
  | bool value =>
      cases value with
      | true => exact tokens?_word (by decide) apart rfl
      | false => exact tokens?_word (by decide) apart rfl
  | number n =>
      refine tokens?_word (fun c isThere => ?_) apart (word?_writeNumber n)
      exact endsWord_of_isDigit (isDigit_of_mem_writeNumber c isThere)
  | text s => exact tokens?_writeText s rest
  | list items =>
      have inside := tokens?_writeItems items (apart_cons (c := ']') (by decide) rest)
      simp only [write, List.cons_append, List.append_assoc, List.nil_append]
      rw [tokens?_mark rfl, inside, tokens?_mark rfl]
      simp only [tokens, Option.map_map, Function.comp_def, List.cons_append, List.append_assoc,
        List.nil_append]
  | object fields =>
      have inside := tokens?_writeFields fields (apart_cons (c := '\x7d') (by decide) rest)
      simp only [write, List.cons_append, List.append_assoc, List.nil_append]
      rw [tokens?_mark rfl, inside, tokens?_mark rfl]
      simp only [tokens, Option.map_map, Function.comp_def, List.cons_append, List.append_assoc,
        List.nil_append]
termination_by sizeOf value

theorem tokens?_writeItems (items : List Json) {rest : Text} (apart : Apart rest) :
    tokens? (writeItems items ++ rest) = (tokens? rest).map (itemTokens items ++ ·) := by
  cases items with
  | nil => simp [writeItems, itemTokens]
  | cons item items =>
      cases items with
      | nil => exact tokens?_write item apart
      | cons next items =>
          have later := tokens?_writeItems (next :: items) apart
          simp only [writeItems, List.append_assoc, List.cons_append]
          rw [tokens?_write item (apart_cons (by decide) _), tokens?_mark rfl, tokens?_space, later]
          simp only [itemTokens, Option.map_map, Function.comp_def, List.cons_append,
            List.append_assoc]
termination_by sizeOf items

theorem tokens?_writeFields (fields : List (Text × Json)) {rest : Text} (apart : Apart rest) :
    tokens? (writeFields fields ++ rest) = (tokens? rest).map (fieldTokens fields ++ ·) := by
  cases fields with
  | nil => simp [writeFields, fieldTokens]
  | cons field fields =>
      obtain ⟨key, value⟩ := field
      cases fields with
      | nil =>
          simp only [writeFields, List.append_assoc, List.cons_append]
          rw [tokens?_writeText, tokens?_mark rfl, tokens?_space, tokens?_write value apart]
          simp only [fieldTokens, Option.map_map, Function.comp_def, List.cons_append]
      | cons next fields =>
          have later := tokens?_writeFields (next :: fields) apart
          simp only [writeFields, List.append_assoc, List.cons_append]
          rw [tokens?_writeText, tokens?_mark rfl, tokens?_space, tokens?_write value
            (apart_cons (by decide) _), tokens?_mark rfl, tokens?_space, later]
          simp only [fieldTokens, Option.map_map, Function.comp_def, List.cons_append,
            List.append_assoc]
termination_by sizeOf fields
end

end Tokens

section Values

theorem tokens_ne_closeList (value : Json) (rest behind : List Token) :
    tokens value ++ rest ≠ .closeList :: behind := by
  cases value <;> simp [tokens]

theorem itemTokens_ne_closeList {items : List Json} (filled : items ≠ [])
    (rest behind : List Token) : itemTokens items ++ rest ≠ .closeList :: behind := by
  cases items with
  | nil => exact absurd rfl filled
  | cons item items =>
      cases items with
      | nil => exact tokens_ne_closeList item rest behind
      | cons next items =>
          rw [itemTokens, List.append_assoc]
          exact tokens_ne_closeList item _ behind

theorem fieldTokens_ne_closeObject {fields : List (Text × Json)} (filled : fields ≠ [])
    (rest behind : List Token) : fieldTokens fields ++ rest ≠ .closeObject :: behind := by
  cases fields with
  | nil => exact absurd rfl filled
  | cons field fields =>
      cases fields <;> simp [fieldTokens]

theorem readValue_atom (value : Json) (rest : List Token) :
    readValue (.atom value :: rest) = some (value, ⟨rest, Nat.lt_succ_self _⟩) := by
  rw [readValue]

mutual
/-- The tokens of a value are read as that value, and what stands behind them is left. -/
theorem readValue_tokens (value : Json) (rest : List Token) :
    ∃ shorter, readValue (tokens value ++ rest) = some (value, ⟨rest, shorter⟩) := by
  cases value with
  | null | bool | number | text => exact ⟨_, readValue_atom _ rest⟩
  | list items =>
      rw [tokens, List.cons_append, List.cons_append, List.append_assoc, List.singleton_append]
      by_cases filled : items = []
      · rw [filled, itemTokens, List.nil_append, readValue]
        exact ⟨_, rfl⟩
      · obtain ⟨shorter, read⟩ := readItems_itemTokens filled rest
        rw [readValue, read]
        · exact ⟨_, rfl⟩
        · exact itemTokens_ne_closeList filled _
  | object fields =>
      rw [tokens, List.cons_append, List.cons_append, List.append_assoc, List.singleton_append]
      by_cases filled : fields = []
      · rw [filled, fieldTokens, List.nil_append, readValue]
        exact ⟨_, rfl⟩
      · obtain ⟨shorter, read⟩ := readFields_fieldTokens filled rest
        rw [readValue, read]
        · exact ⟨_, rfl⟩
        · exact fieldTokens_ne_closeObject filled _
termination_by sizeOf value

theorem readItems_itemTokens {items : List Json} (filled : items ≠ []) (rest : List Token) :
    ∃ shorter, readItems (itemTokens items ++ .closeList :: rest) =
      some (items, ⟨rest, shorter⟩) := by
  cases items with
  | nil => exact absurd rfl filled
  | cons item items =>
      cases items with
      | nil =>
          obtain ⟨shorter, read⟩ := readValue_tokens item (.closeList :: rest)
          rw [itemTokens, readItems, read]
          exact ⟨_, rfl⟩
      | cons next items =>
          obtain ⟨shorter, read⟩ := readItems_itemTokens (List.cons_ne_nil next items) rest
          obtain ⟨shorter', read'⟩ := readValue_tokens item
            (.comma :: (itemTokens (next :: items) ++ .closeList :: rest))
          rw [itemTokens, List.append_assoc, List.cons_append, readItems, read']
          dsimp only
          rw [read]
          exact ⟨_, rfl⟩
termination_by sizeOf items

theorem readFields_fieldTokens {fields : List (Text × Json)} (filled : fields ≠ [])
    (rest : List Token) :
    ∃ shorter, readFields (fieldTokens fields ++ .closeObject :: rest) =
      some (fields, ⟨rest, shorter⟩) := by
  match fields, filled with
  | [(key, value)], _ =>
      obtain ⟨shorter, read⟩ := readValue_tokens value (.closeObject :: rest)
      rw [fieldTokens, List.cons_append, List.cons_append, readFields, read]
      exact ⟨_, rfl⟩
  | (key, value) :: next :: fields, _ =>
      obtain ⟨shorter, read⟩ := readFields_fieldTokens (List.cons_ne_nil next fields) rest
      obtain ⟨shorter', read'⟩ := readValue_tokens value
        (.comma :: (fieldTokens (next :: fields) ++ .closeObject :: rest))
      rw [fieldTokens, List.cons_append, List.cons_append, List.cons_append, List.cons_append,
        List.append_assoc, List.cons_append, readFields, read']
      dsimp only
      rw [read]
      exact ⟨_, rfl⟩
termination_by sizeOf fields
end

theorem read?_write_append (value : Json) {blanks : Text}
    (blank : ∀ c ∈ blanks, isSpace c = true) : read? (write value ++ blanks) = some value := by
  have apart : Apart blanks := by
    intro c first
    rw [endsWord, blank c (List.mem_of_mem_head? first)]
    rfl
  have tokens := tokens?_write value apart
  rw [tokens?_blanks blank, Option.map_some] at tokens
  obtain ⟨shorter, read⟩ := readValue_tokens value []
  rw [read?, tokens]
  dsimp only
  rw [read]

theorem read?_write (value : Json) : read? (write value) = some value := by
  have read := read?_write_append value (List.forall_mem_nil _)
  rwa [List.append_nil] at read

end Values

section OneLine

theorem le_of_escaped? {letter c : CodePoint} (escape : escaped? letter = some c) :
    0x20 ≤ letter.toNat := by
  unfold escaped? at escape
  split at escape
  · decide
  · decide
  · decide
  · decide
  · decide
  · decide
  · decide
  · decide
  · cases escape

theorem le_of_mem_hexDigits {n : Nat} : ∀ c ∈ hexDigits n, 0x20 ≤ c.toNat := by
  have digits : ∀ m < 16, 0x20 ≤ (Nat.digitChar m).toNat := by decide
  rw [hexDigits, Text.ofChars, List.map_map, List.forall_mem_map]
  intro m isThere
  simp only [List.mem_cons, List.not_mem_nil, or_false] at isThere
  exact digits m (by omega)

theorem le_of_mem_writeChar (d : CodePoint) : ∀ c ∈ writeChar d, 0x20 ≤ c.toNat := by
  rcases written_writeChar d with ⟨letter, escape, written⟩ | ⟨-, written⟩ |
    ⟨-, -, control, written⟩
  · rw [written, List.forall_mem_cons, List.forall_mem_singleton]
    exact ⟨by decide, le_of_escaped? escape⟩
  · rw [written, List.forall_mem_cons, List.forall_mem_cons]
    exact ⟨by decide, by decide, le_of_mem_hexDigits⟩
  · rw [written, List.forall_mem_singleton]
    exact Nat.le_of_not_lt control

theorem le_of_mem_writeText (s : Text) : ∀ c ∈ writeText s, 0x20 ≤ c.toNat := by
  rw [writeText, List.forall_mem_append, List.forall_mem_cons, List.forall_mem_singleton,
    List.forall_mem_flatMap]
  exact ⟨⟨by decide, fun d _ => le_of_mem_writeChar d⟩, by decide⟩

theorem le_of_mem_writeNumber (n : Nat) : ∀ c ∈ writeNumber n, 0x20 ≤ c.toNat := by
  refine List.forall_mem_map.mpr fun c isThere => ?_
  have digit := Nat.isDigit_of_mem_toDigits (by decide) (by decide) isThere
  rw [Char.isDigit, Bool.and_eq_true, decide_eq_true_iff] at digit
  exact Nat.le_trans (by decide) (UInt32.le_iff_toNat_le.mp digit.1)

mutual
theorem le_of_mem_write (value : Json) : ∀ c ∈ write value, 0x20 ≤ c.toNat := by
  cases value with
  | null => rw [write]; decide
  | bool value => cases value <;> (rw [write]; decide)
  | number n => exact le_of_mem_writeNumber n
  | text s => exact le_of_mem_writeText s
  | list items =>
      rw [write, List.forall_mem_append, List.forall_mem_cons, List.forall_mem_singleton]
      exact ⟨⟨by decide, le_of_mem_writeItems items⟩, by decide⟩
  | object fields =>
      rw [write, List.forall_mem_append, List.forall_mem_cons, List.forall_mem_singleton]
      exact ⟨⟨by decide, le_of_mem_writeFields fields⟩, by decide⟩
termination_by sizeOf value

theorem le_of_mem_writeItems (items : List Json) : ∀ c ∈ writeItems items, 0x20 ≤ c.toNat := by
  match items with
  | [] => exact List.forall_mem_nil _
  | [item] => exact le_of_mem_write item
  | item :: next :: items =>
      rw [writeItems, List.forall_mem_append, List.forall_mem_cons, List.forall_mem_cons]
      · exact ⟨le_of_mem_write item, by decide, by decide, le_of_mem_writeItems (next :: items)⟩
      · exact List.cons_ne_nil next items
termination_by sizeOf items

theorem le_of_mem_writeFields (fields : List (Text × Json)) :
    ∀ c ∈ writeFields fields, 0x20 ≤ c.toNat := by
  match fields with
  | [] => exact List.forall_mem_nil _
  | [(key, value)] =>
      rw [writeFields, List.forall_mem_append, List.forall_mem_cons, List.forall_mem_cons]
      exact ⟨le_of_mem_writeText key, by decide, by decide, le_of_mem_write value⟩
  | (key, value) :: next :: fields =>
      rw [writeFields, List.forall_mem_append, List.forall_mem_append, List.forall_mem_cons,
        List.forall_mem_cons, List.forall_mem_cons, List.forall_mem_cons]
      · exact ⟨⟨le_of_mem_writeText key, by decide, by decide, le_of_mem_write value⟩, by decide,
          by decide, le_of_mem_writeFields (next :: fields)⟩
      · exact List.cons_ne_nil next fields
termination_by sizeOf fields
end

end OneLine

end Json

end Blocklist
