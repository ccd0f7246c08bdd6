import Blocklist.Proofs.Results
import Blocklist.Text.Utf8
import Mathlib.Tactic.Ring

/-! # UTF-8 read back

The bytes of a text are read as that text. A character of several bytes has its code cut into groups
of six bits, and the byte it starts with says how many groups are to come.
-/

namespace Blocklist.Text.Utf8

/-- The bytes that carry a character on, for the lowest groups of six bits of its code. -/
def tail (code : Nat) : Nat → List UInt8
  | 0 => []
  | n + 1 => UInt8.ofNat (code / 64 ^ n % 64 + 0x80) :: tail code n

namespace Partial

/-- A character that has been read in part goes on with a byte. -/
def Accepts (p : Partial) (byte : Nat) : Prop :=
  p.low.toNat ≤ byte ∧ byte ≤ p.high.toNat

/-- What has been read of a character once a byte is taken in, if more bytes follow. -/
def carry (p : Partial) (byte : Nat) : Partial :=
  { p with
    seen := p.seen + 1
    owed := p.owed - 1
    low := 0x80
    high := 0xBF
    bits := p.bits * 64 + (byte - 0x80) }

end Partial

section Bytes

variable {byte : Nat} (small : byte < 256) (b : UInt8)
include small

theorem toNat_ofNat : (UInt8.ofNat byte).toNat = byte := by
  rw [UInt8.toNat_ofNat']
  exact Nat.mod_eq_of_lt small

theorem le_ofNat_iff : b ≤ UInt8.ofNat byte ↔ b.toNat ≤ byte := by
  rw [UInt8.le_iff_toNat_le, toNat_ofNat small]

theorem ofNat_le_iff : UInt8.ofNat byte ≤ b ↔ byte ≤ b.toNat := by
  rw [UInt8.le_iff_toNat_le, toNat_ofNat small]

theorem ofNat_lt_iff : UInt8.ofNat byte < b ↔ byte < b.toNat := by
  rw [UInt8.lt_iff_toNat_lt, toNat_ofNat small]

theorem ofNat_eq_iff : UInt8.ofNat byte = b ↔ byte = b.toNat := by
  rw [← UInt8.toNat_inj, toNat_ofNat small]

end Bytes

section Tails

variable {position byte n code : Nat} {p : Partial}

theorem decodeFrom_accepted (small : byte < 256) (accepts : p.Accepts byte) (rest : List UInt8) :
    decodeFrom position (some p) (UInt8.ofNat byte :: rest) =
      if p.owed = 1 then
        (decodeFrom (position + 1) none rest).map (.char (Char.ofNat (p.carry byte).bits) :: ·)
      else decodeFrom (position + 1) (some (p.carry byte)) rest := by
  have inside : p.low ≤ UInt8.ofNat byte ∧ UInt8.ofNat byte ≤ p.high :=
    ⟨(le_ofNat_iff small _).mpr accepts.1, (ofNat_le_iff small _).mpr accepts.2⟩
  rw [decodeFrom, if_pos inside, toNat_ofNat small]
  rfl

/-- The bytes that are owed bring in the lowest bits of a code. -/
theorem decodeFrom_tail (owed : p.owed = n + 1)
    (accepts : p.Accepts (code / 64 ^ n % 64 + 0x80)) (rest : List UInt8) :
    decodeFrom position (some p) (tail code (n + 1) ++ rest) =
      (decodeFrom (position + (n + 1)) none rest).map
        (.char (Char.ofNat (p.bits * 64 ^ (n + 1) + code % 64 ^ (n + 1))) :: ·) := by
  induction n generalizing position p with
  | zero =>
      have small : code / 64 ^ 0 % 64 + 0x80 < 256 := by omega
      rw [tail, List.cons_append, decodeFrom_accepted small accepts, if_pos owed]
      have bits : (p.carry (code / 64 ^ 0 % 64 + 0x80)).bits = p.bits * 64 ^ 1 + code % 64 ^ 1 := by
        simp [Partial.carry]
      rw [bits]
      rfl
  | succ n ih =>
      have small : code / 64 ^ (n + 1) % 64 + 0x80 < 256 := by omega
      have more : ¬p.owed = 1 := by omega
      have owed' : (p.carry (code / 64 ^ (n + 1) % 64 + 0x80)).owed = n + 1 := by
        simp [Partial.carry, owed]
      have accepts' : (p.carry (code / 64 ^ (n + 1) % 64 + 0x80)).Accepts
          (code / 64 ^ n % 64 + 0x80) := by
        constructor
        · exact Nat.le_add_left _ _
        · have group : code / 64 ^ n % 64 < 64 := Nat.mod_lt _ (by decide)
          change _ ≤ 0xBF
          omega
      have bits : (p.carry (code / 64 ^ (n + 1) % 64 + 0x80)).bits * 64 ^ (n + 1) +
          code % 64 ^ (n + 1) = p.bits * 64 ^ (n + 2) + code % 64 ^ (n + 2) := by
        rw [Nat.mod_pow_succ (k := n + 1)]
        simp only [Partial.carry, Nat.add_sub_cancel]
        ring
      rw [tail, List.cons_append, decodeFrom_accepted small accepts, if_neg more,
        ih owed' accepts', bits, Nat.add_assoc, Nat.add_comm 1]

end Tails

section Characters

variable {position lead : Nat} {c : Char}

theorem start?_ofNat (small : lead < 256) : Partial.start? position (UInt8.ofNat lead) =
    if 0xC2 ≤ lead ∧ lead ≤ 0xDF then
      some ⟨position, UInt8.ofNat lead, 0, 1, 0x80, 0xBF, lead - 0xC0⟩
    else if 0xE0 ≤ lead ∧ lead ≤ 0xEF then
      some ⟨position, UInt8.ofNat lead, 0, 2, if lead = 0xE0 then 0xA0 else 0x80,
        if lead = 0xED then 0x9F else 0xBF, lead - 0xE0⟩
    else if 0xF0 ≤ lead ∧ lead ≤ 0xF4 then
      some ⟨position, UInt8.ofNat lead, 0, 3, if lead = 0xF0 then 0x90 else 0x80,
        if lead = 0xF4 then 0x8F else 0xBF, lead - 0xF0⟩
    else none := by
  simp only [Partial.start?, le_ofNat_iff small, ofNat_le_iff small, ofNat_eq_iff small,
    toNat_ofNat small]
  rfl

/-- A byte starts the character of a code: it owes `n + 1` bytes, may be followed by the first of
    them, and brings in the bits above theirs. -/
structure Leads (code position lead n : Nat) (p : Partial) : Prop where
  high : 0x80 ≤ lead
  small : lead < 256
  start : Partial.start? position (UInt8.ofNat lead) = some p
  owed : p.owed = n + 1
  accepts : p.Accepts (code / 64 ^ n % 64 + 0x80)
  bits : p.bits = code / 64 ^ (n + 1)

section Leads

variable {code : Nat}

theorem leads_two (several : 0x80 ≤ code) (two : code ≤ 0x7FF) (position : Nat) :
    ∃ p, Leads code position (code / 64 + 0xC0) 0 p := by
  have small : code / 64 + 0xC0 < 256 := by omega
  refine ⟨_, by omega, small, by rw [start?_ofNat small, if_pos (by omega)], rfl, ?_,
    Nat.add_sub_cancel _ _⟩
  constructor
  · exact Nat.le_add_left 0x80 _
  · change code / 64 ^ 0 % 64 + 0x80 ≤ 0xBF
    omega

theorem leads_three (low : 0x7FF < code) (three : code ≤ 0xFFFF)
    (valid : code < 0xD800 ∨ 0xDFFF < code) (position : Nat) :
    ∃ p, Leads code position (code / 4096 + 0xE0) 1 p := by
  have small : code / 4096 + 0xE0 < 256 := by omega
  refine ⟨_, by omega, small, by rw [start?_ofNat small, if_neg (by omega), if_pos (by omega)],
    rfl, ?_, Nat.add_sub_cancel _ _⟩
  rw [Partial.Accepts, Nat.pow_one]
  constructor
  · dsimp only
    split
    · change 0xA0 ≤ code / 64 % 64 + 0x80
      omega
    · exact Nat.le_add_left 0x80 _
  · dsimp only
    split
    · change code / 64 % 64 + 0x80 ≤ 0x9F
      omega
    · change code / 64 % 64 + 0x80 ≤ 0xBF
      omega

theorem leads_four (low : 0xFFFF < code) (four : code < 0x110000) (position : Nat) :
    ∃ p, Leads code position (code / 262144 + 0xF0) 2 p := by
  have small : code / 262144 + 0xF0 < 256 := by omega
  refine ⟨_, by omega, small,
    by rw [start?_ofNat small, if_neg (by omega), if_neg (by omega), if_pos (by omega)], rfl, ?_,
    Nat.add_sub_cancel _ _⟩
  constructor
  · dsimp only
    split
    · change 0x90 ≤ code / 4096 % 64 + 0x80
      omega
    · exact Nat.le_add_left 0x80 _
  · dsimp only
    split
    · change code / 4096 % 64 + 0x80 ≤ 0x8F
      omega
    · change code / 4096 % 64 + 0x80 ≤ 0xBF
      omega

end Leads

/-- A character of several bytes starts with a byte that says how many follow. -/
theorem exists_leads (several : 0x80 ≤ c.toNat) (position : Nat) : ∃ lead n p,
    String.utf8EncodeChar c = UInt8.ofNat lead :: tail c.toNat (n + 1) ∧
      Leads c.toNat position lead n p := by
  have valid : c.toNat < 0xD800 ∨ 0xDFFF < c.toNat ∧ c.toNat < 0x110000 := c.valid
  have value : c.val.toNat = c.toNat := rfl
  have more : ¬c.toNat ≤ 0x7F := Nat.not_le_of_lt several
  simp only [String.utf8EncodeChar, value, if_neg more]
  generalize c.toNat = code at several valid
  by_cases two : code ≤ 0x7FF
  · obtain ⟨p, leads⟩ := leads_two several two position
    refine ⟨_, _, p, ?_, leads⟩
    rw [if_pos two, Nat.mod_eq_of_lt (by omega : code / 64 < 32)]
    simp only [tail, Nat.pow_zero, Nat.div_one]
  · by_cases three : code ≤ 0xFFFF
    · obtain ⟨p, leads⟩ := leads_three (by omega) three (by omega) position
      refine ⟨_, _, p, ?_, leads⟩
      rw [if_neg two, if_pos three, Nat.mod_eq_of_lt (by omega : code / 4096 < 16)]
      simp only [tail, Nat.pow_zero, Nat.div_one, Nat.pow_one]
    · have last : code < 0x110000 := by omega
      obtain ⟨p, leads⟩ := leads_four (Nat.lt_of_not_le three) last position
      refine ⟨_, _, p, ?_, leads⟩
      rw [if_neg two, if_neg three, Nat.mod_eq_of_lt (by omega : code / 262144 < 8)]
      simp only [tail, Nat.pow_zero, Nat.div_one, Nat.pow_one, Nat.reducePow]

theorem decodeFrom_utf8EncodeChar (c : Char) (position : Nat) (rest : List UInt8) : ∃ position',
    decodeFrom position none (String.utf8EncodeChar c ++ rest) =
      (decodeFrom position' none rest).map (.char c :: ·) := by
  by_cases several : 0x80 ≤ c.toNat
  · obtain ⟨lead, n, p, encoded, leads⟩ := exists_leads several position
    have code : p.bits * 64 ^ (n + 1) + c.toNat % 64 ^ (n + 1) = c.toNat := by
      rw [leads.bits]
      exact Nat.div_add_mod' _ _
    have later : ¬UInt8.ofNat lead < 0x80 := by
      rw [ofNat_lt_iff leads.small]
      exact Nat.not_lt_of_le leads.high
    refine ⟨position + 1 + (n + 1), ?_⟩
    rw [encoded, List.cons_append, decodeFrom, if_neg later, leads.start]
    dsimp only
    rw [decodeFrom_tail leads.owed leads.accepts, code, Char.ofNat_toNat]
  · have few : c.toNat < 0x80 := Nat.lt_of_not_le several
    have small : c.toNat < 256 := Nat.lt_trans few (by decide)
    have first : UInt8.ofNat c.toNat < 0x80 := (ofNat_lt_iff small _).mpr few
    have single : String.utf8EncodeChar c = [UInt8.ofNat c.toNat] := by
      unfold String.utf8EncodeChar
      exact if_pos (Nat.le_of_lt_succ few)
    refine ⟨position + 1, ?_⟩
    rw [single, List.singleton_append, decodeFrom, if_pos first, toNat_ofNat small,
      Char.ofNat_toNat]

end Characters

theorem decodeFrom_encode? (position : Nat) (written : encode? s = some bytes) :
    decodeFrom position none bytes = .ok s := by
  induction s generalizing position bytes with
  | nil =>
      cases written
      rfl
  | cons c rest ih =>
      cases c with
      | surrogate offset => cases written
      | char c =>
          obtain ⟨behind, later, rfl⟩ := Option.map_eq_some_iff.mp written
          obtain ⟨position', read⟩ := decodeFrom_utf8EncodeChar c position behind
          rw [read, ih position' later]
          rfl

theorem decode_encode? (written : encode? s = some bytes) : decode bytes = .ok s :=
  decodeFrom_encode? 0 written

theorem exists_encode? (plain : ∀ c ∈ s, c.isSurrogate = false) :
    ∃ bytes, encode? s = some bytes := by
  induction s with
  | nil => exact ⟨[], rfl⟩
  | cons c rest ih =>
      obtain ⟨first, later⟩ := List.forall_mem_cons.mp plain
      obtain ⟨bytes, written⟩ := ih later
      cases c with
      | surrogate offset => cases first
      | char c => exact ⟨_, by rw [encode?, written]; rfl⟩

theorem plain_of_decodeFrom {position : Nat} {pending : Option Partial}
    (read : decodeFrom position pending bytes = .ok s) : ∀ c ∈ s, c.isSurrogate = false := by
  fun_induction decodeFrom position pending bytes generalizing s with
  | case1 =>
      cases read
      exact List.forall_mem_nil _
  | case2 | case5 | case8 => cases read
  | case3 | case6 =>
      rename_i ih
      obtain ⟨rest, later, rfl⟩ := map_eq_ok_iff.mp read
      exact List.forall_mem_cons.mpr ⟨rfl, ih later⟩
  | case4 | case7 =>
      rename_i ih
      exact ih read

theorem plain_of_decode (read : decode bytes = .ok s) : ∀ c ∈ s, c.isSurrogate = false :=
  plain_of_decodeFrom read

end Blocklist.Text.Utf8
