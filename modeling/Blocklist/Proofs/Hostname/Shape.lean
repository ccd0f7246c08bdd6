import Blocklist.Hostname
import Mathlib.Data.List.Infix

/-! # What a hostname looks like

A hostname starts with a letter or a digit, ends with a letter, and has a dot between them. No two of
its dots are neighbours, and no character occurs in it that belongs to a path, a query, a fragment or
a wildcard. A pattern is about a hostname if it is that hostname, with or without a separator mark
behind it.
-/

namespace Blocklist

open Hostname

/-- A text has the shape of a hostname. -/
structure Text.IsHostname (h : Text) : Prop where
  first : ∀ c ∈ h.head?, c.isAlphanum
  last : ∀ c ∈ h.getLast?, c.isAlpha
  /-- A dot stands behind the first character and in front of the last one. -/
  dotted : .char '.' ∈ h.tail.dropLast
  apart : ¬[.char '.', .char '.'] <:+: h
  native : ∀ c ∈ h, isForeign c = false

namespace Hostname

section Characters

variable {c : CodePoint}

theorem toNat_of_isAlphanum (alphanumeric : c.isAlphanum) : 48 ≤ c.toNat ∧ c.toNat ≤ 122 := by
  cases c with
  | surrogate offset => cases alphanumeric
  | char c =>
      have ranges : (decide (c.val ≥ 'A'.val ∧ c.val ≤ 'Z'.val) ||
          decide (c.val ≥ 'a'.val) && decide (c.val ≤ 'z'.val) ||
          decide (c.val ≥ '0'.val) && decide (c.val ≤ '9'.val)) = true := alphanumeric
      simp only [Bool.or_eq_true, Bool.and_eq_true, decide_eq_true_eq, UInt32.le_iff_toNat_le,
        ge_iff_le] at ranges
      have code : (CodePoint.char c).toNat = c.val.toNat := rfl
      have bounds : 'A'.val.toNat = 65 ∧ 'Z'.val.toNat = 90 ∧ 'a'.val.toNat = 97 ∧
          'z'.val.toNat = 122 ∧ '0'.val.toNat = 48 ∧ '9'.val.toNat = 57 := by decide
      omega

theorem isBlank_of_isAlphanum (alphanumeric : c.isAlphanum) : Text.isBlank c = false := by
  have code := toNat_of_isAlphanum alphanumeric
  simp only [Text.isBlank, Bool.or_eq_false_iff, decide_eq_false_iff_not, beq_eq_false_iff_ne]
  omega

theorem isForeign_of_isAlphanum (alphanumeric : c.isAlphanum) : isForeign c = false := by
  have marks : "|#/?&*".toText.all (!·.isAlphanum) = true := by decide
  rw [isForeign, isBlank_of_isAlphanum alphanumeric, Bool.or_false, ← Bool.not_eq_true,
    List.contains_iff_mem]
  intro isMark
  have other := List.all_eq_true.mp marks c isMark
  rw [alphanumeric] at other
  cases other

theorem isAlphanum_of_isAlpha (letter : c.isAlpha) : c.isAlphanum := by
  rw [CodePoint.isAlphanum, letter, Bool.true_or]

end Characters

section Shape

variable {h pattern : Text}

/-- What can follow the first character of a hostname, told without the walk along it. -/
theorem continues_iff {dotted : Bool} {s : Text} : continues dotted s = true ↔
    (∃ c ∈ s.getLast?, c.isAlpha) ∧ (∀ c ∈ s.dropLast, isForeign c = false) ∧
      ¬[.char '.', .char '.'] <:+: s ∧ (dotted = true ∨ .char '.' ∈ s.dropLast) := by
  fun_induction continues dotted s with
  | case1 => simp
  | case2 dotted c => simp [List.infix_cons_iff, and_comm]
  | case3 dotted c d rest ih =>
      have neighbours : [.char '.', .char '.'] <+: c :: d :: rest ↔ c = '.' ∧ d = '.' := by
        simp only [List.cons_prefix_cons, List.nil_prefix, and_true, eq_comm]
      have later : [.char '.', .char '.'] <:+: c :: d :: rest ↔
          c = '.' ∧ d = '.' ∨ [.char '.', .char '.'] <:+: d :: rest :=
        List.infix_cons_iff.trans (or_congr_left neighbours)
      have distinct : (!(c == '.' && d == '.')) = true ↔ ¬(c = '.' ∧ d = '.') := by
        simp [imp_iff_not_or]
      have dots : (dotted || c == '.') = true ∨ .char '.' ∈ (d :: rest).dropLast ↔
          dotted = true ∨ .char '.' ∈ c :: (d :: rest).dropLast := by
        rw [Bool.or_eq_true, beq_iff_eq, or_assoc, List.mem_cons, eq_comm (a := c)]
      rw [Bool.and_eq_true, Bool.and_eq_true, Bool.not_eq_true', distinct, ih, dots,
        List.getLast?_cons_cons, List.dropLast_cons_cons, List.forall_mem_cons, later, not_or]
      constructor
      · rintro ⟨⟨native, apart⟩, last, natives, aparts, dotted⟩
        exact ⟨last, ⟨native, natives⟩, ⟨apart, aparts⟩, dotted⟩
      · rintro ⟨last, ⟨native, natives⟩, ⟨apart, aparts⟩, dotted⟩
        exact ⟨⟨native, apart⟩, last, natives, aparts, dotted⟩

theorem isHostname_cons_iff {c : CodePoint} {rest : Text} : Text.IsHostname (c :: rest) ↔
    c.isAlphanum = true ∧ continues false rest = true := by
  rw [continues_iff]
  constructor
  · intro shape
    have some : rest ≠ [] := by
      rintro rfl
      exact List.not_mem_nil shape.dotted
    obtain ⟨front, d, rfl⟩ := (List.eq_nil_or_concat' rest).resolve_left some
    refine ⟨shape.first c rfl, ⟨d, by simp, shape.last d ?_⟩, ?_, ?_, .inr shape.dotted⟩
    · rw [← List.cons_append, List.getLast?_concat, Option.mem_some_iff]
    · intro e isThere
      exact shape.native e (List.mem_cons_of_mem _ (List.mem_of_mem_dropLast isThere))
    · intro together
      exact shape.apart (together.trans (List.suffix_cons _ _).isInfix)
  · rintro ⟨alphanumeric, ⟨d, ends, letter⟩, natives, apart, dotted⟩
    obtain ⟨front, rfl⟩ := List.getLast?_eq_some_iff.mp ends
    have noDot : c ≠ '.' := by
      rintro rfl
      cases alphanumeric
    refine ⟨by simpa using alphanumeric, ?_, by simpa using dotted, ?_, ?_⟩
    · rw [← List.cons_append, List.getLast?_concat]
      simpa using letter
    · rw [List.infix_cons_iff, not_or]
      refine ⟨?_, apart⟩
      rw [List.cons_prefix_cons]
      exact fun starts => noDot starts.1.symm
    · rw [List.dropLast_concat] at natives
      rw [List.forall_mem_cons, List.forall_mem_append, List.forall_mem_singleton]
      exact ⟨isForeign_of_isAlphanum alphanumeric, natives,
        isForeign_of_isAlphanum (isAlphanum_of_isAlpha letter)⟩

theorem dropSeparator_eq_iff (ends : ∀ c ∈ h.getLast?, c ≠ '^') :
    dropSeparator pattern = h ↔ pattern = h ∨ pattern = h ++ [.char '^'] := by
  unfold dropSeparator
  split
  · next separated =>
      obtain ⟨front, rfl⟩ := List.getLast?_eq_some_iff.mp separated
      have apart : front ++ [.char '^'] ≠ h := by
        rintro rfl
        exact ends '^' separated rfl
      simp [apart]
  · next bare =>
      have apart : pattern ≠ h ++ [.char '^'] := by
        rintro rfl
        simp at bare
      simp [apart]

theorem ofPattern?_eq_some_iff : ofPattern? pattern = some h ↔
    h.IsHostname ∧ (pattern = h ∨ pattern = h ++ [.char '^']) := by
  have read : ofPattern? pattern = some h ↔ h.IsHostname ∧ dropSeparator pattern = h := by
    unfold ofPattern?
    split
    · next empty =>
        rw [empty]
        refine iff_of_false (by simp) ?_
        rintro ⟨shape, rfl⟩
        exact List.not_mem_nil shape.dotted
    · next c rest parts =>
        rw [parts, Option.ite_none_right_eq_some, Bool.and_eq_true, ← isHostname_cons_iff,
          Option.some.injEq]
        refine and_congr_left ?_
        rintro rfl
        rfl
  rw [read]
  refine and_congr_right fun shape => dropSeparator_eq_iff fun c ends => ?_
  rintro rfl
  exact absurd (shape.last '^' ends) (by decide)

end Shape

end Hostname

theorem NetworkFilter.hostname?_eq_some_iff {f : NetworkFilter} {h : Text} :
    f.hostname? = some h ↔ f.matchEnd = false ∧ f.matchBeginning = false ∧ h.IsHostname ∧
      (f.pattern = h ∨ f.pattern = h ++ [.char '^']) := by
  have noRegex (shape : h.IsHostname) (about : f.pattern = h ∨ f.pattern = h ++ [.char '^']) :
      isRegex f.pattern = false := by
    have start : f.pattern.head? = h.head? := by
      cases h with
      | nil => exact absurd shape.dotted List.not_mem_nil
      | cons c rest =>
          rcases about with same | same
          · rw [same]
          · rw [same]
            rfl
    rw [isRegex, start, Bool.and_eq_false_iff]
    left
    rw [beq_eq_false_iff_ne]
    intro slash
    exact absurd (shape.first '/' slash) (by decide)
  rw [hostname?, Option.ite_none_left_eq_some, ofPattern?_eq_some_iff]
  simp only [Bool.or_eq_true, not_or, Bool.not_eq_true]
  constructor
  · rintro ⟨⟨⟨-, ended⟩, begun⟩, shape, about⟩
    exact ⟨ended, begun, shape, about⟩
  · rintro ⟨ended, begun, shape, about⟩
    exact ⟨⟨⟨noRegex shape about, ended⟩, begun⟩, shape, about⟩

end Blocklist
