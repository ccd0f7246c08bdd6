import Blocklist.Proofs.Hostname.Places

/-! # How a hostname is spelled

The hostname of a filter is found by a walk along its pattern, or place by place, but which texts are
hostnames can be told by their characters alone: what stands at the two ends, what stands between
them, and what stands nowhere. A filter is about the hostname that its pattern spells and about no
other, and about none if its pattern spells none or is tied to an end of the address.
-/

namespace Blocklist

open Hostname

/-- A text is spelled like a hostname. -/
structure Text.SpellsHost (h : Text) : Prop where
  long : 3 ≤ h.length
  /-- A dot stands between a letter or a digit and a letter. -/
  parts : ∃ c inner z, h = c :: (inner ++ [z]) ∧ c.isAlphanum ∧ .char '.' ∈ inner ∧ z.isAlpha
  apart : ¬[.char '.', .char '.'] <:+: h
  visible : ∀ c ∈ h, 32 < c.toNat ∧ c.toNat ≠ 127
  unmarked : ∀ c ∈ h, c ∉ "|#/?&*".toText

namespace Hostname

theorem isForeign_eq_false_iff {c : CodePoint} :
    isForeign c = false ↔ c ∉ "|#/?&*".toText ∧ 32 < c.toNat ∧ c.toNat ≠ 127 := by
  rw [isForeign, Bool.or_eq_false_iff, Text.isBlank, Bool.or_eq_false_iff, ← Bool.not_eq_true,
    List.contains_iff_mem, decide_eq_false_iff_not, Nat.not_le, beq_eq_false_iff_ne]

end Hostname

/-- What the walk along a pattern takes for a hostname is spelled like one, and the other way
    round. -/
theorem Text.spellsHost_iff {h : Text} : h.SpellsHost ↔ h.IsHostname := by
  constructor
  · intro spelled
    obtain ⟨c, inner, z, rfl, alphanumeric, dotted, letter⟩ := spelled.parts
    refine ⟨by simpa using alphanumeric, ?_, by simpa using dotted, spelled.apart, ?_⟩
    · rw [← List.cons_append, List.getLast?_concat]
      simpa using letter
    · intro d isThere
      exact isForeign_eq_false_iff.mpr ⟨spelled.unmarked d isThere, spelled.visible d isThere⟩
  · intro shape
    have native (d : CodePoint) (isThere : d ∈ h) :=
      isForeign_eq_false_iff.mp (shape.native d isThere)
    refine ⟨three_le_length shape, ?_, shape.apart, fun d isThere => (native d isThere).2,
      fun d isThere => (native d isThere).1⟩
    have dotted := shape.dotted
    obtain ⟨c, rest, rfl⟩ := List.exists_cons_of_ne_nil fun empty : h = [] => by
      simp [empty] at dotted
    obtain ⟨inner, z, rfl⟩ := (List.eq_nil_or_concat' rest).resolve_left fun empty => by
      simp [empty] at dotted
    refine ⟨c, inner, z, rfl, shape.first c rfl, by simpa using dotted, shape.last z ?_⟩
    rw [← List.cons_append, List.getLast?_concat, Option.mem_some_iff]

namespace NetworkFilter

/-- A filter is about a hostname: its pattern spells the hostname, with or without a separator mark
    behind it, and may stand anywhere in the address. -/
structure IsAbout (f : NetworkFilter) (h : Text) : Prop where
  unanchored : f.matchBeginning = false ∧ f.matchEnd = false
  pattern : f.pattern = h ∨ f.pattern = h ++ [.char '^']
  spelled : h.SpellsHost

theorem hostname?_eq_some_iff_isAbout {f : NetworkFilter} {h : Text} :
    f.hostname? = some h ↔ f.IsAbout h := by
  rw [hostname?_eq_some_iff, ← Text.spellsHost_iff]
  constructor
  · intro ⟨ended, begun, spelled, pattern⟩
    exact ⟨⟨begun, ended⟩, pattern, spelled⟩
  · intro ⟨⟨begun, ended⟩, pattern, spelled⟩
    exact ⟨ended, begun, spelled, pattern⟩

/-- The search for the hostname of a filter always comes to an end without asking for a place that is
    not there. It finds the hostname that the filter is about, and none exactly if there is none. -/
theorem hostnameByPlaces_finds_spelled (f : NetworkFilter) :
    f.hostnameByPlaces = .ok f.hostname? ∧ (∀ h, f.hostname? = some h ↔ f.IsAbout h) ∧
      (f.hostname? = none ↔ ¬∃ h, f.IsAbout h) := by
  refine ⟨hostnameByPlaces_eq f, fun h => hostname?_eq_some_iff_isAbout, ?_⟩
  rw [Option.eq_none_iff_forall_ne_some, not_exists]
  exact forall_congr' fun h => not_congr hostname?_eq_some_iff_isAbout

end NetworkFilter

end Blocklist
