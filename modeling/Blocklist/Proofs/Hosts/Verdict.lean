import Blocklist.Hosts

/-! # What a line has to say about a host

A line gives at most one verdict, and on one host: it blocks the host or lets it through. The verdict
is told by the line alone; what is known from the lines before has no part in it.
-/

namespace Blocklist

/-- A host is to be blocked, or to be let through. -/
inductive Verdict where
  | block (host : Text)
  | allow (host : Text)
  deriving Repr, DecidableEq

namespace Verdict

def host : Verdict → Text
  | block host => host
  | allow host => host

end Verdict

/-- The verdict of a ruling, on whatever ground. -/
def Ruling.verdict : Ruling → Verdict
  | block host => .block host
  | allow host _ => .allow host

namespace NetworkFilter

/-- A filter lets its host through: as an exception, or, unless the compilation is strict, because
    it is limited to third-party requests. -/
def Spares (strict : Bool) (f : NetworkFilter) : Prop :=
  f.isException = true ∨
    strict = false ∧ ∃ name ∈ f.modifierNames, name = "3p".toText ∨ name = "third-party".toText

end NetworkFilter

/-- The verdict that a line gives on a host. -/
inductive Gives (strict : Bool) (line : Text) : Verdict → Prop where
  /-- The filter is about the host and does not spare it. -/
  | block {f : NetworkFilter} {host : Text} (read : Record.ofLine line = .ok (.network f))
      (about : f.hostname? = some host) (harsh : ¬f.Spares strict) : Gives strict line (.block host)
  /-- The filter is about the host and spares it. -/
  | allow {f : NetworkFilter} {host : Text} (read : Record.ofLine line = .ok (.network f))
      (about : f.hostname? = some host) (spares : f.Spares strict) : Gives strict line (.allow host)
  /-- The filter is an exception for a path on the host, which stands in front of the first slash of
      the pattern. -/
  | path {f : NetworkFilter} {host : Text} (read : Record.ofLine line = .ok (.network f))
      (lax : strict = false) (exception : f.isException = true) (about : f.hostname? = none)
      (slash : .char '/' ∈ f.pattern)
      (front : { f with pattern := f.pattern.takeWhile (· ≠ CodePoint.char '/') }.hostname? =
        some host) :
      Gives strict line (.allow host)

/-- The verdict of a line, if it gives one. -/
def verdict? (strict : Bool) (line : Text) : Option Verdict :=
  match Record.ofLine line with
  | .ok record => (record.ruling? strict).map Ruling.verdict
  | .error _ => none

namespace NetworkFilter

variable {strict : Bool} {f : NetworkFilter} {host : Text}

theorem any_isThirdParty_iff : f.modifierNames.any isThirdParty = true ↔
    ∃ name ∈ f.modifierNames, name = "3p".toText ∨ name = "third-party".toText := by
  simp [isThirdParty]

theorem pathHostname?_eq_some_iff : f.pathHostname? = some host ↔ .char '/' ∈ f.pattern ∧
    { f with pattern := f.pattern.takeWhile (· ≠ CodePoint.char '/') }.hostname? = some host := by
  have same : (fun c : CodePoint => c != '/') = fun c : CodePoint => decide (c ≠ '/') := by
    funext c
    rw [Bool.eq_iff_iff, bne_iff_ne, decide_eq_true_iff]
  rw [pathHostname?, same]
  split
  · next has => rw [and_iff_right (List.contains_iff_mem.mp has)]
  · next lacks => simp [mt List.contains_iff_mem.mpr lacks]

theorem ruling?_of_hostname (strict : Bool) (about : f.hostname? = some host) :
    (f.Spares strict ∧ ∃ ground, f.ruling? strict = some (.allow host ground)) ∨
      ¬f.Spares strict ∧ f.ruling? strict = some (.block host) := by
  rw [Spares, ← any_isThirdParty_iff, ruling?, about]
  cases f.isException with
  | true => simp
  | false =>
      cases strict with
      | true => simp
      | false => cases f.modifierNames.any isThirdParty <;> simp

/-- Any other filter rules on a host only as an exception for a path. -/
theorem ruling?_of_none (about : f.hostname? = none) : f.ruling? strict =
    if f.isException = true ∧ strict = false then f.pathHostname?.map (.allow · .path)
    else none := by
  rw [ruling?, about]
  cases f.isException <;> cases strict <;> simp

end NetworkFilter

theorem verdict?_eq_some_iff {strict : Bool} {line : Text} {verdict : Verdict} :
    verdict? strict line = some verdict ↔ Gives strict line verdict := by
  constructor
  · intro found
    rw [verdict?] at found
    cases read : Record.ofLine line with
    | error fault => simp [read] at found
    | ok record =>
        cases record with
        | other => simp [read, Record.ruling?] at found
        | cosmetic => simp [read, Record.ruling?] at found
        | network f =>
            simp only [read, Record.ruling?] at found
            cases about : f.hostname? with
            | some host =>
                obtain ⟨spares, ground, rules⟩ | ⟨harsh, rules⟩ :=
                  NetworkFilter.ruling?_of_hostname strict about
                · rw [rules] at found
                  cases found
                  exact .allow read about spares
                · rw [rules] at found
                  cases found
                  exact .block read about harsh
            | none =>
                rw [NetworkFilter.ruling?_of_none about] at found
                split at found
                · next lax =>
                    obtain ⟨_, rules, rfl⟩ := Option.map_eq_some_iff.mp found
                    obtain ⟨host, path, rfl⟩ := Option.map_eq_some_iff.mp rules
                    have parts := NetworkFilter.pathHostname?_eq_some_iff.mp path
                    exact .path read lax.2 lax.1 about parts.1 parts.2
                · cases found
  · intro gives
    cases gives with
    | block read about harsh =>
        rcases NetworkFilter.ruling?_of_hostname strict about with
          ⟨spares, -⟩ | ⟨-, rules⟩
        · exact absurd spares harsh
        · simp [verdict?, read, Record.ruling?, rules, Ruling.verdict]
    | allow read about spares =>
        rcases NetworkFilter.ruling?_of_hostname strict about with
          ⟨-, ground, rules⟩ | ⟨harsh, -⟩
        · simp [verdict?, read, Record.ruling?, rules, Ruling.verdict]
        · exact absurd spares harsh
    | path read lax exception about slash front =>
        have path := NetworkFilter.pathHostname?_eq_some_iff.mpr ⟨slash, front⟩
        simp [verdict?, read, Record.ruling?, NetworkFilter.ruling?_of_none about, exception, lax,
          path, Ruling.verdict]

end Blocklist
