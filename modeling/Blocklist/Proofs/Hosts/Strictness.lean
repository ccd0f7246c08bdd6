import Blocklist.Proofs.Hosts.Standing

/-! # Strict and lax compilations

A lax compilation reads some lines more gently than a strict one: it lets a host through that the
strict one blocks or has no verdict on. From there on the two know different things, and the same
exception may take a host out on one side only. Still, whatever the lax one blocks is blocked by the
strict one too, and what only the strict one blocks has had an exception on the lax side.
-/

namespace Blocklist

/-- What a lax reading of a line may make of the verdict of a strict one. -/
inductive Softens : Option Verdict → Option Verdict → Prop where
  /-- Strictness makes no difference. -/
  | same (verdict : Option Verdict) : Softens verdict verdict
  /-- An exception for a path counts for the whole host. -/
  | path (host : Text) : Softens none (some (.allow host))
  /-- A host that is only to be blocked for third parties is let through. -/
  | thirdParty (host : Text) : Softens (some (.block host)) (some (.allow host))

namespace Softens

variable {hard soft : Option Verdict} {host : Text}

theorem block_of_block (softens : Softens hard soft) (blocks : soft = some (.block host)) :
    hard = some (.block host) := by
  cases softens with
  | same => exact blocks
  | path => cases blocks
  | thirdParty => cases blocks

theorem allow_of_allow (softens : Softens hard soft) (allows : hard = some (.allow host)) :
    soft = some (.allow host) := by
  cases softens with
  | same => exact allows
  | path => cases allows
  | thirdParty => cases allows

theorem block_or_allow (softens : Softens hard soft) (blocks : hard = some (.block host)) :
    soft = some (.block host) ∨ soft = some (.allow host) := by
  cases softens with
  | same => exact .inl blocks
  | path => cases blocks
  | thirdParty =>
      cases blocks
      exact .inr rfl

end Softens

theorem softens_ruling? (f : NetworkFilter) :
    Softens ((f.ruling? true).map Ruling.verdict) ((f.ruling? false).map Ruling.verdict) := by
  unfold NetworkFilter.ruling?
  cases f.isException with
  | true =>
      cases f.hostname? with
      | some host => exact .same _
      | none =>
          cases f.pathHostname? with
          | some host => exact .path host
          | none => exact .same none
  | false =>
      cases f.hostname? with
      | some host =>
          cases f.modifierNames.any isThirdParty with
          | true => exact .thirdParty host
          | false => exact .same _
      | none => exact .same none

theorem softens_verdict? (line : Text) : Softens (verdict? true line) (verdict? false line) := by
  unfold verdict?
  cases Record.ofLine line with
  | error fault => exact .same none
  | ok record =>
      cases record with
      | network f => exact softens_ruling? f
      | other | cosmetic => exact .same none

namespace Hosts

/-- One compilation is sterner than another one of the same lines. -/
structure Sterner (strict lax : Hosts) : Prop where
  blocked : ∀ host ∈ lax.blocked, host ∈ strict.blocked
  excepted : ∀ host ∈ strict.excepted, host ∈ lax.excepted
  /-- A host that only the sterner one blocks has been let through by the other one. -/
  spared : ∀ host ∈ strict.blocked, host ∉ lax.blocked → host ∈ lax.excepted
  lines : strict.lines = lax.lines
  errors : strict.errors = lax.errors

section Membership

variable {host other : Text} {hosts : List Text} {verdict : Option Verdict}

theorem mem_enter : other ∈ enter host hosts ↔ other = host ∨ other ∈ hosts := by
  unfold enter
  split
  · next isThere => exact (or_iff_right_of_imp fun same => same ▸ isThere).symm
  · rw [List.mem_append, List.mem_singleton, or_comm]

theorem mem_stillBlocked : host ∈ stillBlocked hosts verdict ↔
    verdict = some (.block host) ∨ host ∈ hosts ∧ verdict ≠ some (.allow host) := by
  cases verdict with
  | none => simp [stillBlocked]
  | some verdict =>
      cases verdict with
      | block other => simp [stillBlocked, mem_enter, eq_comm]
      | allow other => simpa [stillBlocked] using fun _ => not_congr eq_comm

theorem mem_nowExcepted : host ∈ nowExcepted hosts verdict ↔
    verdict = some (.allow host) ∨ host ∈ hosts := by
  cases verdict with
  | none => simp [nowExcepted]
  | some verdict =>
      cases verdict with
      | block other => simp [nowExcepted]
      | allow other => simp [nowExcepted, mem_enter, eq_comm]

end Membership

theorem sterner_refl (h : Hosts) : h.Sterner h where
  blocked _ isThere := isThere
  excepted _ isThere := isThere
  spared _ isThere isNot := absurd isThere isNot
  lines := rfl
  errors := rfl

/-- A line leaves the sterner compilation the sterner one, whatever either of them has come to. -/
theorem Sterner.feed {strict lax : Hosts} (sterner : strict.Sterner lax) (line : Text) :
    (strict.feed true line).Sterner (lax.feed false line) := by
  have softens := softens_verdict? line
  rw [feed_eq, feed_eq]
  refine ⟨fun host isThere => ?_, fun host isThere => ?_, fun host isThere isNot => ?_, ?_, ?_⟩
  · rw [mem_stillBlocked] at isThere ⊢
    rcases isThere with blocks | ⟨before, stays⟩
    · exact .inl (softens.block_of_block blocks)
    · exact .inr ⟨sterner.blocked host before, mt softens.allow_of_allow stays⟩
  · rw [mem_nowExcepted] at isThere ⊢
    exact isThere.imp softens.allow_of_allow (sterner.excepted host)
  · rw [mem_stillBlocked] at isThere isNot
    rw [mem_nowExcepted]
    rcases isThere with blocks | ⟨before, -⟩
    · rcases softens.block_or_allow blocks with blocks' | allows
      · exact absurd (.inl blocks') isNot
      · exact .inl allows
    · by_cases allows : verdict? false line = some (.allow host)
      · exact .inl allows
      · have free : host ∉ lax.blocked := fun isThere => isNot (.inr ⟨isThere, allows⟩)
        exact .inr (sterner.spared host before free)
  · exact congrArg (· + 1) sterner.lines
  · exact congrArg (· + _) sterner.errors

theorem Sterner.feedAll {strict lax : Hosts} (sterner : strict.Sterner lax) (lines : List Text) :
    (strict.feedAll true lines).Sterner (lax.feedAll false lines) := by
  induction lines generalizing strict lax with
  | nil => exact sterner
  | cons line rest ih => exact ih (sterner.feed line)

/-- After any lines the strict compilation blocks whatever the lax one blocks and excepts nothing
    that the lax one does not except. Where it blocks more, the lax one has let the host through. -/
theorem sterner_of_strict (lines : List Text) :
    (empty.feedAll true lines).Sterner (empty.feedAll false lines) :=
  (sterner_refl empty).feedAll lines

end Hosts

end Blocklist
