import Blocklist.Proofs.Hostname.AsLine
import Blocklist.Proofs.Hosts.Tidied

/-! # Exceptions for a path

In a lax compilation an exception for a path lets the whole host through and leaves all other hosts
as they were, whatever the path holds. Only how the path ends makes a difference: a bar at its end,
or in front of its modifier section, ties the filter to the end of the address. The filter stays
tied when its pattern is cut at the slash, and then it says nothing about the host.
-/

namespace Blocklist

namespace NetworkLine

theorem takeEndAnchor_append_cons {c : CodePoint} (other : c ≠ '|') (s t : Text) :
    takeEndAnchor (s ++ c :: t) = (s ++ c :: (takeEndAnchor t).1, (takeEndAnchor t).2) := by
  cases t with
  | nil => simp [takeEndAnchor, other]
  | cons d rest =>
      rw [takeEndAnchor, takeEndAnchor, List.getLast?_append_cons, List.getLast?_cons_cons]
      split
      · rw [List.dropLast_append_cons, List.dropLast_cons_cons]
      · rfl

theorem takeEndAnchor_snd_eq_true_iff {s : Text} :
    (takeEndAnchor s).2 = true ↔ s.getLast? = some (.char '|') := by
  rw [takeEndAnchor]
  split
  · next bar => exact iff_of_true rfl bar
  · next open' => exact iff_of_false Bool.false_ne_true open'

theorem ofLine_pathException {host : Text} (free : .char '$' ∉ host) (path : Text) :
    ofLine ("@@||".toText ++ (host ++ .char '/' :: path)) =
      ⟨[], true, .subdomains, host ++ .char '/' :: (takeEndAnchor (Section.cut path).1).1,
        (takeEndAnchor (Section.cut path).1).2, (Section.cut path).2⟩ := by
  have marks (rest : Text) : ofLine ("@@||".toText ++ rest) =
      ⟨[], true, .subdomains, (takeEndAnchor (Section.cut rest).1).1,
        (takeEndAnchor (Section.cut rest).1).2, (Section.cut rest).2⟩ := rfl
  have slash : Section.cut (.char '/' :: path) =
      (.char '/' :: (Section.cut path).1, (Section.cut path).2) :=
    Section.cut_append_of_not_mem (s := [.char '/']) (by decide) path
  rw [marks, Section.cut_append_of_not_mem free, slash, takeEndAnchor_append_cons (by decide)]

end NetworkLine

namespace Hostname

variable {host : Text}

/-- A host that is found behind the bars of its subdomains has the shape of a hostname, and no
    dollar sign in it opens a section. -/
theorem isHostname_of_subdomains (about : ofLine? ("||".toText ++ host) = some host) :
    host.IsHostname ∧ .char '$' ∉ host := by
  obtain ⟨f, read, about⟩ := ofLine?_eq_some_iff.mp about
  obtain ⟨-, -, shape, pattern⟩ := NetworkFilter.hostname?_eq_some_iff.mp about
  refine ⟨shape, ?_⟩
  cases Record.kind_of_ofLine read with
  | network =>
      have whole : (NetworkLine.ofLine ("||".toText ++ host)).unanchored = host :=
        NetworkLine.unanchored_ofLine _
      have without : (NetworkLine.ofLine ("||".toText ++ host)).modifierSection = none := by
        apply NetworkLine.modifierSection_eq_none_of_length_le
        rw [whole]
        exact NetworkLine.length_le_of_pattern pattern
      have free := NetworkLine.modifierSection_ofLine_eq_none_iff.mp without
      exact fun isThere => free (List.mem_append_right _ isThere)

/-- The verdict of an exception for a path goes by how the path ends. -/
theorem verdict?_pathException (about : ofLine? ("||".toText ++ host) = some host) (path : Text) :
    verdict? false ("@@||".toText ++ (host ++ .char '/' :: path)) =
      if (Section.cut path).1.getLast? = some (.char '|') then none else some (.allow host) := by
  obtain ⟨shape, free⟩ := isHostname_of_subdomains about
  have parts := NetworkLine.ofLine_pathException free path
  have read : Record.ofLine ("@@||".toText ++ (host ++ .char '/' :: path)) = .ok (.network _) :=
    Record.ofLine_network (by simp) (by rintro c ⟨⟩; decide)
  rw [parts] at read
  split
  · next bar =>
      have ended := NetworkLine.takeEndAnchor_snd_eq_true_iff.mpr bar
      rw [verdict?, read]
      dsimp only
      rw [Record.ruling?, NetworkFilter.ruling?_of_matchEnd ended, Option.map_none]
  · next open' =>
      have unended : (NetworkLine.takeEndAnchor (Section.cut path).1).2 = false := by
        rw [← Bool.not_eq_true, NetworkLine.takeEndAnchor_snd_eq_true_iff]
        exact open'
      have noSlash : ∀ c ∈ host, decide (c ≠ '/') = true := by
        intro c isThere
        rw [decide_eq_true_iff]
        rintro rfl
        exact absurd (shape.native '/' isThere) (by decide)
      have slash : CodePoint.char '/' ∈
          host ++ .char '/' :: (NetworkLine.takeEndAnchor (Section.cut path).1).1 :=
        List.mem_append_right _ List.mem_cons_self
      refine verdict?_eq_some_iff.mpr (.path read rfl rfl
        (NetworkFilter.hostname?_of_slash slash) slash ?_)
      rw [NetworkFilter.hostname?_eq_some_iff]
      refine ⟨unended, rfl, shape, .inl ?_⟩
      change (host ++ CodePoint.char '/' :: _).takeWhile _ = host
      rw [List.takeWhile_append_of_pos noSlash]
      simp

end Hostname

namespace Hosts

/-- A host has come to be let through, and the other hosts stand as before. -/
structure LetsThrough (host : Text) (before after : Hosts) : Prop where
  excepted : host ∈ after.excepted
  unblocked : host ∉ after.blocked
  othersExcepted : after.excepted.filter (· ≠ host) = before.excepted.filter (· ≠ host)
  othersBlocked : after.blocked.filter (· ≠ host) = before.blocked.filter (· ≠ host)

section Paths

variable {host line : Text} {hosts : Hosts} {strict : Bool}

theorem filter_enter (host : Text) (hosts : List Text) :
    (enter host hosts).filter (· ≠ host) = hosts.filter (· ≠ host) := by
  rw [enter]
  split
  · rfl
  · simp

theorem letsThrough_feed (allows : verdict? strict line = some (.allow host)) (hosts : Hosts) :
    LetsThrough host hosts (hosts.feed strict line) := by
  rw [feed_eq, allows]
  refine ⟨mem_enter.mpr (.inl rfl), ?_, filter_enter host _, ?_⟩
  · simp [stillBlocked]
  · simp [stillBlocked]

theorem letsThrough_feed_iff_of_none (silent : verdict? strict line = none) :
    LetsThrough host hosts (hosts.feed strict line) ↔
      host ∈ hosts.excepted ∧ host ∉ hosts.blocked := by
  rw [feed_eq, silent]
  exact ⟨fun lets => ⟨lets.excepted, lets.unblocked⟩, fun before => ⟨before.1, before.2, rfl, rfl⟩⟩

/-- An exception for a path lets the whole host through and leaves the other hosts alone, unless a
    bar ends the path in front of its modifier section. With such a bar the host is let through only
    if it was before. -/
theorem letsThrough_pathException_iff
    (about : Hostname.ofLine? ("||".toText ++ host) = some host) (path : Text) (hosts : Hosts) :
    LetsThrough host hosts (hosts.feed false ("@@||".toText ++ (host ++ .char '/' :: path))) ↔
      ((Section.cut path).1.getLast? = some (.char '|') →
        host ∈ hosts.excepted ∧ host ∉ hosts.blocked) := by
  have verdict := Hostname.verdict?_pathException about path
  by_cases bar : (Section.cut path).1.getLast? = some (.char '|')
  · rw [if_pos bar] at verdict
    rw [letsThrough_feed_iff_of_none verdict, forall_prop_of_true bar]
  · rw [if_neg bar] at verdict
    exact iff_of_true (letsThrough_feed verdict hosts) fun isBar => absurd isBar bar

/-- The bar inside the path and the one that ends the section do no harm. -/
theorem letsThrough_pathException_with_section :
    let hosts := empty.feedAll false ["||c.d^".toText, "||a.b^".toText]
    LetsThrough "a.b".toText hosts (hosts.feed false "@@||a.b/x|/y^$z|".toText) := by
  intro hosts
  have about : Hostname.ofLine? ("||".toText ++ "a.b".toText) = some "a.b".toText := by
    decide +kernel
  exact (letsThrough_pathException_iff about "x|/y^$z|".toText hosts).mpr
    fun bar => absurd bar (by decide)

/-- The bar behind the path ties the filter to the end of the address, and the host stays blocked. -/
theorem not_letsThrough_pathException :
    let hosts := empty.feed false "||a.b^".toText
    Hostname.ofLine? ("||".toText ++ "a.b".toText) = some "a.b".toText ∧
      (hosts.feed false "@@||a.b/x|".toText).blocked = ["a.b".toText] ∧
      (hosts.feed false "@@||a.b/x|".toText).excepted = [] ∧
      ¬LetsThrough "a.b".toText hosts (hosts.feed false "@@||a.b/x|".toText) := by
  intro hosts
  have blocked : (hosts.feed false "@@||a.b/x|".toText).blocked = ["a.b".toText] := by
    decide +kernel
  refine ⟨by decide +kernel, blocked, by decide +kernel, fun lets => lets.unblocked ?_⟩
  rw [blocked]
  exact List.mem_singleton_self _

end Paths

end Hosts

end Blocklist
