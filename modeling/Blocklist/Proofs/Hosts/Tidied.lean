import Blocklist.Proofs.Hostname.Shape
import Blocklist.Proofs.Hosts.Strictness
import Blocklist.Proofs.Layout.Limited
import Blocklist.Proofs.Layout.SameKind

/-! # Hosts of lines in the canonical layout

No blank belongs to a hostname, so a filter about a host is about the same host in the canonical
layout, and a strict compilation does the same with it. A lax one also goes by paths and by limits
to third-party requests, and those may be lost: a bar behind a path turns into an end anchor when
the blanks behind it go, and a limit may come to stand behind a backslash that was laid bare.
-/

namespace Blocklist

namespace NetworkFilter

variable {f : NetworkFilter} {host : Text}

theorem hostname?_of_matchEnd (ended : f.matchEnd = true) : f.hostname? = none := by
  simp [hostname?, ended]

theorem ruling?_of_matchEnd (ended : f.matchEnd = true) (strict : Bool) :
    f.ruling? strict = none := by
  have path : f.pathHostname? = none := by
    rw [pathHostname?]
    split
    · exact hostname?_of_matchEnd ended
    · rfl
  rw [ruling?_of_none (hostname?_of_matchEnd ended), path]
  split <;> rfl

theorem hostname?_of_slash (slash : .char '/' ∈ f.pattern) : f.hostname? = none := by
  by_contra some
  obtain ⟨host, about⟩ := Option.ne_none_iff_exists'.mp some
  obtain ⟨-, -, shape, pattern⟩ := hostname?_eq_some_iff.mp about
  have native : .char '/' ∉ host := fun isThere => absurd (shape.native '/' isThere) (by decide)
  rcases pattern with bare | separated
  · rw [bare] at slash
    exact native slash
  · rw [separated, List.mem_append] at slash
    rcases slash with inside | mark
    · exact native inside
    · simp at mark

theorem not_isBlank_of_hostname (about : f.hostname? = some host) :
    ∀ c ∈ f.pattern, Text.isBlank c = false := by
  obtain ⟨-, -, shape, pattern⟩ := hostname?_eq_some_iff.mp about
  have native : ∀ c ∈ host, Text.isBlank c = false := fun c isThere =>
    (Bool.or_eq_false_iff.mp (shape.native c isThere)).2
  rcases pattern with bare | separated
  · rw [bare]
    exact native
  · rw [separated]
    exact List.forall_mem_append.mpr ⟨native, by decide⟩

end NetworkFilter

namespace NetworkLine

section Unsectioned

variable {line host : Text}

/-- Without a section the blanks behind the pattern go, and a bar that they leave at the end ties
    the pattern to the end of the address. -/
theorem takeEndAnchor_trimBlanks (without : (ofLine line).modifierSection = none) :
    takeEndAnchor (Text.dropEndWhile Text.isBlank
        ((ofLine line).pattern ++ endMark (ofLine line).endAnchor)) =
      ((ofLine line.trimBlanks).pattern, (ofLine line.trimBlanks).endAnchor) := by
  have behind {l : NetworkLine} (none : l.modifierSection = none) :
      l.unanchored = l.pattern ++ endMark l.endAnchor := by
    rw [unanchored, back, none, sectionMark, List.append_nil]
  have trimmed := (marks_trimBlanks line).2.2
  rw [behind without, behind (Record.modifierSection_trimBlanks without)] at trimmed
  rw [← trimmed]
  exact takeEndAnchor_mark _ (proper_ofLine line.trimBlanks).unended

theorem takeEndAnchor_trimBlanks_of_open (without : (ofLine line).modifierSection = none)
    (ended : (ofLine line).endAnchor = false) :
    takeEndAnchor (Text.dropEndWhile Text.isBlank (ofLine line).pattern) =
      ((ofLine line.trimBlanks).pattern, (ofLine line.trimBlanks).endAnchor) := by
  have taken := takeEndAnchor_trimBlanks without
  rw [ended, endMark, List.append_nil] at taken
  exact taken

theorem matchBeginning_trimBlanks (line : Text) :
    (ofLine line.trimBlanks).toFilter.matchBeginning = (ofLine line).toFilter.matchBeginning :=
  congrArg (· == Anchor.address) (marks_trimBlanks line).2.1

theorem hostname?_trimBlanks (without : (ofLine line).modifierSection = none)
    (about : (ofLine line).toFilter.hostname? = some host) :
    (ofLine line.trimBlanks).toFilter.hostname? = some host := by
  have visible : ∀ c ∈ (ofLine line).pattern, Text.isBlank c = false :=
    NetworkFilter.not_isBlank_of_hostname about
  rw [NetworkFilter.hostname?_eq_some_iff] at about ⊢
  obtain ⟨ended, begun, shape, pattern⟩ := about
  have taken := takeEndAnchor_trimBlanks_of_open without ended
  have kept : Text.dropEndWhile Text.isBlank (ofLine line).pattern = (ofLine line).pattern := by
    simpa using Text.dropEndWhile_append_of_stops visible []
  have unended := takeEndAnchor_mark false fun _ => (proper_ofLine line).unended ended
  rw [endMark, List.append_nil] at unended
  rw [kept, unended, Prod.mk.injEq] at taken
  refine ⟨taken.2.symm, (matchBeginning_trimBlanks line).trans begun, shape, ?_⟩
  change (ofLine line.trimBlanks).pattern = _ ∨ (ofLine line.trimBlanks).pattern = _
  rw [← taken.1]
  exact pattern

/-- What stands in front of a path does not change, but a bar may come to end the path. -/
theorem hostname?_front_trimBlanks (without : (ofLine line).modifierSection = none)
    (slash : .char '/' ∈ (ofLine line).pattern)
    (front : { (ofLine line).toFilter with
      pattern := (ofLine line).pattern.takeWhile (· ≠ CodePoint.char '/') }.hostname? = some host)
    (unended : (Text.dropEndWhile Text.isBlank (ofLine line).pattern).getLast? ≠ some (.char '|')) :
    .char '/' ∈ (ofLine line.trimBlanks).pattern ∧ { (ofLine line.trimBlanks).toFilter with
      pattern := (ofLine line.trimBlanks).pattern.takeWhile (· ≠ CodePoint.char '/') }.hostname? =
        some host := by
  rw [NetworkFilter.hostname?_eq_some_iff] at front
  obtain ⟨ended, begun, shape, pattern⟩ := front
  have taken := takeEndAnchor_trimBlanks_of_open without ended
  have open' := takeEndAnchor_mark false fun _ => unended
  rw [endMark, List.append_nil, taken, Prod.mk.injEq] at open'
  -- The slash parts the pattern: the blanks go behind it, and the host is cut off in front of it.
  obtain ⟨before, behind, whole⟩ := List.append_of_mem slash
  have stops : ∀ t : Text, (before ++ .char '/' :: t).takeWhile (· ≠ CodePoint.char '/') =
      before.takeWhile (· ≠ .char '/') :=
    Text.takeWhile_append_cons (by decide) before
  have pattern' : (ofLine line.trimBlanks).pattern =
      before ++ .char '/' :: Text.dropEndWhile Text.isBlank behind := by
    rw [open'.1, whole, Text.dropEndWhile_append_cons (by decide)]
  rw [whole, stops] at pattern
  refine ⟨by rw [pattern']; simp, ?_⟩
  rw [NetworkFilter.hostname?_eq_some_iff, pattern', stops]
  exact ⟨open'.2, (matchBeginning_trimBlanks line).trans begun, shape, pattern⟩

theorem matchEnd_trimBlanks (without : (ofLine line).modifierSection = none)
    (ended : (ofLine line).endAnchor = false)
    (bar : (Text.dropEndWhile Text.isBlank (ofLine line).pattern).getLast? = some (.char '|')) :
    (ofLine line.trimBlanks).toFilter.matchEnd = true := by
  have taken := takeEndAnchor_trimBlanks_of_open without ended
  rw [takeEndAnchor, if_pos bar, Prod.mk.injEq] at taken
  exact taken.2.symm

end Unsectioned

end NetworkLine

namespace Record

variable {line host : Text} {f : NetworkFilter}

theorem exists_tidied_of_hostname (read : ofLine line = .ok (network f))
    (about : f.hostname? = some host) :
    ∃ f', (network f).tidied = network f' ∧ f'.hostname? = some host ∧
      f'.isException = f.isException ∧
      f'.modifierNames.any isThirdParty = Layout.limited true f.modifiers := by
  cases kind_of_ofLine read
  cases has : (NetworkLine.ofLine line).modifierSection with
  | some modifiers =>
      refine ⟨_, tidied_of_section has, about, rfl, ?_⟩
      have limits := Layout.any_limiting_tidySection modifiers
      rw [NetworkFilter.modifierNames, NetworkLine.toFilter, NetworkLine.toFilter,
        NetworkLine.tidied_eq has]
      simp only [NetworkLine.entries, has, List.any_map]
      exact limits
  | none =>
      have about' := NetworkLine.hostname?_trimBlanks has about
      have visible : line.trimBlanks ≠ [] := by
        intro empty
        rw [empty] at about'
        cases about'
      have has' := modifierSection_trimBlanks has
      rw [tidied_of_no_section has, if_neg visible]
      refine ⟨_, rfl, about', (NetworkLine.marks_trimBlanks line).1, ?_⟩
      simp [NetworkFilter.modifierNames, NetworkLine.toFilter, NetworkLine.entries, has, has',
        Layout.limited]

/-- What a record has that still lets a host through in the canonical layout. -/
inductive Retains (host : Text) : Record → Prop where
  /-- An exception names the host. -/
  | exception {f : NetworkFilter} (isException : f.isException = true)
      (about : f.hostname? = some host) : Retains host (network f)
  /-- An exception names a path on the host, and no bar comes to end the path. -/
  | path {f : NetworkFilter} (isException : f.isException = true) (about : f.hostname? = none)
      (front : f.pathHostname? = some host)
      (unended : .char '$' ∈ f.line ∨
        (Text.dropEndWhile Text.isBlank f.pattern).getLast? ≠ some (.char '|')) :
      Retains host (network f)
  /-- The host is only to be blocked for third parties, and the limit stays an entry of its own. -/
  | thirdParty {f : NetworkFilter} (harsh : f.isException = false)
      (about : f.hostname? = some host) (limits : Layout.limited true f.modifiers = true) :
      Retains host (network f)

end Record

namespace Layout

section Hosts

variable {line host : Text} {f : NetworkFilter}

/-- A strict compilation does the same with a filter about a host when its line is in the canonical
    layout. -/
theorem tidy_keeps_host (read : Record.ofLine line = .ok (.network f))
    (about : f.hostname? = some host) :
    ∃ fixed f', tidy line = .ok fixed ∧ Record.ofLine fixed = .ok (.network f') ∧
      f'.hostname? = some host ∧ f'.isException = f.isException ∧
      ∀ hosts : Hosts, hosts.feed true fixed = hosts.feed true line := by
  obtain ⟨f', tidied, about', exception, -⟩ := Record.exists_tidied_of_hostname read about
  have reread := Record.ofLine_applyAll read
  rw [tidied] at reread
  refine ⟨_, f', tidy_of_ofLine read, reread, about', exception, fun hosts => ?_⟩
  have same : f'.ruling? true = f.ruling? true := by
    rw [NetworkFilter.ruling?, NetworkFilter.ruling?, about, about', exception]
    cases f.isException <;> rfl
  rw [Hosts.feed, Hosts.feed, read, reread]
  simp only [Record.ruling?, same]

theorem tidy_keeps_host_short_name : ∃ fixed f',
    tidy "\t||a.b^$3p , x\\ ".toText = .ok fixed ∧ Record.ofLine fixed = .ok (.network f') ∧
      f'.hostname? = some "a.b".toText ∧ f'.isException = false ∧
      ∀ hosts : Hosts, hosts.feed true fixed = hosts.feed true "\t||a.b^$3p , x\\ ".toText := by
  have read : Record.ofLine "\t||a.b^$3p , x\\ ".toText =
      .ok (.network (NetworkLine.ofLine "\t||a.b^$3p , x\\ ".toText).toFilter) := rfl
  have about : (NetworkLine.ofLine "\t||a.b^$3p , x\\ ".toText).toFilter.hostname? =
      some "a.b".toText := by decide +kernel
  obtain ⟨fixed, f', tidied, reread, about', exception, same⟩ := tidy_keeps_host read about
  exact ⟨fixed, f', tidied, reread, about', exception.trans (by decide +kernel), same⟩

/-- A filter that lets its host through does so in the canonical layout if it retains its ground. -/
theorem verdict?_tidied_of_hostname (read : Record.ofLine line = .ok (.network f))
    (about : f.hostname? = some host) :
    verdict? false (Edit.applyAll line (Record.network f).layoutEdits) = some (.allow host) ↔
      (Record.network f).Retains host := by
  obtain ⟨f', tidied, about', exception, limits⟩ := Record.exists_tidied_of_hostname read about
  have reread := Record.ofLine_applyAll read
  rw [tidied] at reread
  rw [verdict?, reread]
  dsimp only
  rw [Record.ruling?, NetworkFilter.ruling?, about', exception, limits]
  cases isException : f.isException with
  | true => exact iff_of_true rfl (.exception isException about)
  | false =>
      cases limited : limited true f.modifiers with
      | true => exact iff_of_true rfl (.thirdParty isException about limited)
      | false =>
          refine iff_of_false (by simp [Ruling.verdict]) fun retains => ?_
          cases retains with
          | exception isException' => rw [isException] at isException'; cases isException'
          | path _ about' => rw [about] at about'; cases about'
          | thirdParty _ _ limited' => rw [limited] at limited'; cases limited'

section Paths

variable (read : Record.ofLine line = .ok (.network f))

include read

/-- An exception for a path on a host goes on letting the host through if no bar comes to end the
    path. -/
theorem gives_tidied_of_path (exception : f.isException = true) (about : f.hostname? = none)
    (slash : .char '/' ∈ f.pattern)
    (front : { f with pattern := f.pattern.takeWhile (· ≠ CodePoint.char '/') }.hostname? =
      some host)
    (unended : .char '$' ∈ f.line ∨
      (Text.dropEndWhile Text.isBlank f.pattern).getLast? ≠ some (.char '|')) :
    Gives false (Edit.applyAll line (Record.network f).layoutEdits) (.allow host) := by
  have reread := Record.ofLine_applyAll read
  cases Record.kind_of_ofLine read
  cases has : (NetworkLine.ofLine line).modifierSection with
  | some modifiers =>
      rw [Record.tidied_of_section has] at reread
      exact .path reread rfl exception about slash front
  | none =>
      have without := NetworkLine.modifierSection_eq_none_iff (NetworkLine.proper_ofLine line)
      obtain ⟨slash', front'⟩ := NetworkLine.hostname?_front_trimBlanks has slash front
        (unended.resolve_left (without.mp has))
      have visible : line.trimBlanks ≠ [] := by
        intro empty
        rw [empty] at slash'
        cases slash'
      rw [Record.tidied_of_no_section has, if_neg visible] at reread
      exact .path reread rfl ((NetworkLine.marks_trimBlanks line).1.trans exception)
        (NetworkFilter.hostname?_of_slash slash') slash' front'

theorem verdict?_tidied_of_bar (noDollar : .char '$' ∉ f.line) (ended : f.matchEnd = false)
    (bar : (Text.dropEndWhile Text.isBlank f.pattern).getLast? = some (.char '|')) (strict : Bool) :
    verdict? strict (Edit.applyAll line (Record.network f).layoutEdits) = none := by
  have reread := Record.ofLine_applyAll read
  cases Record.kind_of_ofLine read
  have without := NetworkLine.modifierSection_eq_none_iff (NetworkLine.proper_ofLine line)
  have has := without.mpr noDollar
  have ended' := NetworkLine.matchEnd_trimBlanks has ended bar
  rw [Record.tidied_of_no_section has] at reread
  rw [verdict?, reread]
  dsimp only
  split
  · rfl
  · rw [Record.ruling?, NetworkFilter.ruling?_of_matchEnd ended', Option.map_none]

theorem verdict?_tidied_of_path (exception : f.isException = true) (about : f.hostname? = none)
    (slash : .char '/' ∈ f.pattern)
    (front : { f with pattern := f.pattern.takeWhile (· ≠ CodePoint.char '/') }.hostname? =
      some host) :
    verdict? false (Edit.applyAll line (Record.network f).layoutEdits) = some (.allow host) ↔
      (Record.network f).Retains host := by
  by_cases unended : .char '$' ∈ f.line ∨
      (Text.dropEndWhile Text.isBlank f.pattern).getLast? ≠ some (.char '|')
  · have path := NetworkFilter.pathHostname?_eq_some_iff.mpr ⟨slash, front⟩
    refine iff_of_true (verdict?_eq_some_iff.mpr ?_) (.path exception about path unended)
    exact gives_tidied_of_path read exception about slash front unended
  · -- The end anchor also holds of the pattern that is cut at the slash.
    have bar := unended
    rw [not_or, not_not] at bar
    have ended := (NetworkFilter.hostname?_eq_some_iff.mp front).1
    rw [verdict?_tidied_of_bar read bar.1 ended bar.2]
    refine iff_of_false (by simp) fun retains => ?_
    cases retains with
    | exception _ about' => rw [about] at about'; cases about'
    | path _ _ _ unended' => exact unended unended'
    | thirdParty _ about' => rw [about] at about'; cases about'

end Paths

/-- A host that a line lets through is let through by the line in the canonical layout too exactly
    if it was let through before, or the record retains what the line lets it through for. -/
theorem tidy_retains_exception_iff {record : Record} (read : Record.ofLine line = .ok record)
    (hosts : Hosts) :
    ∃ fixed, tidy line = .ok fixed ∧ ∀ host ∈ (hosts.feed false line).excepted,
      (host ∈ (hosts.feed false fixed).excepted ↔
        host ∈ hosts.excepted ∨ record.Retains host) := by
  refine ⟨_, tidy_of_ofLine read, fun host isThere => ?_⟩
  rw [Hosts.feed_eq, Hosts.mem_nowExcepted] at isThere ⊢
  rw [or_comm]
  by_cases before : host ∈ hosts.excepted
  · exact iff_of_true (.inl before) (.inl before)
  · refine or_congr_right ?_
    have gives := verdict?_eq_some_iff.mp (isThere.resolve_right before)
    cases gives with
    | allow read' about =>
        cases read.symm.trans read'
        exact verdict?_tidied_of_hostname read about
    | path read' _ exception about slash front =>
        cases read.symm.trans read'
        exact verdict?_tidied_of_path read exception about slash front

/-- The backslash that is laid bare swallows the comma behind it and the modifier up to the next
    one. -/
theorem tidy_retains_exception_behind_backslash :
    let line := "||a.b^$x\\ , y,3p".toText
    ∃ fixed, tidy line = .ok fixed ∧ "a.b".toText ∈ (Hosts.empty.feed false fixed).excepted := by
  intro line
  have read : Record.ofLine line = .ok (.network (NetworkLine.ofLine line).toFilter) := rfl
  obtain ⟨fixed, tidied, same⟩ := tidy_retains_exception_iff read Hosts.empty
  refine ⟨fixed, tidied, (same "a.b".toText (by decide +kernel)).mpr (.inr ?_)⟩
  exact .thirdParty (by decide) (by decide +kernel) (by decide +kernel)

/-- The bar behind the path comes to end it when the blank goes, and the limit to third-party
    requests comes to be a part of the entry before it. -/
theorem tidy_loses_exceptions :
    (tidy "@@||a.b/x| ".toText = .ok "@@||a.b/x|".toText ∧
      (Hosts.empty.feed false "@@||a.b/x| ".toText).excepted = ["a.b".toText] ∧
      (Hosts.empty.feed false "@@||a.b/x|".toText).excepted = []) ∧
    tidy "||a.b^$x\\ ,3p".toText = .ok "||a.b^$x\\,third-party".toText ∧
      (Hosts.empty.feed false "||a.b^$x\\ ,3p".toText).excepted = ["a.b".toText] ∧
      (Hosts.empty.feed false "||a.b^$x\\,third-party".toText).excepted = [] := by
  have path : Record.ofLine "@@||a.b/x| ".toText =
      .ok (.network (NetworkLine.ofLine "@@||a.b/x| ".toText).toFilter) := rfl
  have limit : Record.ofLine "||a.b^$x\\ ,3p".toText =
      .ok (.network (NetworkLine.ofLine "||a.b^$x\\ ,3p".toText).toFilter) := rfl
  rw [tidy_of_ofLine path, tidy_of_ofLine limit, applyAll_layoutEdits path,
    applyAll_layoutEdits limit]
  decide +kernel

end Hosts

end Layout

end Blocklist
