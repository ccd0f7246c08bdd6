import Blocklist.Proofs.Hosts.Verdict
import Mathlib.Data.List.DropRight
import Mathlib.Data.List.ReduceOption

/-! # How a host stands after a list

A host is blocked when the last verdict on it blocks it. The blocked hosts stand in the order of the
verdicts that have blocked them without a break; the excepted hosts stand in the order of the first
verdicts that let them through.
-/

namespace Blocklist

section Standing

variable {host other : Text} {verdict : Option Verdict} {verdicts : List (Option Verdict)}

/-- The last verdict on a host. -/
def lastVerdict? (host : Text) (verdicts : List (Option Verdict)) : Option Verdict :=
  (verdicts.reduceOption.filter (·.host = host)).getLast?

/-- The verdicts up to the last one that lets a host through. -/
def upToAllowed (host : Text) (verdicts : List (Option Verdict)) : List (Option Verdict) :=
  verdicts.rdropWhile (· ≠ some (.allow host))

/-- The verdicts behind the last one that lets a host through, which are all of them if none does. -/
def sinceAllowed (host : Text) (verdicts : List (Option Verdict)) : List (Option Verdict) :=
  verdicts.rtakeWhile (· ≠ some (.allow host))

/-- The place of the first verdict that blocks a host since the last one that let it through. -/
def blockedFrom (host : Text) (verdicts : List (Option Verdict)) : Nat :=
  (upToAllowed host verdicts).length + (sinceAllowed host verdicts).idxOf (some (.block host))

/-- The place of the first verdict that lets a host through. -/
def allowedFrom (host : Text) (verdicts : List (Option Verdict)) : Nat :=
  verdicts.idxOf (some (.allow host))

theorem lastVerdict?_concat : lastVerdict? host (verdicts ++ [verdict]) =
    if verdict.map Verdict.host = some host then verdict else lastVerdict? host verdicts := by
  rw [lastVerdict?, List.reduceOption_append]
  cases verdict with
  | none => simp [lastVerdict?]
  | some verdict =>
      by_cases same : verdict.host = host
      · simp [List.reduceOption_cons_of_some, same]
      · simp [List.reduceOption_cons_of_some, same, lastVerdict?]

theorem upToAllowed_append_sinceAllowed (host : Text) (verdicts : List (Option Verdict)) :
    upToAllowed host verdicts ++ sinceAllowed host verdicts = verdicts :=
  List.rdropWhile_append_rtakeWhile

theorem sinceAllowed_concat : sinceAllowed host (verdicts ++ [verdict]) =
    if verdict = some (.allow host) then [] else sinceAllowed host verdicts ++ [verdict] := by
  rw [sinceAllowed, List.rtakeWhile_concat]
  by_cases allows : verdict = some (.allow host)
  · simp [allows]
  · simp [allows, sinceAllowed]

theorem upToAllowed_concat (stays : verdict ≠ some (.allow host)) :
    upToAllowed host (verdicts ++ [verdict]) = upToAllowed host verdicts := by
  rw [upToAllowed, List.rdropWhile_concat]
  simp [stays, upToAllowed]

theorem block_mem_sinceAllowed_iff : some (.block host) ∈ sinceAllowed host verdicts ↔
    lastVerdict? host verdicts = some (.block host) := by
  induction verdicts using List.reverseRecOn with
  | nil => simp [sinceAllowed, lastVerdict?]
  | append_singleton verdicts verdict ih =>
      rw [sinceAllowed_concat, lastVerdict?_concat]
      cases verdict with
      | none => simpa using ih
      | some verdict =>
          cases verdict with
          | block other =>
              by_cases same : other = host
              · simp [same, Verdict.host]
              · simpa [same, Ne.symm same, Verdict.host] using ih
          | allow other =>
              by_cases same : other = host
              · simp [same, Verdict.host]
              · simpa [same, Verdict.host] using ih

section Places

theorem blockedFrom_lt (blocked : lastVerdict? host verdicts = some (.block host)) :
    blockedFrom host verdicts < verdicts.length := by
  have inside := List.idxOf_lt_length_of_mem (block_mem_sinceAllowed_iff.mpr blocked)
  have whole := congrArg List.length (upToAllowed_append_sinceAllowed host verdicts)
  rw [List.length_append] at whole
  rw [blockedFrom]
  omega

/-- A host that is blocked keeps its place until it is let through. -/
theorem blockedFrom_concat_of_blocked (blocked : lastVerdict? host verdicts = some (.block host))
    (stays : verdict ≠ some (.allow host)) :
    blockedFrom host (verdicts ++ [verdict]) = blockedFrom host verdicts := by
  rw [blockedFrom, upToAllowed_concat stays, sinceAllowed_concat, if_neg stays,
    List.idxOf_append_of_mem (block_mem_sinceAllowed_iff.mpr blocked), blockedFrom]

theorem blockedFrom_concat_block (free : lastVerdict? host verdicts ≠ some (.block host)) :
    blockedFrom host (verdicts ++ [some (.block host)]) = verdicts.length := by
  have stays : some (Verdict.block host) ≠ some (.allow host) := by simp
  have whole := congrArg List.length (upToAllowed_append_sinceAllowed host verdicts)
  rw [List.length_append] at whole
  rw [blockedFrom, upToAllowed_concat stays, sinceAllowed_concat, if_neg stays,
    List.idxOf_append_of_notMem (mt block_mem_sinceAllowed_iff.mp free), List.idxOf_cons_self]
  omega

theorem allowedFrom_concat_of_mem (allowed : some (.allow host) ∈ verdicts)
    (verdict : Option Verdict) :
    allowedFrom host (verdicts ++ [verdict]) = allowedFrom host verdicts :=
  List.idxOf_append_of_mem allowed

theorem allowedFrom_concat_allow (fresh : some (.allow host) ∉ verdicts) :
    allowedFrom host (verdicts ++ [some (.allow host)]) = verdicts.length := by
  rw [allowedFrom, List.idxOf_append_of_notMem fresh, List.idxOf_cons_self, Nat.add_zero]

end Places

end Standing

/-- A list holds the hosts that belong there, each of them once, in the order of their places. -/
structure Lists (hosts : List Text) (belongs : Text → Prop) (place : Text → Nat) : Prop where
  mem_iff : ∀ host, host ∈ hosts ↔ belongs host
  inOrder : hosts.Pairwise (place · < place ·)
  once : hosts.Nodup := inOrder.imp fun before same => before.ne (congrArg place same)

namespace Lists

variable {hosts : List Text} {host : Text} {belongs belongs' : Text → Prop}
  {place place' : Text → Nat}

theorem nil (nobody : ∀ host, ¬belongs host) : Lists [] belongs place where
  mem_iff host := by simp [nobody host]
  inOrder := .nil

/-- Places matter only for the hosts that are there. -/
theorem inOrder_congr (lists : Lists hosts belongs place)
    (kept : ∀ other, belongs other → place' other = place other) :
    hosts.Pairwise (place' · < place' ·) := by
  refine lists.inOrder.imp_of_mem fun {a b} aThere bThere before => ?_
  rw [kept a ((lists.mem_iff a).mp aThere), kept b ((lists.mem_iff b).mp bThere)]
  exact before

theorem congr (lists : Lists hosts belongs place) (same : ∀ other, belongs' other ↔ belongs other)
    (kept : ∀ other, belongs other → place' other = place other) :
    Lists hosts belongs' place' where
  mem_iff other := (lists.mem_iff other).trans (same other).symm
  inOrder := lists.inOrder_congr kept

theorem enter (lists : Lists hosts belongs place)
    (joined : ∀ other, belongs' other ↔ belongs other ∨ other = host)
    (kept : ∀ other, belongs other → place' other = place other)
    (last : ¬belongs host → ∀ other, belongs other → place' other < place' host) :
    Lists (Hosts.enter host hosts) belongs' place' := by
  rw [Hosts.enter]
  by_cases isThere : host ∈ hosts
  · have already := (lists.mem_iff host).mp isThere
    rw [if_pos isThere]
    refine lists.congr (fun other => ?_) kept
    rw [joined]
    exact or_iff_left_of_imp fun same => same ▸ already
  · have fresh := mt (lists.mem_iff host).mpr isThere
    rw [if_neg isThere]
    refine { mem_iff := fun other => ?_, inOrder := ?_ }
    · rw [List.mem_append, List.mem_singleton, lists.mem_iff, joined]
    · rw [List.pairwise_append]
      refine ⟨lists.inOrder_congr kept, List.pairwise_singleton _ _, ?_⟩
      intro other otherThere newcomer isHost
      rw [List.mem_singleton.mp isHost]
      exact last fresh other ((lists.mem_iff other).mp otherThere)

theorem leave (lists : Lists hosts belongs place)
    (left : ∀ other, belongs' other ↔ belongs other ∧ other ≠ host)
    (kept : ∀ other, belongs' other → place' other = place other) :
    Lists (hosts.filter (· ≠ host)) belongs' place' := by
  have mem_iff : ∀ other, other ∈ hosts.filter (· ≠ host) ↔ belongs' other := fun other => by
    rw [List.mem_filter, lists.mem_iff, left, decide_eq_true_iff]
  refine { mem_iff := mem_iff, inOrder := ?_ }
  refine (lists.inOrder.filter _).imp_of_mem fun {a b} aThere bThere before => ?_
  rw [kept a ((mem_iff a).mp aThere), kept b ((mem_iff b).mp bThere)]
  exact before

end Lists

namespace Hosts

variable {strict : Bool} {line : Text}

/-- What a verdict makes of the blocked hosts. -/
def stillBlocked (blocked : List Text) : Option Verdict → List Text
  | some (.block host) => enter host blocked
  | some (.allow host) => blocked.filter (· ≠ host)
  | none => blocked

/-- What a verdict makes of the excepted hosts. -/
def nowExcepted (excepted : List Text) : Option Verdict → List Text
  | some (.allow host) => enter host excepted
  | some (.block _) | none => excepted

section Steps

variable {verdicts : List (Option Verdict)} {hosts : List Text}

theorem lists_stillBlocked (verdict : Option Verdict)
    (lists : Lists hosts (fun host => lastVerdict? host verdicts = some (.block host))
      (blockedFrom · verdicts)) :
    Lists (stillBlocked hosts verdict)
      (fun host => lastVerdict? host (verdicts ++ [verdict]) = some (.block host))
      (blockedFrom · (verdicts ++ [verdict])) := by
  cases verdict with
  | none =>
      refine lists.congr (fun other => ?_) fun other blocked => ?_
      · rw [lastVerdict?_concat, if_neg (by simp)]
      · exact blockedFrom_concat_of_blocked blocked (by simp)
  | some verdict =>
      cases verdict with
      | block host =>
          change Lists (enter host hosts) _ _
          refine lists.enter (fun other => ?_) (fun other blocked => ?_) fun free other blocked => ?_
          · rw [lastVerdict?_concat]
            by_cases same : host = other
            · simp [same, Verdict.host]
            · simp [same, Ne.symm same, Verdict.host]
          · exact blockedFrom_concat_of_blocked blocked (by simp)
          · rw [blockedFrom_concat_of_blocked blocked (by simp), blockedFrom_concat_block free]
            exact blockedFrom_lt blocked
      | allow host =>
          have left : ∀ other,
              lastVerdict? other (verdicts ++ [some (.allow host)]) = some (.block other) ↔
                lastVerdict? other verdicts = some (.block other) ∧ other ≠ host := by
            intro other
            rw [lastVerdict?_concat]
            by_cases same : host = other
            · simp [same, Verdict.host]
            · simp [same, Ne.symm same, Verdict.host]
          refine lists.leave left fun other stays => ?_
          obtain ⟨blocked, apart⟩ := (left other).mp stays
          exact blockedFrom_concat_of_blocked blocked (by simpa using Ne.symm apart)

theorem lists_nowExcepted (verdict : Option Verdict)
    (lists : Lists hosts (fun host => some (.allow host) ∈ verdicts) (allowedFrom · verdicts)) :
    Lists (nowExcepted hosts verdict) (fun host => some (.allow host) ∈ verdicts ++ [verdict])
      (allowedFrom · (verdicts ++ [verdict])) := by
  have kept : ∀ other, some (.allow other) ∈ verdicts →
      allowedFrom other (verdicts ++ [verdict]) = allowedFrom other verdicts :=
    fun other allowed => allowedFrom_concat_of_mem allowed verdict
  cases verdict with
  | none => exact lists.congr (fun other => by simp) kept
  | some verdict =>
      cases verdict with
      | block host => exact lists.congr (fun other => by simp) kept
      | allow host =>
          change Lists (enter host hosts) _ _
          refine lists.enter (fun other => by simp) kept fun fresh other allowed => ?_
          rw [kept other allowed, allowedFrom_concat_allow fresh]
          exact List.idxOf_lt_length_of_mem allowed

/-- A line counts, it counts twice if it cannot be read, and its verdict does the rest. -/
theorem feed_eq (h : Hosts) : h.feed strict line =
    { blocked := stillBlocked h.blocked (verdict? strict line)
      excepted := nowExcepted h.excepted (verdict? strict line)
      lines := h.lines + 1
      errors := h.errors + if (Record.ofLine line).isOk then 0 else 1 } := by
  rw [feed, verdict?]
  cases Record.ofLine line with
  | error fault => rfl
  | ok record =>
      dsimp only
      cases record.ruling? strict with
      | none => rfl
      | some ruling => cases ruling <;> rfl

theorem feed_of_error {fault : MarkerFault} (unread : Record.ofLine line = .error fault)
    (h : Hosts) : h.feed strict line = { h with lines := h.lines + 1, errors := h.errors + 1 } := by
  rw [feed, unread]

end Steps

/-- What is known after some lines is what their verdicts say, and the lines are all counted. -/
structure Accounts (strict : Bool) (lines : List Text) (h : Hosts) : Prop where
  blocked : Lists h.blocked
    (fun host => lastVerdict? host (lines.map (verdict? strict)) = some (.block host))
    (blockedFrom · (lines.map (verdict? strict)))
  excepted : Lists h.excepted (fun host => some (.allow host) ∈ lines.map (verdict? strict))
    (allowedFrom · (lines.map (verdict? strict)))
  lineCount : h.lines = lines.length
  errorCount : h.errors = lines.countP fun line => !(Record.ofLine line).isOk

theorem accounts_empty (strict : Bool) : empty.Accounts strict [] where
  blocked := .nil fun host => by simp [lastVerdict?]
  excepted := .nil fun host => by simp
  lineCount := rfl
  errorCount := rfl

theorem Accounts.feed {lines : List Text} {h : Hosts} (accounts : h.Accounts strict lines) :
    (h.feed strict line).Accounts strict (lines ++ [line]) := by
  rw [feed_eq]
  refine ⟨?_, ?_, ?_, ?_⟩
  · rw [List.map_append, List.map_singleton]
    exact lists_stillBlocked _ accounts.blocked
  · rw [List.map_append, List.map_singleton]
    exact lists_nowExcepted _ accounts.excepted
  · simp [accounts.lineCount]
  · rw [List.countP_append, List.countP_singleton, ← accounts.errorCount]
    cases (Record.ofLine line).isOk <;> simp

theorem accounts_feedAll (strict : Bool) (lines : List Text) :
    (empty.feedAll strict lines).Accounts strict lines := by
  induction lines using List.reverseRecOn with
  | nil => exact accounts_empty strict
  | append_singleton lines line ih =>
      rw [feedAll, List.foldl_concat]
      exact ih.feed

/-- After any lines the account is right: blocked are the hosts whose last verdict blocks them, in
    the order in which they came to be blocked for good, and excepted are those that were ever let
    through. The verdicts are those that the lines give, and a line that cannot be read only
    counts. -/
theorem feedAll_follows_last_verdicts (strict : Bool) (lines : List Text) :
    (empty.feedAll strict lines).Accounts strict lines ∧
      (∀ line verdict, verdict? strict line = some verdict ↔ Gives strict line verdict) ∧
      ∀ (h : Hosts) line fault, Record.ofLine line = .error fault →
        h.feed strict line = { h with lines := h.lines + 1, errors := h.errors + 1 } :=
  ⟨accounts_feedAll strict lines, fun _ _ => verdict?_eq_some_iff,
    fun h _ _ unread => feed_of_error unread h⟩

/-- A host that is blocked again after an exception comes behind those that stayed blocked. -/
theorem feedAll_blocks_again :
    let lines := ["||a.com^".toText, "||d.com^".toText, "@@||a.com^".toText, "a#b".toText,
      "||c.com^$3p".toText, "||a.com^".toText, "@@||b.com/x".toText]
    let h := empty.feedAll false lines
    h = ⟨["d.com".toText, "a.com".toText], ["a.com".toText, "c.com".toText, "b.com".toText], 7, 1⟩ ∧
      h.Accounts false lines ∧ Gives false "@@||b.com/x".toText (.allow "b.com".toText) ∧
      h.feed false "a#b".toText = { h with lines := 8, errors := 2 } := by
  intro lines h
  obtain ⟨accounts, gives, unread⟩ := feedAll_follows_last_verdicts false lines
  have result : h = ⟨["d.com".toText, "a.com".toText],
      ["a.com".toText, "c.com".toText, "b.com".toText], 7, 1⟩ := by decide +kernel
  refine ⟨result, accounts, (gives _ _).mp (by decide +kernel), ?_⟩
  rw [unread h "a#b".toText ⟨'b', 2⟩ rfl, result]

end Hosts

end Blocklist
