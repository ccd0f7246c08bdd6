import Blocklist.Proofs.Hostname.Spelling
import Blocklist.Proofs.Hosts.Strictness
import Mathlib.Data.List.Nodup

/-! # The hosts file read back

Whatever lines are taken in, the hosts that are known are spelled like hostnames and stand in their
lists once. No such host breaks its line of the hosts file, so the file tells the blocked hosts and
their order: its lines without the address in front of them are the hosts. Only where no host is
blocked the file still has one line, an empty one, which is no host.
-/

namespace Blocklist

/-- A line gives a verdict on a host that is spelled like one, whether the host is the whole pattern
    or stands in front of a path. -/
theorem Gives.spelled {strict : Bool} {line : Text} {verdict : Verdict}
    (gives : Gives strict line verdict) : verdict.host.SpellsHost := by
  cases gives with
  | block read about harsh =>
      exact (NetworkFilter.hostname?_eq_some_iff_isAbout.mp about).spelled
  | allow read about spares =>
      exact (NetworkFilter.hostname?_eq_some_iff_isAbout.mp about).spelled
  | path read lax exception about slash front =>
      exact (NetworkFilter.hostname?_eq_some_iff_isAbout.mp front).spelled

namespace Hosts

/-- The lists name each host once, and they name nothing but hosts. -/
structure WellFormed (h : Hosts) : Prop where
  blockedOnce : h.blocked.Nodup
  exceptedOnce : h.excepted.Nodup
  spelled : ∀ host, host ∈ h.blocked ∨ host ∈ h.excepted → host.SpellsHost

section Steps

variable {host : Text} {hosts : List Text} {h : Hosts}

theorem nodup_enter (once : hosts.Nodup) : (enter host hosts).Nodup := by
  unfold enter
  split
  · exact once
  · next fresh =>
      rw [← List.concat_eq_append]
      exact once.concat fresh

theorem nodup_stillBlocked (once : hosts.Nodup) (verdict : Option Verdict) :
    (stillBlocked hosts verdict).Nodup := by
  cases verdict with
  | none => exact once
  | some verdict =>
      cases verdict with
      | block host => exact nodup_enter once
      | allow host => exact once.filter _

theorem nodup_nowExcepted (once : hosts.Nodup) (verdict : Option Verdict) :
    (nowExcepted hosts verdict).Nodup := by
  cases verdict with
  | none => exact once
  | some verdict =>
      cases verdict with
      | block host => exact once
      | allow host => exact nodup_enter once

theorem wellFormed_empty : empty.WellFormed where
  blockedOnce := List.nodup_nil
  exceptedOnce := List.nodup_nil
  spelled host known := by simp [empty] at known

/-- A line brings in no host but the one that it gives a verdict on. -/
theorem WellFormed.feed (wellFormed : h.WellFormed) (strict : Bool) (line : Text) :
    (h.feed strict line).WellFormed := by
  rw [feed_eq]
  refine ⟨nodup_stillBlocked wellFormed.blockedOnce _, nodup_nowExcepted wellFormed.exceptedOnce _,
    fun host known => ?_⟩
  rw [mem_stillBlocked, mem_nowExcepted] at known
  rcases known with (blocks | ⟨before, -⟩) | (allows | before)
  · exact (verdict?_eq_some_iff.mp blocks).spelled
  · exact wellFormed.spelled host (.inl before)
  · exact (verdict?_eq_some_iff.mp allows).spelled
  · exact wellFormed.spelled host (.inr before)

theorem WellFormed.feedAll (wellFormed : h.WellFormed) (strict : Bool) (lines : List Text) :
    (h.feedAll strict lines).WellFormed := by
  induction lines generalizing h with
  | nil => exact wellFormed
  | cons line rest ih => exact ih (wellFormed.feed strict line)

end Steps

theorem splitOn_render {h : Hosts} (wellFormed : h.WellFormed) (some : h.blocked ≠ []) :
    h.render.splitOn (.char '\n') = h.blocked.map ("127.0.0.1 ".toText ++ ·) := by
  apply Text.splitOn_unlines
  · simpa using some
  · intro line isLine
    obtain ⟨host, blocked, rfl⟩ := List.mem_map.mp isLine
    rw [List.mem_append, not_or]
    refine ⟨by decide, fun broken => ?_⟩
    have visible := ((wellFormed.spelled host (.inl blocked)).visible '\n' broken).1
    exact absurd visible (by decide)

/-- After any lines, in either mode, the lists name nothing but hosts, each of them once, and the
    blocked ones are read back from the hosts file in their order: its lines all start with the
    address, and the hosts are what stands behind it. -/
theorem feedAll_reads_back (strict : Bool) (lines : List Text) :
    (empty.feedAll strict lines).WellFormed ∧
      ((empty.feedAll strict lines).blocked ≠ [] →
        ((empty.feedAll strict lines).render.splitOn (.char '\n')).map
            (·.dropPrefix? "127.0.0.1 ".toText) =
          (empty.feedAll strict lines).blocked.map some) := by
  have wellFormed := wellFormed_empty.feedAll strict lines
  refine ⟨wellFormed, fun some => ?_⟩
  rw [splitOn_render wellFormed some, List.map_map]
  apply List.map_congr_left
  intro host _
  exact List.dropPrefix?_append_of_beq host (beq_self_eq_true _)

/-- Hosts enter by themselves and in front of a path, and one of them leaves and enters again. -/
theorem feedAll_reads_back_again :
    let h := empty.feedAll false ["||ads.example.com^".toText, "b-1.co".toText, "||a b.co^".toText,
      "@@||ads.example.com/x.js".toText, "||ads.example.com^".toText]
    h = ⟨["b-1.co".toText, "ads.example.com".toText], ["ads.example.com".toText], 5, 0⟩ ∧
      h.WellFormed ∧ h.render = "127.0.0.1 b-1.co\n127.0.0.1 ads.example.com".toText ∧
      (h.render.splitOn (.char '\n')).map (·.dropPrefix? "127.0.0.1 ".toText) =
        [some "b-1.co".toText, some "ads.example.com".toText] := by
  intro h
  obtain ⟨wellFormed, reads⟩ := feedAll_reads_back false
    ["||ads.example.com^".toText, "b-1.co".toText, "||a b.co^".toText,
      "@@||ads.example.com/x.js".toText, "||ads.example.com^".toText]
  have result : h = ⟨["b-1.co".toText, "ads.example.com".toText],
      ["ads.example.com".toText], 5, 0⟩ := by decide +kernel
  have prints : h.render = "127.0.0.1 b-1.co\n127.0.0.1 ads.example.com".toText := by
    decide +kernel
  refine ⟨result, wellFormed, prints, (reads ?_).trans ?_⟩
  · exact fun none => absurd ((congrArg blocked result).symm.trans none) (by decide)
  · exact congrArg (fun hosts => (blocked hosts).map some) result

end Hosts

end Blocklist
