import Blocklist.Proofs.Check.Findings
import Blocklist.Proofs.Layout.Around
import Blocklist.Proofs.Text.Breaks

/-! # Lines that end with CR LF

A check breaks lines at LF alone, so the CR of a CR LF stays at the end of its line. It is a blank
there, and the canonical layout trims it. Only where a line ends inside a cosmetic marker is a CR
read as part of the marker, and makes the line a bad one.
-/

namespace Blocklist

namespace CosmeticFilter

theorem isOk_ofMarker (line hostname rest : Text) : (ofMarker line hostname rest).isOk =
    !(rest.dropWhile (· == .char '@')).head?.any (· != .char '#') := by
  rw [ofMarker]
  split
  · next ends =>
      rw [ends]
      rfl
  · next ends =>
      rw [ends]
      rfl
  · next found _ other ends =>
      have notNumber : (found != '#') = true := by
        rw [bne_iff_ne]
        rintro rfl
        exact other rfl
      rw [ends, List.head?_cons, Option.any_some, notNumber]
      rfl

end CosmeticFilter

namespace Check

/-- What stands behind the number sign and the at signs that a cosmetic marker starts with. -/
def afterAts? (line : Text) : Option Text :=
  match line.dropWhile (!Record.isDecisive ·) with
  | .char '#' :: rest => some (rest.dropWhile (· == .char '@'))
  | _ => none

/-- A line ends inside the marker of a cosmetic filter, which is as good as a whole marker. -/
def endsInMarker (line : Text) : Bool :=
  afterAts? line == some []

/-- Lines of which each but the last one ends with a CR. -/
def returned : List Text → List Text
  | [] => []
  | [last] => [last]
  | line :: next :: rest => (line ++ [.char '\r']) :: returned (next :: rest)

section Marker

theorem isUnreadable_eq (line : Text) :
    isUnreadable line = (afterAts? line).any fun rest => rest.head?.any (· != .char '#') := by
  cases line with
  | nil => rfl
  | cons c behind =>
      rw [isUnreadable, Record.ofLine, afterAts?]
      split
      · next drop => rw [drop]; rfl
      · next drop => rw [drop]; rfl
      · next rest drop =>
          have same {α β : Type} (f : α → β) (e : Except MarkerFault α) :
              (e.map f).isOk = e.isOk := by cases e <;> rfl
          rw [drop, same, CosmeticFilter.isOk_ofMarker, Bool.not_not]
          rfl
      · next element =>
          split
          · next rest drop => exact absurd drop (element rest)
          · rfl

theorem afterAts?_concat {c : CodePoint} (plain : Record.isDecisive c = false) (other : c ≠ '@')
    (line : Text) : afterAts? (line ++ [c]) = (afterAts? line).map (· ++ [c]) := by
  have ats (rest : Text) : (rest ++ [c]).dropWhile (· == .char '@') =
      rest.dropWhile (· == .char '@') ++ [c] :=
    Text.dropWhile_append_cons (by simpa using other) rest []
  rw [afterAts?, afterAts?, List.dropWhile_append]
  cases line.dropWhile (!Record.isDecisive ·) with
  | nil => simp [plain]
  | cons d rest =>
      by_cases number : d = '#'
      · subst number
        simp [ats]
      · simp [number]

theorem isUnreadable_concat_cr (line : Text) :
    isUnreadable (line ++ [.char '\r']) = (isUnreadable line || endsInMarker line) := by
  rw [isUnreadable_eq, isUnreadable_eq, afterAts?_concat (by decide) (by decide), endsInMarker]
  rcases afterAts? line with _ | rest
  · rfl
  · cases rest with
    | nil => rfl
    | cons c rest => simp

theorem isUnreadable_of_endsInMarker {line : Text} (ends : endsInMarker line = true) :
    isUnreadable line = false := by
  rw [endsInMarker, beq_iff_eq] at ends
  rw [isUnreadable_eq, ends]
  rfl

theorem leave_eq_laidOut {line : Text} (readable : isUnreadable line = false) :
    leave line = Layout.laidOut line := by
  cases read : Record.ofLine line with
  | ok record => rw [leave_of_ok read, Layout.applyAll_eq_laidOut read]
  | error fault => simp [isUnreadable, read, Except.isOk, Except.toBool] at readable

/-- A line that can be read with the CR behind it is left without it, as it is left on its own. -/
theorem leave_concat_cr {line : Text} (readable : isUnreadable (line ++ [.char '\r']) = false) :
    leave (line ++ [.char '\r']) = leave line := by
  have both := isUnreadable_concat_cr line
  rw [readable, eq_comm, Bool.or_eq_false_iff] at both
  rw [leave_eq_laidOut readable, leave_eq_laidOut both.1]
  exact Layout.laidOut_around (List.forall_mem_nil _) (by decide) line

end Marker

section Returned

variable {lines : List Text}

theorem intercalate_crlf (lines : List Text) :
    [.char '\r', .char '\n'].intercalate lines = Text.unlines (returned lines) := by
  fun_induction returned lines with
  | case1 => rfl
  | case2 last => rfl
  | case3 line next rest ih =>
      have some : returned (next :: rest) ≠ [] := by cases rest <;> simp [returned]
      rw [List.intercalate_cons_cons, ih, Text.unlines, Text.unlines,
        List.intercalate_cons_of_ne_nil some]
      simp

theorem not_mem_returned (unbroken : ∀ line ∈ lines, .char '\n' ∉ line) :
    ∀ line ∈ returned lines, .char '\n' ∉ line := by
  fun_induction returned lines with
  | case1 => exact unbroken
  | case2 last => exact unbroken
  | case3 line next rest ih =>
      rw [List.forall_mem_cons] at unbroken
      exact List.forall_mem_cons.mpr ⟨by simpa using unbroken.1, ih unbroken.2⟩

theorem countP_isUnreadable_returned (lines : List Text) : (returned lines).countP isUnreadable =
    lines.countP isUnreadable + lines.dropLast.countP endsInMarker := by
  fun_induction returned lines with
  | case1 => rfl
  | case2 last => rfl
  | case3 line next rest ih =>
      have here : (if isUnreadable (line ++ [.char '\r']) then 1 else 0) =
          (if isUnreadable line then 1 else 0) + if endsInMarker line then 1 else 0 := by
        rw [isUnreadable_concat_cr]
        cases ends : endsInMarker line with
        | true => rw [isUnreadable_of_endsInMarker ends]; rfl
        | false => rw [Bool.or_false]; rfl
      rw [List.countP_cons, ih, here, List.dropLast_cons_cons, List.countP_cons (a := line),
        List.countP_cons (a := line)]
      omega

theorem map_leave_returned (readable : ∀ line ∈ returned lines, isUnreadable line = false) :
    (returned lines).map leave = lines.map leave := by
  fun_induction returned lines with
  | case1 => rfl
  | case2 last => rfl
  | case3 line next rest ih =>
      rw [List.forall_mem_cons] at readable
      rw [List.map_cons, leave_concat_cr readable.1, ih readable.2]
      rfl

theorem exists_ofText_unlines (unbroken : ∀ line ∈ lines, .char '\n' ∉ line) :
    ∃ c, ofText false (Text.unlines lines) = .ok c ∧
      c.text = Text.unlines (lines.map leave) ∧ c.errors = lines.countP isUnreadable := by
  obtain ⟨c, checked, left, errors⟩ := exists_ofText (Text.unlines lines)
  refine ⟨c, checked, ?_⟩
  by_cases none : lines = []
  · subst none
    have one : (Text.unlines []).splitOn (.char '\n') = [[]] := List.splitOn_nil _
    rw [one] at left errors
    exact ⟨left.trans (by decide +kernel), errors⟩
  · rw [Text.splitOn_unlines none unbroken] at left errors
    exact ⟨left, errors⟩

theorem cr_not_mem_unlines_leave (plain : ∀ line ∈ lines, .char '\r' ∉ line) :
    .char '\r' ∉ Text.unlines (lines.map leave) := by
  rw [Text.mem_unlines_iff (by decide)]
  rintro ⟨piece, among, isThere⟩
  obtain ⟨line, isLine, rfl⟩ := List.mem_map.mp among
  exact not_mem_leave (by decide) (plain line isLine) isThere

/-- A list with CR LF in place of its LFs has as many more errors as there are lines before the last
    one that end inside a cosmetic marker. When the list itself has no errors, the check of the
    other one leads to the same text, without errors and without any CR, exactly if it has no such
    lines. -/
theorem ofText_crlf_iff (lines : List Text)
    (unbroken : ∀ line ∈ lines, .char '\r' ∉ line ∧ .char '\n' ∉ line) :
    ∃ c c', ofText false (Text.unlines lines) = .ok c ∧
      ofText false ([.char '\r', .char '\n'].intercalate lines) = .ok c' ∧
      c'.errors = c.errors + lines.dropLast.countP endsInMarker ∧
      (c.errors = 0 → (c'.errors = 0 ∧ c'.text = c.text ∧ .char '\r' ∉ c'.text ↔
        ∀ line ∈ lines.dropLast, endsInMarker line = false)) := by
  have ofLf : ∀ line ∈ lines, .char '\n' ∉ line := fun line isThere => (unbroken line isThere).2
  obtain ⟨c, checked, left, errors⟩ := exists_ofText_unlines ofLf
  obtain ⟨c', checked', left', errors'⟩ := exists_ofText_unlines (not_mem_returned ofLf)
  rw [← intercalate_crlf] at checked'
  have more : c'.errors = c.errors + lines.dropLast.countP endsInMarker := by
    rw [errors', errors, countP_isUnreadable_returned]
  have none_iff : lines.dropLast.countP endsInMarker = 0 ↔
      ∀ line ∈ lines.dropLast, endsInMarker line = false := by simp
  refine ⟨c, c', checked, checked', more, fun clean => ?_⟩
  rw [← none_iff]
  constructor
  · rintro ⟨clean', -⟩
    omega
  · intro none
    have clean' : c'.errors = 0 := by omega
    have readable : ∀ line ∈ returned lines, isUnreadable line = false := by
      rw [errors'] at clean'
      simpa using clean'
    have same : c'.text = c.text := by rw [left', left, map_leave_returned readable]
    refine ⟨clean', same, ?_⟩
    rw [same, left]
    exact cr_not_mem_unlines_leave fun line isThere => (unbroken line isThere).1

theorem ofText_crlf_of_last_marker :
    let lines := ["a.b##c".toText, "||a.b^$x, 3p".toText, "#@".toText]
    ∃ c c', ofText false (Text.unlines lines) = .ok c ∧
      ofText false ([.char '\r', .char '\n'].intercalate lines) = .ok c' ∧
      c'.errors = 0 ∧ c'.text = c.text ∧ .char '\r' ∉ c'.text := by
  intro lines
  obtain ⟨c, c', checked, checked', more, same⟩ := ofText_crlf_iff lines (by decide)
  have clean : (ofText false (Text.unlines lines)).map (·.errors) = .ok 0 := by decide +kernel
  rw [checked] at clean
  exact ⟨c, c', checked, checked', (same (Except.ok.inj clean)).mpr (by decide)⟩

/-- The CR behind the number sign stands where the second one is expected, so the line turns into a
    bad one and keeps its CR. -/
theorem ofText_crlf_in_marker :
    let lines := ["a#".toText, "b".toText]
    (ofText false (Text.unlines lines)).map (fun c => (c.errors, c.text)) =
        .ok (0, "a#\nb".toText) ∧
      (ofText false ([.char '\r', .char '\n'].intercalate lines)).map (fun c => (c.errors, c.text)) =
        .ok (1, "a#\r\nb".toText) := by
  decide +kernel

end Returned

end Check

end Blocklist
