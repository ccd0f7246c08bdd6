import Blocklist.Proofs.Filter.Kinds
import Blocklist.Proofs.Filter.Opening
import Blocklist.Proofs.Text.Bare
import Blocklist.Text.Cut
import Mathlib.Data.List.Chain

/-! # The parts of a network line

The parts of a network filter tile its line: each stands where its marks say, and between them stand
only the marks of exceptions and anchors, the dollar sign, the commas and the equals signs.
-/

namespace Blocklist

/-- A span lies within a line and cuts a text out of it. -/
structure Span.Cuts (span : Span) (line text : Text) : Prop where
  from_zero : 0 ≤ span.start
  start_le_stop : span.start ≤ span.stop
  stop_le_length : span.stop ≤ line.length
  between : line.between span.start span.stop = text

theorem Span.cuts_append (a text c : Text) :
    Span.Cuts ⟨a.length, (a.length + text.length : Nat)⟩ (a ++ (text ++ c)) text where
  from_zero := by simp
  start_le_stop := Int.ofNat_le.mpr (Nat.le_add_right _ _)
  stop_le_length := by simp only [List.length_append]; omega
  between := by
    rw [Text.between_natCast (by simp) (by simp), ← List.append_assoc, ← List.length_append,
      List.take_left, List.drop_left]

namespace ModifierMark

/-- Where an entry ends: where its value ends, if it has one. -/
def stop (mark : ModifierMark) : Int :=
  (mark.value.getD mark.name).stop

/-- A modifier stands where its marks say: the value, if there is one, behind the equals sign that
    ends the name. -/
structure Fits (line : Text) (modifier : Modifier) (mark : ModifierMark) : Prop where
  name : mark.name.Cuts line modifier.name
  value :
    match modifier.value, mark.value with
    | none, none => True
    | some value, some span =>
        span.start = mark.name.stop + 1 ∧ Span.Cuts ⟨mark.name.stop, span.start⟩ line [.char '='] ∧
          span.Cuts line value
    | _, _ => False

/-- An entry starts behind the comma that ends the entry before it. -/
structure Follows (line : Text) (earlier later : ModifierMark) : Prop where
  start : later.name.start = earlier.stop + 1
  comma : Span.Cuts ⟨earlier.stop, later.name.start⟩ line [.char ',']

/-- The last entry of a line ends with the line, or in front of a last comma. -/
def Closes (line : Text) (mark : ModifierMark) : Prop :=
  mark.stop = line.length ∨ mark.stop + 1 = line.length ∧ line.getLast? = some (.char ',')

theorem start_ofEntry (start : Nat) (entry : Text) : (ofEntry start entry).name.start = start :=
  rfl

theorem stop_ofEntry (start : Nat) (entry : Text) :
    (ofEntry start entry).stop = (start + entry.length : Nat) := by
  cases cut : (entry.cutBare '=').2 with
  | none => simp [stop, ofEntry, cut, Text.cutBare_fst_of_none cut]
  | some value => simp [stop, ofEntry, cut]

theorem fits_ofEntry (a entry c : Text) :
    Fits (a ++ (entry ++ c)) (Modifier.ofEntry entry) (ofEntry a.length entry) := by
  cases cut : (entry.cutBare '=').2 with
  | none =>
      have whole := Text.cutBare_fst_of_none cut
      refine ⟨?_, ?_⟩
      · simp only [ofEntry, Modifier.ofEntry, whole]
        exact Span.cuts_append a entry c
      · simp [ofEntry, Modifier.ofEntry, cut]
  | some value =>
      have parts := Text.cutBare_append_of_some cut
      have length : (entry.cutBare '=').1.length + 1 + value.length = entry.length := by
        have := congrArg List.length parts
        simp only [List.length_append, List.length_cons] at this
        omega
      have whole : a ++ (entry ++ c) =
          (a ++ (entry.cutBare '=').1) ++ ([.char '='] ++ (value ++ c)) := by
        conv_lhs => rw [← parts]
        simp
      refine ⟨?_, ?_⟩
      · have name := Span.cuts_append a (entry.cutBare '=').1 (.char '=' :: (value ++ c))
        rw [whole, List.append_assoc]
        exact name
      · have sign := Span.cuts_append (a ++ (entry.cutBare '=').1) [.char '='] (value ++ c)
        have rest := Span.cuts_append (a ++ (entry.cutBare '=').1 ++ [.char '=']) value c
        simp only [List.length_append, List.length_singleton] at sign rest
        simp only [Modifier.ofEntry, ofEntry, cut, Option.map_some, whole]
        refine ⟨trivial, by simpa using sign, ?_⟩
        rw [← length]
        simpa [Int.add_assoc] using rest

theorem fits_ofEntries (a c : Text) (entries : List Text) :
    List.Forall₂ (Fits (a ++ ([.char ','].intercalate entries ++ c))) (entries.map Modifier.ofEntry)
      (ofEntries a.length entries) := by
  induction entries generalizing a with
  | nil => exact .nil
  | cons entry rest ih =>
      cases rest with
      | nil => exact .cons (by simpa using fits_ofEntry a entry c) .nil
      | cons next rest =>
          have later := ih (a ++ entry ++ [.char ','])
          simp only [List.length_append, List.length_singleton] at later
          rw [List.intercalate_cons_cons]
          refine .cons ?_ ?_
          · simpa using fits_ofEntry a entry
              (.char ',' :: [.char ','].intercalate (next :: rest) ++ c)
          · simpa using later

theorem follows_ofEntries (a c : Text) (entries : List Text) :
    (ofEntries a.length entries).IsChain
      (Follows (a ++ ([.char ','].intercalate entries ++ c))) := by
  induction entries generalizing a with
  | nil => exact .nil
  | cons entry rest ih =>
      cases rest with
      | nil => exact .singleton _
      | cons next rest =>
          have later := ih (a ++ entry ++ [.char ','])
          have comma := Span.cuts_append (a ++ entry) [.char ',']
            ([.char ','].intercalate (next :: rest) ++ c)
          simp only [List.length_append, List.length_singleton] at later comma
          rw [List.intercalate_cons_cons]
          refine .cons_cons ⟨?_, ?_⟩ ?_
          · rw [stop_ofEntry]
            rfl
          · rw [stop_ofEntry]
            simpa [start_ofEntry] using comma
          · simpa [ofEntries] using later

theorem getLast?_ofEntries {start : Nat} {entries : List Text} {mark : ModifierMark}
    (last : (ofEntries start entries).getLast? = some mark) :
    mark.stop = (start + ([.char ','].intercalate entries).length : Nat) := by
  induction entries generalizing start with
  | nil => simp [ofEntries] at last
  | cons entry rest ih =>
      cases rest with
      | nil =>
          simp only [ofEntries, List.getLast?_singleton, Option.some.injEq] at last
          rw [← last, stop_ofEntry, List.intercalate_singleton]
      | cons next rest =>
          rw [ofEntries, ofEntries, List.getLast?_cons_cons, ← ofEntries] at last
          rw [ih last, List.intercalate_cons_cons]
          simp only [List.length_append, List.length_singleton]
          omega

theorem closes_ofEntries {a closing : Text} {entries : List Text} {mark : ModifierMark}
    (closed : closing = [] ∨ closing = [.char ','])
    (last : (ofEntries a.length entries).getLast? = some mark) :
    mark.Closes (a ++ ([.char ','].intercalate entries ++ closing)) := by
  have stop := getLast?_ofEntries last
  rcases closed with rfl | rfl
  · left
    rw [stop, List.append_nil, List.length_append]
  · right
    rw [← List.append_assoc, List.getLast?_concat]
    refine ⟨?_, rfl⟩
    rw [stop]
    simp only [List.length_append, List.length_singleton]
    omega

end ModifierMark

namespace Section

/-- The comma that closes the last entry of a section, if one does. -/
def closing (s : Text) : Text :=
  if (s.splitBare ',').getLast? = some [] ∧ s ≠ [] then [.char ','] else []

theorem closing_eq (s : Text) : closing s = [] ∨ closing s = [.char ','] := by
  unfold closing
  split
  · exact .inr rfl
  · exact .inl rfl

/-- The pieces of a section are its entries, and an empty one behind a comma that closes them. -/
theorem splitBare_eq_entries (s : Text) :
    s.splitBare ',' = entries s ∨ s.splitBare ',' = entries s ++ [[]] := by
  by_cases last : (s.splitBare ',').getLast? = some []
  · obtain ⟨pieces, split⟩ := List.getLast?_eq_some_iff.mp last
    simp [entries, split]
  · simp [entries, last]

theorem forall_mem_entries_iff (s : Text) {holds : Text → Prop} (empty : holds []) :
    (∀ entry ∈ entries s, holds entry) ↔ ∀ entry ∈ s.splitBare ',', holds entry := by
  rcases splitBare_eq_entries s with split | split
  · rw [split]
  · rw [split, List.forall_mem_append, List.forall_mem_singleton, and_iff_left empty]

theorem intercalate_map_splitBare (s : Text) {f : Text → Text} (empty : f [] = []) :
    [.char ','].intercalate ((s.splitBare ',').map f) =
      [.char ','].intercalate ((entries s).map f) ++ closing s := by
  by_cases last : (s.splitBare ',').getLast? = some []
  · obtain ⟨pieces, split⟩ := List.getLast?_eq_some_iff.mp last
    have front : entries s = pieces := by simp [entries, split]
    rw [front, split, List.map_append, List.map_singleton, empty]
    cases pieces with
    | nil =>
        have whole := Text.intercalate_splitBare ',' s
        have nothing : s = [] := by simpa [split] using whole.symm
        simp [nothing, closing]
    | cons piece rest =>
        have some : s ≠ [] := by
          rintro rfl
          simp [Text.splitBare] at split
        rw [Text.intercalate_append_singleton (by simp), List.append_nil, closing,
          if_pos ⟨last, some⟩]
  · have all : entries s = s.splitBare ',' := by simp [entries, last]
    rw [all, closing, if_neg fun both => last both.1, List.append_nil]

/-- A section is its entries with commas between them, and what closes the last one. -/
theorem intercalate_entries (s : Text) : [.char ','].intercalate (entries s) ++ closing s = s := by
  have whole := intercalate_map_splitBare s (f := id) rfl
  rw [List.map_id, List.map_id, Text.intercalate_splitBare] at whole
  exact whole.symm

theorem eq_nil_of_entries_eq_nil {s : Text} (none : entries s = []) : s = [] := by
  have whole := Text.intercalate_splitBare ',' s
  rcases splitBare_eq_entries s with split | split
  · exact absurd (split.trans none) (Text.splitBare_ne_nil ',' s)
  · rw [split, none] at whole
    exact whole.symm

end Section

namespace NetworkFilter

/-- How the anchor of a pattern is written. -/
def anchorMark (f : NetworkFilter) : Text :=
  if f.matchSubdomains then [.char '|', .char '|'] else if f.matchBeginning then [.char '|'] else []

/-- The parts of a network filter tile its line. -/
structure Tiles (f : NetworkFilter) : Prop where
  pattern : f.markers.pattern.Cuts f.line f.pattern
  /-- In front of the pattern stand all the blanks that the line starts with and the marks. -/
  front : f.line.before f.markers.pattern.start =
    f.line.takeWhile Text.isBlank ++ NetworkLine.exceptionMark f.isException ++ f.anchorMark
  exception : f.isException = true ↔ [.char '@', .char '@'] <+: f.line.dropWhile Text.isBlank
  oneAnchor : ¬(f.matchSubdomains = true ∧ f.matchBeginning = true)
  unanchored : f.matchSubdomains = false → ¬[.char '|'] <+: f.line.after f.markers.pattern.start
  unended : f.matchEnd = false → f.pattern.getLast? ≠ some (.char '|')
  /-- Behind the pattern stand its end anchor and the modifier section, which has entries unless it
      is empty. -/
  back : ∃ modifierSection,
    f.line.after f.markers.pattern.stop =
      NetworkLine.endMark f.matchEnd ++ NetworkLine.sectionMark modifierSection ∧
    (f.modifiers = [] → modifierSection = none ∨ modifierSection = some [])
  /-- The first entry starts behind the dollar sign, which follows the end anchor. -/
  first : ∀ mark ∈ f.markers.modifiers.head?,
    mark.name.start =
        f.markers.pattern.stop + (NetworkLine.endMark f.matchEnd).length + 1 ∧
      Span.Cuts ⟨mark.name.start - 1, mark.name.start⟩ f.line [.char '$']
  fits : List.Forall₂ (ModifierMark.Fits f.line) f.modifiers f.markers.modifiers
  follows : f.markers.modifiers.IsChain (ModifierMark.Follows f.line)
  closes : ∀ mark ∈ f.markers.modifiers.getLast?, mark.Closes f.line

end NetworkFilter

namespace NetworkLine

theorem anchorMark_toFilter (l : NetworkLine) : l.toFilter.anchorMark = l.anchor.mark := by
  cases h : l.anchor <;> simp [NetworkFilter.anchorMark, toFilter, Anchor.mark, h]

theorem toLine_entries {l : NetworkLine} {modifiers : Text}
    (has : l.modifierSection = some modifiers) :
    l.toLine = l.address ++
      ([.char '$'] ++ ([.char ','].intercalate l.entries ++ Section.closing modifiers)) := by
  rw [toLine_of_section has, entries, has, Section.intercalate_entries]

theorem before_patternStart (l : NetworkLine) : l.toLine.before l.patternStart = l.front := by
  rw [patternStart, Text.before_natCast (by simp [toLine]), toLine, List.append_assoc,
    List.take_left]

theorem after_patternStart (l : NetworkLine) : l.toLine.after l.patternStart = l.unanchored := by
  rw [patternStart, Text.after_natCast (by simp [toLine]), toLine, List.append_assoc,
    List.drop_left, unanchored]

theorem after_patternEnd (l : NetworkLine) : l.toLine.after l.patternEnd = l.back := by
  rw [patternEnd, patternStart, ← List.length_append, Text.after_natCast (by simp [toLine]), toLine,
    List.drop_left]

theorem isException_iff {l : NetworkLine} (proper : l.Proper) :
    l.isException = true ↔ [.char '@', .char '@'] <+: l.toLine.dropWhile Text.isBlank := by
  rw [dropWhile_toLine proper, unindented]
  constructor
  · intro marked
    rw [marked]
    exact List.prefix_append _ _
  · intro marked
    by_contra unmarked
    rw [Bool.not_eq_true] at unmarked
    rw [unmarked] at marked
    exact proper.unmarked unmarked marked

theorem entries_tile {l : NetworkLine} {modifiers : Text}
    (has : l.modifierSection = some modifiers) :
    List.Forall₂ (ModifierMark.Fits l.toLine) l.toFilter.modifiers l.toFilter.markers.modifiers ∧
    l.toFilter.markers.modifiers.IsChain (ModifierMark.Follows l.toLine) ∧
    ∀ mark ∈ l.toFilter.markers.modifiers.getLast?, mark.Closes l.toLine := by
  have start : l.sectionStart = (l.address ++ [CodePoint.char '$']).length := by
    rw [sectionStart_eq, List.length_append, List.length_singleton]
  have line := toLine_entries has
  rw [← List.append_assoc] at line
  simp only [toFilter, start, line]
  exact ⟨ModifierMark.fits_ofEntries _ _ _, ModifierMark.follows_ofEntries _ _ _,
    fun _ last => ModifierMark.closes_ofEntries (Section.closing_eq modifiers) last⟩

theorem tiles_toFilter {l : NetworkLine} (proper : l.Proper) : l.toFilter.Tiles where
  pattern := by
    have cuts := Span.cuts_append l.front l.pattern l.back
    rw [← List.append_assoc] at cuts
    exact cuts
  front := by
    rw [anchorMark_toFilter]
    exact (before_patternStart l).trans (by rw [front, ← takeWhile_toLine proper]; rfl)
  exception := isException_iff proper
  oneAnchor := by
    simp only [toFilter, beq_iff_eq, not_and]
    intro subdomains address
    rw [subdomains] at address
    cases address
  unanchored := by
    intro free
    have anchor : l.anchor ≠ .subdomains := by simpa [toFilter] using free
    exact (after_patternStart l).symm ▸ proper.unanchored anchor
  unended := proper.unended
  back := by
    refine ⟨l.modifierSection, after_patternEnd l, ?_⟩
    intro none
    cases has : l.modifierSection with
    | none => exact .inl rfl
    | some modifiers =>
        have empty : Section.entries modifiers = [] := by simpa [toFilter, entries, has] using none
        exact .inr (by rw [Section.eq_nil_of_entries_eq_nil empty])
  first := by
    intro mark first
    cases has : l.modifierSection with
    | none => simp [toFilter, entries, has, ModifierMark.ofEntries] at first
    | some modifiers =>
        have start : mark.name.start = l.sectionStart := by
          cases list : l.entries with
          | nil => simp [toFilter, list, ModifierMark.ofEntries] at first
          | cons entry rest =>
              simp only [toFilter, list, ModifierMark.ofEntries, List.head?_cons,
                Option.mem_def, Option.some.injEq] at first
              rw [← first, ModifierMark.start_ofEntry]
        have line : l.toFilter.line = l.address ++ ([.char '$'] ++ modifiers) :=
          toLine_of_section has
        have before : (l.sectionStart : Int) - 1 = l.address.length := by
          rw [sectionStart_eq]
          omega
        refine ⟨?_, ?_⟩
        · rw [start]
          simp [toFilter, sectionStart]
        · rw [start, before, line, sectionStart_eq]
          exact Span.cuts_append l.address [.char '$'] modifiers
  fits := by
    cases has : l.modifierSection with
    | none => simp [toFilter, entries, has, ModifierMark.ofEntries]
    | some => exact (entries_tile has).1
  follows := by
    cases has : l.modifierSection with
    | none => simp [toFilter, entries, has, ModifierMark.ofEntries]
    | some => exact (entries_tile has).2.1
  closes := by
    cases has : l.modifierSection with
    | none => simp [toFilter, entries, has, ModifierMark.ofEntries]
    | some => exact (entries_tile has).2.2

end NetworkLine

namespace Record

theorem tiles_of_ofLine {line : Text} {f : NetworkFilter} (read : ofLine line = .ok (network f)) :
    f.Tiles := by
  cases kind_of_ofLine read
  exact NetworkLine.tiles_toFilter (NetworkLine.proper_ofLine line)

/-- A line that is read as a network filter is tiled by its parts. -/
theorem network_tiles_line {line : Text} {f : NetworkFilter}
    (read : ofLine line = .ok (network f)) : f.line = line ∧ f.Tiles :=
  ⟨line_of_ofLine read, tiles_of_ofLine read⟩

theorem exception_tiles_line :
    ∃ f, ofLine " @@||a.b^|$x=1\\,2,,y\\".toText = .ok (network f) ∧
      f.modifierNames = ["x".toText, [], "y\\".toText] ∧
      f.line = " @@||a.b^|$x=1\\,2,,y\\".toText ∧ f.Tiles := by
  have read : ofLine " @@||a.b^|$x=1\\,2,,y\\".toText =
      .ok (network (NetworkLine.ofLine " @@||a.b^|$x=1\\,2,,y\\".toText).toFilter) := rfl
  exact ⟨_, read, by decide +kernel, network_tiles_line read⟩

end Record

end Blocklist
