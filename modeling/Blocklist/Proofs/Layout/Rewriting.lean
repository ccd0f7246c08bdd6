import Blocklist.Proofs.Filter.Tiling
import Blocklist.Proofs.Layout.Entries

/-! # The canonical layout of a line

A line in the canonical layout is written down directly from its parts: the blanks around the line
are gone, and so are those around the names and the values of its modifiers, which go by their full
names. The edits of the line, made one after the other, lead there.
-/

namespace Blocklist

namespace NetworkFilter

/-- The comma behind the last entry, if the line ends with one. -/
def closingComma (f : NetworkFilter) : Text :=
  if ∃ mark ∈ f.markers.modifiers.getLast?,
      mark.stop + 1 = f.line.length ∧ f.line.getLast? = some (.char ',')
    then [.char ','] else []

/-- A network line written down from its parts in the canonical layout. -/
def rewritten (f : NetworkFilter) : Text :=
  match (NetworkLine.ofLine f.line).opening? with
  | none => f.line.trimBlanks
  | some opening =>
      (f.line.take opening).dropWhile Text.isBlank ++
        .char '$' :: ([.char ','].intercalate (f.modifiers.map fun m => m.tidied.written) ++
          f.closingComma)

end NetworkFilter

namespace Record

/-- The line of a record written down in the canonical layout. -/
def rewritten : Record → Text
  | network f => f.rewritten
  | record => record.line.trimBlanks

end Record

namespace Layout

open Edit

theorem lineEdits_eq (line : Text) : lineEdits line = trimsAt lineRule 0 line := by
  simp [lineEdits, trimsAt]

theorem applyAll_lineEdits (line : Text) : applyAll line (lineEdits line) = line.trimBlanks := by
  have within := trimsAt_within lineRule 0 line
  rw [Nat.zero_add] at within
  rw [lineEdits_eq, applyAll_eq_simultaneous (compatible_trimsAt lineRule (by omega)),
    simultaneous_eq_weaveBefore, weaveBefore_trimsAt,
    inserted_of_within within (.inr (Nat.le_refl _)), List.append_nil]

section Sectioned

variable {front closing : Text} {entries : List Text}

/-- A line with a modifier section, cut up by its front, its entries and the comma at its end. -/
def sectioned (front closing : Text) (entries : List Text) : Text :=
  front ++ ([.char '$'] ++ ([.char ','].intercalate entries ++ closing))

theorem leadingBlanks_sectioned :
    (sectioned front closing entries).leadingBlanks = front.leadingBlanks :=
  Text.leadingBlanks_append_cons (by decide) _ _

theorem trailingBlanks_sectioned (closed : closing = [] ∨ closing = [.char ',']) :
    (sectioned front closing entries).trailingBlanks =
      if closing = [] then Text.trailingBlanks ([.char ','].intercalate entries) else 0 := by
  have behind : (sectioned front closing entries).trailingBlanks =
      Text.trailingBlanks ([.char ','].intercalate entries ++ closing) :=
    Text.trailingBlanks_append_cons (by decide) _ _
  rw [behind]
  rcases closed with rfl | rfl
  · rw [List.append_nil, if_pos rfl]
  · rw [if_neg (by simp)]
    exact Text.trailingBlanks_append_cons (by decide) _ []

theorem length_sectioned : (sectioned front closing entries).length =
    front.length + 1 + ([.char ','].intercalate entries).length + closing.length := by
  simp only [sectioned, List.length_append, List.length_singleton]
  omega

theorem trailing_le (front : Text) (entries : List Text)
    (closed : closing = [] ∨ closing = [.char ',']) :
    (sectioned front closing entries).trailingBlanks = 0 ∨
      closing = [] ∧ (sectioned front closing entries).trailingBlanks =
        Text.trailingBlanks ([.char ','].intercalate entries) := by
  rw [trailingBlanks_sectioned closed]
  rcases closed with rfl | rfl
  · exact .inr ⟨rfl, if_pos rfl⟩
  · exact .inl (if_neg (by simp))

/-- The edits of a line with a modifier section. -/
def sectionedEdits (front closing : Text) (entries : List Text) : List Edit :=
  trimsAt lineRule 0 (sectioned front closing entries) ++ sectionEdits (front.length + 1) entries

theorem compatible_sectionedEdits (closed : closing = [] ∨ closing = [.char ',']) :
    Compatible (sectioned front closing entries).length
      (sectionedEdits front closing entries) := by
  have within := trimsAt_within lineRule 0 (sectioned front closing entries)
  refine Compatible.deletions_append
    (fun e isThere => (within e isThere).inRange (by omega)) (trimsAt_isDeletion lineRule 0 _)
    (compatible_sectionEdits (by rw [length_sectioned]; omega)) ?_
  intro d dThere i iThere
  cases i with
  | delete => cases d <;> exact id
  | insert rule gap text =>
      have lies := sectionEdits_within _ _ _ iThere
      have last := insert_mem_sectionEdits iThere
      have leading := Text.leadingBlanks_le_length front
      have trailing := trailing_le front entries closed
      simp only [Within] at lies
      rcases List.mem_append.mp dThere with head | tail
      · obtain ⟨-, rfl⟩ := mem_deleteSome.mp head
        simp only [Encloses, leadingBlanks_sectioned]
        omega
      · obtain ⟨some, rfl⟩ := mem_deleteSome.mp tail
        simp only [Encloses, length_sectioned]
        rcases trailing with none | ⟨rfl, same⟩
        · exact absurd none some
        · rw [same]
          simp only [List.length_nil]
          omega

/-- The blanks around the line are those of its front, and those of its entries if no comma
    closes them. -/
theorem exists_covers_lineTrims (closed : closing = [] ∨ closing = [.char ',']) {i : Nat}
    (inside : i < (sectioned front closing entries).length) :
    (∃ e ∈ trimsAt lineRule 0 (sectioned front closing entries), e.Covers i) ↔
      i < front.leadingBlanks ∨ closing = [] ∧
        front.length + 1 + ([.char ','].intercalate entries).length -
          Text.trailingBlanks ([.char ','].intercalate entries) ≤ i := by
  have covers := exists_covers_trimsAt lineRule 0 inside
  rw [Nat.zero_add] at covers
  rw [covers, leadingBlanks_sectioned, trailingBlanks_sectioned closed, length_sectioned]
  rw [length_sectioned] at inside
  rcases closed with rfl | rfl
  · simp
  · simp only [List.cons_ne_nil, if_false, false_and, or_false, or_iff_left_iff_imp]
    omega

theorem inserted_sectionedEdits (gap : Nat) : inserted (sectionedEdits front closing entries) gap =
    inserted (sectionEdits (front.length + 1) entries) gap := by
  rw [sectionedEdits, inserted_append, inserted_of_isDeletion (trimsAt_isDeletion lineRule 0 _),
    List.nil_append]

theorem weaveBefore_front (closed : closing = [] ∨ closing = [.char ',']) :
    weaveBefore (sectionedEdits front closing entries) 0 front =
      front.dropWhile Text.isBlank := by
  have trailing := Text.trailingBlanks_le_length ([.char ','].intercalate entries)
  have leading := Text.leadingBlanks_le_length front
  rw [sectionedEdits, weaveBefore_of_within_behind (sectionEdits_within _ entries) (by omega),
    Text.dropWhile_isBlank]
  have whole : front.drop front.leadingBlanks =
      (front.take front.length).drop front.leadingBlanks := by
    rw [List.take_length]
  rw [whole]
  apply weaveBefore_eq_drop_take
  · exact fun i _ => inserted_of_isDeletion (trimsAt_isDeletion lineRule 0 _) _
  · intro i inside
    rw [Nat.zero_add, exists_covers_lineTrims closed (by rw [length_sectioned]; omega)]
    omega

theorem weaveBefore_dollar (closed : closing = [] ∨ closing = [.char ',']) :
    weaveBefore (sectionedEdits front closing entries) front.length [.char '$'] = [.char '$'] := by
  have trailing := Text.trailingBlanks_le_length ([.char ','].intercalate entries)
  have leading := Text.leadingBlanks_le_length front
  rw [sectionedEdits, weaveBefore_of_within_behind (sectionEdits_within _ entries) (by simp)]
  apply weaveBefore_eq_self
  · exact fun i _ => inserted_of_isDeletion (trimsAt_isDeletion lineRule 0 _) _
  · intro i inside
    rw [List.length_singleton] at inside
    rw [exists_covers_lineTrims closed (by rw [length_sectioned]; omega)]
    omega

/-- What the line loses behind its last entry, the entry loses anyway. -/
theorem weaveBefore_entries (closed : closing = [] ∨ closing = [.char ',']) :
    weaveBefore (sectionedEdits front closing entries) (front.length + 1)
        ([.char ','].intercalate entries) = [.char ','].intercalate (entries.map tidyEntry) := by
  have leading := Text.leadingBlanks_le_length front
  rw [← weaveBefore_sectionEdits (front.length + 1)]
  apply weaveBefore_congr
  · exact fun i _ => inserted_sectionedEdits _
  · intro i inside
    simp only [sectionedEdits, List.mem_append, or_and_right, exists_or]
    rw [exists_covers_lineTrims closed (by rw [length_sectioned]; omega)]
    refine or_iff_right_of_imp ?_
    rintro (front | ⟨-, last⟩)
    · omega
    · exact covers_trailing_section _ inside (by omega)

theorem weaveBefore_closing (closed : closing = [] ∨ closing = [.char ',']) :
    weaveBefore (sectionedEdits front closing entries)
      (front.length + 1 + ([.char ','].intercalate entries).length) closing = closing := by
  have leading := Text.leadingBlanks_le_length front
  have within := sectionEdits_within (front.length + 1) entries
  apply weaveBefore_eq_self
  · intro i _
    rw [inserted_sectionedEdits]
    exact inserted_of_within within (.inr (Nat.le_add_right _ _))
  · intro i inside
    simp only [sectionedEdits, List.mem_append, or_and_right, exists_or]
    rw [exists_covers_lineTrims closed (by rw [length_sectioned]; omega)]
    rintro ((front | ⟨rfl, -⟩) | later)
    · omega
    · exact absurd inside (Nat.not_lt_zero i)
    · exact not_covers_of_within within (.inr (Nat.le_add_right _ _)) later

theorem applyAll_sectionedEdits (closed : closing = [] ∨ closing = [.char ',']) :
    applyAll (sectioned front closing entries) (sectionedEdits front closing entries) =
      sectioned (front.dropWhile Text.isBlank) closing (entries.map tidyEntry) := by
  have nothing : inserted (sectionedEdits front closing entries)
      (sectioned front closing entries).length = [] := by
    rw [inserted_sectionedEdits]
    apply inserted_of_within (sectionEdits_within _ entries)
    rw [length_sectioned]
    omega
  rw [applyAll_eq_simultaneous (compatible_sectionedEdits closed), simultaneous_eq_weaveBefore,
    nothing, List.append_nil, sectioned, weaveBefore_append, weaveBefore_append,
    weaveBefore_append, Nat.zero_add, List.length_singleton, weaveBefore_front closed,
    weaveBefore_dollar closed, weaveBefore_entries closed, weaveBefore_closing closed, sectioned]

end Sectioned

section Parts

variable {l : NetworkLine} {modifiers : Text}

theorem toLine_sectioned (has : l.modifierSection = some modifiers) :
    l.toLine = sectioned l.address (Section.closing modifiers) l.entries :=
  NetworkLine.toLine_entries has

theorem layoutEdits_sectioned (has : l.modifierSection = some modifiers) :
    (Record.network l.toFilter).layoutEdits =
      sectionedEdits l.address (Section.closing modifiers) l.entries := by
  have edits := flatten_modifierEdits l.sectionStart l.entries
  rw [sectionedEdits, ← toLine_sectioned has, ← lineEdits_eq, ← NetworkLine.sectionStart_eq,
    ← edits]
  rfl

theorem layoutEdits_unsectioned (none : l.modifierSection = none) :
    (Record.network l.toFilter).layoutEdits = lineEdits l.toLine := by
  simp [Record.layoutEdits, NetworkLine.toFilter, NetworkLine.entries, none]

theorem stop_getLast? (has : l.modifierSection = some modifiers) (mark : ModifierMark)
    (last : mark ∈ l.toFilter.markers.modifiers.getLast?) :
    mark.stop + (Section.closing modifiers).length = l.toLine.length := by
  rw [ModifierMark.getLast?_ofEntries last, toLine_sectioned has, length_sectioned,
    NetworkLine.sectionStart_eq]
  omega

theorem exists_getLast? (has : l.modifierSection = some modifiers) (some : modifiers ≠ []) :
    ∃ mark, mark ∈ l.toFilter.markers.modifiers.getLast? := by
  have entries : l.entries ≠ [] := by
    intro none
    rw [NetworkLine.entries, has] at none
    exact some (Section.eq_nil_of_entries_eq_nil none)
  obtain ⟨entry, rest, list⟩ := List.exists_cons_of_ne_nil entries
  simp only [NetworkLine.toFilter, list, ModifierMark.ofEntries]
  exact ⟨_, List.getLast?_eq_some_getLast (List.cons_ne_nil _ _)⟩

theorem closingComma_toFilter (has : l.modifierSection = some modifiers) :
    l.toFilter.closingComma = Section.closing modifiers := by
  have stops := stop_getLast? has
  have line : l.toFilter.line = l.toLine := rfl
  rw [NetworkFilter.closingComma, line]
  rcases Section.closing_eq modifiers with none | comma
  · rw [none] at stops ⊢
    refine if_neg ?_
    rintro ⟨mark, last, stop, -⟩
    have ends := stops mark last
    simp only [List.length_nil] at ends
    omega
  · have some : modifiers ≠ [] := by
      rintro rfl
      cases comma
    obtain ⟨mark, last⟩ := exists_getLast? has some
    have ends := stops mark last
    rw [comma] at ends ⊢
    refine if_pos ⟨mark, last, ends, ?_⟩
    rw [NetworkLine.toLine_entries has, comma, ← List.append_assoc, ← List.append_assoc,
      List.getLast?_concat]

theorem written_toFilter (l : NetworkLine) :
    (l.toFilter.modifiers.map fun m => m.tidied.written) = l.entries.map tidyEntry :=
  List.map_map

/-- A network line becomes what its parts say. -/
theorem applyAll_network (again : NetworkLine.ofLine l.toLine = l) :
    applyAll l.toLine (Record.network l.toFilter).layoutEdits = l.toFilter.rewritten := by
  have line : l.toFilter.line = l.toLine := rfl
  rw [NetworkFilter.rewritten, line, again]
  cases has : l.modifierSection with
  | none =>
      rw [layoutEdits_unsectioned has, applyAll_lineEdits]
      simp [NetworkLine.opening?, has]
  | some modifiers =>
      have front : l.toLine.take l.address.length = l.address := by
        rw [toLine_sectioned has]
        exact List.take_left
      rw [layoutEdits_sectioned has, NetworkLine.opening?, has, Option.map_some]
      simp only [front, written_toFilter, closingComma_toFilter has]
      rw [toLine_sectioned has, applyAll_sectionedEdits (Section.closing_eq modifiers)]
      rfl

theorem take_opening {opening : Nat} (opens : l.opening? = some opening) :
    ∃ modifiers, l.modifierSection = some modifiers ∧
      l.toLine = l.toLine.take opening ++ .char '$' :: modifiers := by
  cases has : l.modifierSection with
  | none => simp [NetworkLine.opening?, has] at opens
  | some modifiers =>
      have parts := NetworkLine.toLine_of_section has
      simp only [NetworkLine.opening?, has, Option.map_some, Option.some.injEq] at opens
      refine ⟨modifiers, rfl, ?_⟩
      rw [← opens, parts, List.take_left]
      rfl

end Parts

section Lines

variable {line : Text} {record : Record}

theorem tidy_of_ofLine (read : Record.ofLine line = .ok record) :
    tidy line = .ok (applyAll line record.layoutEdits) := by
  rw [tidy, read]
  rfl

theorem applyAll_layoutEdits (read : Record.ofLine line = .ok record) :
    applyAll line record.layoutEdits = record.rewritten := by
  have whole := NetworkLine.toLine_ofLine line
  have same := Record.line_of_ofLine read
  cases Record.kind_of_ofLine read with
  | empty => exact applyAll_lineEdits line
  | other => exact applyAll_lineEdits line
  | network =>
      have rewrites := applyAll_network (l := NetworkLine.ofLine line) (by rw [whole])
      rw [whole] at rewrites
      exact rewrites
  | cosmetic hostname rest filter =>
      subst same
      exact applyAll_lineEdits filter.line

/-- Making the edits of a line one after the other writes its parts down in the canonical layout.
    If the line has a modifier section, the parts are those around the dollar sign that opens it. -/
theorem tidy_eq_rewritten (read : Record.ofLine line = .ok record) :
    tidy line = .ok record.rewritten ∧
      ∀ opening ∈ (NetworkLine.ofLine line).opening?, ∃ modifiers,
        (NetworkLine.ofLine line).modifierSection = some modifiers ∧
          line = line.take opening ++ .char '$' :: modifiers := by
  refine ⟨?_, ?_⟩
  · rw [tidy_of_ofLine read, applyAll_layoutEdits read]
  · intro opening opens
    have parts := take_opening opens
    rw [NetworkLine.toLine_ofLine] at parts
    exact parts

end Lines

theorem tidy_short_name : tidy "\t||a.b^$ 3p , x = 1 ,".toText =
    .ok "||a.b^$third-party,x=1,".toText := by
  have read : Record.ofLine "\t||a.b^$ 3p , x = 1 ,".toText =
      .ok (.network (NetworkLine.ofLine "\t||a.b^$ 3p , x = 1 ,".toText).toFilter) := rfl
  have rewritten := (tidy_eq_rewritten read).1
  exact rewritten.trans (by decide +kernel)

end Layout

end Blocklist
