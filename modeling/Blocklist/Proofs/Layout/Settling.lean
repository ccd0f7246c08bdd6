import Blocklist.Proofs.Layout.Change
import Blocklist.Proofs.Layout.Rereading

/-! # When the layout settles

Trimming an entry may lay a backslash bare that stood in front of a blank. Such an entry goes on
behind the comma that followed it, and a name that is laid bare takes its equals sign in. What comes
behind is then read anew, and a blank may turn up beside an equals sign that was not there before.
The layout settles exactly when that does not happen.
-/

namespace Blocklist

namespace Layout

/-- No blank stands beside the equals sign that ends the name of an entry. -/
def snug (entry : Text) : Bool :=
  match (entry.cutBare '=').2 with
  | none => true
  | some value =>
      !(entry.cutBare '=').1.getLast?.any Text.isBlank && !value.head?.any Text.isBlank

/-- Entries in the canonical layout stay in it when they are read again. An entry that dangles goes
    on with the next one, whose equals sign matters only if no name has ended before, as `inName`
    tells. -/
def settled (inName : Bool) : List Text → Bool
  | [] => true
  | entry :: rest =>
      (!inName || snug entry) &&
        settled (!entry.dangles || inName && (entry.cutBare '=').2.isNone) rest

/-- What every entry has that is put together from entries in the canonical layout. -/
structure Kempt (entry : Text) : Prop where
  trimmed : entry.Trimmed
  long : fullName? (entry.cutBare '=').1.trimBlanks = none

section Kempt

theorem kempt_tidyEntry (entry : Text) : Kempt (tidyEntry entry) := by
  have trimmed := trimmed_tidied_name (Modifier.ofEntry entry)
  have long := fullName?_tidied_name (Modifier.ofEntry entry)
  have uncut := cutBare_tidied_name entry
  cases cut : (entry.cutBare '=').2 with
  | none =>
      rw [tidyEntry_of_none cut]
      refine ⟨trimmed, ?_⟩
      rw [Text.cutBare_fst_of_none uncut, Text.trimBlanks_of_trimmed trimmed]
      exact long
  | some value =>
      have last := (Text.trimmed_trimBlanks value).last
      refine ⟨?_, ?_⟩
      · rw [tidyEntry_of_some cut]
        exact Text.trimmed_append_cons (by decide) trimmed.first last
      · cases ends : (Modifier.ofEntry entry).tidied.name.dangles with
        | true =>
            rw [tidyEntry_of_some cut, Text.cutBare_append_cons uncut ends]
            apply fullName?_of_mem (List.mem_append_right _ List.mem_cons_self)
            · decide
            · decide
        | false =>
            rw [cutBare_tidyEntry_of_some cut ends, Text.trimBlanks_of_trimmed trimmed]
            exact long

theorem snug_of_none {entry : Text} (cut : (entry.cutBare '=').2 = none) : snug entry = true := by
  rw [snug, cut]

theorem snug_iff_of_some {entry value : Text} (cut : (entry.cutBare '=').2 = some value) :
    snug entry = true ↔ (∀ c ∈ (entry.cutBare '=').1.getLast?, Text.isBlank c = false) ∧
      ∀ c ∈ value.head?, Text.isBlank c = false := by
  simp only [snug, cut, Bool.and_eq_true, Bool.not_eq_true']
  cases (entry.cutBare '=').1.getLast? <;> cases value.head? <;> simp

theorem isTidy_iff_snug {entry : Text} (kempt : Kempt entry) :
    (Modifier.ofEntry entry).IsTidy ↔ snug entry = true := by
  have long := kempt.long
  cases cut : (entry.cutBare '=').2 with
  | none =>
      have whole := Text.cutBare_fst_of_none cut
      rw [whole, Text.trimBlanks_of_trimmed kempt.trimmed] at long
      refine iff_of_true ⟨?_, ?_, ?_⟩ (snug_of_none cut)
      · rw [Modifier.ofEntry, whole]
        exact kempt.trimmed
      · rw [Modifier.ofEntry, whole]
        exact long
      · simp [Modifier.ofEntry, cut]
  | some value =>
      have whole := Text.cutBare_append_of_some cut
      have first := kempt.trimmed.first
      have last := kempt.trimmed.last
      rw [← whole] at first last
      rw [snug_iff_of_some cut]
      constructor
      · intro tidy
        exact ⟨tidy.name.last, (tidy.value value cut).first⟩
      · rintro ⟨nameLast, valueFirst⟩
        have name : (entry.cutBare '=').1.Trimmed := by
          refine ⟨?_, nameLast⟩
          cases start : (entry.cutBare '=').1 with
          | nil => simp
          | cons c rest => simpa [start] using first
        have trimmed : value.Trimmed := by
          refine ⟨valueFirst, ?_⟩
          cases value with
          | nil => simp
          | cons c rest => simpa using last
        rw [Text.trimBlanks_of_trimmed name] at long
        refine ⟨name, long, ?_⟩
        rw [Modifier.ofEntry, cut]
        rintro _ ⟨⟩
        exact trimmed

variable {entry : Text}

theorem kempt_append {next : Text} (kempt : Kempt entry) (kempt' : Kempt next)
    (ends : entry.dangles = true) : Kempt (entry ++ .char ',' :: next) where
  trimmed := Text.trimmed_append_cons (by decide) kempt.trimmed.first kempt'.trimmed.last
  long := by
    cases cut : (entry.cutBare '=').2 with
    | none =>
        rw [Text.cutBare_append_cons cut ends]
        apply fullName?_of_mem (List.mem_append_right _ List.mem_cons_self)
        · decide
        · decide
    | some value =>
        rw [Text.cutBare_append_of_cut (by decide) cut]
        exact kempt.long

theorem snug_append_of_some {value : Text} (cut : (entry.cutBare '=').2 = some value)
    (next : Text) : snug (entry ++ .char ',' :: next) = snug entry := by
  have both := Text.cutBare_append_of_cut (by decide) cut (.char ',' :: next)
  have comma : Text.isBlank ',' = false := by decide
  rw [Bool.eq_iff_iff, snug_iff_of_some cut, snug_iff_of_some (congrArg Prod.snd both), both]
  cases value with
  | nil => simp [comma]
  | cons c rest => simp

/-- A name goes on in the next entry. -/
theorem snug_append_of_none (cut : (entry.cutBare '=').2 = none) (ends : entry.dangles = true)
    (next : Text) : snug (entry ++ .char ',' :: next) = snug next := by
  have both := Text.cutBare_append_cons cut ends ',' next
  have comma : Text.isBlank ',' = false := by decide
  cases cut' : (next.cutBare '=').2 with
  | none => rw [snug_of_none cut', snug_of_none ((congrArg Prod.snd both).trans cut')]
  | some value =>
      rw [Bool.eq_iff_iff, snug_iff_of_some cut',
        snug_iff_of_some ((congrArg Prod.snd both).trans cut'), both, List.getLast?_append_cons]
      cases (next.cutBare '=').1 with
      | nil => simp [comma]
      | cons c rest => simp

end Kempt

section Sections

variable {entries : List Text}

theorem kempt_of_mem_splitBare (some : entries ≠ []) (kempt : ∀ entry ∈ entries, Kempt entry)
    (uncut : ∀ entry ∈ entries, (entry.cutBare ',').2 = none) :
    ∀ entry ∈ Text.splitBare ',' ([.char ','].intercalate entries), Kempt entry := by
  induction entries with
  | nil => exact absurd rfl some
  | cons entry rest ih =>
      rw [List.forall_mem_cons] at kempt uncut
      cases rest with
      | nil =>
          rw [List.intercalate_singleton, Text.splitBare_of_uncut uncut.1,
            List.forall_mem_singleton]
          exact kempt.1
      | cons next rest =>
          have later := ih (by simp) kempt.2 uncut.2
          rw [List.intercalate_cons_cons, List.append_assoc, List.singleton_append,
            Text.splitBare_append_cons (by decide) uncut.1]
          cases ends : entry.dangles with
          | false => exact List.forall_mem_cons.mpr ⟨kempt.1, later⟩
          | true =>
              obtain ⟨piece, pieces, split⟩ := List.exists_cons_of_ne_nil
                (Text.splitBare_ne_nil ',' ([.char ','].intercalate (next :: rest)))
              rw [split, List.forall_mem_cons] at later
              rw [if_pos rfl, split, List.modifyHead_cons, List.forall_mem_cons]
              exact ⟨kempt_append kempt.1 later.1 ends, later.2⟩

/-- Read again, the entries of a section are snug when they settle. Where a value goes on, the first
    of them does not count. -/
theorem settled_iff (some : entries ≠ [])
    (uncut : ∀ entry ∈ entries, (entry.cutBare ',').2 = none) (inName : Bool) :
    settled inName entries = true ↔
      ∀ entry ∈ (Text.splitBare ',' ([.char ','].intercalate entries)).drop
          (if inName then 0 else 1),
        snug entry = true := by
  -- For every flag at once, since the rest of a section may start inside a name or a value.
  induction entries generalizing inName with
  | nil => exact absurd rfl some
  | cons entry rest ih =>
      rw [List.forall_mem_cons] at uncut
      cases rest with
      | nil =>
          rw [List.intercalate_singleton, Text.splitBare_of_uncut uncut.1]
          cases inName <;> simp [settled]
      | cons next rest =>
          have later := ih (by simp) uncut.2
          rw [List.intercalate_cons_cons, List.append_assoc, List.singleton_append,
            Text.splitBare_append_cons (by decide) uncut.1, settled]
          cases ends : entry.dangles with
          | false =>
              rw [if_neg Bool.false_ne_true, Bool.not_false, Bool.true_or, Bool.and_eq_true, later]
              cases inName <;> simp
          | true =>
              obtain ⟨piece, pieces, split⟩ := List.exists_cons_of_ne_nil
                (Text.splitBare_ne_nil ',' ([.char ','].intercalate (next :: rest)))
              rw [if_pos rfl, split, List.modifyHead_cons, Bool.and_eq_true, later, split]
              cases cut : (entry.cutBare '=').2 with
              | none =>
                  have joined := snug_append_of_none cut ends piece
                  have alone := snug_of_none cut
                  cases inName <;> simp [joined, alone]
              | some value =>
                  have joined := snug_append_of_some cut piece
                  cases inName <;> simp [joined]

theorem settled_append_nil (inName : Bool) (entries : List Text) :
    settled inName (entries ++ [[]]) = settled inName entries := by
  induction entries generalizing inName with
  | nil => cases inName <;> rfl
  | cons entry rest ih => simp only [List.cons_append, settled, ih]

theorem settled_entries (modifiers : Text) :
    settled true ((Section.entries modifiers).map tidyEntry) =
      settled true ((modifiers.splitBare ',').map tidyEntry) := by
  have empty : tidyEntry [] = [] := rfl
  rcases Section.splitBare_eq_entries modifiers with split | split
  · rw [split]
  · rw [split, List.map_append, List.map_singleton, empty, settled_append_nil]

/-- A section in the canonical layout is read as tidy modifiers exactly if its entries settle. -/
theorem forall_isTidy_tidySection_iff (modifiers : Text) :
    (∀ entry ∈ Section.entries (tidySection modifiers), (Modifier.ofEntry entry).IsTidy) ↔
      settled true ((Section.entries modifiers).map tidyEntry) = true := by
  have some : ((modifiers.splitBare ',').map tidyEntry) ≠ [] := by
    simpa using Text.splitBare_ne_nil ',' modifiers
  have kempt : ∀ entry ∈ (modifiers.splitBare ',').map tidyEntry, Kempt entry := by
    rw [List.forall_mem_map]
    exact fun piece _ => kempt_tidyEntry piece
  have uncut : ∀ entry ∈ (modifiers.splitBare ',').map tidyEntry, (entry.cutBare ',').2 = none := by
    rw [List.forall_mem_map]
    exact fun piece isThere => uncut_tidyEntry (Text.cutBare_of_mem_splitBare isThere)
  have read := kempt_of_mem_splitBare some kempt uncut
  have empty : (Modifier.ofEntry []).IsTidy := (isTidy_iff_snug (kempt_tidyEntry [])).mpr rfl
  rw [settled_entries, settled_iff some uncut,
    Section.forall_mem_entries_iff _ empty]
  exact forall₂_congr fun entry isThere => isTidy_iff_snug (read entry isThere)

end Sections

end Layout

namespace Record

/-- The layout of a record settles with the first edits. -/
def settles : Record → Bool
  | network f => Layout.settled true (f.modifiers.map fun m => m.tidied.written)
  | _ => true

end Record

namespace Layout

open Edit

section Lines

variable {line : Text}

theorem lineEdits_trimBlanks (line : Text) : lineEdits line.trimBlanks = [] :=
  lineEdits_eq_nil_iff.mpr (Text.trimmed_trimBlanks line)

theorem settles_toFilter (l : NetworkLine) :
    (Record.network l.toFilter).settles = settled true (l.entries.map tidyEntry) := by
  rw [Record.settles, written_toFilter]

theorem layoutEdits_tidied {l : NetworkLine} {modifiers : Text} (proper : l.Proper)
    (has : l.modifierSection = some modifiers) :
    (Record.network l.tidied.toFilter).layoutEdits = [] ↔
      (Record.network l.toFilter).settles = true := by
  have has' : l.tidied.modifierSection = some (tidySection modifiers) := by
    rw [NetworkLine.tidied_eq has]
  have unindented : l.tidied.address.leadingBlanks = 0 := by
    rw [NetworkLine.address_tidied proper has, Text.leadingBlanks_dropWhile]
  rw [layoutEdits_sectioned has', sectionedEdits_eq_nil_iff (Section.closing_eq _),
    and_iff_right unindented, NetworkLine.entries, has', forall_isTidy_tidySection_iff,
    settles_toFilter, NetworkLine.entries, has]

/-- The record of the line in the canonical layout has no edits left exactly if the layout of the
    first one settles. -/
theorem layoutEdits_tidied_eq_nil_iff {record : Record} (read : Record.ofLine line = .ok record) :
    record.tidied.layoutEdits = [] ↔ record.settles = true := by
  cases Record.kind_of_ofLine read with
  | empty => exact iff_of_true (lineEdits_trimBlanks line) rfl
  | other => exact iff_of_true (lineEdits_trimBlanks line) rfl
  | network =>
      cases has : (NetworkLine.ofLine line).modifierSection with
      | none =>
          rw [Record.tidied_of_no_section has]
          refine iff_of_true ?_ ?_
          · split
            · rfl
            · rw [layoutEdits_unsectioned (Record.modifierSection_trimBlanks has),
                NetworkLine.toLine_ofLine, lineEdits_trimBlanks]
          · rw [settles_toFilter, NetworkLine.entries, has]
            rfl
      | some modifiers =>
          rw [Record.tidied_of_section has]
          exact layoutEdits_tidied (NetworkLine.proper_ofLine line) has
  | cosmetic hostname rest filter => exact iff_of_true (lineEdits_trimBlanks filter.line) rfl

theorem exists_reread {record : Record} (read : Record.ofLine line = .ok record) :
    ∃ record', Record.ofLine (applyAll line record.layoutEdits) = .ok record' ∧
      (record'.layoutEdits = [] ↔ record.settles = true) :=
  ⟨record.tidied, Record.ofLine_applyAll read, layoutEdits_tidied_eq_nil_iff read⟩

/-- The layout of a line settles with the first edits, so that the line it leads to has no edits
    left and stays as it is, exactly if the entries of its section settle. -/
theorem tidy_settles_iff {record : Record} (read : Record.ofLine line = .ok record) :
    ∃ fixed record', tidy line = .ok fixed ∧ Record.ofLine fixed = .ok record' ∧
      (record'.layoutEdits = [] ↔ record.settles = true) ∧
      (tidy fixed = .ok fixed ↔ record.settles = true) := by
  obtain ⟨record', again, edits⟩ := exists_reread read
  refine ⟨_, record', tidy_of_ofLine read, again, edits, ?_⟩
  rw [← edits, ← applyAll_layoutEdits_eq_self_iff again, tidy_of_ofLine again, Except.ok.injEq]

theorem tidy_settles_short_name : ∃ fixed record',
    tidy "||a.b^$ 3p , x\\ ,1 = 2".toText = .ok fixed ∧ Record.ofLine fixed = .ok record' ∧
      record'.layoutEdits = [] ∧ tidy fixed = .ok fixed := by
  have read : Record.ofLine "||a.b^$ 3p , x\\ ,1 = 2".toText =
      .ok (.network (NetworkLine.ofLine "||a.b^$ 3p , x\\ ,1 = 2".toText).toFilter) := rfl
  obtain ⟨fixed, record', first, again, edits, stays⟩ := tidy_settles_iff read
  have settles : (Record.network
      (NetworkLine.ofLine "||a.b^$ 3p , x\\ ,1 = 2".toText).toFilter).settles = true := by
    decide +kernel
  exact ⟨fixed, record', first, again, edits.mpr settles, stays.mpr settles⟩

/-- The blank behind the backslash goes, and with it the first equals sign turns into a part of the
    name, which then ends with the blank in front of the second one. -/
theorem tidy_moves_again :
    tidy "||a.example^$a\\ =b =c".toText = .ok "||a.example^$a\\=b =c".toText ∧
      tidy "||a.example^$a\\=b =c".toText = .ok "||a.example^$a\\=b=c".toText ∧
      tidy "||a.example^$a\\=b =c".toText ≠ .ok "||a.example^$a\\=b =c".toText := by
  have read : Record.ofLine "||a.example^$a\\ =b =c".toText =
      .ok (.network (NetworkLine.ofLine "||a.example^$a\\ =b =c".toText).toFilter) := rfl
  have reread : Record.ofLine "||a.example^$a\\=b =c".toText =
      .ok (.network (NetworkLine.ofLine "||a.example^$a\\=b =c".toText).toFilter) := rfl
  rw [tidy_of_ofLine read, tidy_of_ofLine reread, applyAll_layoutEdits read,
    applyAll_layoutEdits reread]
  decide +kernel

end Lines

end Layout

end Blocklist
