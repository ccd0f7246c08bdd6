import Blocklist.Proofs.Filter.Tiling
import Blocklist.Proofs.Text.Surrogates
import Blocklist.Wire

/-! # The marks of a wire record

The marks of a wire record count code units, and a reader cuts the units of the line at them. What
it gets are the units of the text that is marked: the marks never fall between the two units of one
character, so nothing is torn. A line with a surrogate in it has no wire record: its last mark ends
where nothing but characters follows, so the surrogate is in the way of one mark or another.
-/

namespace Blocklist

namespace Span

variable {line text : Text} {span : Span}

theorem Cuts.before_stop (cuts : span.Cuts line text) :
    line.before span.stop = line.before span.start ++ text := by
  obtain ⟨start, place⟩ := Int.eq_ofNat_of_zero_le cuts.from_zero
  obtain ⟨stop, place'⟩ := Int.eq_ofNat_of_zero_le (Int.le_trans cuts.from_zero cuts.start_le_stop)
  have ordered := cuts.start_le_stop
  have within := cuts.stop_le_length
  have between := cuts.between
  rw [place, place'] at ordered between
  rw [place'] at within
  rw [Text.between_natCast (by omega) (by omega)] at between
  rw [place, place', Text.before_natCast (by omega), Text.before_natCast (by omega), ← between]
  have front : line.take start = (line.take stop).take start := by
    rw [List.take_take, Nat.min_eq_left (by omega)]
  rw [front, List.take_append_drop]

theorem Cuts.parts (cuts : span.Cuts line text) :
    line.before span.start ++ (text ++ line.after span.stop) = line := by
  rw [← List.append_assoc, ← cuts.before_stop, Text.before, Text.after, List.take_append_drop]

end Span

namespace Json

/-- What an object holds under a key. -/
def field? (key : Text) : Json → Option Json
  | object fields => fields.lookup key
  | _ => none

end Json

namespace Wire

/-- A pair of offsets marks a text in a line: cut at them, the code units of the line give the code
    units of the text, which are read as that text. -/
inductive Marks (line text : Text) : Json → Prop where
  | span {start stop : Nat} {units : List Nat} (encoded : line.units? = .ok units)
      (ordered : start ≤ stop) (within : stop ≤ units.length)
      (cut : text.units? = .ok ((units.take stop).drop start))
      (read : Text.ofUnits? ((units.take stop).drop start) = some text)
      (startWhole : ¬Text.SplitsPair units start) (stopWhole : ¬Text.SplitsPair units stop) :
      Marks line text (.list [.number start, .number stop])

/-- An entry of the marks belongs to an entry of the modifiers. There is a mark for the value where
    there is a value. -/
inductive MarksEntry (line : Text) : Json → Json → Prop where
  | bare {name : Text} {span : Json} (marks : Marks line name span) :
      MarksEntry line (.list [.text name, .null]) (.list [span, .null])
  | valued {name value : Text} {span span' : Json} (marks : Marks line name span)
      (marks' : Marks line value span') :
      MarksEntry line (.list [.text name, .text value]) (.list [span, span'])

section Written

variable {line text : Text} {span : Span} {written : Json}

/-- A text is marked where the units of what stands in front of it end. -/
theorem marks_append (front text back : List Char) :
    Marks (.ofChars (front ++ (text ++ back))) (.ofChars text)
      (.list [.number (front.flatMap Text.unitsOfChar).length,
        .number ((front.flatMap Text.unitsOfChar).length +
          (text.flatMap Text.unitsOfChar).length)]) := by
  have cut : (((front ++ (text ++ back)).flatMap Text.unitsOfChar).take
      ((front.flatMap Text.unitsOfChar).length + (text.flatMap Text.unitsOfChar).length)).drop
        (front.flatMap Text.unitsOfChar).length = text.flatMap Text.unitsOfChar := by
    rw [List.flatMap_append, List.flatMap_append, ← List.append_assoc, ← List.length_append,
      List.take_left, List.drop_left]
  have encoded := Text.units?_ofChars text
  refine .span (Text.units?_ofChars _) (Nat.le_add_right _ _) ?_ (by rw [cut, encoded])
    (by rw [cut, Text.ofUnits?_units? encoded]) (Text.not_splitsPair_append front _) ?_
  · rw [List.flatMap_append, List.flatMap_append, List.length_append, List.length_append]
    omega
  · rw [← List.length_append, ← List.flatMap_append, ← List.append_assoc]
    exact Text.not_splitsPair_append (front ++ text) back

theorem exists_span_toWire? (plain : ∀ c ∈ line, c.isSurrogate = false)
    (cuts : span.Cuts line text) :
    ∃ written, span.toWire? line = .ok written ∧ Marks line text written := by
  obtain ⟨chars, whole⟩ := Text.exists_ofChars_iff.mpr plain
  obtain ⟨front, behind, rfl, isFront, isBehind⟩ :=
    List.map_eq_append_iff.mp (whole.symm.trans cuts.parts.symm)
  obtain ⟨inner, back, rfl, rfl, -⟩ := List.map_eq_append_iff.mp isBehind
  refine ⟨_, ?_, whole ▸ marks_append front inner back⟩
  rw [Span.toWire?, Span.unitEnds?, cuts.between, ← isFront, ← Text.ofChars, ← Text.ofChars,
    Text.unitCount?, Text.unitCount?, Text.units?_ofChars, Text.units?_ofChars]
  rfl

theorem plain_of_span_toWire? (cuts : span.Cuts line text)
    (toWire : span.toWire? line = .ok written) :
    ∀ c ∈ line.before span.stop, c.isSurrogate = false := by
  obtain ⟨ends, isEnds, -⟩ := bind_eq_ok_iff.mp toWire
  obtain ⟨start, isStart, more⟩ := bind_eq_ok_iff.mp isEnds
  obtain ⟨length, isLength, -⟩ := bind_eq_ok_iff.mp more
  obtain ⟨front, encoded, -⟩ := map_eq_ok_iff.mp isStart
  obtain ⟨inner, encoded', -⟩ := map_eq_ok_iff.mp isLength
  rw [cuts.between] at encoded'
  rw [cuts.before_stop, List.forall_mem_append]
  exact ⟨Text.exists_units?_iff.mp ⟨front, encoded⟩, Text.exists_units?_iff.mp ⟨inner, encoded'⟩⟩

variable {modifier : Modifier} {mark : ModifierMark}

theorem exists_mark_toWire? (plain : ∀ c ∈ line, c.isSurrogate = false)
    (fits : mark.Fits line modifier) :
    ∃ written, mark.toWire? line = .ok written ∧ MarksEntry line modifier.toWire written := by
  obtain ⟨name, value⟩ := modifier
  obtain ⟨nameSpan, valueSpan⟩ := mark
  have behind := fits.value
  obtain ⟨first, isFirst, marks⟩ := exists_span_toWire? plain fits.name
  simp only [ModifierMark.toWire?, isFirst]
  cases value with
  | none =>
      cases valueSpan with
      | none => exact ⟨_, rfl, .bare marks⟩
      | some span => exact behind.elim
  | some value =>
      cases valueSpan with
      | none => exact behind.elim
      | some span =>
          obtain ⟨second, isSecond, marks'⟩ := exists_span_toWire? plain behind.2.2
          dsimp only [bind, Except.bind]
          rw [isSecond]
          exact ⟨_, rfl, .valued marks marks'⟩

theorem plain_of_mark_toWire? (fits : mark.Fits line modifier)
    (toWire : mark.toWire? line = .ok written) :
    ∀ c ∈ line.before mark.stop, c.isSurrogate = false := by
  obtain ⟨name, value⟩ := modifier
  obtain ⟨nameSpan, valueSpan⟩ := mark
  have behind := fits.value
  obtain ⟨first, isFirst, more⟩ := bind_eq_ok_iff.mp toWire
  cases valueSpan with
  | none => exact plain_of_span_toWire? fits.name isFirst
  | some span =>
      obtain ⟨second, isSecond, -⟩ := bind_eq_ok_iff.mp more
      cases value with
      | none => exact behind.elim
      | some value => exact plain_of_span_toWire? behind.2.2 isSecond

theorem exists_mapM_toWire? {modifiers : List Modifier} {marks : List ModifierMark}
    (plain : ∀ c ∈ line, c.isSurrogate = false)
    (fits : List.Forall₂ (ModifierMark.Fits line) modifiers marks) :
    ∃ written, marks.mapM (ModifierMark.toWire? line) = .ok written ∧
      List.Forall₂ (MarksEntry line) (modifiers.map Modifier.toWire) written := by
  simp only [mapM_eq_ok_iff]
  induction fits with
  | nil => exact ⟨[], .nil, .nil⟩
  | cons first _ ih =>
      obtain ⟨entry, isEntry, marksEntry⟩ := exists_mark_toWire? plain first
      obtain ⟨entries, areEntries, marksEntries⟩ := ih
      exact ⟨entry :: entries, .cons isEntry areEntries, .cons marksEntry marksEntries⟩

theorem plain_of_mapM_toWire? {modifiers : List Modifier} {marks : List ModifierMark}
    {entries : List Json} (fits : List.Forall₂ (ModifierMark.Fits line) modifiers marks)
    (toWire : marks.mapM (ModifierMark.toWire? line) = .ok entries) :
    ∀ mark ∈ marks, ∀ c ∈ line.before mark.stop, c.isSurrogate = false := by
  rw [mapM_eq_ok_iff] at toWire
  induction fits generalizing entries with
  | nil => exact List.forall_mem_nil _
  | cons first _ ih =>
      cases toWire with
      | cons isEntry areEntries =>
          exact List.forall_mem_cons.mpr ⟨plain_of_mark_toWire? first isEntry, ih areEntries⟩

end Written

end Wire

theorem ModifierMark.Closes.plain {line : Text} {mark : ModifierMark} (closes : mark.Closes line)
    (front : ∀ c ∈ line.before mark.stop, c.isSurrogate = false) :
    ∀ c ∈ line, c.isSurrogate = false := by
  rcases closes with stop | ⟨stop, comma⟩
  · rwa [stop, Text.before_natCast (Nat.le_refl _), List.take_length] at front
  · obtain ⟨behind, rfl⟩ := List.getLast?_eq_some_iff.mp comma
    have place : mark.stop = (behind.length : Int) := by
      rw [List.length_append, List.length_singleton] at stop
      omega
    rw [place, Text.before_natCast (by simp), List.take_left] at front
    exact List.forall_mem_append.mpr ⟨front, List.forall_mem_singleton.mpr rfl⟩

namespace NetworkFilter

variable {f : NetworkFilter} {written : Json}

theorem Tiles.exists_marks? (tiles : f.Tiles) (plain : ∀ c ∈ f.line, c.isSurrogate = false) :
    ∃ span marks, f.marks? =
        .ok (.object [("pattern".toText, span), ("modifiers".toText, .list marks)]) ∧
      Wire.Marks f.line f.pattern span ∧
      List.Forall₂ (Wire.MarksEntry f.line) (f.modifiers.map Modifier.toWire) marks := by
  obtain ⟨span, isSpan, pattern⟩ := Wire.exists_span_toWire? plain tiles.pattern
  obtain ⟨marks, areMarks, entries⟩ := Wire.exists_mapM_toWire? plain tiles.fits
  refine ⟨span, marks, ?_, pattern, entries⟩
  rw [NetworkFilter.marks?, isSpan, areMarks]
  rfl

theorem plain_endMark (isThere : Bool) :
    ∀ c ∈ NetworkLine.endMark isThere, c.isSurrogate = false := by
  cases isThere <;> decide

/-- What stands behind the last mark of a line holds no surrogate. -/
theorem Tiles.plain_of_marks? (tiles : f.Tiles) (isWritten : f.marks? = .ok written) :
    ∀ c ∈ f.line, c.isSurrogate = false := by
  obtain ⟨span, isSpan, more⟩ := bind_eq_ok_iff.mp isWritten
  obtain ⟨marks, areMarks, -⟩ := bind_eq_ok_iff.mp more
  cases last : f.markers.modifiers.getLast? with
  | some mark =>
      have front := Wire.plain_of_mapM_toWire? tiles.fits areMarks mark
        (List.mem_of_getLast? last)
      exact (tiles.closes mark last).plain front
  | none =>
      have none := tiles.fits
      rw [List.getLast?_eq_none_iff.mp last, List.forall₂_nil_right_iff] at none
      obtain ⟨modifierSection, back, empty⟩ := tiles.back
      have front := Wire.plain_of_span_toWire? tiles.pattern isSpan
      rw [← tiles.pattern.parts, ← List.append_assoc, ← tiles.pattern.before_stop, back]
      refine List.forall_mem_append.mpr ⟨front, List.forall_mem_append.mpr ⟨?_, ?_⟩⟩
      · exact plain_endMark f.matchEnd
      · rcases empty none with rfl | rfl
        · exact List.forall_mem_nil _
        · exact List.forall_mem_singleton.mpr rfl

end NetworkFilter

namespace Record

theorem exists_toWire?_of_network {f : NetworkFilter} (tiles : f.Tiles) :
    (∃ wire, (network f).toWire? = .ok wire) ↔ ∀ c ∈ f.line, c.isSurrogate = false := by
  constructor
  · rintro ⟨wire, written⟩
    obtain ⟨marks, isMarks, -⟩ := bind_eq_ok_iff.mp written
    exact tiles.plain_of_marks? isMarks
  · intro plain
    obtain ⟨span, marks, isMarks, -, -⟩ := tiles.exists_marks? plain
    exact ⟨_, bind_eq_ok_iff.mpr ⟨_, isMarks, rfl⟩⟩

/-- A network line has a wire record exactly if no surrogate is in it. In the record the marks,
    which count code units, cut the line to the pattern and to the names and the values of the
    modifiers, entry by entry. -/
theorem toWire_marks {line : Text} {f : NetworkFilter} (read : ofLine line = .ok (network f)) :
    ((∃ wire, (network f).toWire? = .ok wire) ↔ ∀ c ∈ line, c.isSurrogate = false) ∧
    ∀ wire, (network f).toWire? = .ok wire →
      wire.field? "line".toText = some (.text line) ∧
      wire.field? "pattern".toText = some (.text f.pattern) ∧
      wire.field? "modifiers".toText = some (.list (f.modifiers.map Modifier.toWire)) ∧
      ∃ markers span marks, wire.field? "markers".toText = some markers ∧
        markers.field? "pattern".toText = some span ∧
        markers.field? "modifiers".toText = some (.list marks) ∧
        Wire.Marks line f.pattern span ∧
        List.Forall₂ (Wire.MarksEntry line) (f.modifiers.map Modifier.toWire) marks := by
  obtain rfl : f.line = line := line_of_ofLine read
  have tiles := tiles_of_ofLine read
  have encodable := exists_toWire?_of_network tiles
  refine ⟨encodable, fun wire written => ?_⟩
  obtain ⟨span, marks, isMarks, pattern, entries⟩ :=
    tiles.exists_marks? (encodable.mp ⟨wire, written⟩)
  rw [toWire?, isMarks] at written
  cases written
  exact ⟨rfl, rfl, rfl, _, span, marks, rfl, rfl, rfl, pattern, entries⟩

/-- Characters that take two units stand in front of the marked texts and inside them. -/
theorem toWire_marks_pairs :
    ∃ f, ofLine "😀.b$x😀,y=😀".toText = .ok (network f) ∧
      Wire.Marks "😀.b$x😀,y=😀".toText "😀.b".toText (.list [.number 0, .number 4]) ∧
      List.Forall₂ (Wire.MarksEntry "😀.b$x😀,y=😀".toText)
        [.list [.text "x😀".toText, .null], .list [.text "y".toText, .text "😀".toText]]
        [.list [.list [.number 5, .number 8], .null],
          .list [.list [.number 9, .number 10], .list [.number 11, .number 13]]] := by
  have read : ofLine "😀.b$x😀,y=😀".toText =
      .ok (network (NetworkLine.ofLine "😀.b$x😀,y=😀".toText).toFilter) := rfl
  obtain ⟨-, marked⟩ := toWire_marks read
  obtain ⟨-, -, -, markers, span, marks, isMarkers, isSpan, isMarks, pattern, entries⟩ :=
    marked _ rfl
  cases isMarkers
  cases isSpan
  cases isMarks
  exact ⟨_, read, pattern, entries⟩

end Record

end Blocklist
