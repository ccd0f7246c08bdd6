import Blocklist.Proofs.Check.LineByLine
import Blocklist.Proofs.Filter.Tiling
import Blocklist.Proofs.Hosts.ByPlaces
import Blocklist.Proofs.Hosts.Standing
import Blocklist.Proofs.Text.Breaks
import Blocklist.Proofs.Wire.ReadBack

/-! # The passes agree on what is invalid

A check, a compilation to hosts and a compilation to wire records all go on after a line that cannot
be read. As long as a text has no CR they find the same lines, and warn of the same ones in the same
words. A check and a compilation to hosts count those lines as errors, and nothing else goes wrong
in them. A compilation to wire records leaves out those lines and no others, unless a surrogate is in
the way of a record: then it leaves out that line as well, and says so as an error.
-/

namespace Blocklist

namespace Log

/-- The entry warns of a line that is no filter. -/
def Entry.isInvalidFilter (entry : Entry) : Bool :=
  entry.level == .warning && "Invalid filter: ".toText.isPrefixOf entry.text

/-- The warnings of a log of lines that are no filters, in their order. -/
def invalidFilters (log : List Entry) : List Text :=
  (log.filter Entry.isInvalidFilter).map (·.text)

/-- The warnings that a line calls for. -/
def warnings (line : Text) : List Text :=
  match Record.ofLine line with
  | .ok _ => []
  | .error fault => [invalidFilter line fault]

/-- What a pass may log on a line: that it is no filter, if it cannot be read, and nothing that
    looks like such a warning, if it can. -/
inductive Proper (pass : Pass) (line : Text) : List Entry → Prop where
  | unread {fault : MarkerFault} (read : Record.ofLine line = .error fault) :
      Proper pass line [⟨.warning, pass, invalidFilter line fault⟩]
  | read {record : Record} {log : List Entry} (read : Record.ofLine line = .ok record)
      (unlike : ∀ entry ∈ log, entry.isInvalidFilter = false) : Proper pass line log

theorem Proper.invalidFilters_eq {pass : Pass} {line : Text} {log : List Entry}
    (proper : Proper pass line log) : invalidFilters log = warnings line := by
  cases proper with
  | unread read =>
      rw [warnings, read]
      rfl
  | read read unlike =>
      rw [warnings, read, invalidFilters, List.map_eq_nil_iff, List.filter_eq_nil_iff]
      intro entry isThere
      simp [unlike entry isThere]

theorem invalidFilters_flatMap {pass : Pass} {lineLog : Text → List Entry}
    (proper : ∀ line, Proper pass line (lineLog line)) (lines : List Text) :
    invalidFilters (lines.flatMap lineLog) = lines.flatMap warnings := by
  rw [invalidFilters, List.filter_flatMap, List.map_flatMap]
  exact List.flatMap_congr fun line _ => (proper line).invalidFilters_eq

end Log

namespace Check

theorem proper_reports (line : Text) : Log.Proper .check line (reports line) := by
  unfold reports
  cases read : Record.ofLine line with
  | error fault => exact .unread read
  | ok record =>
      refine .read read ?_
      rw [List.forall_mem_map]
      intro edit _
      cases edit <;> rfl

theorem level_ne_error_of_mem_reports (line : Text) :
    ∀ entry ∈ reports line, entry.level ≠ .error := by
  unfold reports
  cases Record.ofLine line with
  | error fault =>
      rw [List.forall_mem_singleton]
      exact Log.Level.noConfusion
  | ok record =>
      rw [List.forall_mem_map]
      exact fun edit _ => Log.Level.noConfusion

end Check

namespace Hosts

/-- The hosts that are let through are only told of for debugging. -/
theorem proper_lineLog (strict : Bool) (line : Text) :
    Log.Proper .hosts line (lineLog strict line) := by
  unfold lineLog
  cases read : Record.ofLine line with
  | error fault =>
      dsimp only
      rw [Log.skipped_toProblem]
      exact .unread read
  | ok record =>
      refine .read read ?_
      dsimp only
      split
      · exact List.forall_mem_singleton.mpr rfl
      · exact List.forall_mem_singleton.mpr rfl
      · exact List.forall_mem_nil _

theorem level_ne_error_of_mem_lineLog (strict : Bool) (line : Text) :
    ∀ entry ∈ lineLog strict line, entry.level ≠ .error := by
  unfold lineLog
  cases Record.ofLine line with
  | error fault => exact List.forall_mem_singleton.mpr Log.Level.noConfusion
  | ok record =>
      dsimp only
      split
      · exact List.forall_mem_singleton.mpr Log.Level.noConfusion
      · exact List.forall_mem_singleton.mpr Log.Level.noConfusion
      · exact List.forall_mem_nil _

variable (strict : Bool) (text : Text)

theorem invalidFilters_compile :
    Log.invalidFilters (compile strict text).2 = text.lines.flatMap Log.warnings := by
  have lines := Log.invalidFilters_flatMap (proper_lineLog strict) text.lines
  rw [compile, Log.invalidFilters, List.filter_append, List.map_append]
  exact (List.append_nil _).trans lines

theorem level_ne_error_of_mem_compile :
    ∀ entry ∈ (compile strict text).2, entry.level ≠ .error := by
  rw [compile, List.forall_mem_append, List.forall_mem_singleton, List.forall_mem_flatMap]
  exact ⟨fun line _ => level_ne_error_of_mem_lineLog strict line, Log.Level.noConfusion⟩

theorem errors_ofText : (ofText strict text).errors = text.lines.countP Check.isUnreadable :=
  (accounts_feedAll strict text.lines).errorCount

end Hosts

namespace Wire

/-- What becomes of a line, and what is logged of it. -/
inductive Taken (line : Text) : Prop where
  | unread {fault : MarkerFault} (read : Record.ofLine line = .error fault)
      (left : ofLine line = .error fault.toProblem)
      (logged : lineLog line = [⟨.warning, .records, Log.invalidFilter line fault⟩])
  | written {record : Record} {wire : Json} (read : Record.ofLine line = .ok record)
      (written : ofLine line = .ok wire) (encodable : Encodable line) (logged : lineLog line = [])
  | unencodable {record : Record} {fault : Text.EncodeFault}
      (read : Record.ofLine line = .ok record) (left : ofLine line = .error fault.toProblem)
      (unencodable : ¬Encodable line)
      (logged : lineLog line = [Log.skipped .records line fault.toProblem])

theorem taken (line : Text) : Taken line := by
  cases read : Record.ofLine line with
  | error fault =>
      have left : ofLine line = .error fault.toProblem := by rw [ofLine, read]
      exact .unread read left (by rw [lineLog, left, ← Log.skipped_toProblem])
  | ok record =>
      have comes : ofLine line = record.toWire?.mapError Text.EncodeFault.toProblem := by
        rw [ofLine, read]
      have encodable := exists_toWire?_iff read
      cases written : record.toWire? with
      | ok wire =>
          rw [written] at comes encodable
          exact .written read comes (encodable.mp ⟨wire, rfl⟩) (by rw [lineLog, comes]; rfl)
      | error fault =>
          rw [written] at comes encodable
          exact .unencodable read comes (mt encodable.mpr (by simp)) (by rw [lineLog, comes]; rfl)

theorem proper_lineLog (line : Text) : Log.Proper .records line (lineLog line) := by
  cases taken line with
  | unread read _ logged => exact logged ▸ .unread read
  | written read _ _ logged => exact logged ▸ .read read (List.forall_mem_nil _)
  | unencodable read _ _ logged => exact logged ▸ .read read (List.forall_mem_singleton.mpr rfl)

/-- Only a surrogate that is in the way of a record is an error. -/
theorem level_ne_error_lineLog_iff (line : Text) :
    (∀ entry ∈ lineLog line, entry.level ≠ .error) ↔ Encodable line := by
  cases taken line with
  | unread read _ logged =>
      rw [logged, List.forall_mem_singleton]
      refine iff_of_true Log.Level.noConfusion fun f read' => ?_
      rw [read] at read'
      cases read'
  | written _ _ encodable logged =>
      rw [logged]
      exact iff_of_true (List.forall_mem_nil _) encodable
  | unencodable _ _ unencodable logged =>
      rw [logged, List.forall_mem_singleton]
      exact iff_of_false (fun calm => calm rfl) unencodable

/-- A line has a record, or it cannot be read, or an error is logged on it. -/
theorem length_items_add (text : Text) :
    (items text).length + text.lines.countP Check.isUnreadable +
      (textLog text).countP (·.level == .error) = text.lines.length := by
  rw [items, textLog]
  induction text.lines with
  | nil => rfl
  | cons line rest ih =>
      rw [List.flatMap_cons, List.countP_append, List.length_cons, ← ih]
      cases taken line with
      | unread read left logged =>
          have unreadable : Check.isUnreadable line = true := by rw [Check.isUnreadable, read]; rfl
          have errors : (lineLog line).countP (·.level == .error) = 0 := by rw [logged]; rfl
          rw [List.filterMap_cons_none (by rw [left]; rfl), List.countP_cons_of_pos unreadable,
            errors]
          omega
      | written read written _ logged =>
          have readable : ¬Check.isUnreadable line = true := by
            rw [Check.isUnreadable, read]
            exact Bool.false_ne_true
          have errors : (lineLog line).countP (·.level == .error) = 0 := by rw [logged]; rfl
          rw [List.filterMap_cons_some (by rw [written]; rfl), List.countP_cons_of_neg readable,
            errors, List.length_cons]
          omega
      | unencodable read left _ logged =>
          have readable : ¬Check.isUnreadable line = true := by
            rw [Check.isUnreadable, read]
            exact Bool.false_ne_true
          have errors : (lineLog line).countP (·.level == .error) = 1 := by rw [logged]; rfl
          rw [List.filterMap_cons_none (by rw [left]; rfl), List.countP_cons_of_neg readable,
            errors]
          omega

end Wire

/-- The stretches that an entry marks. -/
def ModifierMark.spans (mark : ModifierMark) : List Span :=
  mark.name :: mark.value.toList

/-- All the stretches that are marked. -/
def Markers.spans (m : Markers) : List Span :=
  m.pattern :: m.modifiers.flatMap ModifierMark.spans

namespace ModifierMark

variable {line : Text} {modifier : Modifier} {mark : ModifierMark}

theorem Fits.spans (fits : mark.Fits line modifier) :
    ∀ span ∈ mark.spans, ∃ part, span.Cuts line part := by
  rw [ModifierMark.spans, List.forall_mem_cons]
  refine ⟨⟨_, fits.name⟩, ?_⟩
  have behind := fits.value
  cases isValue : mark.value with
  | none => exact List.forall_mem_nil _
  | some span =>
      rw [isValue] at behind
      cases hasValue : modifier.value with
      | none =>
          rw [hasValue] at behind
          exact behind.elim
      | some value =>
          rw [hasValue] at behind
          exact List.forall_mem_singleton.mpr ⟨value, behind.2.2⟩

theorem spans_of_fits {modifiers : List Modifier} {marks : List ModifierMark}
    (fits : List.Forall₂ (Fits line) modifiers marks) :
    ∀ span ∈ marks.flatMap spans, ∃ part, span.Cuts line part := by
  induction fits with
  | nil => exact List.forall_mem_nil _
  | cons fits _ ih =>
      rw [List.flatMap_cons, List.forall_mem_append]
      exact ⟨fits.spans, ih⟩

end ModifierMark

theorem NetworkFilter.Tiles.spans {f : NetworkFilter} (tiles : f.Tiles) :
    ∀ span ∈ f.markers.spans, ∃ part, span.Cuts f.line part := by
  rw [Markers.spans, List.forall_mem_cons]
  exact ⟨⟨_, tiles.pattern⟩, ModifierMark.spans_of_fits tiles.fits⟩

/-- The three passes warn of the same lines of a text without a CR in the same words, and a check
    and a compilation to hosts count those lines as errors. All the other lines have wire records
    exactly if no surrogate is in the way of one. Nothing else goes wrong with any text: unless a
    surrogate is in the way of a record no entry of a log is an error, a pass over hosts that catches
    whatever goes wrong does the same as one that does not, no search for a hostname misses a place,
    and no mark leaves its line. -/
theorem passes_agree_iff (strict : Bool) (text : Text) :
    (∃ c items, Check.ofText false text = .ok c ∧
      Json.read? (Wire.compile text) = some (.list items) ∧
      (.char '\r' ∉ text →
        (Hosts.ofText strict text).errors = c.errors ∧
        (items.length + c.errors = text.lines.length ↔
          ∀ line ∈ text.lines, Wire.Encodable line) ∧
        Log.invalidFilters c.log.toList = text.lines.flatMap Log.warnings ∧
        Log.invalidFilters (Hosts.compile strict text).2 = text.lines.flatMap Log.warnings ∧
        Log.invalidFilters (Wire.textLog text) = text.lines.flatMap Log.warnings) ∧
      (∀ entry ∈ c.log.toList ++ (Hosts.compile strict text).2, entry.level ≠ .error) ∧
      ((∀ entry ∈ Wire.textLog text, entry.level ≠ .error) ↔
        ∀ line ∈ text.lines, Wire.Encodable line)) ∧
    Hosts.empty.feedAllByPlaces strict text.lines =
      (Hosts.ofText strict text, text.lines.flatMap (Hosts.lineLog strict)) ∧
    ∀ line f, Record.ofLine line = .ok (.network f) →
      f.hostnameByPlaces = .ok f.hostname? ∧ f.pathHostnameByPlaces = .ok f.pathHostname? ∧
      ((∃ wire, (Record.network f).toWire? = .ok wire) ↔ ∀ c ∈ line, c.isSurrogate = false) ∧
      ∀ span ∈ f.markers.spans, ∃ part, span.Cuts line part := by
  have comes := Check.comesTo_foldl_absorb (text.splitOn (.char '\n'))
  have calm : (∀ entry ∈ Wire.textLog text, entry.level ≠ .error) ↔
      ∀ line ∈ text.lines, Wire.Encodable line := by
    rw [Wire.textLog, List.forall_mem_flatMap]
    exact forall₂_congr fun line _ => Wire.level_ne_error_lineLog_iff line
  refine ⟨⟨_, _, Check.ofText_false text, Json.read?_write _, ?_, ?_, calm⟩,
    Hosts.feedAllByPlaces_eq strict Hosts.empty text.lines, ?_⟩
  · intro plain
    have lines : text.lines = text.splitOn (.char '\n') := Text.lines_of_no_cr plain
    rw [comes.errors, comes.log, ← lines]
    refine ⟨Hosts.errors_ofText strict text, ?_,
      Log.invalidFilters_flatMap Check.proper_reports text.lines,
      Hosts.invalidFilters_compile strict text,
      Log.invalidFilters_flatMap Wire.proper_lineLog text.lines⟩
    rw [← calm, ← Wire.length_items_add text, Nat.left_eq_add, List.countP_eq_zero]
    simp
  · rw [comes.log, List.forall_mem_append, List.forall_mem_flatMap]
    exact ⟨fun line _ => Check.level_ne_error_of_mem_reports line,
      Hosts.level_ne_error_of_mem_compile strict text⟩
  · intro line f read
    have kept : f.line = line := Record.line_of_ofLine read
    have tiles := Record.tiles_of_ofLine read
    rw [← kept]
    exact ⟨f.hostnameByPlaces_eq, f.pathHostnameByPlaces_eq,
      Record.exists_toWire?_of_network tiles, tiles.spans⟩

/-- Two lines cannot be read, between others of every kind, one of them with a hostname in front of
    a path. -/
theorem passes_agree_marred :
    let text := "a#b\n||a.b^$3p\n\n@@||c.d/e\n f##g \n#x".toText
    let warnings := [
      "Invalid filter: line=\"a#b\" e=\"FilterSyntaxError: Expected \"#\" or \"@\" for ".toText ++
        "cosmetic filter marker but saw \"b\" at position \"2\"!\"".toText,
      "Invalid filter: line=\"#x\" e=\"FilterSyntaxError: Expected \"#\" or \"@\" for ".toText ++
        "cosmetic filter marker but saw \"x\" at position \"1\"!\"".toText]
    (∃ c items, Check.ofText false text = .ok c ∧ c.errors = 2 ∧
      Json.read? (Wire.compile text) = some (.list items) ∧ items.length = 4 ∧
      (Hosts.ofText false text).errors = 2 ∧
      Log.invalidFilters c.log.toList = warnings ∧
      Log.invalidFilters (Hosts.compile false text).2 = warnings ∧
      Log.invalidFilters (Wire.textLog text) = warnings) ∧
    ∃ f, Record.ofLine "@@||c.d/e".toText = .ok (.network f) ∧
      f.pathHostnameByPlaces = .ok (some "c.d".toText) := by
  intro text warnings
  obtain ⟨⟨c, items, checked, reads, agree, -, -⟩, -, searches⟩ := passes_agree_iff false text
  constructor
  · obtain ⟨errors, count, warned, warned', warned''⟩ := agree (by decide)
    have twoWarnings : (Text.lines text).flatMap Log.warnings = warnings := by decide +kernel
    rw [twoWarnings] at warned warned' warned''
    have two : (Check.ofText false text).map (·.errors) = .ok 2 := by decide +kernel
    have six : (Text.lines text).length = 6 := by decide +kernel
    rw [checked] at two
    have marred : c.errors = 2 := Except.ok.inj two
    have plain : ∀ line ∈ Text.lines text, ∀ c ∈ line, c.isSurrogate = false := by
      decide +kernel
    have whole := count.mpr fun line isThere _ _ => plain line isThere
    exact ⟨c, items, checked, marred, reads, by omega, errors.trans marred, warned, warned',
      warned''⟩
  · have read : Record.ofLine "@@||c.d/e".toText =
        .ok (.network (NetworkLine.ofLine "@@||c.d/e".toText).toFilter) := rfl
    obtain ⟨-, path, -⟩ := searches _ _ read
    refine ⟨_, read, path.trans ?_⟩
    decide +kernel

/-- A network filter with a surrogate in it. All passes can read it, but it has no wire record, and
    that is logged as an error. -/
theorem passes_differ_at_surrogate :
    let text := "||a".toText ++ .surrogate 0 :: ".com^".toText
    .char '\r' ∉ text ∧ text.lines = [text] ∧
      (Check.ofText false text).map (·.errors) = .ok 0 ∧ (Hosts.ofText false text).errors = 0 ∧
      Json.read? (Wire.compile text) = some (.list []) ∧
      Wire.textLog text = [⟨.error, .records,
        "Unknown error: line=\"||a".toText ++ .surrogate 0 ::
          (".com^\" e=\"UnicodeEncodeError: 'utf-16-le' codec can't encode character ".toText ++
            "'\\ud800' in position 1: surrogates not allowed\"".toText)⟩] := by
  intro text
  have nothing : Wire.items text = [] := List.length_eq_zero_iff.mp (by decide +kernel)
  have reads := Wire.read?_compile text
  rw [nothing] at reads
  exact ⟨by decide +kernel, by decide +kernel, by decide +kernel, by decide +kernel, reads,
    by decide +kernel⟩

end Blocklist
