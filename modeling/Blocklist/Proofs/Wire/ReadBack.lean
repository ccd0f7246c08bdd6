import Blocklist.Proofs.Json.RoundTrip
import Blocklist.Proofs.Wire.Marks

/-! # Reading back a list

A list is written as one line of JSON, from which a reader gets the wire forms of its records. There
is one for each line that can be read, except where a surrogate is in the way of the marks of a
network filter: such a line is left out although it can be read.
-/

namespace Blocklist

namespace Wire

/-- The records of the lines that can be read, in their order. -/
def records (text : Text) : List Record :=
  text.lines.filterMap fun line => (Record.ofLine line).toOption

/-- No surrogate is in the way of the record of a line: only a network filter has marks that would
    have to be told in code units. -/
def Encodable (line : Text) : Prop :=
  ∀ f, Record.ofLine line = .ok (.network f) → ∀ c ∈ line, c.isSurrogate = false

variable {line text : Text} {record : Record}

theorem toOption_ofLine_eq_some_iff :
    (Record.ofLine line).toOption = some record ↔ Record.ofLine line = .ok record := by
  cases Record.ofLine line <;> simp [Except.toOption]

theorem exists_toWire?_iff (read : Record.ofLine line = .ok record) :
    (∃ wire, record.toWire? = .ok wire) ↔ Encodable line := by
  cases record with
  | other | cosmetic =>
      refine iff_of_true ⟨_, rfl⟩ fun f read' => ?_
      rw [read] at read'
      cases read'
  | network f =>
      have kept : f.line = line := Record.line_of_ofLine read
      rw [Record.exists_toWire?_of_network (Record.tiles_of_ofLine read), kept]
      exact ⟨fun plain _ _ => plain, fun encodable => encodable f read⟩

theorem forall_mem_records_iff :
    (∀ record ∈ records text, ∃ wire, record.toWire? = .ok wire) ↔
      ∀ line ∈ text.lines, Encodable line := by
  simp only [records, List.mem_filterMap, toOption_ofLine_eq_some_iff]
  constructor
  · intro written line isThere f read
    exact (exists_toWire?_iff read).mp (written _ ⟨line, isThere, read⟩) f read
  · rintro encodable record ⟨line, isThere, read⟩
    exact (exists_toWire?_iff read).mpr (encodable line isThere)

/-- What is left out of a list are the lines that have no record and those whose record has no wire
    form. -/
theorem items_eq (text : Text) :
    items text = (records text).filterMap fun record => record.toWire?.toOption := by
  rw [items, records, List.filterMap_filterMap]
  congr 1
  funext line
  rw [ofLine]
  cases Record.ofLine line with
  | error fault => rfl
  | ok record =>
      change (record.toWire?.mapError _).toOption = record.toWire?.toOption
      cases record.toWire? <;> rfl

theorem read?_compile (text : Text) : Json.read? (compile text) = some (.list (items text)) :=
  Json.read?_write _

/-- The wire forms of all records of a list are read back, in their order and with all that is in
    them, exactly if no surrogate is in the way of one. In any case those that there are are read
    back, and what is written is one line. -/
theorem compile_reads_back_iff (text : Text) :
    ((∃ wires, (records text).mapM Record.toWire? = .ok wires ∧
        Json.read? (compile text) = some (.list wires)) ↔
      ∀ line ∈ text.lines, Encodable line) ∧
    Json.read? (compile text) =
      some (.list ((records text).filterMap fun record => record.toWire?.toOption)) ∧
    ∀ c ∈ compile text, 0x20 ≤ c.toNat := by
  have reads := read?_compile text
  rw [items_eq] at reads
  refine ⟨?_, reads, Json.le_of_mem_write _⟩
  rw [← forall_mem_records_iff, ← exists_mapM_iff]
  constructor
  · rintro ⟨wires, written, -⟩
    exact ⟨wires, written⟩
  · rintro ⟨wires, written⟩
    rw [filterMap_of_mapM written] at reads
    exact ⟨wires, written, reads⟩

/-- A network filter with a surrogate in it. It is read, but left out of what is written. -/
theorem compile_drops_surrogate :
    let text := "||a".toText ++ .surrogate 0 :: ".com^".toText
    records text = [.network (NetworkLine.ofLine text).toFilter] ∧
      (¬∃ wires, (records text).mapM Record.toWire? = .ok wires ∧
        Json.read? (compile text) = some (.list wires)) ∧
      Json.read? (compile text) = some (.list []) := by
  intro text
  have read : records text = [.network (NetworkLine.ofLine text).toFilter] := by decide +kernel
  have nothing : items text = [] := List.length_eq_zero_iff.mp (by decide +kernel)
  have reads := read?_compile text
  rw [nothing] at reads
  refine ⟨read, ?_, reads⟩
  rintro ⟨wires, written, reads'⟩
  rw [reads] at reads'
  cases reads'
  rw [read, mapM_eq_ok_iff] at written
  cases written

end Wire

end Blocklist
