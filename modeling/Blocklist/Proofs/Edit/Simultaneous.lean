import Blocklist.Proofs.Edit.Weave

/-! # Making edits in turn

Edits are made one after the other, each after it has been moved to where its place has come to be.
The result is the one of making them all at once on the line as it was first, provided that the
insertions come in the order of their places and no deletion goes over the place of an insertion.
-/

namespace Blocklist.Edit

/-- Edits of a line of `length` characters that can be made at once. -/
structure Compatible (length : Nat) (edits : List Edit) : Prop where
  inRange : ∀ e ∈ edits, e.InRange length
  inOrder : edits.Pairwise InOrder
  apart : ∀ d ∈ edits, ∀ i ∈ edits, ¬d.Encloses i

section Steps

variable {rule a b c text : Text} {rest : List Edit}

theorem applyTo_delete (rule a b c : Text) (some : b ≠ []) :
    (delete rule a.length b.length).applyTo (a ++ (b ++ c)) = a ++ c := by
  have positive : ¬(b.length : Int) ≤ 0 := by
    have := List.length_pos_iff.mpr some
    omega
  have front : Text.before (a ++ (b ++ c)) (a.length : Int) = a := by
    rw [Text.before_natCast (by simp), List.take_left]
  have back : Text.after (a ++ (b ++ c)) (a.length + b.length : Int) = c := by
    rw [← Int.natCast_add, Text.after_natCast (by simp), ← List.append_assoc,
      ← List.length_append, List.drop_left]
  rw [applyTo, if_neg positive, front, back]

theorem applyTo_insert (rule a text c : Text) :
    (insert rule a.length text).applyTo (a ++ c) = a ++ text ++ c := by
  rw [applyTo, Text.before_natCast (by simp), Text.after_natCast (by simp), List.take_left,
    List.drop_left]

section Deletion

theorem weaveBefore_rebase_delete (some : b ≠ []) :
    weaveBefore (delete rule a.length b.length :: rest) 0 a =
      weaveBefore (rest.map (delete rule a.length b.length).rebase) 0 a := by
  have positive : (0 : Int) < b.length := Int.natCast_pos.mpr (List.length_pos_iff.mpr some)
  apply weaveBefore_congr
  · intro i hi
    have before : ((0 + i : Nat) : Int) < a.length := by omega
    rw [inserted_map_congr fun e _ => insertedAt_rebase_delete_of_lt positive before e]
    rfl
  · intro i hi
    exact exists_covers_delete_of_lt positive (by omega)

theorem weaveAfter_delete_self (some : b ≠ [])
    (apart : ∀ i ∈ rest, ¬(delete rule a.length b.length).Encloses i) :
    weaveAfter (delete rule a.length b.length :: rest) a.length b =
      inserted rest (a.length + b.length) := by
  apply weaveAfter_eq_inserted some
  · intro i hi
    rw [inserted_cons, insertedAt, List.nil_append, inserted, List.flatMap_eq_nil_iff]
    intro e isThere
    cases e with
    | delete => rfl
    | insert rule' gap text =>
        have outside := apart _ isThere
        simp only [Encloses, not_and] at outside
        exact if_neg (by omega)
  · intro i hi
    exact ⟨_, List.mem_cons_self, by simp only [Covers]; omega⟩

theorem weaveAfter_rebase_delete (some : b ≠ []) :
    weaveAfter (delete rule a.length b.length :: rest) (a.length + b.length) c =
      weaveAfter (rest.map (delete rule a.length b.length).rebase) a.length c := by
  have positive : (0 : Int) < b.length := Int.natCast_pos.mpr (List.length_pos_iff.mpr some)
  apply weaveAfter_congr
  · intro i hi
    have behind : (a.length : Int) < (a.length + i + 1 : Nat) := by omega
    rw [inserted_map_congr fun e _ => insertedAt_rebase_delete_of_gt positive behind e]
    simp only [inserted_cons, insertedAt, List.nil_append, Int.toNat_natCast]
    congr 1
    omega
  · intro i hi
    have behind : (a.length : Int) ≤ (a.length + i : Nat) := by omega
    have shift : a.length + b.length + i = a.length + i + (b.length : Int).toNat := by omega
    rw [shift]
    exact exists_covers_delete_of_le positive behind

theorem simultaneous_delete_cons (some : b ≠ [])
    (compatible : Compatible (a ++ (b ++ c)).length (delete rule a.length b.length :: rest)) :
    simultaneous (a ++ (b ++ c)) (delete rule a.length b.length :: rest) =
      simultaneous (a ++ c) (rest.map (delete rule a.length b.length).rebase) := by
  have positive : (0 : Int) < b.length := Int.natCast_pos.mpr (List.length_pos_iff.mpr some)
  have apart : ∀ i ∈ rest, ¬(delete rule a.length b.length).Encloses i := fun i isThere =>
    compatible.apart _ List.mem_cons_self i (List.mem_cons_of_mem _ isThere)
  -- The gaps at the two ends of the stretch become one.
  have gap := inserted_rebase_delete_self positive rfl
    (List.pairwise_cons.mp compatible.inOrder).2 apart
  rw [simultaneous_append, simultaneous_append, weaveAfter_append, weaveBefore_rebase_delete some,
    weaveAfter_delete_self some apart, weaveAfter_rebase_delete some, gap, inserted_cons]
  simp only [insertedAt, List.nil_append, Int.toNat_natCast, List.append_assoc]

end Deletion

section Insertion

theorem weaveBefore_rebase_insert :
    weaveBefore (insert rule a.length text :: rest) 0 a =
      weaveBefore (rest.map (insert rule a.length text).rebase) 0 a := by
  apply weaveBefore_congr
  · intro i hi
    have before : ((0 + i : Nat) : Int) < a.length := by omega
    rw [inserted_map_congr fun e _ => insertedAt_rebase_insert_of_lt before e, inserted_cons,
      insertedAt, if_neg (by omega), List.nil_append]
  · intro i hi
    exact exists_covers_insert_of_lt (by omega)

/-- No later edit has an effect on a text that was put in. -/
theorem weaveBefore_insert_self (apart : ∀ d ∈ rest, ¬d.Encloses (insert rule a.length text)) :
    weaveBefore (rest.map (insert rule a.length text).rebase) a.length text = text := by
  apply weaveBefore_eq_self
  · intro i hi
    simp only [inserted, List.flatMap_map, List.flatMap_eq_nil_iff]
    intro e _
    exact insertedAt_rebase_insert_of_mem (by omega) (by omega) e
  · intro i hi
    simp only [List.mem_map, exists_exists_and_eq_and, not_exists, not_and]
    intro e isThere
    exact not_covers_rebase_insert (by omega) (by omega) (apart e isThere)

theorem weaveAfter_rebase_insert :
    weaveAfter (insert rule a.length text :: rest) a.length c =
      weaveAfter (rest.map (insert rule a.length text).rebase) (a.length + text.length) c := by
  apply weaveAfter_congr
  · intro i hi
    have behind : (a.length : Int) ≤ (a.length + i + 1 : Nat) := by omega
    have shift : a.length + text.length + i + 1 = a.length + i + 1 + text.length := by omega
    rw [shift, inserted_map_congr fun e _ => insertedAt_rebase_insert_of_le behind e,
      inserted_cons, insertedAt, if_neg (by omega), List.nil_append]
  · intro i hi
    have behind : (a.length : Int) ≤ (a.length + i : Nat) := by omega
    have shift : a.length + text.length + i = a.length + i + text.length := by omega
    rw [shift]
    exact exists_covers_insert_of_le behind

theorem simultaneous_insert_cons
    (compatible : Compatible (a ++ c).length (insert rule a.length text :: rest)) :
    simultaneous (a ++ c) (insert rule a.length text :: rest) =
      simultaneous (a ++ text ++ c) (rest.map (insert rule a.length text).rebase) := by
  have apart : ∀ d ∈ rest, ¬d.Encloses (insert rule a.length text) := fun d isThere =>
    compatible.apart d (List.mem_cons_of_mem _ isThere) _ List.mem_cons_self
  -- Later texts for the same gap go behind the one that was put in.
  have gap : inserted (rest.map (insert rule a.length text).rebase) (a.length + text.length) =
      inserted rest a.length :=
    inserted_map_congr fun e _ => insertedAt_rebase_insert_of_le (Int.le_refl _) e
  rw [simultaneous_append, simultaneous_append, weaveBefore_append, Nat.zero_add,
    weaveBefore_rebase_insert, weaveBefore_insert_self apart, List.length_append,
    weaveAfter_rebase_insert, gap, inserted_cons]
  simp only [insertedAt, if_true, List.append_assoc]

end Insertion

end Steps

theorem simultaneous_delete_nothing (line rule : Text) (start : Int) (rest : List Edit) :
    simultaneous line (delete rule start 0 :: rest) = simultaneous line rest := by
  have nothing (gap : Nat) : ¬(delete rule start 0).Covers gap := by
    simp only [Covers]
    omega
  simp only [simultaneous, inserted_cons, insertedAt, List.nil_append, List.mem_cons,
    exists_eq_or_imp, nothing, false_or]

theorem rebase_delete_nothing (rule : Text) (start : Int) (rest : List Edit) :
    rest.map (delete rule start 0).rebase = rest := by
  conv_rhs => rw [← List.map_id rest]
  apply List.map_congr_left
  intro e _
  cases e <;> rfl

theorem exists_stretch {line : Text} {start count : Int} (from_zero : 0 ≤ start)
    (some : 0 ≤ count) (fits : start + count ≤ line.length) :
    ∃ a b c : Text, line = a ++ (b ++ c) ∧ start = a.length ∧ count = b.length := by
  refine ⟨line.take start.toNat, (line.drop start.toNat).take count.toNat,
    (line.drop start.toNat).drop count.toNat, ?_, ?_, ?_⟩
  · rw [List.take_append_drop, List.take_append_drop]
  · rw [List.length_take]
    omega
  · rw [List.length_take, List.length_drop]
    omega

theorem exists_gap {line : Text} {start : Int} (from_zero : 0 ≤ start)
    (fits : start ≤ line.length) : ∃ a c : Text, line = a ++ c ∧ start = a.length := by
  refine ⟨line.take start.toNat, line.drop start.toNat, (List.take_append_drop _ _).symm, ?_⟩
  rw [List.length_take]
  omega

/-- One edit made and the others moved is all of them at once on what the line was before. -/
theorem simultaneous_cons {line : Text} {edit : Edit} {rest : List Edit}
    (compatible : Compatible line.length (edit :: rest)) :
    simultaneous line (edit :: rest) = simultaneous (edit.applyTo line) (rest.map edit.rebase) := by
  have inRange := compatible.inRange edit List.mem_cons_self
  cases edit with
  | delete rule start count =>
      simp only [InRange] at inRange
      obtain ⟨a, b, c, rfl, rfl, rfl⟩ := exists_stretch inRange.1 inRange.2.1 inRange.2.2
      by_cases nothing : b = []
      · subst nothing
        rw [List.length_nil, Int.natCast_zero, simultaneous_delete_nothing, rebase_delete_nothing]
        rfl
      · rw [applyTo_delete _ _ _ _ nothing, simultaneous_delete_cons nothing compatible]
  | insert rule start text =>
      simp only [InRange] at inRange
      obtain ⟨a, c, rfl, rfl⟩ := exists_gap inRange.1 inRange.2
      rw [applyTo_insert, simultaneous_insert_cons compatible]

theorem length_applyTo_delete {line rule : Text} {start count : Int}
    (inRange : (delete rule start count).InRange line.length) :
    ((delete rule start count).applyTo line).length = line.length - count.toNat := by
  simp only [InRange] at inRange
  obtain ⟨a, b, c, rfl, rfl, rfl⟩ := exists_stretch inRange.1 inRange.2.1 inRange.2.2
  by_cases nothing : b = []
  · simp [nothing, applyTo]
  · rw [applyTo_delete _ _ _ _ nothing]
    simp only [List.length_append, Int.toNat_natCast]
    omega

theorem length_applyTo_insert {line rule text : Text} {start : Int}
    (inRange : (insert rule start text).InRange line.length) :
    ((insert rule start text).applyTo line).length = line.length + text.length := by
  simp only [InRange] at inRange
  obtain ⟨a, c, rfl, rfl⟩ := exists_gap inRange.1 inRange.2
  rw [applyTo_insert]
  simp only [List.length_append]
  omega

section Moving

variable {line : Text} {edit : Edit} {rest : List Edit}

theorem inRange_rebase {e : Edit} (fits : edit.InRange line.length)
    (inRange : e.InRange line.length) : (edit.rebase e).InRange (edit.applyTo line).length := by
  cases edit with
  | delete rule start count =>
      rw [length_applyTo_delete fits]
      exact inRange_rebase_delete fits inRange
  | insert rule start text =>
      rw [length_applyTo_insert fits]
      exact inRange_rebase_insert inRange

theorem inRange_cons (inRange : ∀ e ∈ edit :: rest, e.InRange line.length) :
    ∀ e ∈ rest.map edit.rebase, e.InRange (edit.applyTo line).length := by
  obtain ⟨fits, others⟩ := List.forall_mem_cons.mp inRange
  exact List.forall_mem_map.mpr fun e isThere => inRange_rebase fits (others e isThere)

theorem inOrder_rebase (edit : Edit) {e f : Edit} (inOrder : e.InOrder f) :
    (edit.rebase e).InOrder (edit.rebase f) := by
  cases edit with
  | delete => exact inOrder_rebase_delete inOrder
  | insert => exact inOrder_rebase_insert inOrder

theorem Compatible.cons (compatible : Compatible line.length (edit :: rest)) :
    Compatible (edit.applyTo line).length (rest.map edit.rebase) where
  inRange := inRange_cons compatible.inRange
  inOrder := (List.pairwise_cons.mp compatible.inOrder).2.map _ fun _ _ => inOrder_rebase edit
  apart := by
    intro d' dMoved i' iMoved
    obtain ⟨d, dThere, rfl⟩ := List.mem_map.mp dMoved
    obtain ⟨i, iThere, rfl⟩ := List.mem_map.mp iMoved
    have dLater := List.mem_cons_of_mem edit dThere
    have apart := compatible.apart d dLater i (List.mem_cons_of_mem _ iThere)
    cases edit with
    | delete => exact not_encloses_rebase_delete (compatible.inRange d dLater) apart
    | insert =>
        exact not_encloses_rebase_insert apart (compatible.apart d dLater _ List.mem_cons_self)
          ((List.pairwise_cons.mp compatible.inOrder).1 i iThere)

end Moving

/-- Compatible edits made one after the other are made at once. -/
theorem applyAll_eq_simultaneous {line : Text} {edits : List Edit}
    (compatible : Compatible line.length edits) :
    applyAll line edits = simultaneous line edits := by
  induction line, edits using applyAll_induction with
  | nil line =>
      rw [applyAll_nil, simultaneous_eq_weaveBefore,
        weaveBefore_eq_self (by simp [inserted]) (by simp)]
      simp [inserted]
  | cons line edit rest ih =>
      rw [applyAll_cons, simultaneous_cons compatible]
      exact ih compatible.cons

theorem insertedAt_of_isDeletion {e : Edit} (deletion : e.IsDeletion) (gap : Nat) :
    insertedAt gap e = [] := by
  cases e with
  | delete => rfl
  | insert => exact absurd deletion id

theorem compatible_of_isDeletion {length : Nat} {edits : List Edit}
    (inRange : ∀ e ∈ edits, e.InRange length) (deletions : ∀ e ∈ edits, e.IsDeletion) :
    Compatible length edits where
  inRange := inRange
  inOrder := by
    refine List.pairwise_of_forall_mem_list fun e isThere f _ => ?_
    cases e with
    | delete => trivial
    | insert => exact absurd (deletions _ isThere) id
  apart := by
    intro d _ i isThere
    cases i with
    | insert => exact absurd (deletions _ isThere) id
    | delete => cases d <;> exact id

theorem Compatible.deletions_append {length : Nat} {deletions edits : List Edit}
    (inRange : ∀ e ∈ deletions, e.InRange length) (isDeletion : ∀ e ∈ deletions, e.IsDeletion)
    (compatible : Compatible length edits)
    (apart : ∀ d ∈ deletions, ∀ i ∈ edits, ¬d.Encloses i) :
    Compatible length (deletions ++ edits) where
  inRange := by
    intro e isThere
    exact (List.mem_append.mp isThere).elim (inRange e) (compatible.inRange e)
  inOrder := by
    have alone := compatible_of_isDeletion inRange isDeletion
    refine List.pairwise_append.mpr ⟨alone.inOrder, compatible.inOrder, ?_⟩
    intro e isThere _ _
    cases e with
    | delete => trivial
    | insert => exact absurd (isDeletion _ isThere) id
  apart := by
    intro d dThere i iThere
    rcases List.mem_append.mp iThere with before | behind
    · cases i with
      | delete => cases d <;> exact id
      | insert => exact absurd (isDeletion _ before) id
    · rcases List.mem_append.mp dThere with before | behind'
      · exact apart d before i behind
      · exact compatible.apart d behind' i behind

theorem simultaneous_of_isDeletion {line : Text} {edits : List Edit}
    (deletions : ∀ e ∈ edits, e.IsDeletion) : simultaneous line edits = surviving line edits := by
  have nothing (gap : Nat) : inserted edits gap = [] := by
    rw [inserted, List.flatMap_eq_nil_iff]
    exact fun e isThere => insertedAt_of_isDeletion (deletions e isThere) gap
  rw [simultaneous_eq_weaveBefore, weaveBefore_eq_survivingFrom fun i _ => nothing _, nothing,
    List.append_nil]
  rfl

/-- Edits within the line that are made in turn are made at once, when the insertions come in the
    order of their places and none is made inside a deletion. In particular, deletions in any order
    and with any overlaps take out what they cover together. -/
theorem made_in_turn_eq_made_at_once {line : Text} {edits : List Edit}
    (inRange : ∀ e ∈ edits, e.InRange line.length) :
    (edits.Pairwise InOrder → (∀ d ∈ edits, ∀ i ∈ edits, ¬d.Encloses i) →
      applyAll line edits = simultaneous line edits) ∧
    ((∀ e ∈ edits, e.IsDeletion) → applyAll line edits = surviving line edits) := by
  constructor
  · intro inOrder apart
    exact applyAll_eq_simultaneous ⟨inRange, inOrder, apart⟩
  · intro deletions
    rw [applyAll_eq_simultaneous (compatible_of_isDeletion inRange deletions),
      simultaneous_of_isDeletion deletions]

/-- Overlapping deletions with texts put in at both of their ends, and the same deletions alone in
    another order. -/
theorem made_in_turn_overlapping :
    applyAll "abcdef".toText
        [.delete [] 3 2, .insert [] 1 [.char 'x'], .delete [] 1 3, .insert [] 5 [.char 'y'],
          .insert [] 5 [.char 'z']] = "axyzf".toText ∧
      applyAll "abcdef".toText [.delete [] 1 3, .delete [] 3 2, .delete [] 2 1, .delete [] 6 0] =
        "af".toText := by
  constructor
  · refine ((made_in_turn_eq_made_at_once ?_).1 ?_ ?_).trans ?_ <;> decide
  · refine ((made_in_turn_eq_made_at_once ?_).2 ?_).trans ?_ <;> decide

end Blocklist.Edit
