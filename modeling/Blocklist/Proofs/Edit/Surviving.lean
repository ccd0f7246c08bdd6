import Blocklist.Proofs.Edit.Simultaneous

/-! # What survives edits in any order

Edits may come in any order, and a text may be put in where a deletion is still to be made. How much
of that text stays depends on the order then, but the line itself loses the same characters in every
order: the ones that some deletion covers. A deletion that has grown around a text that was put in,
or that has lost what it had in common with another one, still takes no other character of the line.
-/

namespace Blocklist.Edit

section Stretches

variable {edits edits' : List Edit} {start start' : Nat} {s : Text}

theorem survivingFrom_append (edits : List Edit) (start : Nat) (s t : Text) :
    survivingFrom edits start (s ++ t) =
      survivingFrom edits start s ++ survivingFrom edits (start + s.length) t := by
  simp only [survivingFrom, List.zipIdx_append, List.filter_append, List.map_append]

theorem survivingFrom_congr
    (covers : ∀ i < s.length,
      (∃ e ∈ edits, e.Covers (start + i)) ↔ ∃ e ∈ edits', e.Covers (start' + i)) :
    survivingFrom edits start s = survivingFrom edits' start' s := by
  induction s generalizing start start' with
  | nil => rfl
  | cons c rest ih =>
      have first : kept edits start c = kept edits' start' c := kept_congr (covers 0 (by simp)) c
      rw [survivingFrom_cons, survivingFrom_cons, first]
      congr 1
      apply ih
      intro i hi
      simpa only [Nat.add_assoc, Nat.add_comm 1] using covers (i + 1) (by simpa using hi)

theorem survivingFrom_sublist (edits : List Edit) (start : Nat) (s : Text) :
    (survivingFrom edits start s).Sublist s := by
  have fewer : (survivingFrom edits start s).Sublist ((s.zipIdx start).map Prod.fst) :=
    List.filter_sublist.map Prod.fst
  rwa [List.zipIdx_map_fst] at fewer

theorem survivingFrom_eq_nil (covers : ∀ i < s.length, ∃ e ∈ edits, e.Covers (start + i)) :
    survivingFrom edits start s = [] := by
  induction s generalizing start with
  | nil => rfl
  | cons c rest ih =>
      have first : ∃ e ∈ edits, e.Covers start := covers 0 (by simp)
      rw [survivingFrom_cons, kept, if_pos first, List.nil_append]
      apply ih
      intro i hi
      simpa only [Nat.add_assoc, Nat.add_comm 1] using covers (i + 1) (by simpa using hi)

end Stretches

section Steps

variable {rule a b c text : Text} {rest : List Edit} {original : CodePoint → Bool}

theorem surviving_delete_cons (some : b ≠ []) :
    surviving (a ++ (b ++ c)) (delete rule a.length b.length :: rest) =
      surviving (a ++ c) (rest.map (delete rule a.length b.length).rebase) := by
  have positive : (0 : Int) < b.length := Int.natCast_pos.mpr (List.length_pos_iff.mpr some)
  have front : survivingFrom (delete rule a.length b.length :: rest) 0 a =
      survivingFrom (rest.map (delete rule a.length b.length).rebase) 0 a := by
    apply survivingFrom_congr
    intro i hi
    exact exists_covers_delete_of_lt positive (by omega)
  have middle : survivingFrom (delete rule a.length b.length :: rest) (0 + a.length) b = [] := by
    apply survivingFrom_eq_nil
    intro i hi
    refine ⟨_, List.mem_cons_self, ?_⟩
    simp only [Covers]
    omega
  have back : survivingFrom (delete rule a.length b.length :: rest) (0 + a.length + b.length) c =
      survivingFrom (rest.map (delete rule a.length b.length).rebase) (0 + a.length) c := by
    apply survivingFrom_congr
    intro i hi
    have shift : 0 + a.length + b.length + i = 0 + a.length + i + (b.length : Int).toNat := by
      omega
    rw [shift]
    exact exists_covers_delete_of_le positive (by omega)
  change survivingFrom _ 0 _ = survivingFrom _ 0 _
  rw [survivingFrom_append, survivingFrom_append, survivingFrom_append, front, middle, back,
    List.nil_append]

theorem filter_surviving_insert_cons (foreign : ∀ d ∈ text, original d = false) :
    (surviving (a ++ c) (insert rule a.length text :: rest)).filter original =
      (surviving (a ++ text ++ c) (rest.map (insert rule a.length text).rebase)).filter
        original := by
  have front : survivingFrom (insert rule a.length text :: rest) 0 a =
      survivingFrom (rest.map (insert rule a.length text).rebase) 0 a := by
    apply survivingFrom_congr
    intro i hi
    exact exists_covers_insert_of_lt (by omega)
  have middle : (survivingFrom (rest.map (insert rule a.length text).rebase) (0 + a.length)
      text).filter original = [] := by
    rw [List.filter_eq_nil_iff]
    intro d isThere
    simp [foreign d ((survivingFrom_sublist _ _ _).mem isThere)]
  have back : survivingFrom (insert rule a.length text :: rest) (0 + a.length) c =
      survivingFrom (rest.map (insert rule a.length text).rebase)
        (0 + (a ++ text).length) c := by
    apply survivingFrom_congr
    intro i hi
    have shift : 0 + (a ++ text).length + i = 0 + a.length + i + text.length := by
      rw [List.length_append]
      omega
    rw [shift]
    exact exists_covers_insert_of_le (by omega)
  change (survivingFrom _ 0 _).filter original = (survivingFrom _ 0 _).filter original
  rw [survivingFrom_append, survivingFrom_append, survivingFrom_append, List.filter_append,
    List.filter_append, List.filter_append, front, middle, back, List.append_nil]

theorem surviving_delete_nothing (line rule : Text) (start : Int) (rest : List Edit) :
    surviving line (delete rule start 0 :: rest) = surviving line rest := by
  have nothing (index : Nat) : ¬(delete rule start 0).Covers index := by
    simp only [Covers]
    omega
  simp only [surviving, List.mem_cons, exists_eq_or_imp, nothing, false_or]

end Steps

section Runs

variable {line : Text} {edits edits' : List Edit} {original : CodePoint → Bool}

theorem surviving_nil (line : Text) : surviving line [] = line := by
  simp [surviving]

theorem surviving_sublist (line : Text) (edits : List Edit) : (surviving line edits).Sublist line :=
  survivingFrom_sublist edits 0 line

/-- The order of the edits has no part in what they cover. -/
theorem surviving_congr (same : ∀ e, e ∈ edits ↔ e ∈ edits') :
    surviving line edits = surviving line edits' := by
  simp only [surviving, same]

/-- One edit made and the others moved leaves of the line what it was before. -/
theorem filter_surviving_cons {edit : Edit} {rest : List Edit} (inRange : edit.InRange line.length)
    (foreign : ∀ c, edit.Adds c → original c = false) :
    (surviving line (edit :: rest)).filter original =
      (surviving (edit.applyTo line) (rest.map edit.rebase)).filter original := by
  cases edit with
  | delete rule start count =>
      simp only [InRange] at inRange
      obtain ⟨a, b, c, rfl, rfl, rfl⟩ := exists_stretch inRange.1 inRange.2.1 inRange.2.2
      by_cases nothing : b = []
      · subst nothing
        rw [List.length_nil, Int.natCast_zero, surviving_delete_nothing, rebase_delete_nothing]
        rfl
      · rw [applyTo_delete _ _ _ _ nothing, surviving_delete_cons nothing]
  | insert rule start text =>
      simp only [InRange] at inRange
      obtain ⟨a, c, rfl, rfl⟩ := exists_gap inRange.1 inRange.2
      rw [applyTo_insert]
      exact filter_surviving_insert_cons foreign

theorem filter_applyAll (inRange : ∀ e ∈ edits, e.InRange line.length)
    (foreign : ∀ e ∈ edits, ∀ c, e.Adds c → original c = false) :
    (applyAll line edits).filter original = (surviving line edits).filter original := by
  induction line, edits using applyAll_induction with
  | nil line => rw [applyAll_nil, surviving_nil]
  | cons line edit rest ih =>
      obtain ⟨own, others⟩ := List.forall_mem_cons.mp foreign
      rw [applyAll_cons, filter_surviving_cons (inRange edit List.mem_cons_self) own]
      apply ih (inRange_cons inRange)
      intro e' moved c adds
      obtain ⟨e, isThere, rfl⟩ := List.mem_map.mp moved
      exact others e isThere c ((adds_rebase edit e).mp adds)

end Runs

/-- Edits within the line that add none of its characters, in whatever order and with texts put in
    wherever, leave of the line the characters that no deletion covers, in their order. So another
    order of the same edits leaves the same of it. -/
theorem applyAll_keeps_uncovered {line : Text} {edits : List Edit}
    (inRange : ∀ e ∈ edits, e.InRange line.length)
    (foreign : ∀ e ∈ edits, ∀ c ∈ line, ¬e.Adds c) :
    (applyAll line edits).filter (fun c => ¬∃ e ∈ edits, e.Adds c) = surviving line edits ∧
      ∀ reordered : List Edit, reordered.Perm edits →
        (applyAll line reordered).filter (fun c => ¬∃ e ∈ edits, e.Adds c) =
          (applyAll line edits).filter (fun c => ¬∃ e ∈ edits, e.Adds c) := by
  have kept : (surviving line edits).filter (fun c => ¬∃ e ∈ edits, e.Adds c) =
      surviving line edits := by
    rw [List.filter_eq_self]
    intro c isThere
    rw [decide_eq_true_iff]
    intro ⟨e, among, adds⟩
    exact foreign e among c ((surviving_sublist line edits).mem isThere) adds
  have survives (reordered : List Edit) (same : reordered.Perm edits) :
      (applyAll line reordered).filter (fun c => ¬∃ e ∈ edits, e.Adds c) =
        surviving line edits := by
    rw [filter_applyAll, surviving_congr fun e => same.mem_iff, kept]
    · intro e isThere
      exact inRange e (same.mem_iff.mp isThere)
    · intro e isThere c adds
      rw [decide_eq_false_iff_not, not_not]
      exact ⟨e, same.mem_iff.mp isThere, adds⟩
  constructor
  · exact survives edits (.refl edits)
  · intro reordered same
    rw [survives reordered same, survives edits (.refl edits)]

/-- A text goes with the deletions that are made around it later, and stays if they were made
    before. -/
theorem applyAll_keeps_uncovered_around_text :
    ∃ edits reordered : List Edit,
      edits = [.insert [] 3 "XY".toText, .delete [] 2 2, .delete [] 1 4, .insert [] 3 [.char 'Z']] ∧
      reordered = [.delete [] 2 2, .insert [] 3 "XY".toText, .insert [] 3 [.char 'Z'],
        .delete [] 1 4] ∧
      applyAll "abcdef".toText edits = "aZf".toText ∧
      applyAll "abcdef".toText reordered = "af".toText ∧
      (applyAll "abcdef".toText edits).filter (fun c => ¬∃ e ∈ edits, e.Adds c) = "af".toText ∧
      (applyAll "abcdef".toText reordered).filter (fun c => ¬∃ e ∈ edits, e.Adds c) =
        "af".toText := by
  have kept := @applyAll_keeps_uncovered "abcdef".toText
    [.insert [] 3 "XY".toText, .delete [] 2 2, .delete [] 1 4, .insert [] 3 [.char 'Z']]
    (by decide) (by decide)
  refine ⟨_, _, rfl, rfl, by decide +kernel, by decide +kernel, kept.1, ?_⟩
  exact (kept.2 _ (by decide)).trans kept.1

end Blocklist.Edit
