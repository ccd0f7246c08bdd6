import Blocklist.Proofs.Edit.Rebase
import Mathlib.Data.List.Basic

/-! # Edits made at once

All edits of a line can be made at once: each text goes into its gap, and a character stays unless a
deletion covers it. What becomes of a stretch of the line then depends only on what the edits do
there, so the result can be read stretch by stretch.
-/

namespace Blocklist.Edit

/-- What edits put into a gap, in their order. -/
def inserted (edits : List Edit) (gap : Nat) : Text :=
  edits.flatMap (insertedAt gap)

/-- The line with all edits made at once: at each gap from first to last the texts that go there,
    then the character behind the gap unless a deletion covers it. -/
def simultaneous (s : Text) (edits : List Edit) : Text :=
  (List.range (s.length + 1)).flatMap fun gap =>
    inserted edits gap ++ if ∃ e ∈ edits, e.Covers gap then [] else s[gap]?.toList

/-- The characters of the line that no deletion covers. -/
def surviving (line : Text) (edits : List Edit) : Text :=
  (line.zipIdx.filter fun (_, index) => ¬∃ e ∈ edits, e.Covers index).map Prod.fst

/-- The characters of a stretch that starts at an index which no deletion covers. -/
def survivingFrom (edits : List Edit) (start : Nat) (s : Text) : Text :=
  ((s.zipIdx start).filter fun (_, index) => ¬∃ e ∈ edits, e.Covers index).map Prod.fst

/-- What is left of a character. -/
def kept (edits : List Edit) (index : Nat) (c : CodePoint) : Text :=
  if ∃ e ∈ edits, e.Covers index then [] else [c]

/-- What becomes of a stretch that starts at an index, with the gaps in front of its characters. -/
def weaveBefore (edits : List Edit) : Nat → Text → Text
  | _, [] => []
  | index, c :: rest =>
      inserted edits index ++ kept edits index c ++ weaveBefore edits (index + 1) rest

/-- What becomes of a stretch that starts at an index, with the gaps behind its characters. -/
def weaveAfter (edits : List Edit) : Nat → Text → Text
  | _, [] => []
  | index, c :: rest =>
      kept edits index c ++ inserted edits (index + 1) ++ weaveAfter edits (index + 1) rest

section Weaving

variable {edits edits' : List Edit}

theorem weaveBefore_append (edits : List Edit) (index : Nat) (s t : Text) :
    weaveBefore edits index (s ++ t) =
      weaveBefore edits index s ++ weaveBefore edits (index + s.length) t := by
  induction s generalizing index with
  | nil => rfl
  | cons c rest ih =>
      have shift : index + (rest.length + 1) = index + 1 + rest.length := by omega
      simp only [List.cons_append, weaveBefore, ih, List.length_cons, shift, List.append_assoc]

theorem inserted_append_weaveAfter (edits : List Edit) (index : Nat) (s : Text) :
    inserted edits index ++ weaveAfter edits index s =
      weaveBefore edits index s ++ inserted edits (index + s.length) := by
  induction s generalizing index with
  | nil => simp [weaveAfter, weaveBefore]
  | cons c rest ih =>
      have shift : index + (rest.length + 1) = index + 1 + rest.length := by omega
      simp only [weaveAfter, weaveBefore, List.append_assoc, List.length_cons, shift, ih]

theorem weaveAfter_append (edits : List Edit) (index : Nat) (s t : Text) :
    weaveAfter edits index (s ++ t) =
      weaveAfter edits index s ++ weaveAfter edits (index + s.length) t := by
  induction s generalizing index with
  | nil => rfl
  | cons c rest ih =>
      have shift : index + (rest.length + 1) = index + 1 + rest.length := by omega
      simp only [List.cons_append, weaveAfter, ih, List.length_cons, shift, List.append_assoc]

theorem kept_congr {i j : Nat} (same : (∃ e ∈ edits, e.Covers i) ↔ ∃ e ∈ edits', e.Covers j)
    (c : CodePoint) : kept edits i c = kept edits' j c := by
  simp only [kept, same]

/-- Two stretches with the same characters come to the same when the edits have the same effect on
    both. -/
theorem weaveBefore_congr {start start' : Nat} {s : Text}
    (texts : ∀ i < s.length, inserted edits (start + i) = inserted edits' (start' + i))
    (covers : ∀ i < s.length,
      (∃ e ∈ edits, e.Covers (start + i)) ↔ ∃ e ∈ edits', e.Covers (start' + i)) :
    weaveBefore edits start s = weaveBefore edits' start' s := by
  induction s generalizing start start' with
  | nil => rfl
  | cons c rest ih =>
      have text := texts 0 (by simp)
      have cover := kept_congr (covers 0 (by simp)) c
      simp only [Nat.add_zero] at text cover
      simp only [weaveBefore, text, cover]
      congr 1
      apply ih
      · intro i hi
        simpa only [Nat.add_assoc, Nat.add_comm 1] using texts (i + 1) (by simpa using hi)
      · intro i hi
        simpa only [Nat.add_assoc, Nat.add_comm 1] using covers (i + 1) (by simpa using hi)

theorem weaveAfter_congr {start start' : Nat} {s : Text}
    (texts : ∀ i < s.length, inserted edits (start + i + 1) = inserted edits' (start' + i + 1))
    (covers : ∀ i < s.length,
      (∃ e ∈ edits, e.Covers (start + i)) ↔ ∃ e ∈ edits', e.Covers (start' + i)) :
    weaveAfter edits start s = weaveAfter edits' start' s := by
  induction s generalizing start start' with
  | nil => rfl
  | cons c rest ih =>
      have text := texts 0 (by simp)
      have cover := kept_congr (covers 0 (by simp)) c
      simp only [Nat.add_zero] at text cover
      simp only [weaveAfter, text, cover]
      congr 1
      apply ih
      · intro i hi
        simpa only [Nat.add_assoc, Nat.add_comm 1] using texts (i + 1) (by simpa using hi)
      · intro i hi
        simpa only [Nat.add_assoc, Nat.add_comm 1] using covers (i + 1) (by simpa using hi)

theorem weaveBefore_eq_self {start : Nat} {s : Text}
    (texts : ∀ i < s.length, inserted edits (start + i) = [])
    (covers : ∀ i < s.length, ¬∃ e ∈ edits, e.Covers (start + i)) :
    weaveBefore edits start s = s := by
  induction s generalizing start with
  | nil => rfl
  | cons c rest ih =>
      have text := texts 0 (by simp)
      have cover := covers 0 (by simp)
      simp only [Nat.add_zero] at text cover
      simp only [weaveBefore, text, kept, if_neg cover, List.nil_append, List.singleton_append]
      congr 1
      apply ih
      · intro i hi
        simpa only [Nat.add_assoc, Nat.add_comm 1] using texts (i + 1) (by simpa using hi)
      · intro i hi
        simpa only [Nat.add_assoc, Nat.add_comm 1] using covers (i + 1) (by simpa using hi)

theorem survivingFrom_cons (edits : List Edit) (start : Nat) (c : CodePoint) (rest : Text) :
    survivingFrom edits start (c :: rest) =
      kept edits start c ++ survivingFrom edits (start + 1) rest := by
  rw [survivingFrom, List.zipIdx_cons, List.filter_cons, kept, survivingFrom]
  by_cases covered : ∃ e ∈ edits, e.Covers start
  · simp [covered]
  · simp [covered]

theorem weaveBefore_eq_survivingFrom {start : Nat} {s : Text}
    (texts : ∀ i < s.length, inserted edits (start + i) = []) :
    weaveBefore edits start s = survivingFrom edits start s := by
  induction s generalizing start with
  | nil => rfl
  | cons c rest ih =>
      have text := texts 0 (by simp)
      have later : ∀ i < rest.length, inserted edits (start + 1 + i) = [] := by
        intro i hi
        simpa only [Nat.add_assoc, Nat.add_comm 1] using texts (i + 1) (by simpa using hi)
      simp only [Nat.add_zero] at text
      rw [weaveBefore, text, ih later, List.nil_append, survivingFrom_cons]

theorem weaveBefore_eq_drop_take {start first last : Nat} {s : Text}
    (texts : ∀ i < s.length, inserted edits (start + i) = [])
    (covers : ∀ i < s.length, (∃ e ∈ edits, e.Covers (start + i)) ↔ i < first ∨ last ≤ i) :
    weaveBefore edits start s = (s.take last).drop first := by
  induction s generalizing start first last with
  | nil => simp [weaveBefore]
  | cons c rest ih =>
      have text := texts 0 (by simp)
      have cover := covers 0 (by simp)
      have later : weaveBefore edits (start + 1) rest =
          (rest.take (last - 1)).drop (first - 1) := by
        apply ih
        · intro i hi
          simpa only [Nat.add_assoc, Nat.add_comm 1] using texts (i + 1) (by simpa using hi)
        · intro i hi
          have next := covers (i + 1) (by simpa using hi)
          rw [← Nat.add_assoc, Nat.add_right_comm] at next
          rw [next]
          omega
      simp only [Nat.add_zero] at text cover
      rw [weaveBefore, text, later, List.nil_append, kept]
      cases last with
      | zero => simp [cover]
      | succ last =>
          cases first with
          | zero => simp [cover]
          | succ first => simp [cover]

theorem weaveBefore_eq_inserted {start : Nat} {s : Text} (some : s ≠ [])
    (texts : ∀ i, 0 < i → i < s.length → inserted edits (start + i) = [])
    (covers : ∀ i < s.length, ∃ e ∈ edits, e.Covers (start + i)) :
    weaveBefore edits start s = inserted edits start := by
  cases s with
  | nil => exact absurd rfl some
  | cons c rest =>
      have cover := covers 0 (by simp)
      simp only [Nat.add_zero] at cover
      have later : weaveBefore edits (start + 1) rest = (rest.take 0).drop 0 := by
        apply weaveBefore_eq_drop_take
        · intro i hi
          simpa only [Nat.add_assoc, Nat.add_comm 1] using
            texts (i + 1) (Nat.succ_pos i) (by simpa using hi)
        · intro i hi
          have next := covers (i + 1) (by simpa using hi)
          rw [← Nat.add_assoc, Nat.add_right_comm] at next
          simp [next]
      rw [weaveBefore, later, kept, if_pos cover]
      simp

theorem weaveAfter_eq_inserted {start : Nat} {s : Text} (some : s ≠ [])
    (texts : ∀ i, i + 1 < s.length → inserted edits (start + i + 1) = [])
    (covers : ∀ i < s.length, ∃ e ∈ edits, e.Covers (start + i)) :
    weaveAfter edits start s = inserted edits (start + s.length) := by
  induction s generalizing start with
  | nil => exact absurd rfl some
  | cons c rest ih =>
      have cover := covers 0 (by simp)
      simp only [Nat.add_zero] at cover
      simp only [weaveAfter, kept, if_pos cover, List.nil_append]
      by_cases last : rest = []
      · simp [last, weaveAfter]
      · have longer : 0 < rest.length := List.length_pos_iff.mpr last
        have text := texts 0 (by simpa using longer)
        simp only [Nat.add_zero] at text
        rw [text, List.nil_append, ih last, List.length_cons, Nat.add_assoc, Nat.add_comm 1]
        · intro i hi
          simpa only [Nat.add_assoc, Nat.add_comm 1] using texts (i + 1) (by simpa using hi)
        · intro i hi
          simpa only [Nat.add_assoc, Nat.add_comm 1] using covers (i + 1) (by simpa using hi)

theorem range_flatMap_weave (edits : List Edit) (start : Nat) (s : Text) :
    ((List.range (s.length + 1)).flatMap fun i =>
      inserted edits (start + i) ++
        if ∃ e ∈ edits, e.Covers (start + i) then [] else s[i]?.toList) =
      weaveBefore edits start s ++ inserted edits (start + s.length) := by
  induction s generalizing start with
  | nil => simp [weaveBefore]
  | cons c rest ih =>
      rw [List.length_cons, List.range_succ_eq_map, List.flatMap_cons, List.flatMap_map]
      have next := ih (start + 1)
      simp only [Nat.add_assoc, Nat.add_comm 1] at next
      simp only [Nat.add_zero, List.getElem?_cons_zero, Option.toList_some,
        Nat.succ_eq_add_one, List.getElem?_cons_succ, next, weaveBefore, kept, List.append_assoc]

theorem simultaneous_eq_weaveBefore (line : Text) (edits : List Edit) :
    simultaneous line edits = weaveBefore edits 0 line ++ inserted edits line.length := by
  have whole := range_flatMap_weave edits 0 line
  simp only [Nat.zero_add] at whole
  exact whole

/-- The line made at once, read around a gap. -/
theorem simultaneous_append (s t : Text) (edits : List Edit) :
    simultaneous (s ++ t) edits =
      weaveBefore edits 0 s ++ inserted edits s.length ++ weaveAfter edits s.length t := by
  rw [simultaneous_eq_weaveBefore, weaveBefore_append, Nat.zero_add, List.append_assoc,
    List.append_assoc, List.length_append, inserted_append_weaveAfter]

end Weaving

section Lists

variable {f : Edit → Edit} {edits : List Edit}

theorem inserted_cons (e : Edit) (edits : List Edit) (gap : Nat) :
    inserted (e :: edits) gap = insertedAt gap e ++ inserted edits gap := by
  simp [inserted]

theorem inserted_map_congr {gap gap' : Nat}
    (same : ∀ e ∈ edits, insertedAt gap (f e) = insertedAt gap' e) :
    inserted (edits.map f) gap = inserted edits gap' := by
  rw [inserted, inserted, List.flatMap_map, List.flatMap_def, List.flatMap_def,
    List.map_congr_left same]

theorem exists_covers_map_congr {i j : Nat} (same : ∀ e ∈ edits, (f e).Covers i ↔ e.Covers j) :
    (∃ e ∈ edits.map f, e.Covers i) ↔ ∃ e ∈ edits, e.Covers j := by
  simp only [List.mem_map, exists_exists_and_eq_and]
  exact exists_congr fun e => and_congr_right fun isThere => same e isThere

section Covering

variable {rule text : Text} {start count : Int} {index : Nat}

theorem exists_covers_delete_of_lt (some : 0 < count) (before : index < start) :
    (∃ e ∈ delete rule start count :: edits, e.Covers index) ↔
      ∃ e ∈ edits.map (delete rule start count).rebase, e.Covers index := by
  rw [exists_covers_map_congr fun e _ => covers_rebase_delete_of_lt some before e]
  simp only [List.mem_cons, exists_eq_or_imp, Covers]
  exact or_iff_right (by omega)

theorem exists_covers_delete_of_le (some : 0 < count) (behind : start ≤ index) :
    (∃ e ∈ delete rule start count :: edits, e.Covers (index + count.toNat)) ↔
      ∃ e ∈ edits.map (delete rule start count).rebase, e.Covers index := by
  rw [exists_covers_map_congr fun e _ => covers_rebase_delete_of_le some behind e]
  simp only [List.mem_cons, exists_eq_or_imp, Covers]
  exact or_iff_right (by omega)

theorem exists_covers_insert_of_lt (before : index < start) :
    (∃ e ∈ insert rule start text :: edits, e.Covers index) ↔
      ∃ e ∈ edits.map (insert rule start text).rebase, e.Covers index := by
  rw [exists_covers_map_congr fun e _ => covers_rebase_insert_of_lt before e]
  simp [Covers]

theorem exists_covers_insert_of_le (behind : start ≤ index) :
    (∃ e ∈ insert rule start text :: edits, e.Covers index) ↔
      ∃ e ∈ edits.map (insert rule start text).rebase, e.Covers (index + text.length) := by
  rw [exists_covers_map_congr fun e _ => covers_rebase_insert_of_le behind e]
  simp [Covers]

end Covering

theorem inserted_eq_nil_of_inOrder {e : Edit} {gap later : Nat} (before : gap < later)
    (isThere : insertedAt later e ≠ []) (inOrder : ∀ i ∈ edits, e.InOrder i) :
    inserted edits gap = [] := by
  simp only [inserted, List.flatMap_eq_nil_iff]
  intro i mem
  have ordered := inOrder i mem
  cases e with
  | delete => exact absurd rfl isThere
  | insert rule first text =>
      cases i with
      | delete => rfl
      | insert rule' second text' =>
          simp only [InOrder] at ordered
          have place : first = later := by
            by_contra other
            exact isThere (if_neg other)
          have elsewhere : second ≠ gap := by omega
          exact if_neg elsewhere

/-- The texts for the two ends of a deletion come together in the order of their gaps. -/
theorem inserted_rebase_delete_self {rule : Text} {start count : Int} {gap : Nat}
    (some : 0 < count) (here : (gap : Int) = start) (inOrder : edits.Pairwise InOrder)
    (apart : ∀ i ∈ edits, ¬(delete rule start count).Encloses i) :
    inserted (edits.map (delete rule start count).rebase) gap =
      inserted edits gap ++ inserted edits (gap + count.toNat) := by
  induction edits with
  | nil => rfl
  | cons e rest ih =>
      obtain ⟨ordered, restOrdered⟩ := List.pairwise_cons.mp inOrder
      have merged := ih restOrdered fun i mem => apart i (List.mem_cons_of_mem _ mem)
      rw [List.map_cons, inserted_cons, inserted_cons, inserted_cons, merged,
        insertedAt_rebase_delete_self some here (apart e List.mem_cons_self)]
      by_cases atEnd : insertedAt (gap + count.toNat) e = []
      · simp [atEnd]
      · have nothing : inserted rest gap = [] :=
          inserted_eq_nil_of_inOrder (by omega) atEnd ordered
        simp [nothing]

end Lists

end Blocklist.Edit
