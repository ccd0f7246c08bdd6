import Mathlib.Data.List.Forall2

/-! # Results that may fail

A computation that may fail comes to a result exactly if each of its steps does. Going through a
list comes to the results at its elements, in their order.
-/

namespace Blocklist

variable {ε α β : Type} {found : Except ε α} {result : β}

theorem map_eq_ok_iff {f : α → β} :
    found.map f = .ok result ↔ ∃ value, found = .ok value ∧ f value = result := by
  cases found <;> simp [Except.map]

theorem bind_eq_ok_iff {next : α → Except ε β} :
    found >>= next = .ok result ↔ ∃ value, found = .ok value ∧ next value = .ok result := by
  cases found <;> simp [bind, Except.bind]

section Lists

variable {f : α → Except ε β} {list : List α} {results : List β}

theorem mapM_eq_ok_iff :
    list.mapM f = .ok results ↔ List.Forall₂ (fun a result => f a = .ok result) list results := by
  induction list generalizing results with
  | nil =>
      rw [List.mapM_nil, List.forall₂_nil_left_iff]
      exact ⟨fun same => (Except.ok.inj same).symm, fun same => same ▸ rfl⟩
  | cons a rest ih =>
      simp only [List.mapM_cons, bind_eq_ok_iff, ih, List.forall₂_cons_left_iff]
      constructor
      · rintro ⟨result, first, results', later, ⟨⟩⟩
        exact ⟨result, results', first, later, rfl⟩
      · rintro ⟨result, results', first, later, rfl⟩
        exact ⟨result, first, results', later, rfl⟩

theorem exists_mapM_iff :
    (∃ results, list.mapM f = .ok results) ↔ ∀ a ∈ list, ∃ result, f a = .ok result := by
  simp only [mapM_eq_ok_iff]
  induction list with
  | nil => exact iff_of_true ⟨[], .nil⟩ (List.forall_mem_nil _)
  | cons a rest ih =>
      rw [List.forall_mem_cons, ← ih]
      constructor
      · rintro ⟨results, gone⟩
        cases gone with
        | cons first later => exact ⟨⟨_, first⟩, _, later⟩
      · rintro ⟨⟨result, first⟩, results, later⟩
        exact ⟨result :: results, .cons first later⟩

theorem filterMap_of_mapM (gone : list.mapM f = .ok results) :
    list.filterMap (fun a => (f a).toOption) = results := by
  rw [mapM_eq_ok_iff] at gone
  induction gone with
  | nil => rfl
  | cons first _ ih => rw [List.filterMap_cons_some (by rw [first]; rfl), ih]

theorem mapM_append_singleton {a : α} (gone : list.mapM f = .ok results) (last : f a = .ok result) :
    (list ++ [a]).mapM f = .ok (results ++ [result]) :=
  mapM_eq_ok_iff.mpr (List.rel_append (mapM_eq_ok_iff.mp gone) (.cons last .nil))

end Lists

end Blocklist
