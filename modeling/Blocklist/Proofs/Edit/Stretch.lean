import Blocklist.Proofs.Edit.Simultaneous

/-! # Edits of a stretch

Edits that have their effect on a stretch of a line only leave the rest as it is, and edits of
stretches that do not overlap can be made at once.
-/

namespace Blocklist.Edit

/-- An edit has its effect on a stretch of a line only. -/
def Within (start stop : Nat) : Edit → Prop
  | delete _ offset count => start ≤ offset ∧ 0 ≤ count ∧ offset + count ≤ stop
  | insert _ offset _ => start ≤ offset ∧ offset < stop

section Within

variable {start stop : Nat} {edits : List Edit}

theorem Within.mono {e : Edit} (within : e.Within start stop) {start' stop' : Nat}
    (from_start : start' ≤ start) (to_stop : stop ≤ stop') : e.Within start' stop' := by
  cases e <;> simp only [Within] at within ⊢ <;> omega

theorem Within.inRange {e : Edit} (within : e.Within start stop) {length : Nat}
    (fits : stop ≤ length) : e.InRange length := by
  cases e <;> simp only [Within, InRange] at within ⊢ <;> omega

theorem not_covers_of_within (within : ∀ e ∈ edits, e.Within start stop) {index : Nat}
    (outside : index < start ∨ stop ≤ index) : ¬∃ e ∈ edits, e.Covers index := by
  rintro ⟨e, isThere, covers⟩
  have lies := within e isThere
  cases e with
  | insert => exact covers
  | delete =>
      simp only [Within, Covers] at lies covers
      omega

theorem inserted_of_within (within : ∀ e ∈ edits, e.Within start stop) {gap : Nat}
    (outside : gap < start ∨ stop ≤ gap) : inserted edits gap = [] := by
  rw [inserted, List.flatMap_eq_nil_iff]
  intro e isThere
  have lies := within e isThere
  cases e with
  | delete => rfl
  | insert =>
      simp only [Within] at lies
      exact if_neg (by omega)

theorem inserted_append (edits edits' : List Edit) (gap : Nat) :
    inserted (edits ++ edits') gap = inserted edits gap ++ inserted edits' gap :=
  List.flatMap_append

theorem Compatible.append {length start' stop' : Nat} {edits' : List Edit}
    (compatible : Compatible length edits) (compatible' : Compatible length edits')
    (within : ∀ e ∈ edits, e.Within start stop) (within' : ∀ e ∈ edits', e.Within start' stop')
    (meets : stop ≤ start') : Compatible length (edits ++ edits') where
  inRange := by
    intro e isThere
    exact (List.mem_append.mp isThere).elim (compatible.inRange e) (compatible'.inRange e)
  inOrder := by
    refine List.pairwise_append.mpr ⟨compatible.inOrder, compatible'.inOrder, ?_⟩
    intro e isThere f isThere'
    have lies := within e isThere
    have lies' := within' f isThere'
    cases e with
    | delete => trivial
    | insert =>
        cases f with
        | delete => trivial
        | insert =>
            simp only [Within, InOrder] at lies lies' ⊢
            omega
  apart := by
    intro d dThere i iThere encloses
    cases d with
    | insert => exact encloses
    | delete =>
        cases i with
        | delete => exact encloses
        | insert =>
            rcases List.mem_append.mp dThere with dThere | dThere <;>
              rcases List.mem_append.mp iThere with iThere | iThere
            · exact compatible.apart _ dThere _ iThere encloses
            · have lies := within _ dThere
              have lies' := within' _ iThere
              simp only [Within, Encloses] at lies lies' encloses
              omega
            · have lies := within' _ dThere
              have lies' := within _ iThere
              simp only [Within, Encloses] at lies lies' encloses
              omega
            · exact compatible'.apart _ dThere _ iThere encloses

/-- Edits without an effect on a stretch can be left out. -/
theorem weaveBefore_append_left {edits' : List Edit} {index : Nat} {s : Text}
    (texts : ∀ i < s.length, inserted edits' (index + i) = [])
    (covers : ∀ i < s.length, ¬∃ e ∈ edits', e.Covers (index + i)) :
    weaveBefore (edits ++ edits') index s = weaveBefore edits index s := by
  apply weaveBefore_congr
  · intro i hi
    rw [inserted_append, texts i hi, List.append_nil]
  · intro i hi
    simp only [List.mem_append, or_and_right, exists_or]
    exact or_iff_left (covers i hi)

theorem weaveBefore_append_right {edits' : List Edit} {index : Nat} {s : Text}
    (texts : ∀ i < s.length, inserted edits (index + i) = [])
    (covers : ∀ i < s.length, ¬∃ e ∈ edits, e.Covers (index + i)) :
    weaveBefore (edits ++ edits') index s = weaveBefore edits' index s := by
  apply weaveBefore_congr
  · intro i hi
    rw [inserted_append, texts i hi, List.nil_append]
  · intro i hi
    simp only [List.mem_append, or_and_right, exists_or]
    exact or_iff_right (covers i hi)

theorem weaveBefore_of_within_behind {edits' : List Edit} {index : Nat} {s : Text}
    (within : ∀ e ∈ edits', e.Within start stop) (behind : index + s.length ≤ start) :
    weaveBefore (edits ++ edits') index s = weaveBefore edits index s :=
  weaveBefore_append_left (fun _ _ => inserted_of_within within (.inl (by omega)))
    fun _ _ => not_covers_of_within within (.inl (by omega))

theorem weaveBefore_of_within_front {edits' : List Edit} {index : Nat} {s : Text}
    (within : ∀ e ∈ edits, e.Within start stop) (front : stop ≤ index) :
    weaveBefore (edits ++ edits') index s = weaveBefore edits' index s :=
  weaveBefore_append_right (fun _ _ => inserted_of_within within (.inr (by omega)))
    fun _ _ => not_covers_of_within within (.inr (by omega))

theorem weaveBefore_eq_self_of_within {index : Nat} {s : Text}
    (within : ∀ e ∈ edits, e.Within start stop)
    (outside : index + s.length ≤ start ∨ stop ≤ index) : weaveBefore edits index s = s :=
  weaveBefore_eq_self (fun _ _ => inserted_of_within within (by omega))
    fun _ _ => not_covers_of_within within (by omega)

end Within

end Blocklist.Edit
