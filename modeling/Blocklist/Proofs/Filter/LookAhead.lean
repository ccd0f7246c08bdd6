import Blocklist.Proofs.Filter.Opening
import Mathlib.Order.Bounds.Basic

/-! # Looking for the opening dollar sign

The dollar sign that opens a section can be looked for place by place. From each dollar sign the
search looks ahead for the next equals sign or dollar sign, and at a dollar sign it starts anew. It
moves on with each start, so it comes to an end, and it ends at the last dollar sign between the
first one and the first equals sign behind that one.
-/

namespace Blocklist

namespace Text

/-- The first place from `i` on whose character passes the test, or the end of the text. -/
def placeFrom (p : CodePoint → Bool) (s : Text) (i : Nat) : Nat :=
  i + (s.drop i).findIdx p

section PlaceFrom

variable {p : CodePoint → Bool} {s : Text} {i j : Nat} {c : CodePoint}

theorem le_placeFrom (p : CodePoint → Bool) (s : Text) (i : Nat) : i ≤ placeFrom p s i :=
  Nat.le_add_right _ _

theorem placeFrom_of_length_le (outside : s.length ≤ i) : placeFrom p s i = i := by
  rw [placeFrom, List.drop_eq_nil_of_le outside]
  rfl

theorem placeFrom_of_passes (inside : i < s.length) (passes : p s[i]) : placeFrom p s i = i := by
  rw [placeFrom, List.drop_eq_getElem_cons inside, List.findIdx_cons, passes]
  rfl

theorem placeFrom_of_not (inside : i < s.length) (passed : p s[i] = false) :
    placeFrom p s i = placeFrom p s (i + 1) := by
  rw [placeFrom, List.drop_eq_getElem_cons inside, List.findIdx_cons, passed, placeFrom, cond_false]
  omega

theorem getElem?_placeFrom : s[placeFrom p s i]? = (s.drop i).find? p := by
  rw [placeFrom, ← List.getElem?_drop, List.find?_eq_getElem?_findIdx]

theorem lt_length_of_lt_placeFrom (behind : i ≤ j) (before : j < placeFrom p s i) :
    j < s.length := by
  have within : (s.drop i).findIdx p ≤ (s.drop i).length := List.findIdx_le_length
  rw [List.length_drop] at within
  rw [placeFrom] at before
  omega

theorem placeFrom_le (behind : i ≤ j) (here : s[j]? = some c) (passes : p c) :
    placeFrom p s i ≤ j := by
  by_contra later
  have before : j - i < (s.drop i).findIdx p := by
    rw [placeFrom] at later
    omega
  have passed := List.not_of_lt_findIdx before
  obtain ⟨inside, rfl⟩ := List.getElem?_eq_some_iff.mp here
  have same : i + (j - i) = j := by omega
  simp only [List.getElem_drop, same, passes] at passed
  cases passed

theorem placeFrom_congr (behind : i ≤ j) (before : j ≤ placeFrom p s i) :
    placeFrom p s j = placeFrom p s i := by
  induction j, behind using Nat.le_induction with
  | base => rfl
  | succ j behind ih =>
      have same := ih (by omega)
      have inside : j < s.length := lt_length_of_lt_placeFrom behind before
      have passed : p s[j] = false := by
        by_contra passes
        rw [placeFrom_of_passes inside (by simpa using passes)] at same
        omega
      rw [← placeFrom_of_not inside passed, same]

end PlaceFrom

end Text

namespace Section

section Search

/-- Go on from a place up to an equals sign or a dollar sign, or to the end of the line. -/
def lookAhead (s : Text) (place : Nat) : Nat :=
  if inside : place < s.length then
    if s[place] ≠ '=' ∧ s[place] ≠ '$' then lookAhead s (place + 1) else place
  else place
termination_by s.length - place

theorem le_lookAhead (s : Text) (place : Nat) : place ≤ lookAhead s place := by
  fun_induction lookAhead s place <;> omega

/-- The place of the dollar sign that opens the section, as it is found from a place on: one from
    which the next equals sign or dollar sign ahead is not a dollar sign again. -/
def openingByPlaces? (s : Text) (place : Nat) : Option Nat :=
  if inside : place < s.length then
    if s[place] = '$' then
      if s[lookAhead s (place + 1)]? = some (.char '$') then
        openingByPlaces? s (lookAhead s (place + 1))
      else some place
    else openingByPlaces? s (place + 1)
  else none
termination_by s.length - place
decreasing_by
  · have further := le_lookAhead s (place + 1)
    omega
  · omega

/-- Where a line is cut when the cut is to fall at a place or behind it. -/
def openingFrom? (s : Text) (place : Nat) : Option Nat :=
  (cut (s.drop place)).2.map fun _ => place + (cut (s.drop place)).1.length

variable {s : Text} {place : Nat}

theorem getElem?_lookAhead (s : Text) (place : Nat) :
    s[lookAhead s place]? = (s.drop place).find? fun c : CodePoint => c == '=' || c == '$' := by
  fun_induction lookAhead s place with
  | case1 place inside other ih =>
      rw [ih, List.drop_eq_getElem_cons inside, List.find?_cons_of_neg (by simpa using other)]
  | case2 place inside mark =>
      rw [List.drop_eq_getElem_cons inside, List.find?_cons_of_pos (by grind),
        List.getElem?_eq_getElem inside]
  | case3 place outside =>
      have after := Nat.le_of_not_lt outside
      rw [List.getElem?_eq_none after, List.drop_eq_nil_of_le after, List.find?_nil]

theorem opensLater_drop_iff :
    opensLater (s.drop place) = true ↔ s[lookAhead s place]? = some (.char '$') := by
  rw [getElem?_lookAhead, opensLater, beq_iff_eq]

theorem cut_cons_of_other {c : CodePoint} (other : c ≠ '$') (rest : Text) :
    cut (c :: rest) = (c :: (cut rest).1, (cut rest).2) :=
  cut_append_of_not_mem (s := [c]) (by simpa using other.symm) rest

/-- Looking ahead passes over no dollar sign, so a cut of what is passed over falls further on. -/
theorem cut_drop_of_lookAhead (s : Text) (place : Nat) :
    ∃ passed, lookAhead s place = place + passed.length ∧
      cut (s.drop place) = (passed ++ (cut (s.drop (lookAhead s place))).1,
        (cut (s.drop (lookAhead s place))).2) := by
  fun_induction lookAhead s place with
  | case1 place inside other ih =>
      obtain ⟨passed, further, behind⟩ := ih
      refine ⟨s[place] :: passed, ?_, ?_⟩
      · rw [further, List.length_cons]
        omega
      · rw [List.drop_eq_getElem_cons inside, cut_cons_of_other other.2, behind]
        rfl
  | case2 place inside mark => exact ⟨[], rfl, rfl⟩
  | case3 place outside => exact ⟨[], rfl, rfl⟩

/-- The search stops where the line is cut. -/
theorem openingByPlaces?_eq (s : Text) (place : Nat) :
    openingByPlaces? s place = openingFrom? s place := by
  fun_induction openingByPlaces? s place with
  | case1 place inside dollar again ih =>
      obtain ⟨passed, further, behind⟩ := cut_drop_of_lookAhead s (place + 1)
      have later := opensLater_drop_iff.mpr again
      have here : cut (s.drop place) = (.char '$' :: (cut (s.drop (place + 1))).1,
          (cut (s.drop (place + 1))).2) := by
        rw [List.drop_eq_getElem_cons inside, dollar, cut, later]
        rfl
      rw [ih, openingFrom?, openingFrom?, here, behind]
      congr 1
      funext _
      simp only [further, List.length_cons, List.length_append]
      omega
  | case2 place inside dollar last =>
      have opens := mt opensLater_drop_iff.mp last
      rw [openingFrom?, List.drop_eq_getElem_cons inside, dollar, cut,
        if_pos (by simpa using opens)]
      rfl
  | case3 place inside other ih =>
      rw [ih, openingFrom?, openingFrom?, List.drop_eq_getElem_cons inside, cut_cons_of_other other]
      congr 1
      funext _
      rw [List.length_cons]
      omega
  | case4 place outside =>
      rw [openingFrom?, List.drop_eq_nil_of_le (Nat.le_of_not_lt outside)]
      rfl

theorem openingByPlaces?_eq_none_iff :
    openingByPlaces? s place = none ↔ .char '$' ∉ s.drop place := by
  rw [openingByPlaces?_eq, openingFrom?, Option.map_eq_none_iff, cut_eq_none_iff]

end Search

section ClosedForm

variable {s : Text} {place m : Nat}

/-- The first dollar sign from a place on, and all others before the first equals sign behind it. -/
def dollarsFrom (s : Text) (place : Nat) : Set Nat :=
  let first := s.placeFrom (· == .char '$') place
  {m | first ≤ m ∧ m < s.placeFrom (· == .char '=') (first + 1) ∧ s[m]? = some (.char '$')}

theorem lookAhead_eq_min (s : Text) (place : Nat) : lookAhead s place =
    min (s.placeFrom (· == .char '=') place) (s.placeFrom (· == .char '$') place) := by
  fun_induction lookAhead s place with
  | case1 place inside other ih =>
      rw [ih, Text.placeFrom_of_not (p := (· == .char '=')) inside (by simpa using other.1),
        Text.placeFrom_of_not (p := (· == .char '$')) inside (by simpa using other.2)]
  | case2 place inside mark =>
      rw [not_and_or, not_not, not_not] at mark
      rcases mark with equals | dollar
      · rw [Text.placeFrom_of_passes (p := (· == .char '=')) inside (by simpa using equals),
          Nat.min_eq_left (Text.le_placeFrom _ _ _)]
      · rw [Text.placeFrom_of_passes (p := (· == .char '$')) inside (by simpa using dollar),
          Nat.min_eq_right (Text.le_placeFrom _ _ _)]
  | case3 place outside =>
      have after := Nat.le_of_not_lt outside
      rw [Text.placeFrom_of_length_le after, Text.placeFrom_of_length_le after, Nat.min_self]

theorem dollar_ahead_iff : s[lookAhead s place]? = some (.char '$') ↔
    s.placeFrom (· == .char '$') place < s.placeFrom (· == .char '=') place := by
  rw [lookAhead_eq_min]
  constructor
  · intro dollar
    by_contra later
    rw [Nat.min_eq_left (Nat.le_of_not_lt later), Text.getElem?_placeFrom] at dollar
    exact absurd (List.find?_some dollar) (by decide)
  · intro before
    have inside := Text.lt_length_of_lt_placeFrom (Text.le_placeFrom _ _ _) before
    have found := Text.getElem?_placeFrom (p := (· == .char '$')) (s := s) (i := place)
    rw [List.getElem?_eq_getElem inside] at found
    have dollar := List.find?_some found.symm
    rw [Nat.min_eq_right before.le, List.getElem?_eq_getElem inside, beq_iff_eq.mp dollar]

theorem isGreatest_of_openingByPlaces? (found : openingByPlaces? s place = some m) :
    IsGreatest (dollarsFrom s place) m := by
  fun_induction openingByPlaces? s place with
  | case1 place inside dollar again ih =>
      have before := dollar_ahead_iff.mp again
      have here : s.placeFrom (· == .char '$') place = place :=
        Text.placeFrom_of_passes inside (by simpa using dollar)
      have next : lookAhead s (place + 1) = s.placeFrom (· == .char '$') (place + 1) := by
        rw [lookAhead_eq_min, Nat.min_eq_right before.le]
      have further := Text.le_placeFrom (· == .char '$') s (place + 1)
      -- up to the dollar sign ahead there is no equals sign, so the same one ends the search there
      have first : s.placeFrom (· == .char '$') (s.placeFrom (· == .char '$') (place + 1)) =
          s.placeFrom (· == .char '$') (place + 1) := Text.placeFrom_congr further le_rfl
      have last : s.placeFrom (· == .char '=') (s.placeFrom (· == .char '$') (place + 1) + 1) =
          s.placeFrom (· == .char '=') (place + 1) :=
        Text.placeFrom_congr (Nat.le_succ_of_le further) before
      have greatest := ih found
      rw [next, dollarsFrom, first, last] at greatest
      rw [dollarsFrom, here]
      obtain ⟨⟨behind, inFront, isDollar⟩, bound⟩ := greatest
      refine ⟨⟨by omega, inFront, isDollar⟩, fun other ⟨_, inFront', isDollar'⟩ => ?_⟩
      by_cases ahead : s.placeFrom (· == .char '$') (place + 1) ≤ other
      · exact bound ⟨ahead, inFront', isDollar'⟩
      · omega
  | case2 place inside dollar last =>
      obtain rfl : place = m := Option.some.inj found
      have here : s.placeFrom (· == .char '$') place = place :=
        Text.placeFrom_of_passes inside (by simpa using dollar)
      have none := mt dollar_ahead_iff.mpr last
      have further := Text.le_placeFrom (· == .char '=') s (place + 1)
      rw [dollarsFrom, here]
      refine ⟨⟨le_rfl, further, by rw [List.getElem?_eq_getElem inside, dollar]⟩, ?_⟩
      rintro other ⟨-, inFront, isDollar⟩
      by_contra behind
      have start : place + 1 ≤ other := by omega
      have ahead := Text.placeFrom_le (p := (· == .char '$')) start isDollar rfl
      omega
  | case3 place inside other ih =>
      have same := ih found
      rwa [dollarsFrom, ← Text.placeFrom_of_not inside (by simpa using other)] at same
  | case4 place outside => cases found

theorem opening?_ofLine (s : Text) : (NetworkLine.ofLine s).opening? =
    openingFrom? s (NetworkLine.ofLine s).front.length := by
  have cut := (NetworkLine.proper_ofLine s).cut
  have whole := NetworkLine.toLine_ofLine s
  rw [NetworkLine.toLine_eq_front_append] at whole
  have ahead : s.drop (NetworkLine.ofLine s).front.length =
      (NetworkLine.ofLine s).unanchored :=
    (congrArg (List.drop _) whole.symm).trans List.drop_left
  rw [openingFrom?, ahead, cut, NetworkLine.opening?, NetworkLine.address]
  simp only [List.length_append, Nat.add_assoc]

/-- A search from any place comes to an end, and a cut of what lies ahead falls where it ends. It
    finds nothing if there is no dollar sign ahead, and otherwise the last one of those from the
    first one to the first equals sign behind that. So it is with the section of a network line. -/
theorem openingByPlaces?_isGreatest (s : Text) (place : Nat) :
    openingByPlaces? s place = openingFrom? s place ∧
    (openingByPlaces? s place = none ↔ .char '$' ∉ s.drop place) ∧
    (∀ m, openingByPlaces? s place = some m ↔ IsGreatest (dollarsFrom s place) m) ∧
    (NetworkLine.ofLine s).opening? =
      openingByPlaces? s (NetworkLine.ofLine s).front.length := by
  refine ⟨openingByPlaces?_eq s place, openingByPlaces?_eq_none_iff, fun m =>
    ⟨isGreatest_of_openingByPlaces?, fun greatest => ?_⟩, ?_⟩
  · cases found : openingByPlaces? s place with
    | none =>
        obtain ⟨behind, -, isDollar⟩ := greatest.1
        have start := (Text.le_placeFrom _ s place).trans behind
        rw [← Nat.add_sub_cancel' start, ← List.getElem?_drop] at isDollar
        exact absurd (List.mem_of_getElem? isDollar) (openingByPlaces?_eq_none_iff.mp found)
    | some m' => rw [(isGreatest_of_openingByPlaces? found).unique greatest]
  · rw [opening?_ofLine, openingByPlaces?_eq]

end ClosedForm

end Section

end Blocklist
