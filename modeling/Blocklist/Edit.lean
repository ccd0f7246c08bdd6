import Blocklist.Text.Cut

/-! # Edits

An edit of a line deletes a stretch or inserts a text, in the name of a rule. Edits of one line are
all expressed against the line as it was first. They are applied one after the other: after each of
them the ones that follow are moved to where their places have come to be, so overlapping deletions
never take a character twice.
-/

namespace Blocklist

/-- A change to a line, in the name of a rule. -/
inductive Edit where
  /-- Take out the `length` characters from an offset on. -/
  | delete (rule : Text) (offset length : Int)
  /-- Put a text in at an offset. -/
  | insert (rule : Text) (offset : Int) (text : Text)
  deriving Repr, DecidableEq

namespace Edit

def rule : Edit → Text
  | delete rule _ _ => rule
  | insert rule _ _ => rule

/-- Make one edit. Deleting nothing, or less than nothing, leaves the line as it is. -/
def applyTo (line : Text) : Edit → Text
  | delete _ offset length =>
      if length ≤ 0 then line else line.before offset ++ line.after (offset + length)
  | insert _ offset text => line.before offset ++ text ++ line.after offset

/-- Where an offset comes to be when the `length` characters from `start` on are taken out: what
    stood behind moves up, what stood among them moves to their place. -/
def placeAfterDelete (start length offset : Int) : Int :=
  if start + length ≤ offset then offset - length else if start < offset then start else offset

/-- How many of the `length₂` characters from `start₂` on are among the `length₁` characters from
    `start₁` on. -/
def overlap (start₁ length₁ start₂ length₂ : Int) : Int :=
  max 0 (min (start₁ + length₁) (start₂ + length₂) - max start₁ start₂)

/-- Move an edit to where its place has come to be after another edit. A deletion around a place
    of insertion takes the inserted text along. -/
def rebase : Edit → Edit → Edit
  | delete _ start length, delete rule offset count =>
      if length ≤ 0 then delete rule offset count
      else
        delete rule (placeAfterDelete start length offset)
          (count - overlap start length offset count)
  | delete _ start length, insert rule offset text =>
      if length ≤ 0 then insert rule offset text
      else insert rule (placeAfterDelete start length offset) text
  | insert _ start new, delete rule offset count =>
      if start ≤ offset then delete rule (offset + new.length) count
      else if start < offset + count then delete rule offset (count + new.length)
      else delete rule offset count
  | insert _ start new, insert rule offset text =>
      insert rule (if start ≤ offset then offset + new.length else offset) text

/-- Make edits in their order. -/
def applyAll (line : Text) : List Edit → Text
  | [] => line
  | edit :: rest => applyAll (edit.applyTo line) (rest.map edit.rebase)
termination_by edits => edits.length

/-- The report of an edit: the line and the rule, and beneath the line a mark for what is to go or
    for the place where a text is missing. -/
def report (line : Text) (edit : Edit) : Text :=
  let heading := "Format error: line=\"".toText ++ line ++ "\" rule=\"".toText ++ edit.rule ++
    "\"\n".toText
  -- The line itself starts in this column.
  let column : Int := 20
  match edit with
  | delete _ offset length =>
      heading ++ List.replicate (column + offset).toNat (.char ' ') ++
        List.replicate length.toNat (.char '^')
  | insert _ offset text =>
      heading ++ List.replicate (column + offset).toNat (.char ' ') ++ .char '^' ::
        List.replicate (line.length - offset + 1).toNat (.char ' ') ++
        "use=\"".toText ++ text ++ "\"".toText

@[simp] theorem applyAll_nil (line : Text) : applyAll line [] = line := by
  rw [applyAll]

theorem applyAll_cons (line : Text) (edit : Edit) (rest : List Edit) :
    applyAll line (edit :: rest) = applyAll (edit.applyTo line) (rest.map edit.rebase) := by
  rw [applyAll]

/-- Induction along a run of edits. The edits that follow one are moved after it, so the recursion is
    on how many there are and not on the edits themselves. -/
theorem applyAll_induction {motive : Text → List Edit → Prop} (nil : ∀ line, motive line [])
    (cons : ∀ line edit rest, motive (edit.applyTo line) (rest.map edit.rebase) →
      motive line (edit :: rest)) (line : Text) (edits : List Edit) : motive line edits := by
  induction count : edits.length generalizing line edits with
  | zero =>
      rw [List.length_eq_zero_iff.mp count]
      exact nil line
  | succ n ih =>
      cases edits with
      | nil => cases count
      | cons edit rest =>
          apply cons
          apply ih
          simpa using count

end Edit

end Blocklist
