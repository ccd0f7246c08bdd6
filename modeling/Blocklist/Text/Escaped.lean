import Blocklist.Text.Basic

/-! # Separators protected by a backslash

A backslash and the character after it form one unit, whatever that character is, so a protected
separator does not separate. A backslash at the very end stands alone. Backslashes are kept: reading
a text this way never changes its characters.
-/

namespace Blocklist.Text

/-- Cut a text at every bare separator, which is left out. -/
def splitBare (sep : CodePoint) : Text → List Text
  | [] => [[]]
  | .char '\\' :: c :: rest => (splitBare sep rest).modifyHead (.char '\\' :: c :: ·)
  | c :: rest =>
      if c = sep then [] :: splitBare sep rest else (splitBare sep rest).modifyHead (c :: ·)

/-- The part of a text in front of its first bare separator, and the part behind it if there is
    one. -/
def cutBare (sep : CodePoint) : Text → Text × Option Text
  | [] => ([], none)
  | .char '\\' :: c :: rest => (.char '\\' :: c :: (cutBare sep rest).1, (cutBare sep rest).2)
  | c :: rest =>
      if c = sep then ([], some rest) else (c :: (cutBare sep rest).1, (cutBare sep rest).2)

theorem splitBare_ne_nil (sep : CodePoint) (s : Text) : splitBare sep s ≠ [] := by
  fun_induction splitBare sep s <;> simp_all [List.modifyHead_eq_nil_iff]

end Blocklist.Text
