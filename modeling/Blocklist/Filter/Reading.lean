import Blocklist.Filter.Section

/-! # Reading a line

Every line can be read except one whose cosmetic marker is malformed. A network line is taken apart
into parts that can be put together again, so nothing of it is lost.
-/

namespace Blocklist

/-- How a network pattern is tied to the address from the left. -/
inductive Anchor where
  /-- Not at all. -/
  | none
  /-- A hostname or one of its parent domains starts there. -/
  | subdomains
  /-- The address itself starts there. -/
  | address
  deriving Repr, DecidableEq

namespace Anchor

def mark : Anchor → Text
  | none => []
  | subdomains => [.char '|', .char '|']
  | address => [.char '|']

end Anchor

/-- A network line taken apart. -/
structure NetworkLine where
  indent : Text
  isException : Bool
  anchor : Anchor
  pattern : Text
  /-- A bar ends the pattern. -/
  endAnchor : Bool
  /-- What follows the dollar sign that opens the modifier section. -/
  modifierSection : Option Text
  deriving Repr, DecidableEq

namespace NetworkLine

def exceptionMark : Bool → Text
  | true => [.char '@', .char '@']
  | false => []

def endMark : Bool → Text
  | true => [.char '|']
  | false => []

def sectionMark : Option Text → Text
  | none => []
  | some modifiers => .char '$' :: modifiers

def takeException : Text → Bool × Text
  | .char '@' :: .char '@' :: rest => (true, rest)
  | s => (false, s)

def takeAnchor : Text → Anchor × Text
  | .char '|' :: .char '|' :: rest => (.subdomains, rest)
  | .char '|' :: rest => (.address, rest)
  | s => (.none, s)

def takeEndAnchor (s : Text) : Text × Bool :=
  if s.getLast? = some (.char '|') then (s.dropLast, true) else (s, false)

/-- Take a line apart. -/
def ofLine (line : Text) : NetworkLine :=
  let (isException, unmarked) := takeException (line.dropWhile Text.isBlank)
  let (anchor, rest) := takeAnchor unmarked
  let (address, modifierSection) := Section.cut rest
  let (pattern, endAnchor) := takeEndAnchor address
  ⟨line.takeWhile Text.isBlank, isException, anchor, pattern, endAnchor, modifierSection⟩

def front (l : NetworkLine) : Text :=
  l.indent ++ exceptionMark l.isException ++ l.anchor.mark

def back (l : NetworkLine) : Text :=
  endMark l.endAnchor ++ sectionMark l.modifierSection

/-- Put a line together again. -/
def toLine (l : NetworkLine) : Text :=
  l.front ++ l.pattern ++ l.back

def patternStart (l : NetworkLine) : Nat :=
  l.front.length

def patternEnd (l : NetworkLine) : Nat :=
  l.patternStart + l.pattern.length

/-- Where the modifier section starts, if there is one: behind its dollar sign. -/
def sectionStart (l : NetworkLine) : Nat :=
  l.patternEnd + (endMark l.endAnchor).length + 1

def entries (l : NetworkLine) : List Text :=
  match l.modifierSection with
  | none => []
  | some modifiers => Section.entries modifiers

/-- The filter that the parts describe. -/
def toFilter (l : NetworkLine) : NetworkFilter where
  line := l.toLine
  pattern := l.pattern
  isException := l.isException
  matchSubdomains := l.anchor == .subdomains
  matchBeginning := l.anchor == .address
  matchEnd := l.endAnchor
  modifiers := l.entries.map Modifier.ofEntry
  markers := ⟨⟨l.patternStart, l.patternEnd⟩, ModifierMark.ofEntries l.sectionStart l.entries⟩

theorem takeException_append (s : Text) :
    exceptionMark (takeException s).1 ++ (takeException s).2 = s := by
  fun_cases takeException s <;> rfl

theorem takeAnchor_append (s : Text) : (takeAnchor s).1.mark ++ (takeAnchor s).2 = s := by
  fun_cases takeAnchor s <;> rfl

theorem takeEndAnchor_append (s : Text) :
    (takeEndAnchor s).1 ++ endMark (takeEndAnchor s).2 = s := by
  unfold takeEndAnchor
  split
  · next h =>
      obtain ⟨t, rfl⟩ := List.getLast?_eq_some_iff.1 h
      simp [endMark]
  · simp [endMark]

theorem cut_append (s : Text) : (Section.cut s).1 ++ sectionMark (Section.cut s).2 = s := by
  fun_induction Section.cut s with
  | case1 => rfl
  | case2 c rest h =>
      simp only [Bool.and_eq_true, decide_eq_true_eq] at h
      simp [sectionMark, h.1]
  | case3 c rest _ ih => simpa using ih

theorem toLine_ofLine (line : Text) : (ofLine line).toLine = line := by
  simp only [ofLine, toLine, front, back, List.append_assoc]
  rw [← List.append_assoc (takeEndAnchor _).1, takeEndAnchor_append, cut_append,
    takeAnchor_append, takeException_append, List.takeWhile_append_dropWhile]

end NetworkLine

/-- A character in a cosmetic marker that neither ends the marker nor makes it an exception. -/
structure MarkerFault where
  found : CodePoint
  position : Nat
  deriving Repr, DecidableEq

namespace MarkerFault

def message (f : MarkerFault) : Text :=
  "Expected \"#\" or \"@\" for cosmetic filter marker but saw \"".toText ++ f.found ::
    "\" at position \"".toText ++ Text.ofCount f.position ++ "\"!".toText

end MarkerFault

namespace CosmeticFilter

/-- Read what follows the first number sign of a cosmetic line. The marker goes on with any count of
    at signs, each of which makes the filter an exception, and ends with a second number sign or
    with the line. -/
def ofMarker (line hostname rest : Text) : Except MarkerFault CosmeticFilter :=
  let ats := rest.takeWhile (· == .char '@')
  match rest.dropWhile (· == .char '@') with
  | [] => .ok ⟨line, hostname, [], !ats.isEmpty⟩
  | .char '#' :: selector => .ok ⟨line, hostname, selector, !ats.isEmpty⟩
  | found :: _ => .error ⟨found, hostname.length + 1 + ats.length⟩

end CosmeticFilter

namespace Record

/-- The characters of which the first one decides what a line is. All but the number sign are part
    of comments, headers and addresses; the number sign never occurs in an address. -/
def isDecisive (c : CodePoint) : Bool :=
  "[!/:^@|#".toText.contains c

/-- Read a line. A line without any of those characters is a network line, unless it is empty. -/
def ofLine (line : Text) : Except MarkerFault Record :=
  match line with
  | [] => .ok (other [])
  | _ :: _ =>
      match line.dropWhile (!isDecisive ·) with
      | .char '[' :: _ | .char '!' :: _ => .ok (other line)
      | .char '#' :: rest =>
          (CosmeticFilter.ofMarker line (line.takeWhile (!isDecisive ·)) rest).map cosmetic
      | _ => .ok (network (NetworkLine.ofLine line).toFilter)

end Record

end Blocklist
