import Blocklist.Proofs.Hostname.Places

/-! # Taking in a list place by place

A pass over a list may look for its hostnames place by place, and catch whatever goes wrong with a
line: the line counts as an error, and the log says what it was. Since no search misses a place, such
a pass does what the plain one does, and nothing is ever caught but a line that cannot be read.
-/

namespace Blocklist

/-- What following a ruling leaves in the log. -/
def Ruling.log (line : Text) : Ruling → List Log.Entry
  | allow host .path =>
      [⟨.debug, .hosts, Hosts.allowedText "Path-level exception set".toText host line⟩]
  | allow host .thirdParty =>
      [⟨.debug, .hosts, Hosts.allowedText "Third-party exception set".toText host line⟩]
  | allow _ .exception | block _ => []

namespace NetworkFilter

/-- What a filter means for a host, by the places of its pattern. The search in front of a path is
    only for an exception whose pattern is no hostname. -/
def rulingByPlaces (strict : Bool) (f : NetworkFilter) : Except Problem (Option Ruling) := do
  match f.isException, ← f.hostnameByPlaces with
  | true, some host => return some (.allow host .exception)
  | true, none =>
      if strict then return none
      else
        let host ← f.pathHostnameByPlaces
        return host.map (.allow · .path)
  | false, some host =>
      if !strict && f.modifierNames.any isThirdParty then return some (.allow host .thirdParty)
      else return some (.block host)
  | false, none => return none

theorem rulingByPlaces_eq (strict : Bool) (f : NetworkFilter) :
    f.rulingByPlaces strict = .ok (f.ruling? strict) := by
  unfold rulingByPlaces ruling?
  simp only [hostnameByPlaces_eq, pathHostnameByPlaces_eq, bind, Except.bind]
  cases f.isException with
  | true =>
      cases f.hostname? with
      | some host => rfl
      | none => cases strict <;> rfl
  | false =>
      cases f.hostname? with
      | some host =>
          dsimp only
          split <;> rfl
      | none => rfl

end NetworkFilter

namespace Hosts

/-- What a line means for a host, or what goes wrong with it. -/
def rulingOfLine (strict : Bool) (line : Text) : Except Problem (Option Ruling) :=
  match Record.ofLine line with
  | .error fault => .error fault.toProblem
  | .ok (.network f) => f.rulingByPlaces strict
  | .ok (.other _) | .ok (.cosmetic _) => .ok none

/-- Take in a line, whatever goes wrong with it. -/
def feedByPlaces (strict : Bool) (h : Hosts) (line : Text) : Hosts × List Log.Entry :=
  let counted := { h with lines := h.lines + 1 }
  match rulingOfLine strict line with
  | .error problem =>
      ({ counted with errors := h.errors + 1 }, [Log.skipped .hosts line problem])
  | .ok none => (counted, [])
  | .ok (some ruling) => (counted.follow ruling, ruling.log line)

/-- Take in lines one after the other, with the log of them all. -/
def feedAllByPlaces (strict : Bool) (h : Hosts) : List Text → Hosts × List Log.Entry
  | [] => (h, [])
  | line :: rest =>
      let (fed, log) := h.feedByPlaces strict line
      let (all, later) := fed.feedAllByPlaces strict rest
      (all, log ++ later)

/-- With one line nothing else can go wrong than that it cannot be read. -/
theorem feedByPlaces_eq (strict : Bool) (h : Hosts) (line : Text) :
    h.feedByPlaces strict line = (h.feed strict line, lineLog strict line) := by
  unfold feedByPlaces rulingOfLine feed lineLog
  cases Record.ofLine line with
  | error fault => rfl
  | ok record =>
      cases record with
      | network f =>
          simp only [NetworkFilter.rulingByPlaces_eq, Record.ruling?]
          cases f.ruling? strict with
          | none => rfl
          | some ruling =>
              cases ruling with
              | block host => rfl
              | allow host ground => cases ground <;> rfl
      | other line => rfl
      | cosmetic f => rfl

theorem feedAllByPlaces_eq (strict : Bool) (h : Hosts) (lines : List Text) :
    h.feedAllByPlaces strict lines =
      (h.feedAll strict lines, lines.flatMap (lineLog strict)) := by
  induction lines generalizing h with
  | nil => rfl
  | cons line rest ih =>
      simp only [feedAllByPlaces, feedByPlaces_eq, ih]
      rfl

end Hosts

end Blocklist
