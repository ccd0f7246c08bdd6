import Blocklist.CommandLine.Run

/-! # The jobs that command lines ask for

Options in front of a path ask for the same job whatever the path is, as long as it is read as an
operand and not as an option. Nothing is said by the environment here. A job whose list can be told
ends with 0, or with 1 when the check is aborted.
-/

namespace Blocklist.CommandLine

section Operands

variable {arguments : List Text} {path : Text} {tokens : List Token}

theorem Token.ofArguments_concat (read : ofArguments arguments = .ok tokens)
    (options : terminator ∉ tokens) (plain : ofArgument path = .ok (operand path)) :
    ofArguments (arguments ++ [path]) = .ok (tokens ++ [operand path]) := by
  induction arguments generalizing tokens with
  | nil =>
      have noEnd : path ≠ endOfOptions := by
        rintro rfl
        cases plain
      cases read
      rw [List.nil_append, ofArguments, if_neg noEnd, plain]
      rfl
  | cons argument rest ih =>
      rw [ofArguments] at read
      rw [List.cons_append, ofArguments]
      split at read
      · cases read
        exact absurd List.mem_cons_self options
      · next more =>
          rw [if_neg more]
          cases first : ofArgument argument with
          | error e =>
              rw [first] at read
              cases read
          | ok token =>
              rw [first] at read
              cases later : ofArguments rest with
              | error e =>
                  rw [later] at read
                  cases read
              | ok tokens' =>
                  rw [later] at read
                  cases read
                  rw [List.mem_cons, not_or] at options
                  dsimp only
                  rw [ih later options.2]
                  rfl

/-- A path that a command line can name behind its options. -/
structure IsOperand (path : Text) : Prop where
  /-- The path is not taken for an option, as a lone hyphen and a negative number are not. -/
  plain : Token.ofArgument path = .ok (.operand path)
  nonempty : path ≠ []
  openable : unopenable? path = none

/-- What options ask for they ask for with every path. -/
theorem plan_concat {overrides : Overrides} {o : Options} (operand : IsOperand path)
    (read : Token.ofArguments arguments = .ok tokens) (options : .terminator ∉ tokens)
    (request : Request.readFrom Request.empty (tokens ++ [.operand path]) =
      .ok ⟨some path, none, overrides, []⟩)
    (decided : Options.default.override overrides = .ok o) :
    plan Environment.empty (arguments ++ [path]) = .ok ⟨path, o⟩ := by
  have asked : Request.ofArguments (arguments ++ [path]) =
      .ok ⟨some path, none, overrides, []⟩ := by
    rw [Request.ofArguments, Token.ofArguments_concat read options operand.plain]
    change (Request.readFrom Request.empty _).bind _ = _
    rw [request]
    rfl
  have silent : Options.ofEnvironment Environment.empty = .ok Options.default := rfl
  have opts : CommandLine.options Environment.empty ⟨some path, none, overrides, []⟩ = .ok o := by
    rw [CommandLine.options, silent]
    exact decided
  have isPath : Request.path ⟨some path, none, overrides, []⟩ = path := rfl
  rw [plan, asked]
  dsimp only
  rw [opts]
  dsimp only
  rw [isPath, if_neg operand.nonempty, operand.openable]

end Operands

section Arguments

variable (format : OutputFormat) (strict failFast : Bool)

/-- A switch, if it is on. -/
def switchIf (isOn : Bool) (switch : Text) : List Text :=
  if isOn then [switch] else []

/-- Check a list. -/
def checking : List Text :=
  "-c".toText :: switchIf failFast "--fail-fast".toText

/-- Compile a list as it is. -/
def compiling : List Text :=
  "-f".toText :: format.name :: switchIf strict "-s".toText

/-- Check a list, and compile what the check makes of it. -/
def fixing : List Text :=
  "-c".toText :: "-a".toText :: "-f".toText :: format.name ::
    (switchIf strict "-s".toText ++ switchIf failFast "--fail-fast".toText)

variable {path : Text} (operand : IsOperand path)
include operand

theorem plan_checking : plan Environment.empty (checking failFast ++ [path]) =
    .ok ⟨path, ⟨.list, false, false, true, false, failFast⟩⟩ := by
  cases failFast
  · exact plan_concat operand rfl (by decide) rfl rfl
  · exact plan_concat operand rfl (by decide) rfl rfl

theorem plan_compiling : plan Environment.empty (compiling format strict ++ [path]) =
    .ok ⟨path, ⟨format, strict, false, false, false, false⟩⟩ := by
  cases format <;> cases strict <;> exact plan_concat operand rfl (by decide) rfl rfl

theorem plan_fixing : plan Environment.empty (fixing format strict failFast ++ [path]) =
    .ok ⟨path, ⟨format, strict, false, true, true, failFast⟩⟩ := by
  cases format <;> cases strict <;> cases failFast <;>
    exact plan_concat operand rfl (by decide) rfl rfl

end Arguments

section Endings

theorem ending_emit (o : Options) (source checked : Text) (log : List Log.Entry) :
    (emit o source checked log).ending = .exit 0 := by
  unfold emit
  split <;> rfl

theorem ending_transform (o : Options) (list : Text) :
    (transform o list).ending = .exit 0 ∨ (transform o list).ending = .exit 1 := by
  unfold transform
  split
  · split
    · exact .inr rfl
    · exact .inl (ending_emit _ _ _ _)
  · exact .inl (ending_emit _ _ _ _)

end Endings

end Blocklist.CommandLine
