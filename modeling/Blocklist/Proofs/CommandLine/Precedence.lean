import Blocklist.Proofs.CommandLine.Jobs

/-! # What the command line decides

A variable of the environment has no say in an option that the command line gives. Only the name of
a format has to be that of a format in any case: a run is refused for the first name that is none,
and the name in the environment comes before the given one. So an environment shows in what is given
only by the name that a run is refused for.
-/

namespace Blocklist

namespace OutputFormat

/-- The fault in a name, if no format has it. -/
def fault? (name : Text) : Option InvalidFormat :=
  match ofName name with
  | .ok _ => none
  | .error invalid => some invalid

variable {name : Text}

theorem fault?_eq_none_iff : fault? name = none ↔ ∃ format, ofName name = .ok format := by
  unfold fault?
  cases ofName name <;> simp

theorem fault?_eq_some_iff {invalid : InvalidFormat} :
    fault? name = some invalid ↔ ofName name = .error invalid := by
  unfold fault?
  cases ofName name <;> simp

end OutputFormat

theorem InvalidFormat.message_injective {e e' : InvalidFormat} (same : e.message = e'.message) :
    e = e' := by
  obtain ⟨name⟩ := e
  obtain ⟨name'⟩ := e'
  simpa [message] using same

/-- Two environments say the same about every option that is not given. -/
structure Environment.AgreesBeside (given : Overrides) (e e' : Environment) : Prop where
  format : given.format = none → e.format = e'.format
  strict : given.strict = none → e.strict = e'.strict
  debug : given.debug = none → e.debug = e'.debug
  check : given.check = none → e.check = e'.check
  fix : given.fix = none → e.fix = e'.fix
  failFast : given.failFast = none → e.failFast = e'.failFast

/-- The fault in the name of a format that an environment holds. -/
def Environment.fault? (e : Environment) : Option InvalidFormat :=
  OutputFormat.fault? (formatName e.format)

namespace CommandLine

/-- What a run is refused for: the first name that no format has, of the one in the environment and
    the one that is given. -/
def refused? (e : Environment) (given : Overrides) : Option InvalidFormat :=
  e.fault?.or (given.format.bind OutputFormat.fault?)

section Options

variable {e e' : Environment} {r : Request}

theorem getD_isOn_congr {given : Option Bool} {value value' : Option Text}
    (same : given = none → value = value') :
    given.getD (Environment.isOn value) = given.getD (Environment.isOn value') := by
  cases given with
  | none => rw [same rfl]
  | some isOn => rfl

theorem options_eq_error_iff {invalid : InvalidFormat} :
    options e r = .error invalid ↔ refused? e r.overrides = some invalid := by
  rw [options, Options.ofEnvironment, refused?, Environment.fault?, OutputFormat.fault?]
  cases OutputFormat.ofName (Environment.formatName e.format) with
  | error fault =>
      change Except.error fault = .error invalid ↔ some fault = some invalid
      rw [Except.error.injEq, Option.some.injEq]
  | ok format =>
      change Options.override _ _ = _ ↔ r.overrides.format.bind _ = _
      rw [Options.override]
      cases given : r.overrides.format with
      | none =>
          simp [OutputFormat.change, Except.map]
      | some name =>
          rw [Option.bind_some, OutputFormat.fault?_eq_some_iff, OutputFormat.change]
          cases OutputFormat.ofName name <;> simp [Except.map]

theorem exists_options_iff : (∃ o, options e r = .ok o) ↔ refused? e r.overrides = none := by
  rw [Option.eq_none_iff_forall_ne_some]
  constructor
  · rintro ⟨o, decided⟩ invalid refused
    rw [options_eq_error_iff.mpr refused] at decided
    cases decided
  · intro accepted
    cases decided : options e r with
    | ok o => exact ⟨o, rfl⟩
    | error invalid => exact absurd (options_eq_error_iff.mp decided) (accepted invalid)

/-- What is given is all that two environments may differ in without a difference in the options,
    unless a run is refused. -/
theorem options_congr (agrees : Environment.AgreesBeside r.overrides e e')
    (accepted : refused? e r.overrides = none) (accepted' : refused? e' r.overrides = none) :
    options e r = options e' r := by
  have names (e : Environment) (accepted : refused? e r.overrides = none) :
      ∃ format, OutputFormat.ofName (Environment.formatName e.format) = .ok format :=
    OutputFormat.fault?_eq_none_iff.mp (Option.or_eq_none_iff.mp accepted).1
  obtain ⟨format, named⟩ := names e accepted
  obtain ⟨format', named'⟩ := names e' accepted'
  have same : format.change r.overrides.format = format'.change r.overrides.format := by
    cases given : r.overrides.format with
    | none =>
        rw [agrees.format given, named'] at named
        cases named
        rfl
    | some name => rfl
  rw [options, options, Options.ofEnvironment, Options.ofEnvironment, named, named']
  change Options.override _ _ = Options.override _ _
  simp only [Options.override, same, getD_isOn_congr agrees.strict, getD_isOn_congr agrees.debug,
    getD_isOn_congr agrees.check, getD_isOn_congr agrees.fix, getD_isOn_congr agrees.failFast]

end Options

section Runs

variable {e e' : Environment} {files : Files} {arguments : List Text} {r : Request}
  {invalid : InvalidFormat}

theorem noted_inj {code : Nat} {s s' : Text} :
    Outcome.noted code s = Outcome.noted code s' ↔ s = s' := by
  refine ⟨fun same => ?_, fun same => same ▸ rfl⟩
  have notes : "[transform_list] ".toText ++ s ++ [.char '\n'] =
      "[transform_list] ".toText ++ s' ++ [.char '\n'] := congrArg Outcome.stderr same
  rwa [List.append_cancel_right_eq, List.append_cancel_left_eq] at notes

theorem head?_message (invalid : InvalidFormat) : invalid.message.head? = some (.char '"') :=
  rfl

theorem run_job_ne_noted (job : Job) (content : Except ReadFailure (List UInt8))
    (invalid : InvalidFormat) : job.run content ≠ .noted 2 invalid.message := by
  intro same
  cases content with
  | error failure =>
      have first := congrArg List.head? (noted_inj.mp same)
      rw [head?_message] at first
      cases first
  | ok bytes =>
      have ending : (job.run (.ok bytes)).ending = .exit 2 := by rw [same]; rfl
      rw [Job.run] at ending
      cases decoded : Text.Utf8.decode bytes with
      | error fault =>
          rw [decoded] at ending
          cases ending
      | ok list =>
          rw [decoded] at ending
          rcases ending_transform job.options list.unifyBreaks with code | code
          · rw [code] at ending
            cases ending
          · rw [code] at ending
            cases ending

theorem unopenable?_ne_exit (path : Text) (code : Nat) : unopenable? path ≠ some (.exit code) := by
  unfold unopenable?
  split
  · simp
  · split
    · simp
    · simp

theorem run_of_refused (asked : Request.ofArguments arguments = .ok r)
    (refused : refused? e r.overrides = some invalid) :
    run e files arguments = .noted 2 invalid.message := by
  rw [run, plan, asked]
  dsimp only
  rw [options_eq_error_iff.mpr refused]

theorem run_ne_noted (asked : Request.ofArguments arguments = .ok r)
    (accepted : refused? e r.overrides = none) :
    run e files arguments ≠ .noted 2 invalid.message := by
  obtain ⟨o, decided⟩ := exists_options_iff.mpr accepted
  rw [run, plan, asked]
  dsimp only
  rw [decided]
  dsimp only
  by_cases nameless : r.path = []
  · rw [if_pos nameless]
    intro same
    have first := congrArg List.head? (noted_inj.mp same)
    rw [head?_message] at first
    cases first
  · rw [if_neg nameless]
    cases openable : unopenable? r.path with
    | some ending =>
        intro same
        exact unopenable?_ne_exit r.path 2 (openable.trans (congrArg (some ·.ending) same))
    | none => exact run_job_ne_noted _ _ invalid

theorem run_congr (asked : Request.ofArguments arguments = .ok r)
    (same : options e r = options e' r) : run e files arguments = run e' files arguments := by
  simp only [run, plan, asked, same]

/-- Two environments that differ only in what is given lead to the same run exactly if the run is
    refused for the same name, or for none in either of them. So they do when each of them holds the
    name of a format or none at all. -/
theorem run_eq_iff_of_agrees (asked : Request.ofArguments arguments = .ok r)
    (agrees : Environment.AgreesBeside r.overrides e e') :
    (run e files arguments = run e' files arguments ↔
      refused? e r.overrides = refused? e' r.overrides) ∧
    (e.fault? = none → e'.fault? = none → run e files arguments = run e' files arguments) := by
  have depends : run e files arguments = run e' files arguments ↔
      refused? e r.overrides = refused? e' r.overrides := by
    cases refused : refused? e r.overrides with
    | none =>
        cases refused' : refused? e' r.overrides with
        | none => exact iff_of_true (run_congr asked (options_congr agrees refused refused')) rfl
        | some invalid' =>
            rw [run_of_refused asked refused']
            exact iff_of_false (run_ne_noted asked refused) (by simp)
    | some invalid =>
        rw [run_of_refused asked refused]
        cases refused' : refused? e' r.overrides with
        | none => exact iff_of_false (Ne.symm (run_ne_noted asked refused')) (by simp)
        | some invalid' =>
            rw [run_of_refused asked refused', noted_inj, Option.some.injEq]
            exact ⟨InvalidFormat.message_injective, congrArg InvalidFormat.message⟩
  refine ⟨depends, fun sound sound' => depends.mpr ?_⟩
  rw [refused?, refused?, sound, sound']

/-- The name of another format and a word for yes have no say behind the options that are given, and
    the environments agree that there is to be a check. -/
theorem run_eq_beside_given :
    let e : Environment :=
      ⟨some " JSON".toText, some "yes".toText, none, some "On".toText, none, none⟩
    let e' : Environment := ⟨none, some "0".toText, none, some "On".toText, none, none⟩
    let files := (FileTree.ofPaths [("l".toText, .file " ||a.b^$3p".toUTF8.toList)]).read
    let arguments := ["-s".toText, "-f".toText, "hosts".toText, "l".toText]
    run e files arguments = run e' files arguments ∧
      (run e files arguments).stdout = "127.0.0.1 a.b\n".toText := by
  intro e e' files arguments
  have asked : Request.ofArguments arguments = .ok ⟨some "l".toText, none,
      ⟨some "hosts".toText, some true, none, none, none, none⟩, []⟩ := rfl
  have agrees : Environment.AgreesBeside
      ⟨some "hosts".toText, some true, none, none, none, none⟩ e e' :=
    ⟨nofun, nofun, fun _ => rfl, fun _ => rfl, fun _ => rfl, fun _ => rfl⟩
  refine ⟨(run_eq_iff_of_agrees asked agrees).2 ?_ ?_, ?_⟩
  · decide +kernel
  · decide +kernel
  · decide +kernel

/-- The environment asks for a format that there is none of. The run is refused for it although the
    command line asks for another one, and without it the run ends well. -/
theorem run_ne_beside_given :
    let e : Environment := ⟨some "xml".toText, none, none, none, none, none⟩
    let given : Overrides := ⟨some "list".toText, none, none, none, none, none⟩
    let files := (FileTree.ofPaths [("l".toText, .file "a\n".toUTF8.toList)]).read
    let arguments := ["-f".toText, "list".toText, "l".toText]
    Request.ofArguments arguments = .ok ⟨some "l".toText, none, given, []⟩ ∧
      Environment.AgreesBeside given e Environment.empty ∧
      (run e files arguments).ending = .exit 2 ∧ (run e files arguments).stdout = [] ∧
      run Environment.empty files arguments = ⟨.exit 0, "a\n\n".toText, []⟩ := by
  intro e given files arguments
  refine ⟨rfl, ⟨nofun, fun _ => rfl, fun _ => rfl, fun _ => rfl, fun _ => rfl, fun _ => rfl⟩, ?_⟩
  decide +kernel

end Runs

end CommandLine

end Blocklist
