import NeonTests.ErrorLog.Definitions
import NeonTests.Lib.Text

/-!
# Command line — the arguments `run` gives to pytest

`run` of `clickfile.py`: the command line is built as one string and taken apart at the blanks.

* `filters_selected_iff` — the two filters reach pytest as they were given, and the other
  arguments are those of the command without them, if and only if they have no blanks.
-/

namespace NeonTests.Clickfile

open Python ErrorLog Text

/-! ## The command -/

inductive EnvName
  | nightStand
  | releaseStand
  | mainnet
  | devnet
  | testnet
  | localNet
  | terraform
  | geth
  | tracerCi
  | custom
  | dockerNet
  deriving DecidableEq, Repr

def EnvName.value : EnvName → String
  | nightStand => "night-stand"
  | releaseStand => "release-stand"
  | mainnet => "mainnet"
  | devnet => "devnet"
  | testnet => "testnet"
  | localNet => "local"
  | terraform => "terraform"
  | geth => "geth"
  | tracerCi => "tracer_ci"
  | custom => "custom"
  | dockerNet => "docker_net"

/-- `f"{network}"` of an option that may not be given -/
def formatNetwork : Option EnvName → String
  | some network => network.value
  | none => "None"

inductive UiItem
  | faucet
  | neonpass
  | all
  deriving DecidableEq, Repr

def UiItem.value : UiItem → String
  | faucet => "faucet"
  | neonpass => "neonpass"
  | all => "all"

/-- The options that the command line of pytest depends on. -/
structure Options where
  name : TestGroup
  numprocesses : Option String
  uiItem : UiItem
  network : Option EnvName
  case : String
  keepErrorLog : Bool
  marker : Option String
  costReportsDir : String

/-- `os.environ.get("CHROME_EXT_PASSWORD")`, and the wait for the tracer, which may fail. -/
structure Environment where
  chromeExtPassword : Option String
  waitForTracerService : Option EnvName → Except PyError Unit

/-- `click.style(s, fg="red")` -/
def red (s : String) : String := "\x1b[31m" ++ s ++ "\x1b[0m"

/-- `if numprocesses: command = f"{command} --numprocesses {numprocesses}{dist}"` -/
def parallel (command : String) (numprocesses : Option String) (dist : String) : String :=
  match numprocesses with
  | none => command
  | some n => if n = "" then command else command ++ " --numprocesses " ++ n ++ dist

/-- The command up to the filters; none where pytest is not run at all. -/
def baseCommand (o : Options) (network : Option EnvName) (env : Environment) :
    Except PyError (Option String) :=
  match o.name with
  | .economy => .ok (some "py.test integration/tests/economy/test_economics.py")
  | .basic =>
    let command :=
      if network = some .mainnet then "py.test integration/tests/basic -m mainnet"
      else "py.test integration/tests/basic"
    .ok (some (parallel command o.numprocesses " --dist loadgroup"))
  | .tracer => .ok (some "py.test -n 5 integration/tests/tracer")
  | .services => .ok (some (parallel "py.test integration/tests/services" o.numprocesses ""))
  | .compilerCompatibility =>
    .ok (some (parallel "py.test integration/tests/compiler_compatibility" o.numprocesses
      " --dist loadscope"))
  | .evm => .ok (some (parallel "py.test integration/tests/neon_evm" o.numprocesses ""))
  | .oz => .ok none
  | .ui =>
    if env.chromeExtPassword.getD "" = "" then
      .error (.exception (red
        "Please set the `CHROME_EXT_PASSWORD` environment variable (password for wallets)."))
    else if o.uiItem ≠ .all then
      .ok (some ("py.test ui/tests" ++ "/test_" ++ o.uiItem.value ++ ".py"))
    else .ok (some "py.test ui/tests")

/-- `command += f' {flag} "{value}"'` or `command += f" {flag} {value}"` -/
def addFilter (flag : String) (command value : String) : String :=
  if value = "" then command
  else if contains value " " then command ++ " " ++ flag ++ " \"" ++ value ++ "\""
  else command ++ " " ++ flag ++ " " ++ value

def addCase : String → String → String := addFilter "-vk"

def addMarker : String → String → String := addFilter "-m"

/-- The command from the filters on. -/
def addOptions (o : Options) (network : Option EnvName) (command : String) : String :=
  let command := command ++ " -s --network=" ++ formatNetwork network ++
    " --make-report --test-group " ++ o.name.name
  let command := if o.keepErrorLog then command ++ " --keep-error-log" else command
  if o.costReportsDir = "" then command else command ++ " --cost_reports_dir " ++ o.costReportsDir

/-- `if not network and name == "ui": network = "devnet"` -/
def Options.target (o : Options) : Option EnvName :=
  if o.network = none ∧ o.name = .ui then some .devnet else o.network

def waitForTracer (env : Environment) (o : Options) (network : Option EnvName) :
    Except PyError Unit :=
  if o.name = .tracer ∧ network ≠ some .geth then env.waitForTracerService network else .ok ()

/-- The whole command. -/
def commandLine (o : Options) (network : Option EnvName) (command : String) : String :=
  addOptions o network (addMarker (addCase command o.case) (o.marker.getD ""))

/-- What `run` passes to `pytest.main`; none for the group that is not run by pytest. -/
def runArgs (env : Environment) (o : Options) : Except PyError (Option (List String)) := do
  match ← baseCommand o o.target env with
  | none => return none
  | some command =>
    waitForTracer env o o.target
    -- `command.split()[1:]`
    return some ((words isSpace (commandLine o o.target command)).drop 1)

/-! ## The filters -/

/-- The same command without the two filters. -/
def Options.unfiltered (o : Options) : Options := { o with case := "", marker := none }

/-- Each filter is one argument behind its flag; the others are as without the filters. -/
def Selected (case marker : String) (args base : List String) : Prop :=
  ∃ a b c, args = a ++ ["-vk", case] ++ b ++ ["-m", marker] ++ c ∧ base = a ++ b ++ c

def NoBlanks (s : String) : Prop := ∀ c ∈ s.toList, isSpace c = false

theorem contains_space {s : String} (h : NoBlanks s) : contains s " " = false := by
  rw [contains, decide_eq_false_iff_not]
  intro hspace
  have := h ' ' (hspace.subset (by simp))
  simp [isSpace] at this

/-- A filter without blanks is two arguments. -/
theorem words_addFilter {flag value : String} (hflag : words isSpace flag = [flag])
    (hne : value ≠ "") (hvalue : NoBlanks value) (command : String) :
    words isSpace (addFilter flag command value) = words isSpace command ++ [flag, value] := by
  rw [addFilter, if_neg hne, contains_space hvalue, if_neg (by simp), words_append rfl,
    words_append rfl, hflag, words_of_forall hvalue hne]
  simp

/-- What comes behind the filters is set off by a blank. -/
theorem addOptions_eq (o : Options) (network : Option EnvName) :
    ∃ rest, ∀ command, addOptions o network command = command ++ " " ++ rest := by
  refine ⟨"-s --network=" ++ formatNetwork network ++ " --make-report --test-group " ++
    o.name.name ++ (if o.keepErrorLog then " --keep-error-log" else "") ++
    if o.costReportsDir = "" then "" else " --cost_reports_dir " ++ o.costReportsDir, ?_⟩
  intro command
  rw [← String.toList_inj]
  cases hkeep : o.keepErrorLog <;> by_cases hdir : o.costReportsDir = "" <;>
    simp [addOptions, hkeep, hdir]

/-- The program's name is the first word. -/
def Starts (command : String) : Prop := ∃ rest, command = "py.test" ++ " " ++ rest

theorem Starts.append {command : String} (h : Starts command) (more : String) :
    Starts (command ++ more) := by
  obtain ⟨rest, rfl⟩ := h
  exact ⟨rest ++ more, String.append_assoc⟩

theorem Starts.parallel {command : String} (h : Starts command) (numprocesses : Option String)
    (dist : String) : Starts (parallel command numprocesses dist) := by
  rcases numprocesses with _ | n
  · exact h
  · rw [Clickfile.parallel]
    split
    · exact h
    · exact ((h.append _).append _).append _

theorem starts_baseCommand {o : Options} {network : Option EnvName} {env : Environment}
    {command : String} (h : baseCommand o network env = .ok (some command)) : Starts command := by
  rcases hname : o.name with _ | _ | _ | _ | _ | _ | _ | _ <;>
    simp only [baseCommand, hname, Except.ok.injEq, Option.some.injEq, reduceCtorEq] at h
  · exact ⟨"integration/tests/economy/test_economics.py", h.symm⟩
  · subst h
    refine Starts.parallel ?_ _ _
    split
    · exact ⟨"integration/tests/basic -m mainnet", rfl⟩
    · exact ⟨"integration/tests/basic", rfl⟩
  · exact ⟨"-n 5 integration/tests/tracer", h.symm⟩
  · subst h
    exact Starts.parallel ⟨"integration/tests/services", rfl⟩ _ _
  · split at h
    · cases h
    · have htests : Starts "py.test ui/tests" := ⟨"ui/tests", rfl⟩
      split at h
      · cases h
        exact ((htests.append _).append _).append _
      · cases h
        exact htests
  · subst h
    exact Starts.parallel ⟨"integration/tests/neon_evm", rfl⟩ _ _
  · subst h
    exact Starts.parallel ⟨"integration/tests/compiler_compatibility", rfl⟩ _ _

/-! ## The arguments -/

variable {env : Environment} {o : Options}

theorem runArgs_eq {args : List String} : runArgs env o = .ok (some args) ↔
    ∃ command, baseCommand o o.target env = .ok (some command) ∧
      waitForTracer env o o.target = .ok () ∧
      args = (words isSpace (commandLine o o.target command)).drop 1 := by
  rw [runArgs, Fallible.bind_eq_ok]
  constructor
  · rintro ⟨_ | command, hcommand, h⟩
    · cases h
    · obtain ⟨⟨⟩, hwait, h⟩ := Fallible.bind_eq_ok.mp h
      cases h
      exact ⟨command, hcommand, hwait, rfl⟩
  · rintro ⟨command, hcommand, hwait, rfl⟩
    exact ⟨some command, hcommand, by simp only [hwait, Fallible.ok_bind]; rfl⟩

/-- With the filters the command is run where it is run without them. -/
theorem runArgs_of_unfiltered {base : List String} (h : runArgs env o.unfiltered = .ok (some base)) :
    ∃ command, Starts command ∧ base = (words isSpace (addOptions o o.target command)).drop 1 ∧
      runArgs env o = .ok (some ((words isSpace (commandLine o o.target command)).drop 1)) := by
  obtain ⟨command, hcommand, hwait, hbase⟩ := runArgs_eq.mp h
  refine ⟨command, starts_baseCommand hcommand, ?_, ?_⟩
  · rw [hbase]
    rfl
  · exact runArgs_eq.mpr ⟨command, hcommand, hwait, rfl⟩

/-- No argument has a blank in it. -/
theorem noBlanks_of_mem {args : List String} (h : runArgs env o = .ok (some args)) {arg : String}
    (harg : arg ∈ args) : NoBlanks arg := by
  obtain ⟨command, -, -, rfl⟩ := runArgs_eq.mp h
  exact forall_of_mem_words (List.mem_of_mem_drop harg)

/-- **The filters.** For every group that is run by pytest, with any other options and any two
filters: the arguments have each filter as one argument behind its flag and are otherwise those
without the filters, if and only if neither filter has a blank in it. -/
theorem filters_selected_iff (env : Environment) (o : Options) (marker : String)
    (base : List String) (hcase : o.case ≠ "") (hmarker : o.marker = some marker)
    (hne : marker ≠ "") (hbase : runArgs env o.unfiltered = .ok (some base)) :
    ∃ args, runArgs env o = .ok (some args) ∧
      (Selected o.case marker args base ↔ NoBlanks o.case ∧ NoBlanks marker) := by
  obtain ⟨command, ⟨first, hfirst⟩, rfl, hargs⟩ := runArgs_of_unfiltered hbase
  refine ⟨_, hargs, ?_, ?_⟩
  · rintro ⟨a, b, c, heq, -⟩
    exact ⟨noBlanks_of_mem hargs (by simp [heq]), noBlanks_of_mem hargs (by simp [heq])⟩
  · rintro ⟨hcaseBlanks, hmarkerBlanks⟩
    obtain ⟨rest, hrest⟩ := addOptions_eq o o.target
    have hprogram : words isSpace "py.test" = ["py.test"] := rfl
    refine ⟨words isSpace first, [], words isSpace rest, ?_, ?_⟩
    · rw [commandLine, hmarker, Option.getD_some, hrest, words_append rfl, addMarker,
        words_addFilter rfl hne hmarkerBlanks, addCase, words_addFilter rfl hcase hcaseBlanks,
        hfirst, words_append rfl, hprogram]
      simp
    · rw [hrest, words_append rfl, hfirst, words_append rfl, hprogram]
      simp

/-- `run evm --network geth` with two filters. -/
def sampleOptions (case marker : String) : Options where
  name := .evm
  numprocesses := none
  uiItem := .all
  network := some .geth
  case := case
  keepErrorLog := false
  marker := some marker
  costReportsDir := ""

def sampleEnvironment : Environment := ⟨none, fun _ => .ok ()⟩

set_option maxRecDepth 2048 in
theorem filters_selected_iff_sample :
    ∃ args, runArgs sampleEnvironment (sampleOptions "test_a" "smoke") = .ok (some args) ∧
      (Selected "test_a" "smoke" args
          ["integration/tests/neon_evm", "-s", "--network=geth", "--make-report",
            "--test-group", "evm"] ↔
        NoBlanks "test_a" ∧ NoBlanks "smoke") :=
  filters_selected_iff sampleEnvironment (sampleOptions "test_a" "smoke") "smoke" _
    (by decide) rfl (by decide) rfl

set_option maxRecDepth 2048 in
/-- The case is taken apart, with the quotation marks in it. -/
theorem filters_split :
    runArgs sampleEnvironment (sampleOptions "a and not b" "smoke") = .ok (some
      ["integration/tests/neon_evm", "-vk", "\"a", "and", "not", "b\"", "-m", "smoke",
        "-s", "--network=geth", "--make-report", "--test-group", "evm"]) ∧
    ∀ args base, runArgs sampleEnvironment (sampleOptions "a and not b" "smoke") = .ok (some args) →
      ¬ Selected "a and not b" "smoke" args base := by
  refine ⟨rfl, ?_⟩
  rintro args base hargs ⟨a, b, c, heq, -⟩
  have hblanks : NoBlanks "a and not b" := noBlanks_of_mem hargs (by simp [heq])
  have := hblanks ' ' (by decide)
  simp [isSpace] at this

end NeonTests.Clickfile
