import CiPipeline.Build
import CiPipeline.Suite.Tally

/-
The test categories. Each takes a configuration and a tally and gives the tally with its checks
entered. What is optional and not there (a graphics driver, a library, a directory) is skipped and
does not count as failed.
-/

namespace CiPipeline

/-- What the test suite is to do. -/
structure SuiteConfig where
  source : Path
  coverage : Bool := false
  verbose : Bool := false
  failFast : Bool := false

namespace SuiteConfig

/-- The configuration for the source directory asked for, or that of the surroundings. -/
def ofSource (h : Host) (source : Option Value) (coverage verbose failFast : Bool) : Except Fault SuiteConfig :=
  (h.expandValue (source.getD (.text (Settings.sourceDirectory h.env h.here none)))).map fun p =>
    ⟨p, coverage, verbose, failFast⟩

/-- Where the tests are. -/
def tests (c : SuiteConfig) : Path := c.source.child "tests"

/-- Where coverage reports go. -/
def coverageReports (c : SuiteConfig) : Path := c.source.child "coverage"

/-- Where test reports go. -/
def reports (c : SuiteConfig) : Path := c.source.child "test-reports"

/-- Where the native code is built. -/
def build (c : SuiteConfig) : Path := c.source.child "build"

end SuiteConfig

/-- A test category. -/
abbrev Category := SuiteConfig → Tally → Act Tally

namespace Category

/-- Runs a snippet with the interpreter of the sources; nothing if it cannot be run or takes too long. -/
def snippet (c : SuiteConfig) (code : String) : Act (Option Ended) := do
  let h ← get
  let ask : Command := {
    program := .words [Build.python, "-c", code]
    cwd := some c.source.text
    env := some (Build.sourceEnv c.source h)
    timeout := some (.int h.settings.smokeTimeout)
    reads := true }
  (some <$> ask.start).recover (fun f => f.isOs || f.isTimeout) fun _ => pure none

/-- Whether a snippet was run and succeeded. -/
def isSuccess (e : Option Ended) : Bool := e.any Ended.isSuccess

/-- What a snippet printed if it succeeded, without the blanks around it. -/
def printed? (e : Option Ended) : Option String := (e.filter Ended.isSuccess).map fun e => Text.strip e.out

/-- Whether the installed module can be imported. -/
def importable (c : SuiteConfig) : Act Bool := isSuccess <$> snippet c "import mlc_llm"

/-- Checks the version of the installed module. -/
def checkModuleVersion (c : SuiteConfig) (t : Tally) : Act Tally := do
  let e ← snippet c "import mlc_llm; print(getattr(mlc_llm, '__version__', 'unknown'))"
  match (printed? e).filter fun v => v ≠ "" && v ≠ "unknown" with
  | some version => t.pass ("MLC-LLM version: " ++ version)
  | none => t.skip "MLC-LLM version information not available"

/-- Checks the variable that names the source directory. -/
def checkSourceVariable (t : Tally) : Act Tally := do
  let h ← get
  match Settings.given? h.env Settings.sourceVariable with
  | none => t.skip (Settings.sourceVariable ++ " is not set")
  | some source =>
    if h.has (Path.parse source) then t.pass (Settings.sourceVariable ++ " exists: " ++ source)
    else t.reject (Settings.sourceVariable ++ " " ++ source ++ " does not exist")

/-- Whether the interpreter works, and the module with it. -/
def imports : Category := fun c t => do
  Console.test "Running import tests..."
  if !isSuccess (← snippet c "import sys; print(sys.version)") then t.reject "Python is not available"
  else
    let t ← t.pass "Python is available"
    if !(← importable c) then t.reject "Failed to import MLC-LLM"
    else
      let t ← t.pass "MLC-LLM can be imported"
      let t ← checkModuleVersion c t
      checkSourceVariable t

/-- Checks a version line against what is required. -/
def checkLeastVersion (name least line : String) (t : Tally) : Act Tally := do
  match ← Act.ofExcept .digits (Version.parse line) with
  | none => t.reject ("Could not parse " ++ name ++ " version from " ++ Text.quoted line)
  | some found =>
    if ← Act.ofExcept id (Version.reaches found.parts least) then
      t.pass (name ++ " meets minimum version " ++ least)
    else t.reject (name ++ " " ++ least ++ "+ required, got " ++ found.text)

/-- Checks one required tool. -/
def checkTool (t : Tally) (tool : String × String) : Act Tally := do
  let (name, program) := tool
  if !(← get).finds program then t.reject (name ++ " is not available")
  else
    let line := ((← Toolchain.versionLine program).filter (· ≠ "")).getD "version unknown"
    let t ← t.pass (name ++ " is available: " ++ line)
    match Toolchain.leastVersions.get? name with
    | some least => checkLeastVersion name least line t
    | none => return t

/-- Checks the graphics driver. -/
def checkDriver (t : Tally) : Act Tally := do
  let h ← get
  if !h.finds "nvidia-smi" then t.skip "NVIDIA drivers not available"
  else
    let ask : Command :=
      { program := .words ["nvidia-smi"], timeout := some (.int h.settings.smokeTimeout), reads := true }
    let e ← (some <$> ask.start).recover (fun f => f.isOs || f.isTimeout) fun _ => pure none
    if isSuccess e then t.pass "NVIDIA driver is available"
    else t.skip "nvidia-smi present but no usable GPU found"

/-- Whether the tools of a build are there. -/
def dependencies : Category := fun _ t => do
  Console.test "Running dependency tests..."
  let t ← Toolchain.required.entries.foldlM checkTool t
  checkDriver t

/-- Checks one library of a build. -/
def checkBuilt (c : SuiteConfig) (t : Tally) (library : String × List String) : Act Tally := do
  match Build.findLibrary (← get) c.build library.2 with
  | some found => t.pass ("Found " ++ library.1 ++ " library: " ++ found)
  | none => t.skip ("No " ++ library.1 ++ " libraries found in build directory")

/-- Whether the libraries of a build are there. -/
def libraries : Category := fun c t => do
  Console.test "Running library tests..."
  if !(← get).hasDirectory c.build then t.skip "Build directory not found, skipping library tests"
  else Build.libraries.foldlM (checkBuilt c) t

/-- The command line of the project's own tests. -/
def pytestWords (c : SuiteConfig) (withCoverage : Bool) : List String :=
  [Build.python, "-m", "pytest", c.tests.text, if c.verbose then "-v" else "-q", "--tb=short",
    "--junitxml=" ++ (c.reports.child "junit.xml").text] ++
  (if c.failFast then ["-x"] else []) ++
  if withCoverage then
    ["--cov=mlc_llm",
      "--cov-report=xml:" ++ (c.coverageReports.child "coverage.xml").text,
      "--cov-report=html:" ++ (c.coverageReports.child "html").text,
      "--cov-report=term"]
  else []

/-- Installs the test tool and says whether that succeeded. -/
def installPytest : Act Bool := do
  Console.warning "pytest not available, installing..."
  let ask : Command :=
    { program := .words [Build.python, "-m", "pip", "install", "pytest", "pytest-cov", "pytest-xdist"] }
  isSuccess <$> (some <$> ask.start).recover Fault.isOs fun _ => pure none

/-- Runs the project's own tests. -/
def runPytest (c : SuiteConfig) (t : Tally) : Act Tally := do
  let withCoverage ← if c.coverage then importable c else pure false
  let ask : Command := {
    program := .words (pytestWords c withCoverage)
    cwd := some c.source.text
    env := some (Build.sourceEnv c.source (← get)) }
  match ← ask.start.attempt with
  | .ok e => if e.isSuccess then t.pass "Pytest tests passed" else t.reject "Some pytest tests failed"
  | .error f => if f.isOs then t.reject ("Could not run pytest: " ++ f.message) else .fail f

/-- Whether the project's own tests pass. -/
def pytest : Category := fun c t => do
  Console.test "Running pytest tests..."
  if !(← get).hasDirectory c.tests then t.skip "Test directory not found, skipping pytest tests"
  else if isSuccess (← snippet c "import pytest") then runPytest c t
  else if ← installPytest then runPytest c t
  else t.reject "Failed to install pytest"

/-- A snippet that prints how long the import takes. -/
def importTimer : String :=
  "\nimport time\nstart = time.time()\nimport mlc_llm\nprint(f'\x7btime.time() - start:.3f\x7d')\n"

/-- How long the import of the module takes. -/
def performance : Category := fun c t => do
  Console.test "Running basic performance tests..."
  match (printed? (← snippet c importTimer)).filter (· ≠ "") with
  | some time => t.pass ("MLC-LLM import time: " ++ time ++ "s")
  | none => t.reject "Failed to measure import time"

end Category

/-- The category of a name. -/
def CategoryName.category : CategoryName → Category
  | .imports => Category.imports
  | .dependencies => Category.dependencies
  | .libraries => Category.libraries
  | .pytest => Category.pytest
  | .performance => Category.performance

end CiPipeline
