import CiPipeline.Assume
import CiPipeline.CommandLine.Help
import CiPipeline.Entrypoint
import CiPipeline.ImageTag
import CiPipeline.Options
import CiPipeline.Text.Alphanumeric
import CiPipeline.Workflow.Load

/-
The command lines: running, planning and tagging under one command, and building, testing and the
container's entry point, which are also commands of their own. Each gives an exit code or says what
is wrong with the words it was given.
-/

namespace CiPipeline

/-- How a command line ends. -/
inductive CommandEnd
  | exit (code : ExitCode)
  | misuse (e : UsageError)
  deriving DecidableEq, Repr

namespace CommandLine

/-- Ends with an exit code. -/
def leave (code : Int) : Act CommandEnd := return .exit (.number code)

/-- Asks for the help page. -/
def help : String := "--help"

/-- Prints a help page and ends. -/
def showHelp (page : String) : Act CommandEnd := do
  Console.plain page
  leave 0

/-- Reads the words of a command; its help page ends it, and else `body` gets what was read. -/
def reading {α : Type} (page : String) (names : OptionNames) (read : Parsed → Except UsageError α)
    (words : List String) (body : α → Act CommandEnd) : Act CommandEnd :=
  match Options.parse { names with flags := help :: names.flags } words with
  | .error e => return .misuse e
  | .ok p =>
    if p.isSet help then showHelp page
    else
      match read p with
      | .error e => return .misuse e
      | .ok a => body a

/-! ## The trigger -/

/-- What the command line says about the trigger. -/
structure TriggerWords where
  ref : Option String
  sha : Option String
  event : Option String
  force : Bool

/-- The options about the trigger that take values. -/
def triggerValued : List String := ["--ref", "--sha", "--event"]

/-- Reads the options about the trigger. -/
def TriggerWords.of (p : Parsed) : TriggerWords :=
  ⟨p.value? "--ref", p.value? "--sha", p.value? "--event", p.isSet "--force-build"⟩

/-- The request that the options make. -/
def TriggerWords.request (w : TriggerWords) : TriggerRequest where
  ref := w.ref.map .text
  event := w.event.map .text
  sha := w.sha.map .text
  forceBuild := if w.force then some (.bool true) else none

/-- A text cut down to its first twenty-five and its last twenty-four characters if it is longer than fifty. -/
def clipped (s : String) : String :=
  if 50 < s.length then Text.take 25 s ++ "..." ++ Text.takeLast 24 s else s

/-- The lines about a field, for the console. -/
def problemLines (problem : TriggerField × FieldProblem) : List String :=
  [problem.1.name, "  " ++ problem.2.message ++
    match problem.2 with
    | .blankRef given => " [type=value_error, input_value=" ++ clipped (Text.quoted given) ++ ", input_type=str]"
    | _ => ""]

/-- The lines about a request that makes no trigger. -/
def problemText (problems : List (TriggerField × FieldProblem)) : String :=
  let n := problems.length
  let head := toString n ++ " validation error" ++ (if n = 1 then "" else "s") ++ " for Trigger"
  Text.join "\n" (head :: problems.flatMap problemLines)

/-- The trigger of the command line and the surroundings; without one the command ends. -/
def trigger (w : TriggerWords) : Act Trigger := do
  match ← (Trigger.fromEnv (← get).env w.request).attempt with
  | .ok t => return t
  | .error (.trigger problems) => do
    Console.error "Invalid trigger" (problemText problems)
    Workflow.quit 2
  | .error f => .fail f

/-! ## Running and planning -/

/-- Says that the user has interrupted a command. -/
def interrupted : Act CommandEnd := do
  Console.info "Interrupted by user"
  leave 130

/-- The faults that both running and planning report. -/
def isReported (f : Fault) : Bool := f.isOs || f.faultClass.isValue || f.faultClass == .type

/-- Prints a fault and ends with a failure. -/
def reported (f : Fault) : Act CommandEnd := do
  Console.fault f
  leave 1

/-- What running takes from the command line. -/
structure RunWords where
  workflow : Option String
  trigger : TriggerWords
  workers : Option Int
  failFast : Bool
  printPlan : Bool

/-- The options of running. -/
def runNames : OptionNames where
  flags := ["--force-build", "--fail-fast", "--no-fail-fast", "--print-plan", "--no-print-plan"]
  valued := "--workflow" :: "--workers" :: triggerValued

/-- Reads the options of running. -/
def RunWords.read (p : Parsed) : Except UsageError RunWords := do
  let workers ← p.count "--workers"
  p.atMost 0
  return {
    workflow := p.value? "--workflow"
    trigger := .of p
    workers := workers
    failFast := p.switch "--fail-fast" "--no-fail-fast" false
    printPlan := p.switch "--print-plan" "--no-print-plan" true }

/-- Loads a workflow, runs it and says whether a job failed. -/
def runWorkflow (w : RunWords) (file : Path) (t : Trigger) : Act Bool := do
  let jobs ← Workflow.load file.text (some t)
  Console.runStarted file.name t.ref (toString jobs.length)
  let results ← CiPipeline.run jobs t
    { workers := w.workers, failFast := w.failFast, printPlan := w.printPlan }
    (Job.executor (← get).here)
  Console.results results
  return results.any fun r => r.2 == .failure

/-- Runs the pipeline. -/
def run (w : RunWords) : Act CommandEnd := do
  let file ← Workflow.discover w.workflow
  let t ← trigger w.trigger
  match ← (runWorkflow w file t).attempt with
  | .ok failed => leave (if failed then 1 else 0)
  | .error f =>
    if f.faultClass == .interrupt then interrupted
    else if isReported f || f.faultClass.isPipeline then reported f
    else .fail f

/-- What planning takes from the command line. -/
structure PlanWords where
  workflow : Option String
  trigger : TriggerWords
  assumed : List String
  platform : Option String

/-- The options of planning. -/
def planNames : OptionNames where
  flags := ["--force-build"]
  valued := "--workflow" :: "--assume" :: "--platform" :: triggerValued

/-- Reads the options of planning. -/
def PlanWords.read (p : Parsed) : Except UsageError PlanWords := do
  let platform ← p.choice "--platform" ["linux", "windows", "darwin"]
  p.atMost 0
  return {
    workflow := p.value? "--workflow"
    trigger := .of p
    assumed := p.values "--assume"
    platform := platform }

/-- Loads a workflow and prints its plan. -/
def planWorkflow (w : PlanWords) (file : Path) (t : Trigger) (assumed : Plan.Assumptions) : Act Unit := do
  let jobs ← Workflow.load file.text (some t)
  Console.header ("Plan for " ++ t.ref ++ if t.forceBuild then " (force build)" else "")
  Console.results (← CiPipeline.plan jobs t assumed w.platform true)

/-- Plans the pipeline. -/
def plan (w : PlanWords) : Act CommandEnd := do
  let file ← Workflow.discover w.workflow
  let t ← trigger w.trigger
  match Assume.parse w.assumed with
  | .error e => return .misuse (.badParameter (some e.message))
  | .ok assumed =>
    match ← (planWorkflow w file t assumed).attempt with
    | .ok () => leave 0
    | .error f => if isReported f then reported f else .fail f

/-! ## Tags -/

/-- What tagging takes from the command line. -/
structure TagWords where
  trigger : TriggerWords
  image : Option String
  production : Bool

/-- The options of tagging. -/
def tagNames : OptionNames where
  flags := ["--force-build", "--production"]
  valued := "--image" :: triggerValued

/-- Reads the options of tagging. -/
def TagWords.read (p : Parsed) : Except UsageError TagWords := do
  p.atMost 0
  return ⟨.of p, p.value? "--image", p.isSet "--production"⟩

/-- Prints the tags of an image. -/
def tags (w : TagWords) : Act CommandEnd := do
  let t ← trigger w.trigger
  let image := (w.image.filter (· ≠ "")).getD (← get).settings.image
  let names ← Act.ofExcept .digits (if w.production then ImageTag.production t image else ImageTag.development t image)
  names.forM fun tag => Console.plain tag
  leave 0

/-! ## Building, testing and the entry point -/

/-- Shows details from now on, if that is asked for and not so yet. -/
def showDetails (debug : Bool) : Act Unit := do
  if debug && !(← get).display.debug then modify fun h => { h with display := { debug := true } }

/-- Prints an error of the pipeline with its details and ends with a failure. -/
def pipelineFailed (e : PipelineError) : Act CommandEnd := do
  Console.error e.message "" e.detailLines
  leave 1

/-- What building takes from the command line. -/
structure BuildWords where
  request : BuildRequest
  debug : Bool

/-- The options of building. -/
def buildNames : OptionNames where
  flags := ["--skip-deps", "--skip-submodules", "--skip-tests", "--clean", "--debug"]
  valued := ["--build-type", "--jobs", "--source-dir", "--build-dir", "--install-prefix"]

/-- Reads the options of building. -/
def BuildWords.read (isFile : String → Bool) (p : Parsed) : Except UsageError BuildWords := do
  let kind ← p.choice "--build-type" (BuildKind.all.map BuildKind.name)
  let jobs ← p.count "--jobs"
  let source ← p.directory "--source-dir" isFile
  let build ← p.directory "--build-dir" isFile
  p.atMost 0
  return {
    debug := p.isSet "--debug"
    request := {
      kind := kind.map .text
      jobs := jobs.map fun n => .number (.int n)
      source := source.map .text
      build := build.map .text
      installPrefix := (p.value? "--install-prefix").map .text
      skipDeps := p.isSet "--skip-deps"
      skipSubmodules := p.isSet "--skip-submodules"
      skipTests := p.isSet "--skip-tests"
      clean := p.isSet "--clean" } }

/-- Builds the sources. -/
def build (w : BuildWords) : Act CommandEnd := do
  showDetails w.debug
  match w.request.config (← get) with
  | .error .nullInPath => .fail .nullInPath
  | .error f => if f.faultClass.isValue then return .misuse .usage else .fail f
  | .ok c =>
    match ← (Build.run c).attempt with
    | .ok _ => leave 0
    | .error (.pipeline e) => pipelineFailed e
    | .error f =>
      if f.faultClass == .interrupt then interrupted
      else if f.isOs then reported f
      else .fail f

/-- What testing takes from the command line. -/
structure TestWords where
  selector : String
  source : Option String
  coverage : Bool
  verbose : Bool
  failFast : Bool
  debug : Bool

/-- The options of testing. -/
def testNames : OptionNames where
  flags := ["--coverage", "--verbose", "--fail-fast", "--debug"]
  valued := ["--source-dir"]

/-- Reads the options of testing. -/
def TestWords.read (isFile : String → Bool) (p : Parsed) : Except UsageError TestWords := do
  let source ← p.directory "--source-dir" isFile
  let selector := p.words.headD "all"
  if !CategoryName.selectors.contains selector then throw (.badParameter none)
  p.atMost 1
  return {
    selector := selector
    source := source
    coverage := p.isSet "--coverage"
    verbose := p.isSet "--verbose"
    failFast := p.isSet "--fail-fast"
    debug := p.isSet "--debug" }

/-- Runs test categories. -/
def test (w : TestWords) : Act CommandEnd := do
  showDetails w.debug
  let c ← Act.ofExcept id (SuiteConfig.ofSource (← get) (w.source.map .text) w.coverage w.verbose w.failFast)
  match ← (Suite.run w.selector c).attempt with
  | .ok t => leave (if t.isOk then 0 else 1)
  | .error f => if f.faultClass == .interrupt then interrupted else .fail f

/-- Carries out an operation of the container's entry point. -/
def entrypoint (words : List String) : Act CommandEnd := do
  match ← (Entrypoint.dispatch (Options.passed words)).attempt with
  | .ok code => leave code
  | .error (.pipeline e) => pipelineFailed e
  | .error f => if f.faultClass == .interrupt then leave 130 else .fail f

/-! ## Commands -/

/-- The commands. -/
inductive Name
  | run
  | plan
  | tags
  | build
  | test
  | entrypoint
  deriving DecidableEq, Repr

/-- The command of a word. -/
def Name.ofWord? (word : String) : Option Name :=
  [("run", Name.run), ("plan", .plan), ("tags", .tags), ("build", .build), ("test", .test),
    ("entrypoint", .entrypoint)].lookup word

/-- Whether a path names an existing file. -/
def namesFile (h : Host) (path : String) : Bool :=
  match h.files.status h.here path with
  | .ok (.file _) => true
  | _ => false

/-- Carries out a command with its words, for which it is called by a full name. -/
def perform (fullName : String) (words : List String) : Name → Act CommandEnd
  | .run => reading (HelpPage.run.text fullName) runNames RunWords.read words run
  | .plan => reading (HelpPage.plan.text fullName) planNames PlanWords.read words plan
  | .tags => reading (HelpPage.tags.text fullName) tagNames TagWords.read words tags
  | .build => do
    reading (HelpPage.build.text fullName) buildNames (BuildWords.read (namesFile (← get))) words build
  | .test => do reading (HelpPage.test.text fullName) testNames (TestWords.read (namesFile (← get))) words test
  | .entrypoint => entrypoint words

/-- The options of the command that holds the others. -/
def groupNames : OptionNames where
  flags := ["--debug"]
  valued := []
  interspersed := false

/-- The executables. -/
inductive Executable
  | pipeline
  | build
  | test
  | entrypoint
  deriving DecidableEq, Repr

/-- The name of an executable. -/
def Executable.name : Executable → String
  | .pipeline => "mlcpipe"
  | .build => "mlc-build"
  | .test => "mlc-test"
  | .entrypoint => "mlc-entrypoint"

/-- The executable of a name. -/
def Executable.ofName? (name : String) : Option Executable :=
  [Executable.pipeline, .build, .test, .entrypoint].find? fun e => e.name = name

/-- The help page of the command that holds the others. -/
def groupPage : String := HelpPage.group.text Executable.pipeline.name

/-- Whether a word that names no command looks like an option, for which the help page is shown. -/
def looksLikeOption (word : String) : Bool :=
  match word.toList with
  | [] => false
  | c :: _ => !Text.isAlphanumeric c

/-- Carries out the command that the words select, with messages as the options before it say. -/
def select (p : Parsed) : Act CommandEnd :=
  match p.words with
  | [] => return .misuse .usage
  | word :: words =>
    match Name.ofWord? word with
    | none => if looksLikeOption word then showHelp groupPage else return .misuse .usage
    | some name => do
      modify fun h => { h with display := { debug := p.isSet "--debug" } }
      perform (Executable.pipeline.name ++ " " ++ word) words name

/-- Carries out the words behind the name of an executable. -/
def carryOut (words : List String) (e : Executable) : Act CommandEnd :=
  match e with
  | .pipeline => if words.isEmpty then showHelp groupPage else reading groupPage groupNames .ok words select
  | .build => perform e.name words .build
  | .test => perform e.name words .test
  | .entrypoint => perform e.name words .entrypoint

/-- Carries out a command line; a request to stop ends it with its code, and an interruption that no
command has dealt with aborts it behind an empty line. -/
def execute (e : Executable) (words : List String) : Act CommandEnd := do
  match ← (carryOut words e).attempt with
  | .ok r => return r
  | .error (.exit code) => return .exit code
  | .error f =>
    if f.faultClass == .interrupt then do
      Console.aside ""
      .fail .aborted
    else .fail f

end CommandLine

end CiPipeline
