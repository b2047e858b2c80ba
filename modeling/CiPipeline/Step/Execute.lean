import CiPipeline.Console
import CiPipeline.Linter

/-
Running the steps of a job, one after the other, up to the first that fails. A step that ends with
a code other than nought, or that is stopped at its time limit, has failed.
-/

namespace CiPipeline

namespace Step

/-- The code of a step that was stopped at its time limit. -/
def timeoutCode : Int := 124

/-- The failure of a step that ended. Of its output the end is kept. -/
def failure (s : Step) (j : Job) (command : String) (e : Ended) : Fault :=
  .step ⟨j.name, s.name, command, e.code, Text.takeLast 4000 e.output⟩

/-- The failure of a step that was stopped. -/
def overrun (s : Step) (j : Job) (command : String) : Fault :=
  .step ⟨j.name, s.name, command, timeoutCode,
    "timed out after " ++ (s.timeout.map Number.text).getD "None" ++ "s"⟩

/-- Starts the command of a step, which has to succeed. -/
def carryOut (s : Step) (j : Job) (c : Command) : Act Unit := do
  let e ← c.start.recover Fault.isTimeout fun _ => .fail (s.overrun j c.program.text)
  unless e.isSuccess do .fail (s.failure j c.program.text e)

/-- The directory of a step, which has to be there. -/
def directory (s : Step) (j : Job) (root : Path) : Act Path := do
  let h ← get
  let path ← Act.ofExcept id (h.resolve (root.child ((s.cwd.filter (· ≠ "")).getD ".")))
  if h.has path then return path
  .fail (.noStepDirectory j.name s.name path.text)

/-- The environment of a job: that of the host, with the job's own variables. -/
def jobEnv (j : Job) (h : Host) : Dict Value := (h.env.map .text).update j.env

/-- Runs a shell line. -/
def runShell (s : Step) (j : Job) (root : Path) : Act Unit := do
  let path ← s.directory j root
  let env := jobEnv j (← get)
  s.carryOut j { program := .line s.run, cwd := some path.text, env := some env, timeout := s.timeout, reads := true }

/-- The error about a container service that cannot be used. -/
def dockerUnavailable : PipelineError where
  kind := "docker_unavailable"
  message := "Docker is not available"
  details := ⟨[("hint", .text (Toolchain.hintFor "docker" "docker"))]⟩

/-- Checks that the container service is there. -/
def checkDocker : Act Unit := do
  let ask : Command := { program := .words ["docker", "--version"] }
  (discard ask.demand).recover (fun f => f.isCommandFailed || f.isNotFound) fun _ =>
    .fail (.pipeline dockerUnavailable)

/-- Runs a command line of the container service, with nothing but the host's own environment. -/
def runDocker (s : Step) (j : Job) (root : Path) (argv : List Value) : Act Unit := do
  let env := (← get).env.map Value.text
  s.carryOut j
    { program := .ofValues argv, cwd := some root.text, env := some env, timeout := s.timeout, reads := true }

/-- The command line of a container run. -/
def containerWords (s : Step) (j : Job) (root : Path) (r : ContainerRun Value) : Act (List Value) := do
  let h ← get
  let root ← if r.mountRepo then Act.ofExcept id (h.resolve root) else pure root
  return r.command j.env s.cwd s.run root.text

/-- Runs a container. -/
def runContainer (s : Step) (j : Job) (root : Path) (r : Except DataError (ContainerRun Value)) : Act Unit := do
  checkDocker
  let r ← Act.ofExcept .data r
  s.runDocker j root (← s.containerWords j root r)

/-- Builds an image. -/
def runImage (s : Step) (j : Job) (root : Path) (b : Except DataError (ImageBuild Value)) : Act Unit := do
  checkDocker
  let b ← Act.ofExcept .data b
  s.runDocker j root b.command

/-- Names the job and the step in an error of the pipeline. -/
def located (s : Step) (j : Job) : Fault → Fault
  | .pipeline e => .pipeline { e with job := j.name, step := some s.name }
  | f => f

/-- Runs a linter, unless there is nothing to check. -/
def runLint (s : Step) (j : Job) (root : Path) (t : LintTask) : Act Unit := do
  if !t.tool.isGiven then Act.fail (.noLinter j.name s.name)
  let path ← s.directory j root
  let h ← get
  let guard ← Act.ofExcept .data t.guard
  match guard.filter fun guard => !h.has (path.child guard) with
  | some guard => Console.info ("[" ++ j.name ++ "] " ++ s.name ++ ": no " ++ guard ++ ", nothing to lint")
  | none =>
    let e ← (Linter.run t path.text (jobEnv j h)).recover (fun f => f.faultClass.isPipeline) fun f =>
      .fail (s.located j f)
    unless e.isSuccess do
      let argv ← Act.ofExcept .data t.command
      .fail (s.failure j (Program.ofValues argv).text e)

/-- Runs a step of a job, the repository being at `root`. -/
def execute (s : Step) (j : Job) (root : Path) : Act Unit :=
  match s.work.task with
  | .shell => s.runShell j root
  | .container r => s.runContainer j root r
  | .image b => s.runImage j root b
  | .lint t => s.runLint j root t
  | .unknown kind => .fail (.unknownStepKind j.name s.name kind)

end Step

namespace Job

/-- Announces a step and runs it. -/
def step (j : Job) (root : Path) (s : Step) : Act Unit := do
  Console.step j.name s.name
  s.execute j root

/-- Runs the steps of a job in order. Nothing starts unless the programs that it requires are there. -/
def execute (j : Job) (root : Path) : Act Unit := do
  unless j.requires.isEmpty do Toolchain.demand j.requires
  j.steps.forM (j.step root)

end Job

end CiPipeline
