import CiPipeline.CommandLine
import CiPipeline.Workflow.Release

/-
The program: carries out a command line on a host that has the variables of the real environment
and the file of the release pipeline, and on which no other program can be started. So it plans,
shows tags and reports what is missing, and changes nothing.
-/

namespace CiPipeline.Standalone

/-- The variables that are looked at. -/
def variableNames : List String :=
  ["GITHUB_REF", "GITHUB_EVENT_NAME", "GITHUB_SHA", "HOME", "INSTALL_PREFIX", "MLCPIPE_DEFAULT_BRANCH",
    "MLCPIPE_FORCE_BUILD", "MLCPIPE_IMAGE_NAME", "MLCPIPE_PUSH", "MLCPIPE_REGISTRY", "MLCPIPE_SMOKE_TIMEOUT",
    "MLC_LLM_SOURCE_DIR", "PATH", "PWD", "PYTHONPATH"]

/-- A host with an environment. -/
def hostWith (env : Dict String) (settings : Settings) : Host :=
  let here := Path.resolve (.parse "/") (.parse ((env.get? "PWD").getD "/"))
  let file := here.child Workflow.defaultName
  { env := env
    here := here
    files := FileTree.withFile {} file.parts ""
    clock := ⟨1970, 1, 1, 0, 0, 0⟩
    settings := settings
    meaning := fun _ => Release.file
    respond := fun _ _ => .refused .noEntry }

/-- The exit status for the end of a command line. -/
def status : CommandEnd → UInt32
  | .exit (.number n) => (n % 256).toNat.toUInt32
  | .exit (.word _) => 1
  | .misuse _ => 2

/-- What is said about the end of a command line. -/
def remark : CommandEnd → String
  | .exit (.number _) => ""
  | .exit (.word w) => w ++ "\n"
  | .misuse (.badParameter (some m)) => "Error: " ++ m ++ "\n"
  | .misuse e => "Error: " ++ e.name ++ "\n"

/-- Prints what a journal says was printed. -/
def printAll (events : List Event) : IO Unit :=
  events.forM fun
    | .out s => IO.print s
    | .err s => IO.eprint s
    | _ => pure ()

/-- Carries out a command line. -/
def carryOut (words : List String) (env : Dict String) : IO UInt32 :=
  match Settings.ofEnv env with
  | .error f => do
    IO.eprintln f.message
    return 1
  | .ok settings => do
    let (r, h) := (CommandLine.execute .pipeline words).run (hostWith env settings)
    printAll h.journal
    match r with
    | .ok e => do
      IO.eprint (remark e)
      return status e
    | .error f => do
      IO.eprintln (Console.traced f)
      return 1

/-- The variables that are set. -/
def readEnv : IO (Dict String) := do
  let found ← variableNames.mapM fun name => do
    return (← IO.getEnv name).map (name, ·)
  return ⟨found.filterMap id⟩

end CiPipeline.Standalone

/-- Carries out the command line that the program was started with. -/
def main (words : List String) : IO UInt32 := do
  CiPipeline.Standalone.carryOut words (← CiPipeline.Standalone.readEnv)
