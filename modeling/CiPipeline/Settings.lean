import CiPipeline.Fault

/-
Settings: the constants that are read from the environment once, and the paths that a source
directory and the environment give.
-/

namespace CiPipeline

/-- The constants of a run. -/
structure Settings where
  installPrefix : String
  registry : String
  imageName : String
  defaultBranch : String
  smokeTimeout : Int

namespace Settings

/-- The variable that names the source directory. -/
def sourceVariable : String := "MLC_LLM_SOURCE_DIR"

/-- Where containers have the sources. -/
def containerSource : String := "/workspace"

/-- Reads the constants; the time limit of the smoke test has to be a whole number. -/
def ofEnv (env : Dict String) : Except Fault Settings :=
  let limit := (env.get? "MLCPIPE_SMOKE_TIMEOUT").getD "60"
  match Text.integer limit with
  | .error e => .error (.integer e)
  | .ok n =>
    .ok {
      installPrefix := (env.get? "INSTALL_PREFIX").getD "/usr/local"
      registry := (env.get? "MLCPIPE_REGISTRY").getD "ghcr.io"
      imageName := (env.get? "MLCPIPE_IMAGE_NAME").getD "afzaal0007/mlc-llm-pipeline"
      defaultBranch := (env.get? "MLCPIPE_DEFAULT_BRANCH").getD "main"
      smokeTimeout := n }

/-- The image with its registry. -/
def image (s : Settings) : String := s.registry ++ "/" ++ s.imageName

/-- A variable of the environment that is set and not empty. -/
def given? (env : Dict String) (name : String) : Option String := (env.get? name).filter (· ≠ "")

/-- The source directory: the variable's, else the default if there is one, else the current directory. -/
def sourceDirectory (env : Dict String) (here : Path) (default : Option String) : String :=
  ((given? env sourceVariable).or (default.filter (· ≠ ""))).getD here.text

/-- The module search path with that of the sources in front. -/
def modulePath (source current : String) : String :=
  let head := Path.append source "python"
  if current = "" then head else head ++ ":" ++ current

/-- The environment with the source directory and its module search path. -/
def sourceEnv (source : String) (env : Dict String) : Dict String :=
  (env.set sourceVariable source).set "PYTHONPATH" (modulePath source ((env.get? "PYTHONPATH").getD ""))

end Settings

end CiPipeline
