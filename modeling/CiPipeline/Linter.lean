import CiPipeline.Step.Lint
import CiPipeline.Toolchain

/-
Running a linter: it is first asked for its version, to find out whether it is there at all.
-/

namespace CiPipeline.Linter

/-- The error about a linter that cannot be used. -/
def unavailable (tool : String) : PipelineError where
  kind := "tool_unavailable"
  message := tool ++ " is not available"
  details := ⟨[("hint", .text (Toolchain.hintFor tool tool)), ("tool", .text tool)]⟩

/-- Checks that a linter is there and can be started. -/
def check (tool : Value) : Act Unit := do
  let ask : Command := { program := .ofValues [tool, .text "--version"] }
  (discard ask.demand).recover (fun f => f.isCommandFailed || f.isNotFound) fun _ =>
    .fail (.pipeline (unavailable tool.plain))

/-- Checks for a linter and runs it in a directory. -/
def run (t : LintTask) (directory : String) (env : Dict Value) : Act Ended := do
  check t.tool
  let argv ← Act.ofExcept .data t.command
  Command.start { program := .ofValues argv, cwd := some directory, env := some env, reads := true }

end CiPipeline.Linter
