import CiPipeline.Value

/-
The pipeline's own errors: what went wrong where, with details; and the failure of a single step.
-/

namespace CiPipeline

/-- What lies behind an error: nothing special, tools that are missing or too old, or a build phase. -/
inductive ErrorSort
  | general
  | tools (names : List String)
  | build (phase : String) (exitCode : Option Int)
  deriving DecidableEq, Repr

/-- An error with the job and the step it concerns, if any, and further details in order. -/
structure PipelineError where
  sort : ErrorSort := .general
  kind : String
  job : String := ""
  step : Option String := none
  message : String
  details : Dict Value := {}

namespace PipelineError

/-- The lines about where an error happened. -/
def placeLines (e : PipelineError) : List String :=
  (if e.job = "" then [] else ["job=" ++ e.job]) ++
    ((e.step.filter (· ≠ "")).map ("step=" ++ ·)).toList

/-- The lines of the details. -/
def detailLines (e : PipelineError) : List String :=
  e.details.entries.map fun (k, v) => k ++ "=" ++ v.plain

/-- The text of an error: kind and message, the place, the details, a line each. -/
def text (e : PipelineError) : String :=
  Text.join "\n" ((e.kind ++ ": " ++ e.message) :: (e.placeLines ++ e.detailLines))

/-- Tools that are missing or too old. -/
def tools (message : String) (names : List String) (hint : Option String) (more : Dict Value := {}) :
    PipelineError where
  sort := .tools names
  kind := "tool_unavailable"
  message := message
  details :=
    let start : Dict Value := ⟨[("tools", .text (Text.join ", " names))]⟩
    ((hint.filter (· ≠ "")).elim start fun h => start.set "hint" (.text h)).update more

/-- A build phase that failed. -/
def build (phase message : String) (exitCode : Option Int := none) : PipelineError where
  sort := .build phase exitCode
  kind := "build_failed"
  step := some phase
  message := message
  details :=
    let start : Dict Value := ⟨[("phase", .text phase)]⟩
    exitCode.elim start fun n => start.set "exit_code" (.number (.int n))

end PipelineError

/-- The failure of one step: its command, its exit code and the end of its output. -/
structure StepFailure where
  job : String
  step : String
  command : String
  exitCode : Int
  output : String := ""
  deriving DecidableEq, Repr

/-- The text of a failure. -/
def StepFailure.text (f : StepFailure) : String :=
  let head := "[" ++ f.job ++ "] step '" ++ f.step ++ "' failed (exit=" ++ toString f.exitCode ++ "): " ++ f.command
  if f.output = "" then head else head ++ "\n" ++ f.output

end CiPipeline
