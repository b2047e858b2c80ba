import CiPipeline.Graph

/-
Whether a job runs. Its gate sees the results of what it needs and nothing else; a job whose gate is
open may still be for another platform, or be cancelled because a job failed before it.
-/

namespace CiPipeline

/-- What is decided about a job. -/
inductive Verdict
  | run
  | gateFalse
  | otherPlatform
  | cancelled
  deriving DecidableEq, Repr

namespace Verdict

/-- The result of a job that does not run; a job that runs is to succeed. -/
def result : Verdict → JobResult
  | .run => .success
  | .gateFalse => .skipped
  | .otherPlatform => .skipped
  | .cancelled => .cancelled

/-- Why a job runs or not. -/
def reason (j : Job) : Verdict → String
  | .run => "gate passed"
  | .gateFalse => "gate " ++ j.gateOrDefault.describe ++ " is false"
  | .otherPlatform => "runs on " ++ j.runsOn.getD ""
  | .cancelled => "cancelled after earlier failure"

end Verdict

/-- The name of a result, or the name that has none. -/
def resultOf (results : Dict JobResult) (name : String) : Except String JobResult :=
  match results.get? name with
  | some r => .ok r
  | none => .error name

/-- The result under which a job sees a need: the aggregate of a group, unless a job has its name. -/
def needResult (results : Dict JobResult) (groups : Groups) (need : String) : Except String JobResult :=
  match groups.get? need, results.get? need with
  | some members, none => (members.mapM (resultOf results)).map JobResult.aggregate
  | _, _ => resultOf results need

namespace Job

/-- What the gate of a job sees: each need with its result, in order. The error is a name without a result. -/
def view (j : Job) (results : Dict JobResult) (groups : Groups) : Except String (Dict JobResult) :=
  (j.needs.mapM fun need => (needResult results groups need).map (need, ·)).map Dict.ofList

/-- Whether a job is for the platform. -/
def suits (j : Job) (platform : String) : Bool :=
  match j.runsOn.filter (· ≠ "") with
  | some p => p == platform
  | none => true

/-- Decides about a job; `halted` says that the run was to stop at a failure that has come. -/
def decide (j : Job) (results : Dict JobResult) (groups : Groups) (t : Trigger) (platform : String) (halted : Bool) :
    Except String Verdict :=
  (j.view results groups).map fun needs =>
    if !j.gateOrDefault.isOpen needs t then .gateFalse
    else if !j.suits platform then .otherPlatform
    else if halted then .cancelled
    else .run

end Job

end CiPipeline
