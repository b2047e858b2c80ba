import CiPipeline.Dict
import CiPipeline.JobResult
import CiPipeline.Trigger

/-
Gates: the conditions on which a job runs. A gate sees the results of the jobs and groups that the
job needs, under the names by which it needs them, and the trigger of the run.
-/

namespace CiPipeline

/-- A condition on the results of the needed jobs and on the trigger. -/
inductive Gate
  | needsSucceeded
  | always
  | onPrimaryOrVersionTag
  | onVersionTag
  | succeeded (names : List String)
  | succeededOrForced (names : List String)
  | allOf (gates : List Gate)
  | anyOf (gates : List Gate)
  deriving Inhabited

namespace Gate

/-- A name with its arguments in parentheses. -/
def applied (name : String) (arguments : List String) : String :=
  name ++ "(" ++ Text.join ", " arguments ++ ")"

mutual

/-- The wording of a gate. -/
def describe : Gate → String
  | .needsSucceeded => "needs_succeeded"
  | .always => "always"
  | .onPrimaryOrVersionTag => "on_primary_or_version_tag"
  | .onVersionTag => "on_version_tag"
  | .succeeded names => applied "succeeded" names
  | .succeededOrForced names => applied "succeeded_or_forced" names
  | .allOf gates => applied "all_of" (describeAll gates)
  | .anyOf gates => applied "any_of" (describeAll gates)

/-- The wordings of several gates. -/
def describeAll : List Gate → List String
  | [] => []
  | g :: gs => g.describe :: describeAll gs

end

/-- Whether every name stands for a success. -/
def allSucceeded (needs : Dict JobResult) (names : List String) : Bool :=
  names.all fun n => needs.get? n == some .success

mutual

/-- Whether a gate is open. -/
def isOpen (needs : Dict JobResult) (t : Trigger) : Gate → Bool
  | .needsSucceeded => needs.values.all (· == .success)
  | .always => true
  | .onPrimaryOrVersionTag => t.isPrimaryBranch || t.isVersionTag
  | .onVersionTag => t.isVersionTag
  | .succeeded names => allSucceeded needs names
  | .succeededOrForced names => t.forceBuild || allSucceeded needs names
  | .allOf gates => allOpen needs t gates
  | .anyOf gates => anyOpen needs t gates

/-- Whether all of several gates are open. -/
def allOpen (needs : Dict JobResult) (t : Trigger) : List Gate → Bool
  | [] => true
  | g :: gs => g.isOpen needs t && allOpen needs t gs

/-- Whether one of several gates is open. -/
def anyOpen (needs : Dict JobResult) (t : Trigger) : List Gate → Bool
  | [] => false
  | g :: gs => g.isOpen needs t || anyOpen needs t gs

end

end Gate

end CiPipeline
