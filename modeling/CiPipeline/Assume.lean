import CiPipeline.Plan

/-
Assumptions as they are typed: a job, an equals sign and a result. The name of the job may hold
equals signs itself.
-/

namespace CiPipeline

/-- Why an assumption cannot be read. -/
inductive AssumeError
  | noPair (given : String)
  | unknownResult (word : String)
  deriving DecidableEq, Repr

/-- The wording of an error. -/
def AssumeError.message : AssumeError → String
  | .noPair given => "expected JOB=RESULT, got " ++ Text.quoted given
  | .unknownResult word =>
    "result must be one of " ++ Text.join ", " (JobResult.all.map JobResult.word) ++ ", got " ++ Text.quoted word

namespace Assume

/-- What stands before and behind the last equals sign. -/
def cutLast (cs : List Char) : Option (List Char × List Char) :=
  match cs.reverse.dropWhile (· != '=') with
  | [] => none
  | _ :: before => some (before.reverse, (cs.reverse.takeWhile (· != '=')).reverse)

/-- One assumption. -/
def pair (given : String) : Except AssumeError (String × JobResult) :=
  match cutLast given.toList with
  | none => .error (.noPair given)
  | some ([], _) => .error (.noPair given)
  | some (c :: cs, word) =>
    let r := JobResult.ofWord (String.ofList word)
    if r.isEnding then .ok (String.ofList (c :: cs), r) else .error (.unknownResult (String.ofList word))

/-- Several assumptions; of two for one job the later counts. -/
def parse (given : List String) : Except AssumeError Plan.Assumptions := (given.mapM pair).map Dict.ofList

end Assume

end CiPipeline
