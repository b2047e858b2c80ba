import CiPipeline.Run

/-
Plans: what a run would do if the jobs that run had the results assumed for them. A job for which
nothing is assumed is taken to succeed. Nothing is executed.
-/

namespace CiPipeline

namespace Plan

/-- Results assumed for jobs by name. -/
abbrev Assumptions := Dict JobResult

/-- What is assumed of a job. -/
def Assumptions.of (a : Assumptions) (j : Job) : JobResult := (a.get? j.name).getD .success

/-- An assumption that no job can end with. -/
def Assumptions.bad? (a : Assumptions) : Option (String × JobResult) := a.entries.find? fun (_, r) => !r.isEnding

/-- Takes each job to end as assumed. -/
def pretend (a : Assumptions) : Executor := fun j => pure (a.of j)

end Plan

/-- Evaluates the gates of all jobs under some assumptions. -/
def plan (jobs : List Job) (t : Trigger) (assumed : Plan.Assumptions) (platform : Option String) (printPlan : Bool) :
    Act (List (String × JobResult)) := do
  match assumed.bad? with
  | some (job, r) => .fail (.unknownResult r.word job)
  | none =>
    run jobs t { workers := some 1, platform := platform, printPlan := printPlan, quiet := true } (Plan.pretend assumed)

end CiPipeline
