import CiPipeline.Run.Verdict

/-
The progress of a run: the results so far and whether a job has failed. The jobs of a level are
first decided about, all of them before any of them is executed, and then their outcomes are
settled one by one.
-/

namespace CiPipeline

/-- What stays the same during a run. -/
structure RunScene where
  groups : Groups
  trigger : Trigger
  platform : String
  failFast : Bool

/-- The results so far, and whether a job has failed. -/
structure Progress where
  results : Dict JobResult := {}
  failed : Bool := false

namespace Progress

/-- The progress when a job does not run. -/
def pass (p : Progress) (j : Job) (v : Verdict) : Progress :=
  match v with
  | .run => p
  | _ => { p with results := p.results.set j.name v.result }

/-- The progress when a job was executed. -/
def settle (p : Progress) (name : String) (r : JobResult) : Progress where
  results := p.results.set name r
  failed := p.failed || r == .failure

/-- Decides about the jobs of a level. -/
def screen (s : RunScene) : Progress → List Job → Except String (Progress × List (Job × Verdict))
  | p, [] => .ok (p, [])
  | p, j :: js => do
    let v ← j.decide p.results s.groups s.trigger s.platform (s.failFast && p.failed)
    let (p, vs) ← screen s (p.pass j v) js
    return (p, (j, v) :: vs)

end Progress

/-- The jobs that run. -/
def chosen (vs : List (Job × Verdict)) : List Job := (vs.filter (·.2 == .run)).map (·.1)

end CiPipeline
