import CiPipeline.Run.Progress
import CiPipeline.Step.Execute

/-
Runs: the jobs of a graph, level by level. In each level the jobs are decided about, those that run
are executed, and their outcomes are settled. A fault of one job is its failure and no more; an
interruption ends the run when the whole level has been executed.
-/

namespace CiPipeline

/-- How the host's platform is called in jobs. -/
def Host.platformName (h : Host) : String :=
  if Text.startsWith h.platform "win" then "windows"
  else if h.platform = "darwin" then "darwin"
  else "linux"

/-- Executes a job: the result that it has then, or a fault, which is a failure. -/
abbrev Executor := Job → Act JobResult

/-- How a run is to go. A quiet run says only what each job's result is. -/
structure RunOptions where
  workers : Option Int := none
  failFast : Bool := false
  platform : Option String := none
  printPlan : Bool := true
  quiet : Bool := false

namespace Run

/-- How many jobs may run at once: all processors but one, if nothing else is said. -/
def workers (o : RunOptions) (h : Host) : Int :=
  o.workers.getD (max 1 ((h.processors.filter (· ≠ 0)).getD 2 - 1))

/-- Prints what was decided about a job. -/
def announce (o : RunOptions) (j : Job) (v : Verdict) : Act Unit :=
  match v with
  | .run => do if o.printPlan && !o.quiet then Console.plan j.name "run" (v.reason j)
  | _ => do if o.printPlan then Console.plan j.name v.result.word (v.reason j)

/-- Starts the workers. -/
def openPool (workers : Int) : Act Unit := do
  if workers < 1 then Act.fail .noWorkers
  Act.record (.pool workers)

/-- Executes a job and keeps what comes of it. -/
def begin (o : RunOptions) (execute : Executor) (j : Job) : Act (Job × Except Fault JobResult) := do
  unless o.quiet do Console.jobStarted j.name
  Act.record (.began j.name)
  return (j, ← (execute j).attempt)

/-- The result of an executed job; an interruption goes on. -/
def outcome (name : String) : Except Fault JobResult → Act JobResult
  | .ok r => pure r
  | .error f =>
    if f.isOrdinary then do
      Console.jobFailed name f.message f.hint?
      return .failure
    else .fail f

/-- Settles what came of a job. -/
def conclude (o : RunOptions) (p : Progress) (done : Job × Except Fault JobResult) : Act Progress := do
  let r ← outcome done.1.name done.2
  if o.printPlan && o.quiet then Console.plan done.1.name r.word "assumed"
  return p.settle done.1.name r

/-- Executes the jobs that run. What comes of them is settled in the order in which they were begun, as if they
completed in this order. -/
def executeAll (o : RunOptions) (workers : Int) (execute : Executor) (p : Progress) (js : List Job) : Act Progress := do
  if js.isEmpty then return p
  openPool workers
  let done ← js.mapM (begin o execute)
  done.foldlM (conclude o) p

/-- Runs a level. -/
def level (s : RunScene) (o : RunOptions) (workers : Int) (execute : Executor) (p : Progress) (js : List Job) :
    Act Progress := do
  let (p, vs) ← Act.ofExcept .missingEntry (p.screen s js)
  vs.forM fun (j, v) => announce o j v
  executeAll o workers execute p (chosen vs)

/-- The jobs of the names. -/
def named (jobs : List Job) (names : List String) : List Job :=
  names.filterMap fun n => jobs.find? (·.name = n)

/-- The results in the order of the levels. -/
def inOrder (levels : List (List String)) (results : Dict JobResult) : List (String × JobResult) :=
  levels.flatten.filterMap fun n => (results.get? n).map (n, ·)

end Run

/-- Runs jobs with an executor and gives the results in the order of the levels. -/
def run (jobs : List Job) (t : Trigger) (o : RunOptions) (execute : Executor) : Act (List (String × JobResult)) := do
  let graph ← Act.ofExcept .graph (Graph.ofJobs jobs)
  let levels ← Act.ofExcept .graph graph.levels
  let h ← get
  let platform := (o.platform.filter (· ≠ "")).getD h.platformName
  let s : RunScene := ⟨Groups.ofJobs jobs, t, platform, o.failFast⟩
  let p ← (levels.map (Run.named jobs)).foldlM (Run.level s o (Run.workers o h) execute) {}
  return Run.inOrder levels p.results

/-- Executes the steps of a job. -/
def Job.executor (root : Path) : Executor := fun j => do
  j.execute root
  return .success

end CiPipeline
