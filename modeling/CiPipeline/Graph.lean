import CiPipeline.Distinct
import CiPipeline.Job

/-
The graph of a list of jobs: which job must finish before which, and the levels in which the jobs
can run. A list is refused when two jobs have one name, when a group has the name of a job other
than its only member, or when something is needed that is not there. Levelling counts down, for
each job, the predecessors that have not been placed yet.
-/

namespace CiPipeline

/-- Why jobs have no graph, or a graph has no levels. -/
inductive GraphError
  | duplicates (names : List String)
  | clashes (groups : List String)
  | missingNeed (job need : String) (known : List String)
  | cycle (stuck : List String)
  | unknownName (name : String)
  deriving DecidableEq, Repr

/-- The wording of an error. -/
def GraphError.message : GraphError → String
  | .duplicates names => "Duplicate job names found: " ++ quotedList names
  | .clashes groups => "Matrix group names collide with job names: " ++ quotedList groups
  | .missingNeed job need known =>
    "Job '" ++ job ++ "' needs missing job '" ++ need ++ "'. Known jobs: " ++ quotedList known
  | .cycle stuck => "DAG has a cycle (or unresolved needs). Stuck nodes: " ++ quotedList stuck
  | .unknownName name => Text.quoted name

/-- Names in code point order. -/
def sorted (names : List String) : List String := names.mergeSort fun a b => a ≤ b

/-- The matrix groups with the names of their members, in the order of the jobs. -/
abbrev Groups := Dict (List String)

namespace Groups

/-- Enters a job into its group, if it has one. -/
def enter (g : Groups) (j : Job) : Groups :=
  match j.group.filter (· ≠ "") with
  | some group => g.set group ((g.get? group).getD [] ++ [j.name])
  | none => g

/-- The groups of a list of jobs. -/
def ofJobs (jobs : List Job) : Groups := jobs.foldl enter {}

end Groups

/-- The jobs that a need names: the job of that name, or else the members of the group. -/
def Job.resolve (j : Job) (names : List String) (groups : Groups) (need : String) :
    Except GraphError (List String) :=
  if names.contains need then .ok [need]
  else
    match groups.get? need with
    | some members => .ok members
    | none => .error (.missingNeed j.name need (sorted (distinct (names ++ groups.keys))))

/-- The names of the jobs that must finish before `j`, in the order of its needs. -/
def Job.predecessors (j : Job) (names : List String) (groups : Groups) : Except GraphError (List String) :=
  (j.needs.mapM (j.resolve names groups)).map List.flatten

/-- For each name the names that wait for it, and how many names it waits for itself. -/
structure Graph where
  successors : Dict (List String)
  waiting : Dict Int

namespace Graph

/-- The graph of jobs with the names of their predecessors. -/
def ofEdges (edges : List (String × List String)) : Graph where
  successors := ⟨edges.map fun (name, _) =>
    (name, sorted ((edges.filter fun (_, before) => before.contains name).map (·.1)))⟩
  waiting := ⟨edges.map fun (name, before) => (name, ((distinct before).length : Int))⟩

/-- The names that come more than once. -/
def repeated (names : List String) : List String :=
  sorted (distinct (names.filter fun n => 1 < names.count n))

/-- The groups that have the name of a job which is not their only member. -/
def clashing (names : List String) (groups : Groups) : List String :=
  sorted ((groups.entries.filter fun (g, members) => names.contains g && members != [g]).map (·.1))

/-- The graph of a list of jobs. -/
def ofJobs (jobs : List Job) : Except GraphError Graph := do
  let names := jobs.map (·.name)
  let groups := Groups.ofJobs jobs
  if repeated names ≠ [] then throw (.duplicates (repeated names))
  if clashing names groups ≠ [] then throw (.clashes (clashing names groups))
  let edges ← jobs.mapM fun j => (j.predecessors names groups).map (j.name, ·)
  return ofEdges edges

/-- Counts one name down; it is ready when it waits for nothing any more. -/
def release (waiting : Dict Int) (name : String) : Except GraphError (Dict Int × Bool) :=
  match waiting.get? name with
  | none => .error (.unknownName name)
  | some n => .ok (waiting.set name (n - 1), n - 1 == 0)

/-- Counts several names down; also those that become ready, in this order. -/
def releaseAll : Dict Int → List String → Except GraphError (Dict Int × List String)
  | waiting, [] => .ok (waiting, [])
  | waiting, name :: names => do
    let (waiting, ready) ← release waiting name
    let (waiting, more) ← releaseAll waiting names
    return (waiting, if ready then name :: more else more)

/-- The names that wait for `name`, each once, in order. -/
def waitingFor (g : Graph) (name : String) : List String :=
  sorted (distinct ((g.successors.get? name).getD []))

/-- The levels from `level` on, and what then is left to wait for. The bound is on the number of levels. -/
def levelsFrom (g : Graph) : Nat → Dict Int → List String → Except GraphError (List (List String) × Dict Int)
  | 0, waiting, _ => .ok ([], waiting)
  | _ + 1, waiting, [] => .ok ([], waiting)
  | n + 1, waiting, level => do
    let (waiting, next) ← releaseAll waiting (level.flatMap g.waitingFor)
    let (levels, waiting) ← levelsFrom g n waiting next
    return (level :: levels, waiting)

/-- The names that wait for nothing. -/
def ready (waiting : Dict Int) : List String :=
  sorted ((waiting.entries.filter fun (_, n) => n == 0).map (·.1))

/-- The names that still wait for something. -/
def stuck (waiting : Dict Int) : List String :=
  sorted ((waiting.entries.filter fun (_, n) => 0 < n).map (·.1))

/-- The levels: each name after all that it waits for. No level is empty, and no name is placed
twice, so that there are at most as many levels as names. -/
def levels (g : Graph) : Except GraphError (List (List String)) := do
  let (levels, waiting) ← g.levelsFrom g.waiting.entries.length g.waiting (ready g.waiting)
  if levels.flatten.length = g.waiting.entries.length then return levels
  throw (.cycle (stuck waiting))

end Graph

end CiPipeline
