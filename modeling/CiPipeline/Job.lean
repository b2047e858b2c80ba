import CiPipeline.Gate
import CiPipeline.Step

/-
Jobs: steps with the names of what must finish before them and a gate. A job is made from an
outline, which gives its steps their working directory, or by a matrix, which makes one job for
each of its values and puts them into a group.
-/

namespace CiPipeline

/-- Steps, dependencies and the condition on which the job runs. A need names a job or a matrix group. -/
structure Job where
  name : String
  steps : List Step
  needs : List String := []
  gate : Option Gate := none
  env : Dict Value := {}
  requires : List String := []
  group : Option String := none
  runsOn : Option String := none

/-- Why a job cannot be made. -/
inductive JobError
  | noSteps (job : String)
  | noValues (matrix : String)
  | noTags (step : String)
  deriving DecidableEq, Repr

/-- The wording of an error. -/
def JobError.message : JobError → String
  | .noSteps job => "job(" ++ Text.quoted job ++ ") must have at least one step"
  | .noValues matrix => "matrix(" ++ Text.quoted matrix ++ ") needs at least one value"
  | .noTags step => "docker_build_step(" ++ Text.quoted step ++ ") needs at least one tag"

/-- An image build with at least one tag. -/
def Step.build (name : String) (b : ImageBuild String) : Except JobError Step :=
  if b.tags.isEmpty then .error (.noTags name) else .ok (Step.building name b)

namespace Job

/-- The gate of a job; by default everything that it needs has succeeded. -/
def gateOrDefault (j : Job) : Gate := j.gate.getD .needsSucceeded

/-- What a job is to be made of. The listed steps come first; `cwd` is for the steps that have none. -/
structure Outline where
  name : String
  listed : List Step := []
  steps : List Step := []
  needs : List String := []
  gate : Option Gate := none
  env : Dict Value := {}
  requires : List String := []
  runsOn : Option String := none
  cwd : Option String := none

/-- Gives a step a working directory if it has none. -/
def within (cwd : Option String) (s : Step) : Step := { s with cwd := s.cwd.or cwd }

/-- The job of an outline, whose variables are texts. -/
def ofOutline (o : Outline) : Except JobError Job :=
  match o.listed ++ o.steps with
  | [] => .error (.noSteps o.name)
  | s :: ss =>
    .ok {
      name := o.name
      steps := (s :: ss).map (within o.cwd)
      needs := o.needs
      gate := o.gate
      env := o.env.map fun v => .text v.plain
      requires := o.requires
      runsOn := o.runsOn }

end Job

/-- The values that a matrix goes through, of which there is at least one. -/
structure Matrix where
  values : List Value
  values_ne_nil : values ≠ []

namespace Matrix

/-- The matrix of some values; the key is for the error. -/
def ofValues (key : String) (values : List Value) : Except JobError Matrix :=
  if h : values = [] then .error (.noValues key) else .ok ⟨values, h⟩

/-- The text by which a value tells its job from the others. -/
def label : Value → String
  | .dict entries => Text.join "-" (entries.map fun (_, v) => v.plain)
  | v => v.plain

/-- The job as a member of its group, named after a value. -/
def member (v : Value) (j : Job) : Job :=
  let group := (j.group.filter (· ≠ "")).getD j.name
  { j with name := group ++ " (" ++ label v ++ ")", group := some group }

/-- The jobs that `build` makes of the places and the values. -/
def jobs (m : Matrix) (build : Nat → Value → Except JobError Job) : Except JobError (List Job) :=
  m.values.zipIdx.mapM fun (v, i) => (build i v).map (member v)

end Matrix

end CiPipeline
