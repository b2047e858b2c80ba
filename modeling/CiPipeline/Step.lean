import CiPipeline.Step.Container
import CiPipeline.Step.Image
import CiPipeline.Step.Lint

/-
Steps: the single commands of a job. A step is a shell line, a container run, an image build or a
lint check; a step of another kind can be written down, and it is found out when it is run.
-/

namespace CiPipeline

/-- What a step does. The last form carries the name of its kind and its data as they were written. -/
inductive Work
  | shell
  | container (r : ContainerRun String)
  | image (b : ImageBuild String)
  | lint (c : LintCheck)
  | other (kind : String) (data : Option StepData)

/-- What a step of any form comes to. -/
inductive Task
  | shell
  | container (r : Except DataError (ContainerRun Value))
  | image (b : Except DataError (ImageBuild Value))
  | lint (t : LintTask)
  | unknown (kind : String)

namespace Work

/-- The name of the kind. -/
def kind : Work → String
  | .shell => "shell"
  | .container _ => "docker"
  | .image _ => "docker-build"
  | .lint _ => "lint"
  | .other kind _ => kind

/-- The data as a table. -/
def data : Work → Option StepData
  | .shell => none
  | .container r => some r.toData
  | .image b => some b.toData
  | .lint c => some c.toData
  | .other _ data => data

/-- What there is to do. -/
def task : Work → Task
  | .shell => .shell
  | .container r => .container (.ok r.toValues)
  | .image b => .image (.ok b.toValues)
  | .lint c => .lint c.task
  | .other kind data =>
    if kind = "shell" then .shell
    else if kind = "docker" then .container (ContainerRun.ofData (data.getD {}))
    else if kind = "docker-build" then .image (ImageBuild.ofData (data.getD {}))
    else if kind = "lint" then .lint (LintTask.ofData (data.getD {}))
    else .unknown kind

end Work

/-- A single command of a job: the command as it is shown, where it runs, and for how long at most. -/
structure Step where
  name : String
  run : String
  cwd : Option String := none
  work : Work := .shell
  timeout : Option Number := none

namespace Step

/-- A shell line. -/
def shell (name line : String) (cwd : Option String := none) (timeout : Option Number := none) : Step where
  name := name
  run := line
  cwd := cwd
  timeout := timeout

/-- A container run of one shell line. -/
def inContainer (name line : String) (r : ContainerRun String) (cwd : Option String := none)
    (timeout : Option Number := none) : Step where
  name := name
  run := line
  cwd := cwd
  work := .container { r with argv := none }
  timeout := timeout

/-- A container run of the image's own entry command with the given words. -/
def withWords (name : String) (words : List String) (r : ContainerRun String) (cwd : Option String := none)
    (timeout : Option Number := none) : Step where
  name := name
  run := Shell.quoteAll words
  cwd := cwd
  work := .container { r with argv := some words }
  timeout := timeout

/-- An image build. -/
def building (name : String) (b : ImageBuild String) : Step where
  name := name
  run := Shell.quoteAll b.command
  work := .image b

/-- A lint check; an empty list of files is as none. -/
def linting (name : String) (c : LintCheck) (cwd : Option String := none) : Step where
  name := name
  run := c.shown
  cwd := cwd
  work := .lint { c with files := c.files.filter (!·.isEmpty) }

end Step

end CiPipeline
