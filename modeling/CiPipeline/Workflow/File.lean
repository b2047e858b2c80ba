import CiPipeline.Settings

/-
Workflow files: what loading one defines, and the jobs that come of it. A file defines a list of
jobs, or a function that makes one, with or without the trigger of the run; or neither.
-/

namespace CiPipeline

/-- What a file or its function gives: jobs, or something else. -/
abbrev Given := Option (List Job)

/-- What a workflow file defines. -/
inductive Definitions
  | list (jobs : Given)
  | function (make : Unit → Except Fault Given)
  | triggered (make : Trigger → Except Fault Given)
  | nothing

/-- A workflow file, by what loading it under some settings and environment comes to. -/
structure WorkflowFile where
  load : Settings → Dict String → Except Fault Definitions

namespace WorkflowFile

/-- A file that defines nothing of use. -/
def blank : WorkflowFile := ⟨fun _ _ => .ok .nothing⟩

end WorkflowFile

namespace Definitions

/-- Whether the definitions need the trigger of the run. -/
def needTrigger : Definitions → Bool
  | .triggered _ => true
  | _ => false

/-- What the definitions give; the trigger is asked for only by a function that takes it. -/
def given (t : Option Trigger) : Definitions → Except Fault Given
  | .list jobs => .ok jobs
  | .function make => make ()
  | .triggered make => t.elim (.ok none) make
  | .nothing => .ok none

end Definitions

end CiPipeline
