import CiPipeline.Console
import CiPipeline.Trigger.Environment

/-
Finding a workflow file and loading it. Without a name the default file is taken if it is there,
and else the only file whose name ends as workflow files do.
-/

namespace CiPipeline.Workflow

/-- The name of the default file. -/
def defaultName : String := "mlcpipe_workflow.py"

/-- The ending of the names of workflow files. -/
def ending : String := "_workflow.py"

/-- The jobs of definitions; a function that takes a trigger gets the one of the surroundings if none is given. -/
def jobsOf (d : Definitions) (t : Option Trigger) : Act Given := do
  let t ← match t with
    | some t => pure (some t)
    | none => if d.needTrigger then some <$> Trigger.fromEnv (← get).env {} else pure none
  Act.ofExcept id (d.given t)

/-- The file that is loaded for a path: that file, or the main file of a directory, unless a package
of the same name hides it. -/
def loaded? (h : Host) (path : Path) : Option Path :=
  if !h.hasDirectory path then some path
  else if h.hasFile (path.child "__main__/__init__.py") then none
  else some (path.child "__main__.py") |>.filter h.hasFile

/-- What the file at a path means. -/
def fileAt (h : Host) (path : Path) : WorkflowFile := ((h.content? path).map h.meaning).getD .blank

/-- Loads the jobs of a workflow file. -/
def load (path : String) (t : Option Trigger := none) : Act (List Job) := do
  let h ← get
  let place ← Act.ofExcept id (h.expand path)
  if !h.has place then Act.fail (.noWorkflow place.text)
  if place.suffix ≠ ".py" then Act.fail (.notWorkflowName place.name)
  let file ← match loaded? h place with
    | some file => pure file
    | none => .fail (.workflowIsDirectory place.text)
  let d ← Act.ofExcept id ((fileAt h file).load h.settings h.env)
  match ← jobsOf d t with
  | some jobs => return jobs
  | none => .fail .notJobs

/-- The names of the workflow files in the current directory, in order. -/
def found (h : Host) : List String :=
  (((h.files.listing h.here.parts).map (·.1)).filter fun n => Text.endsWith n ending)

/-- Ends the program with a code. -/
def quit {α : Type} (code : Int) : Act α := .fail (.exit (.number code))

/-- The file of a name; the usual ending may be left out. -/
def discoverNamed (name : String) : Act Path := do
  let h ← get
  let path := Path.parse name
  let path := if !h.has path && path.suffix ≠ ".py" then Path.parse (path.text ++ ".py") else path
  if h.has path then return path
  Console.error "Workflow file not found" ("Could not find workflow file: " ++ name) []
    "Create a workflow file or specify a different path:\n  mlcpipe run --workflow my_workflow.py"
  quit 1

/-- Says that there is no workflow file. -/
def reportNone : Act Unit :=
  Console.error "No workflow file found" "Could not find any workflow files."
    ["Looked for:", "  " ++ defaultName, "  *_workflow.py"]
    ("Create a workflow file:\n  " ++ defaultName ++
      "\n\nOr specify a workflow explicitly:\n  mlcpipe run --workflow my_workflow.py")

/-- Says that there are several workflow files. -/
def reportSeveral (first : String) (names : List String) : Act Unit :=
  Console.error "Multiple workflow files found"
    "Found multiple workflow files. Please specify which one to use:"
    [Text.join "\n" (names.map ("  " ++ ·))]
    ("Specify a workflow explicitly:\n  mlcpipe run --workflow " ++ first)

/-- The workflow file to use. -/
def discover (name : Option String) : Act Path := do
  match name.filter (· ≠ "") with
  | some name => discoverNamed name
  | none =>
    let h ← get
    if h.has (Path.parse defaultName) then return Path.parse defaultName
    match found h with
    | [] => do reportNone; quit 1
    | [name] => return Path.parse name
    | first :: more => do reportSeveral first (first :: more); quit 1

end CiPipeline.Workflow
