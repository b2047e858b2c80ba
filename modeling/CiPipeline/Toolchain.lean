import CiPipeline.Host
import CiPipeline.Text.Blank
import CiPipeline.Version

/-
The tools that the pipeline needs: whether they are on the search path, which versions they report,
and what to do about those that are missing or too old.
-/

namespace CiPipeline.Toolchain

/-- The tools of a build, by name, with their programs. -/
def required : Dict String :=
  ⟨[("cmake", "cmake"), ("git", "git"), ("python", "python"), ("rust", "rustc")]⟩

/-- The least versions of tools, by name. -/
def leastVersions : Dict String := ⟨[("cmake", "3.24.0")]⟩

/-- What to do about a missing program. -/
def hints : Dict String :=
  ⟨[("cmake", "Install CMake 3.24 or newer (e.g., conda install -c conda-forge 'cmake>=3.24')."),
    ("git", "Install Git or fix PATH."),
    ("python", "Install Python 3 or fix PATH (python)."),
    ("rustc", "Install Rust via rustup (https://rustup.rs)."),
    ("pytest", "Install pytest (e.g., pip install pytest)."),
    ("black", "Install black (e.g., pip install black)."),
    ("flake8", "Install flake8 (e.g., pip install flake8)."),
    ("isort", "Install isort (e.g., pip install isort)."),
    ("mypy", "Install mypy (e.g., pip install mypy)."),
    ("docker", "Install Docker and ensure the daemon is running."),
    ("gh", "Install the GitHub CLI (gh) and authenticate with `gh auth login`.")]⟩

/-- The hint for a program, or a general one under the name `name`. -/
def hintFor (program name : String) : String :=
  (hints.get? program).getD ("Install " ++ name ++ " or fix PATH.")

/-- The first line of what a command printed, if it printed anything but blanks. -/
def versionLineOf (e : Ended) : Option String :=
  let printed := Text.strip (if e.out = "" then e.err else e.out)
  if printed = "" then none else some (Text.firstLine printed)

/-- The first line of what a program says about its version, if it can be run. -/
def versionLine (program : String) : Act (Option String) := do
  let ask : Command := { program := .words [program, "--version"], timeout := some (.int 30), reads := true }
  (versionLineOf <$> ask.start).recover (fun f => f.isOs || f.isTimeout) fun _ => pure none

/-- The version that a program reports. -/
def version (program : String) : Act (Option Version) := do
  match ← versionLine program with
  | none => return none
  | some line => Act.ofExcept .digits (Version.parse line)

/-- The names of the tools whose programs are not on the search path. -/
def missing (h : Host) (tools : Dict String) : List String :=
  (tools.entries.filter fun (_, program) => !h.finds program).map (·.1)

/-- The error about missing tools. -/
def missingError (tools : Dict String) (names : List String) : PipelineError :=
  .tools ("Missing dependencies: " ++ Text.join " " names) names
    (some (Text.join "; " (names.map fun n => hintFor ((tools.get? n).getD "") n)))

/-- The error about a tool whose version cannot be found out. -/
def unreadableError (name least : String) : PipelineError :=
  .tools ("Could not determine " ++ name ++ " version. Required: " ++ least ++ " or higher.") [name] none
    ⟨[("required", .text least)]⟩

/-- The error about a tool that is too old. -/
def oldError (name program least : String) (found : Version) : PipelineError :=
  .tools (name ++ " version " ++ found.text ++ " is too old. Required: " ++ least ++ " or higher.") [name]
    (hints.get? program) ⟨[("required", .text least), ("found", .text found.text)]⟩

/-- Checks that a tool has at least a version. -/
def checkVersion (name program least : String) : Act Unit := do
  match ← version program with
  | none => .fail (.pipeline (unreadableError name least))
  | some found =>
    unless ← Act.ofExcept id (Version.reaches found.parts least) do
      .fail (.pipeline (oldError name program least found))

/-- Checks that all tools are on the search path, and then their versions. -/
def check (tools leastVersions : Dict String) : Act Unit := do
  let absent := missing (← get) tools
  if absent ≠ [] then Act.fail (.pipeline (missingError tools absent))
  leastVersions.entries.forM fun (name, least) =>
    match tools.get? name with
    | some program => checkVersion name program least
    | none => pure ()

/-- Checks that all programs are on the search path. -/
def demand (programs : List String) : Act Unit := do
  let h ← get
  let absent := programs.filter fun p => !h.finds p
  if absent ≠ [] then
    Act.fail (.pipeline (.tools ("Required tools not found: " ++ Text.join " " absent) absent
      (some (Text.join "; " (absent.map fun p => hintFor p p)))))

end CiPipeline.Toolchain
