import CiPipeline.Step.Data

/-
Container runs: a command inside an image, with the repository mounted at a fixed directory, and
the command line that starts one. Only the declared environment crosses into the container.
-/

namespace CiPipeline

/-- What a container run needs besides its command. Without its own words the command runs in a shell. -/
structure ContainerRun (ω : Type) where
  image : ω
  argv : Option (List ω) := none
  volumes : List ω := []
  env : Dict Value := {}
  user : Option ω := none
  mountRepo : Bool := true

namespace ContainerRun

/-- Where the repository is mounted. -/
def workspace : String := "/workspace"

/-- The characters with each pair of slashes made one, in one pass. -/
def halveSlashes : List Char → List Char
  | '/' :: '/' :: cs => '/' :: halveSlashes cs
  | c :: cs => c :: halveSlashes cs
  | [] => []

/-- The directory in the container for a directory of the repository. -/
def directory (cwd : String) : String :=
  let cs := halveSlashes (workspace ++ "/" ++ cwd).toList
  String.ofList (cs.reverse.dropWhile fun c => c == '/' || c == '.').reverse

/-- The options that mount the repository at `root` and enter the directory. -/
def mountWords (root : String) (cwd : Option String) : List String :=
  ["-v", root ++ ":" ++ workspace, "-w", directory ((cwd.filter (· ≠ "")).getD ".")]

/-- The options that set the variables. -/
def envWords (env : Dict Value) : List String :=
  env.entries.flatMap fun (k, v) => ["-e", k ++ "=" ++ v.plain]

section

variable {ω : Type} [Word ω]

/-- The words that start a run, up to the volumes. -/
def startWords (r : ContainerRun ω) (cwd : Option String) (root : String) : List String :=
  ["docker", "run", "--rm"] ++ if r.mountRepo then mountWords root cwd else []

/-- The options that mount the volumes. -/
def volumeWords (r : ContainerRun ω) : List ω := r.volumes.flatMap fun v => [Word.ofText "-v", v]

/-- The option that names the user, if there is one. -/
def userWords (r : ContainerRun ω) : List ω :=
  match r.user.filter Word.isGiven with
  | some u => [Word.ofText "--user", u]
  | none => []

/-- The words behind the image: the run's own, or a shell with the command. -/
def commandWords (r : ContainerRun ω) (run : String) : List ω := r.argv.getD (Word.texts ["sh", "-c", run])

/-- The command line that starts the container for a job with the environment `jobEnv`. -/
def command (r : ContainerRun ω) (jobEnv : Dict Value) (cwd : Option String) (run root : String) : List ω :=
  Word.texts (r.startWords cwd root) ++ r.volumeWords ++ Word.texts (envWords (jobEnv.update r.env)) ++
    r.userWords ++ r.image :: r.commandWords run

/-- The run with values for words. -/
def toValues (r : ContainerRun ω) : ContainerRun Value where
  image := Word.toValue r.image
  argv := r.argv.map Word.values
  volumes := Word.values r.volumes
  env := r.env
  user := r.user.map Word.toValue
  mountRepo := r.mountRepo

/-- The run as a table. -/
def toData (r : ContainerRun ω) : StepData :=
  ⟨[("image", Word.toValue r.image),
    ("argv", (r.argv.map fun ws => Value.list (Word.values ws)).getD .null),
    ("volumes", .list (Word.values r.volumes)),
    ("env", .dict r.env.entries),
    ("user", (r.user.map Word.toValue).getD .null),
    ("mount_repo", .bool r.mountRepo)]⟩

end

/-- Reads a run from a table; of its entries only the image must be there. -/
def ofData (d : StepData) : Except DataError (ContainerRun Value) := do
  let volumes ← d.readOr "volumes" [] Value.sequence
  let env ← d.readOr "env" {} Value.environment
  let image ← d.entry "image"
  let argv ← match d.get? "argv" with
    | none | some .null => pure none
    | some v => some <$> v.sequence
  return {
    image := image
    argv := argv
    volumes := volumes
    env := env
    user := d.given? "user"
    mountRepo := d.flag "mount_repo" true }

end ContainerRun

end CiPipeline
