import CiPipeline.Linter
import CiPipeline.Suite

/-
The entry point of a container: the first word selects an operation, and the other words are for it.
A word that selects none starts a program: all words are its command line, and its exit code is the
answer.
-/

namespace CiPipeline.Entrypoint

/-- What an operation works on: the source directory, and the environment for the programs it starts. -/
structure Context where
  source : String
  env : Dict String

namespace Context

/-- The source directory as a path. -/
def path (x : Context) : Path := .parse x.source

/-- The environment for commands. -/
def values (x : Context) : Dict Value := x.env.map .text

/-- The context for a source directory, or for that of the surroundings. -/
def ofHost (h : Host) (source : Option String) : Context :=
  let source := (source.filter (· ≠ "")).getD (Settings.sourceDirectory h.env h.here (some Settings.containerSource))
  ⟨source, Settings.sourceEnv source h.env⟩

end Context

/-- The help text. -/
def helpText : String :=
  "MLC-LLM Docker Container\n" ++
  "Usage: docker run [OPTIONS] mlc-llm-image [COMMAND]\n" ++
  "\n" ++
  "Commands:\n" ++
  "  bash                    Start interactive bash shell (development mode)\n" ++
  "  build                   Build MLC-LLM from source\n" ++
  "  test                    Run test suite\n" ++
  "  lint                    Run linting checks\n" ++
  "  format                  Format code\n" ++
  "  package                 Build Python wheel packages\n" ++
  "  serve [OPTIONS]         Start MLC-LLM server\n" ++
  "  chat [OPTIONS]          Start MLC-LLM chat interface\n" ++
  "  help                    Show this help message\n" ++
  "\n" ++
  "Any other command is executed as-is inside the container.\n" ++
  "\n" ++
  "Environment Variables:\n" ++
  "  MLC_LLM_SOURCE_DIR      Path to MLC-LLM source (default: /workspace)\n" ++
  "  PYTHONPATH              Python path including MLC-LLM modules\n"

/-- The operations. -/
inductive Operation
  | help
  | shell
  | build
  | test
  | lint
  | format
  | package
  | serve
  | chat
  deriving DecidableEq, Repr

/-- The operation that a word selects. -/
def Operation.ofWord? (word : String) : Option Operation :=
  [("help", Operation.help), ("--help", .help), ("-h", .help), ("bash", .shell), ("shell", .shell), ("build", .build),
    ("test", .test), ("lint", .lint), ("format", .format), ("package", .package), ("serve", .serve),
    ("chat", .chat)].lookup word

/-- Runs a program to its end and gives its exit code; a program that is not there, or that may not
be started, has the codes that shells give it. -/
def exec (x : Context) (argv : List String) (cwd : Option Path := none) : Act Int := do
  let c : Command := { program := .words argv, cwd := cwd.map Path.text, env := some x.values }
  match ← c.start.attempt with
  | .ok e => return e.code
  | .error f =>
    if f.isNotFound then
      Console.error (c.program.name ++ ": command not found")
      return 127
    else if f.isDenied then
      Console.error (c.program.name ++ ": permission denied")
      return 126
    else .fail f

/-- Prints the help text. -/
def showHelp : Act Int := do
  Console.plain helpText
  return 0

/-- Starts a shell. -/
def startShell (x : Context) (words : List String) : Act Int := do
  Console.info "Starting interactive bash shell..."
  exec x ("/bin/bash" :: words)

/-- Builds the sources, with the tools that the container has. -/
def build (x : Context) : Act Int := do
  Console.info "Building MLC-LLM from source..."
  let r : BuildRequest := { source := some (.text x.source), skipDeps := true, skipTests := true, cmakeOptions := some [] }
  let c ← Act.ofExcept id (r.config (← get))
  let _ ← Build.run c
  return 0

/-- Runs the project's own tests, or else only imports the module. -/
def test (x : Context) : Act Int := do
  Console.info "Running MLC-LLM test suite..."
  let c ← Act.ofExcept id (SuiteConfig.ofSource (← get) (some (.text x.source)) true true false)
  if (← get).hasDirectory c.tests then
    return if (← Suite.run "pytest" c).isOk then 0 else 1
  Console.info "No tests directory found, running basic import test..."
  return if (← Suite.run "import" c).isOk then 0 else 1

/-- The linters with their options. -/
def linters : List (String × Option String) := [("black", some "--check"), ("flake8", none), ("mypy", none)]

/-- The check of the sources with a linter. -/
def checkOf (linter : String × Option String) : LintCheck where
  tool := linter.1
  args := linter.2
  files := some ["python/"]

/-- Runs one linter over the sources and reports what it finds. -/
def lintWith (x : Context) (linter : String × Option String) : Act Unit := do
  let tool := linter.1
  Console.info ("Running " ++ tool ++ "...")
  match ← (Linter.run (checkOf linter).task x.path.text x.values).attempt with
  | .error f =>
    if f.faultClass.isPipeline then Console.warning (Text.beforeNewline f.message) else .fail f
  | .ok e =>
    let printed := Text.strip e.output
    if printed ≠ "" then Console.plain printed
    if !e.isSuccess then Console.warning (tool ++ " reported issues (exit " ++ toString e.code ++ ")")

/-- Runs the linters, whose findings are no failures. -/
def lint (x : Context) : Act Int := do
  Console.info "Running linting checks..."
  if !(← get).hasDirectory (x.path.child "python") then
    Console.warning ("No python/ directory under " ++ x.source ++ ", nothing to lint")
    return 0
  linters.forM (lintWith x)
  return 0

/-- Formats the sources. -/
def format (x : Context) : Act Int := do
  Console.info "Formatting code..."
  if !(← get).hasDirectory (x.path.child "python") then
    Console.warning "No python/ directory, nothing to format"
    return 0
  let code ← exec x ["black", "python/"] (some x.path)
  if code = 0 then Console.success "Code formatting completed!"
  return code

/-- The size of what stands in a directory, in bytes. -/
def size : Node → Nat
  | .file content => content.utf8ByteSize
  | .directory => 4096

/-- The names in a directory, in order, with what they name. -/
def contents (h : Host) (directory : Path) : List (String × Node) :=
  if h.hasDirectory directory then h.files.listing (h.here.resolve directory).parts else []

/-- Builds packages and lists them. -/
def package (x : Context) : Act Int := do
  Console.info "Building Python wheel packages..."
  let code ← exec x [Build.python, "-m", "build", "--wheel", "--outdir", "dist/"] (some x.path)
  if code ≠ 0 then return code
  Console.success "Packages built successfully!"
  (contents (← get) (x.path.child "dist")).forM fun (name, node) =>
    Console.plain ("  " ++ name ++ "  " ++ toString (size node) ++ " bytes")
  return 0

/-- Starts the server. -/
def serve (x : Context) (words : List String) : Act Int := do
  Console.info "Starting MLC-LLM server..."
  exec x ([Build.python, "-m", "mlc_llm.cli.serve"] ++ words)

/-- Starts the chat. -/
def chat (x : Context) (words : List String) : Act Int := do
  Console.info "Starting MLC-LLM chat..."
  exec x ([Build.python, "-m", "mlc_llm.cli.chat"] ++ words)

/-- Carries out an operation with its words. -/
def perform (x : Context) (words : List String) : Operation → Act Int
  | .help => showHelp
  | .shell => startShell x words
  | .build => build x
  | .test => test x
  | .lint => lint x
  | .format => format x
  | .package => package x
  | .serve => serve x words
  | .chat => chat x words

/-- Starts a program that is no operation. -/
def passThrough (x : Context) (argv : List String) : Act Int := do
  Console.info ("Unknown command: " ++ argv.headD "")
  Console.info "Use 'help' to see available commands."
  exec x argv

/-- The command line without words stands for a shell. -/
def orDefault : List String → List String
  | [] => ["bash"]
  | argv => argv

/-- Carries out what a command line selects and gives the exit code. Help needs no surroundings. -/
def dispatch (argv : List String) (x : Option Context := none) : Act Int := do
  let argv := orDefault argv
  let x := x.getD (Context.ofHost (← get) none)
  match Operation.ofWord? (argv.headD "") with
  | some o => perform x argv.tail o
  | none => passThrough x argv

end CiPipeline.Entrypoint
