import CiPipeline.Build.Config
import CiPipeline.Console
import CiPipeline.Git
import CiPipeline.Toolchain

/-
The native build: clean, dependency check, submodules, configure, compile, install and a smoke test,
of which a configuration leaves some out. A phase that fails ends the build; the smoke test only
gives warnings.
-/

namespace CiPipeline

/-- The phases of a build in order, without the smoke test. -/
inductive BuildPhase
  | clean
  | deps
  | submodules
  | configure
  | compile
  | install
  deriving DecidableEq, Repr

/-- The name of a phase. -/
def BuildPhase.name : BuildPhase → String
  | .clean => "clean"
  | .deps => "deps"
  | .submodules => "submodules"
  | .configure => "configure"
  | .compile => "compile"
  | .install => "install"

/-- What a build that ran to its end reports. -/
structure BuildReport where
  phases : List String
  warnings : List String
  deriving DecidableEq, Repr

namespace Build

/-- The interpreter of the sources. -/
def python : String := "python"

/-- The libraries of a complete build: by label the files of which one must be there. -/
def libraries : List (String × List String) :=
  [("MLC-LLM", ["libmlc_llm.so", "libmlc_llm.dylib", "mlc_llm.dll"]),
    ("TVM runtime", ["libtvm_runtime.so", "libtvm_runtime.dylib", "tvm_runtime.dll"])]

/-- The first of the files that is in a directory. -/
def findLibrary (h : Host) (directory : Path) (candidates : List String) : Option String :=
  candidates.find? fun name => h.hasFile (directory.child name)

/-- Starts the command of a phase, which has to succeed. -/
def perform (phase : BuildPhase) (argv : List String) (cwd : Path) (env : Option (Dict Value) := none) : Act Unit := do
  let line := Text.join " " argv
  Console.debug ("$ " ++ line ++ "  (cwd=" ++ cwd.text ++ ")")
  let c : Command := { program := .words argv, cwd := some cwd.text, env := env }
  let e ← c.start.recover Fault.isNotFound fun f =>
    .fail (.pipeline (.build phase.name (c.program.name ++ " not found: " ++ f.message)))
  unless e.isSuccess do
    .fail (.pipeline (.build phase.name (line ++ " exited with " ++ toString e.code) (some e.code)))

/-- Removes a directory with all that it holds. -/
def removeTree (path : Path) : Act Unit := do
  let h ← get
  match h.files.removeDirectory path.parts with
  | .ok files => set { h with files := files }
  | .error .notDirectory => .fail (.notRemovable path.text)
  | .error e => .fail (.os e path.text)

/-- Makes a directory with all that lead to it. -/
def makeDirectory (path : Path) : Act Unit := do
  let h ← get
  match h.files.makeDirectory path.parts with
  | .ok files => set { h with files := files }
  | .error e => .fail (.os e path.text)

/-- Removes the build directory. -/
def clean (c : BuildConfig) : Act Unit := do
  Console.info "Cleaning build directory..."
  if (← get).has c.build then removeTree c.build

/-- Checks the tools of a build. -/
def checkDependencies : Act Unit := do
  Console.info "Checking build dependencies..."
  Toolchain.check Toolchain.required Toolchain.leastVersions
  Console.success "All dependencies satisfied"

/-- Fetches the submodules, if there are any. -/
def initSubmodules (c : BuildConfig) : Act Unit := do
  Console.info "Initializing git submodules..."
  if ← Git.hasSubmodules c.source then
    perform .submodules ["git", "submodule", "update", "--init", "--recursive"] c.source
    Console.success "Submodules initialized"
  else Console.warning "No .gitmodules found, skipping submodule initialization"

/-- The command line that configures a build. -/
def configureWords (c : BuildConfig) : List String :=
  ["cmake", "-DCMAKE_BUILD_TYPE=" ++ c.kind.name, "-DCMAKE_INSTALL_PREFIX=" ++ c.installPrefix] ++
    c.cmakeOptions ++ [c.source.text]

/-- The script that writes the configuration of the sources. -/
def configureScript (c : BuildConfig) : Path := (c.source.child "cmake").child "gen_cmake_config.py"

/-- Configures a build in its directory. -/
def configure (c : BuildConfig) : Act Unit := do
  Console.info "Configuring build..."
  makeDirectory c.build
  if (← get).hasFile (configureScript c) then
    Console.info "Generating CMake configuration..."
    perform .configure [python, (configureScript c).text] c.build
  perform .configure (configureWords c) c.build
  Console.success "Build configured"

/-- The command line that compiles. -/
def compileWords (c : BuildConfig) : List String :=
  ["cmake", "--build", ".", "--parallel", toString c.jobs, "--config", c.kind.name]

/-- Compiles what was configured. -/
def compile (c : BuildConfig) : Act Unit := do
  Console.info ("Building MLC-LLM with " ++ toString c.jobs ++ " cores...")
  perform .compile (compileWords c) c.build
  Console.success "Build completed"

/-- The environment for the sources at a path. -/
def sourceEnv (source : Path) (h : Host) : Dict Value := (Settings.sourceEnv source.text h.env).map .text

/-- Installs the module, so that changes to the sources take effect, or else as it is. -/
def install (c : BuildConfig) : Act Unit := do
  Console.info "Installing Python package..."
  let env := sourceEnv c.source (← get)
  (perform .install [python, "-m", "pip", "install", "-e", "."] c.source (some env)).recover
    (fun f => f.faultClass == .build) fun _ => do
      Console.warning "Development install failed, trying regular install..."
      perform .install [python, "-m", "pip", "install", "."] c.source (some env)
  Console.success "Python package installed"

/-- The command that prints the version of the installed module. -/
def versionProbe : Program :=
  .words [python, "-c", "import mlc_llm; print(getattr(mlc_llm, '__version__', 'unknown'))"]

/-- Imports the installed module; what is wrong with it is a warning. -/
def probe (c : BuildConfig) : Act (List String) := do
  let h ← get
  let limit := h.settings.smokeTimeout
  let ask : Command := {
    program := versionProbe
    cwd := some c.source.text
    env := some (sourceEnv c.source h)
    timeout := some (.int limit)
    reads := true }
  match ← ask.start.attempt with
  | .ok e =>
    if e.isSuccess then
      let shown := Text.strip e.out
      Console.success ("MLC-LLM version: " ++ if shown = "" then "unknown" else shown)
      return []
    else return ["Failed to import mlc_llm"]
  | .error f =>
    if f.isTimeout then return ["Importing mlc_llm timed out after " ++ toString limit ++ "s"]
    else if f.isOs then return ["Could not run " ++ python ++ ": " ++ f.message]
    else .fail f

/-- Looks for a library in the build directory; a missing one is a warning. -/
def checkLibrary (c : BuildConfig) (label : String) (candidates : List String) : Act (List String) := do
  if (findLibrary (← get) c.build candidates).isSome then
    Console.success (label ++ " libraries found")
    return []
  else return [label ++ " libraries not found in expected location"]

/-- Tries out what was built and gives the warnings. -/
def smokeTest (c : BuildConfig) : Act (List String) := do
  Console.info "Running basic validation tests..."
  let imported ← probe c
  let missing ← libraries.mapM fun (label, candidates) => checkLibrary c label candidates
  let warnings := imported ++ missing.flatten
  warnings.forM Console.warning
  if warnings.isEmpty then Console.success "Basic validation completed"
  return warnings

/-- Whether a phase is part of a build. -/
def isEnabled (c : BuildConfig) : BuildPhase → Bool
  | .clean => c.clean
  | .deps => !c.skipDeps
  | .submodules => !c.skipSubmodules
  | _ => true

/-- The phases of a build, without the smoke test. -/
def phases (c : BuildConfig) : List BuildPhase :=
  [BuildPhase.clean, .deps, .submodules, .configure, .compile, .install].filter (isEnabled c)

/-- Carries out a phase. -/
def phase (c : BuildConfig) : BuildPhase → Act Unit
  | .clean => clean c
  | .deps => checkDependencies
  | .submodules => initSubmodules c
  | .configure => configure c
  | .compile => compile c
  | .install => install c

/-- Prints what is going to be built. -/
def announce (c : BuildConfig) : Act Unit := do
  Console.info "Starting MLC-LLM build process..."
  Console.info ("Source directory: " ++ c.source.text)
  Console.info ("Build directory: " ++ c.build.text)
  Console.info ("Build type: " ++ c.kind.name)
  Console.info ("Parallel jobs: " ++ toString c.jobs)

/-- Prints that the build is there. -/
def congratulate : Act Unit := do
  Console.success "MLC-LLM build completed successfully!"
  Console.info "You can now use MLC-LLM:"
  Console.info "  - Python: python -c 'import mlc_llm'"
  Console.info "  - CLI: python -m mlc_llm --help"

/-- Builds: the phases in order up to the first that fails, and then the smoke test. -/
def run (c : BuildConfig) : Act BuildReport := do
  announce c
  (phases c).forM (phase c)
  let warnings ← if c.skipTests then pure [] else smokeTest c
  congratulate
  return ⟨(phases c).map BuildPhase.name ++ if c.skipTests then [] else ["smoke"], warnings⟩

end Build

end CiPipeline
