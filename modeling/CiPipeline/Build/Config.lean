import CiPipeline.Host

/-
What a native build is to do. A configuration is checked when it is made: the kind of build must be
known, there must be at least one job, and directories become paths from the root.
-/

namespace CiPipeline

/-- The configuration of a build. -/
structure BuildConfig where
  kind : BuildKind
  jobs : Int
  jobs_pos : 1 ≤ jobs
  source : Path
  build : Path
  installPrefix : String
  skipDeps : Bool := false
  skipSubmodules : Bool := false
  skipTests : Bool := false
  clean : Bool := false
  cmakeOptions : List String

/-- What is asked of a build; what is missing takes its default, and so does a build directory that is null. -/
structure BuildRequest where
  kind : Option Value := none
  jobs : Option Value := none
  source : Option Value := none
  build : Option Value := none
  installPrefix : Option Value := none
  skipDeps : Bool := false
  skipSubmodules : Bool := false
  skipTests : Bool := false
  clean : Bool := false
  cmakeOptions : Option (List String) := none

namespace BuildRequest

/-- The options for the build system, if no others are given. -/
def defaultOptions : List String := ["-DUSE_CUDA=ON", "-DUSE_VULKAN=ON", "-DUSE_METAL=ON", "-DUSE_OPENCL=ON"]

/-- The whole number that a value stands for; fractions are cut off. -/
def wholeNumber : Value → Except Fault Int
  | .bool b => .ok (if b then 1 else 0)
  | .number (.int n) => .ok n
  | .number (.real x) =>
    match Decimal.whole? x with
    | some n => .ok n
    | none => .error (if x.isNaN then .notANumber else .infinite)
  | .text s => (Text.integer s).mapError .integer
  | v => .error (.notNumber v.kindName)

/-- How many jobs a host runs by default: as many as it has processors. -/
def defaultJobs (h : Host) : Value := .number (.int ((h.processors.filter (· ≠ 0)).getD 4))

/-- A number of jobs, which must not be below one. -/
def jobCount (v : Value) : Except Fault { n : Int // 1 ≤ n } := do
  let n ← wholeNumber v
  if h : 1 ≤ n then return ⟨n, h⟩
  throw (.tooFewJobs v.plain)

/-- The kind of build of a name. -/
def kindOf (v : Value) : Except Fault BuildKind :=
  match v.text?.bind BuildKind.ofName? with
  | some k => .ok k
  | none => .error (.unknownBuildKind v)

/-- The source directory asked for, or that of the surroundings. -/
def sourceOf (r : BuildRequest) (h : Host) : Value :=
  r.source.getD (.text (Settings.sourceDirectory h.env h.here none))

/-- The build directory asked for, or the usual one under the source directory. -/
def buildOf (r : BuildRequest) (h : Host) (source : Path) : Except Fault Path :=
  match r.build.getD .null with
  | .null => .ok (source.child "build")
  | v => h.expandValue v

/-- The configuration asked for. -/
def config (r : BuildRequest) (h : Host) : Except Fault BuildConfig := do
  let kind ← kindOf (r.kind.getD (.text "Release"))
  let jobs ← jobCount (r.jobs.getD (defaultJobs h))
  let source ← h.expandValue (r.sourceOf h)
  let build ← r.buildOf h source
  return {
    kind := kind
    jobs := jobs.1
    jobs_pos := jobs.2
    source := source
    build := build
    installPrefix := (r.installPrefix.map Value.plain).getD h.settings.installPrefix
    skipDeps := r.skipDeps
    skipSubmodules := r.skipSubmodules
    skipTests := r.skipTests
    clean := r.clean
    cmakeOptions := r.cmakeOptions.getD defaultOptions }

end BuildRequest

end CiPipeline
