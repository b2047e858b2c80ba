import CiPipeline.ImageTag
import CiPipeline.Workflow.File

/-
The release pipeline: lint, development image, tests of that image, wheels, production image and
release. Every text that comes from a ref or a path stands in a shell line as one quoted word.
-/

namespace CiPipeline.Release

/-- What the pipeline takes from its surroundings. -/
structure Surroundings where
  image : String
  source : String
  push : Bool
  testLimit : Number

/-- The surroundings under some settings and environment. -/
def Surroundings.of (s : Settings) (env : Dict String) : Surroundings where
  image := s.image
  source := (env.get? Settings.sourceVariable).getD "mlc-llm"
  push := ["1", "true", "yes"].contains (Text.lowerAscii ((env.get? "MLCPIPE_PUSH").getD ""))
  testLimit := .int s.smokeTimeout

/-- Where artifacts are kept. -/
def artifacts : String := ".mlcpipe/artifacts"

/-- A platform with its architecture. -/
structure Target where
  platform : String
  arch : String
  deriving DecidableEq, Repr

/-- The targets for which wheels are built. -/
def targets : List Target := [⟨"linux", "x64"⟩, ⟨"windows", "x64"⟩]

/-- A target as a value of a matrix. -/
def Target.value (t : Target) : Value := .dict [("platform", .text t.platform), ("arch", .text t.arch)]

/-- The tags of the two images. -/
structure Tags where
  development : List String
  production : List String
  deriving DecidableEq, Repr

/-- The tags, or a local one if there are none. -/
def orLocal (tags : List String) (name : String) : List String := if tags = [] then [name] else tags

/-- The tags for a trigger. -/
def Tags.of (u : Surroundings) (t : Trigger) : Except Text.TooManyDigits Tags := do
  let development ← ImageTag.development t u.image
  let production ← ImageTag.production t u.image
  return ⟨orLocal development (u.image ++ ":local"), orLocal production (u.image ++ ":prod-local")⟩

/-- A lint check of the sources, if there are any. -/
def lintStep (tool options : String) : Step :=
  .linting tool { tool := tool, args := some options, files := some ["python/"], onlyIfExists := some "python" }

/-- Checks style and form of the sources. -/
def lint : Job where
  name := "lint-and-format"
  steps := [lintStep "black" "--check", lintStep "flake8" "--select=E9,F63,F7,F82", lintStep "isort" "--check-only"]

/-- Builds the development image. -/
def developmentImage (u : Surroundings) (tags : Tags) : Job where
  name := "build-docker-image"
  steps := [.building "Build development image" { ImageBuild.ofTarget "development" tags.development with
    push := u.push
    buildArgs := ⟨[("BUILDKIT_INLINE_CACHE", .text "1")]⟩ }]
  needs := ["lint-and-format"]
  gate := some (.succeededOrForced ["lint-and-format"])

/-- The words of a test of the development image. -/
def testWords (kind : String) : List String :=
  if kind = "basic" then ["help"] else ["/bin/bash", "-c", "python --version"]

/-- Tests the development image in one way. -/
def imageTest (u : Surroundings) (tags : Tags) (kind : String) : Job :=
  Matrix.member (.text kind) {
    name := "test-docker-image"
    steps := [.withWords ("Test image (" ++ kind ++ ")") (testWords kind)
      { image := tags.development.headD "", mountRepo := false } none (some u.testLimit)]
    needs := ["build-docker-image"] }

/-- The line that builds the wheels of a target. -/
def wheelLine (u : Surroundings) (target : Target) : String :=
  "python -m build --wheel --outdir " ++
    Shell.quote (artifacts ++ "/" ++ ImageTag.wheelArtifact target.platform target.arch) ++ " " ++
    Shell.quote (u.source ++ "/python")

/-- Builds the wheels of a target. -/
def wheels (u : Surroundings) (target : Target) : Job :=
  Matrix.member target.value {
    name := "build-wheels"
    steps := [
      .shell "Install build tooling" "python -m pip install --upgrade pip build wheel setuptools",
      .shell "Build wheel" (wheelLine u target)]
    needs := ["lint-and-format", "test-docker-image"]
    gate := some (.succeededOrForced ["lint-and-format", "test-docker-image"])
    runsOn := some target.platform }

/-- Builds the production image. -/
def productionImage (u : Surroundings) (tags : Tags) : Job where
  name := "build-production-image"
  steps := [.building "Build production image" { ImageBuild.ofTarget "production" tags.production with push := u.push }]
  needs := ["build-wheels", "test-docker-image"]
  gate := some (.allOf [.needsSucceeded, .onPrimaryOrVersionTag])

/-- The line that collects the assets of a release. -/
def assetsLine : String :=
  "mkdir -p release-assets && find " ++ artifacts ++
    " -name '*.whl' -exec cp \x7b\x7d release-assets/ \\; ; ls -la release-assets/"

/-- The line that makes a release of a tag. -/
def releaseLine (t : Trigger) : String :=
  "gh release create " ++ Shell.quote (t.tag.getD "") ++ " release-assets/* --generate-notes" ++
    if t.isPrerelease then " --prerelease" else ""

/-- Makes a release. -/
def release (t : Trigger) : Job where
  name := "create-release"
  steps := [.shell "Prepare release assets" assetsLine, .shell "Create release" (releaseLine t)]
  needs := ["build-wheels", "build-docker-image"]
  gate := some (.allOf [.onVersionTag, .succeeded ["build-wheels", "build-docker-image"]])
  requires := ["gh"]

/-- All jobs, given the tags of the images. -/
def jobs (u : Surroundings) (t : Trigger) (tags : Tags) : List Job :=
  [lint, developmentImage u tags] ++ ["basic", "import"].map (imageTest u tags) ++ targets.map (wheels u) ++
    [productionImage u tags, release t]

/-- The pipeline for a trigger. -/
def pipeline (u : Surroundings) (t : Trigger) : Except Text.TooManyDigits (List Job) := (Tags.of u t).map (jobs u t)

/-- The file of the pipeline. -/
def file : WorkflowFile where
  load := fun s env => .ok (.triggered fun t => ((pipeline (.of s env) t).mapError .digits).map some)

end CiPipeline.Release
