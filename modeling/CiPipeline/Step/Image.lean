import CiPipeline.Step.Data

/-
Image builds: one stage of a container file built into an image with tags, and the command line
for it. The build arguments stand in the order of their names.
-/

namespace CiPipeline

/-- What an image build needs. -/
structure ImageBuild (ω : Type) where
  target : ω
  tags : List ω
  push : Bool
  dockerfile : ω
  context : ω
  platform : ω
  buildArgs : Dict Value

namespace ImageBuild

/-- The build of a stage with tags, everything else as usual. -/
def ofTarget (target : String) (tags : List String) : ImageBuild String where
  target := target
  tags := tags
  push := false
  dockerfile := "Dockerfile"
  context := "."
  platform := "linux/amd64"
  buildArgs := {}

/-- The options for the build arguments, by name. -/
def argumentWords (arguments : Dict Value) : List String :=
  (arguments.entries.mergeSort fun a b => a.1 ≤ b.1).flatMap fun (k, v) =>
    ["--build-arg", k ++ "=" ++ v.plain]

section

variable {ω : Type} [Word ω]

/-- The options for the tags. -/
def tagWords (b : ImageBuild ω) : List ω := b.tags.flatMap fun t => [Word.ofText "--tag", t]

/-- The command line of the build. -/
def command (b : ImageBuild ω) : List ω :=
  Word.texts ["docker", "buildx", "build", "--file"] ++ [b.dockerfile] ++
    Word.texts ["--target"] ++ [b.target] ++ Word.texts ["--platform"] ++ [b.platform] ++
    b.tagWords ++
    Word.texts (argumentWords b.buildArgs ++ [if b.push then "--push" else "--load"]) ++ [b.context]

/-- The build with values for words. -/
def toValues (b : ImageBuild ω) : ImageBuild Value where
  target := Word.toValue b.target
  tags := Word.values b.tags
  push := b.push
  dockerfile := Word.toValue b.dockerfile
  context := Word.toValue b.context
  platform := Word.toValue b.platform
  buildArgs := b.buildArgs

/-- The build as a table. -/
def toData (b : ImageBuild ω) : StepData :=
  ⟨[("target", Word.toValue b.target),
    ("tags", .list (Word.values b.tags)),
    ("push", .bool b.push),
    ("dockerfile", Word.toValue b.dockerfile),
    ("context", Word.toValue b.context),
    ("platform", Word.toValue b.platform),
    ("build_args", .dict b.buildArgs.entries)]⟩

end

/-- Reads a build from a table, or says what is wrong with the first entry that cannot be used. -/
def ofData (d : StepData) : Except DataError (ImageBuild Value) := do
  let dockerfile ← d.entry "dockerfile"
  let target ← d.entry "target"
  let platform ← d.entry "platform"
  let tags ← (← d.entry "tags").sequence
  let buildArgs ← ((d.get? "build_args").getD (.dict [])).asTable
  let context ← d.entry "context"
  return {
    target := target
    tags := tags
    push := d.flag "push" false
    dockerfile := dockerfile
    context := context
    platform := platform
    buildArgs := buildArgs }

end ImageBuild

end CiPipeline
