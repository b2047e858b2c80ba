import CiPipeline.Distinct
import CiPipeline.SemVer
import CiPipeline.Trigger

/-
The tags of the container images that a run builds: those of the development image, those of the
production image, and the names of the wheel artifacts.
-/

namespace CiPipeline.ImageTag

/-- The characters that a tag may hold: ASCII letters and digits, underscore, dot and hyphen. -/
def isTagChar (c : Char) : Bool := c.isAlphanum || c == '_' || c == '.' || c == '-'

/-- A name with a hyphen for each character that no tag may hold, cut after 128. -/
def sanitize (name : String) : String :=
  String.ofList ((name.toList.map fun c => if isTagChar c then c else '-').take 128)

/-- The branch if it has a name. -/
def namedBranch (t : Trigger) : Option String := t.branch.filter (· ≠ "")

/-- The tag if it has a name. -/
def namedTag (t : Trigger) : Option String := t.tag.filter (· ≠ "")

/-- The version of a version tag. -/
def version (t : Trigger) : Except Text.TooManyDigits (Option SemVer) :=
  match namedTag t with
  | none => .ok none
  | some tag => SemVer.parse tag

/-- The names by a version: a release also stands for its minor and its major line. -/
def versionNames (v : SemVer) : List String :=
  v.version :: if v.isPrerelease then [] else [s!"{v.major}.{v.minor}", s!"{v.major}"]

/-- The names by the commit: on the default branch with the branch, on a tag alone. -/
def commitNames (t : Trigger) (sha : String) : List String :=
  (if t.isPrimaryBranch then [sanitize (t.branch.getD "") ++ "-" ++ sha] else []) ++
    if (namedTag t).isSome then ["commit-" ++ sha] else []

/-- The names of the development image, given the number of the pull request and the version. -/
def developmentNames (t : Trigger) (pull : Option Nat) (v : Option SemVer) : List String :=
  let names :=
    ((namedBranch t).map sanitize).toList ++
    (pull.map fun n => s!"pr-{n}").toList ++
    (v.map versionNames).getD [] ++
    (t.shortSha.map (commitNames t)).getD [] ++
    (if t.isPrimaryBranch then ["latest"] else [])
  match names, t.shortSha with
  | [], some sha => ["sha-" ++ sha]
  | _, _ => names

/-- The names of the production image, given the version. -/
def productionNames (t : Trigger) (v : Option SemVer) : List String :=
  ((namedBranch t).map fun b => sanitize b ++ "-prod").toList ++
    (v.map fun v => v.version ++ "-prod").toList ++
    (if t.isPrimaryBranch then ["prod"] else [])

/-- The image under each name, once. -/
def under (image : String) (names : List String) : List String :=
  (distinct names).map fun n => image ++ ":" ++ n

/-- The tags of the development image. -/
def development (t : Trigger) (image : String) : Except Text.TooManyDigits (List String) := do
  let pull ← t.pullRequest
  let v ← version t
  return under image (developmentNames t pull v)

/-- The tags of the production image. -/
def production (t : Trigger) (image : String) : Except Text.TooManyDigits (List String) := do
  let v ← version t
  return under image (productionNames t v)

/-- The name of the artifact that holds the wheels of a platform. -/
def wheelArtifact (platform arch : String) : String := "wheels-" ++ platform ++ "-" ++ arch

end CiPipeline.ImageTag
