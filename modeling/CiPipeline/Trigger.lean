import CiPipeline.Text.Blank
import CiPipeline.Text.Digit
import CiPipeline.Text.Search

/-
What started a run: the ref, the event, the commit, and whether gated jobs are forced. The ref
decides whether the run is on a branch, on a tag or for a pull request.
-/

namespace CiPipeline

/-- The event that started a run. Its ref is not empty and has no blanks at its ends. -/
structure Trigger where
  ref : String
  event : String
  sha : Option String
  defaultBranch : String
  forceBuild : Bool
  ref_trimmed : Text.strip ref = ref
  ref_ne_empty : ref ≠ ""

namespace Trigger

/-- What stands before the name of a branch. -/
def branchRefs : String := "refs/heads/"

/-- What stands before the name of a tag. -/
def tagRefs : String := "refs/tags/"

/-- The words in a ref that mark a prerelease. -/
def prereleaseMarkers : List String := ["alpha", "beta", "rc"]

/-- The branch of a branch ref. -/
def branch (t : Trigger) : Option String := Text.after? branchRefs t.ref

/-- The tag of a tag ref. -/
def tag (t : Trigger) : Option String := Text.after? tagRefs t.ref

/-- The digits in a pull request ref, which may be of any script. -/
def pullDigits? (t : Trigger) : Option (List Char) :=
  match Text.after? "refs/pull/" t.ref with
  | none => none
  | some rest =>
    let digits := rest.toList.takeWhile Text.isDigit
    let ending := String.ofList (rest.toList.dropWhile Text.isDigit)
    if !digits.isEmpty && (ending = "/merge" || ending = "/head") then some digits else none

/-- The number of a pull request ref. -/
def pullRequest (t : Trigger) : Except Text.TooManyDigits (Option Nat) :=
  match t.pullDigits? with
  | none => .ok none
  | some digits => (Text.readDigits digits).map some

/-- Whether the ref is the default branch. -/
def isPrimaryBranch (t : Trigger) : Bool := t.ref = branchRefs ++ t.defaultBranch

/-- Whether the ref is a tag that starts with a `v`. -/
def isVersionTag (t : Trigger) : Bool := Text.startsWith t.ref "refs/tags/v"

/-- Whether a prerelease word stands anywhere in the ref. -/
def isPrerelease (t : Trigger) : Bool := prereleaseMarkers.any (Text.includes t.ref)

/-- The first seven characters of the commit, if there is one. -/
def shortSha (t : Trigger) : Option String :=
  match t.sha with
  | some s => if s = "" then none else some (Text.take 7 s)
  | none => none

end Trigger

end CiPipeline
