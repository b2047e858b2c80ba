import CiPipeline.Host
import CiPipeline.Text.Blank

/-
What version control says about a checkout: the commit, the ref, and whether there are submodules.
-/

namespace CiPipeline.Git

/-- The answer to a query, without the blanks around it. -/
def query (words : List String) (cwd : Option String := none) : Act String := do
  let e ← Command.demand { program := .words ("git" :: words), cwd := cwd, reads := true }
  return Text.strip e.out

/-- The commit that is checked out. -/
def headSha (cwd : Option String := none) : Act String := query ["rev-parse", "HEAD"] cwd

/-- The branch that is checked out, or the commit if there is none. -/
def branchRef (cwd : Option String := none) : Act String :=
  (query ["symbolic-ref", "-q", "HEAD"] cwd).recover Fault.isCommandFailed fun _ => headSha cwd

/-- The tag at the commit that is checked out, if it has one. -/
def exactTag (cwd : Option String := none) : Act String :=
  (query ["describe", "--tags", "--exact-match"] cwd).recover Fault.isCommandFailed fun _ => pure ""

/-- The ref that is checked out: a tag, else a branch, else a bare commit. -/
def currentRef (cwd : Option String := none) : Act String := do
  let tag ← exactTag cwd
  if tag ≠ "" then return Trigger.tagRefs ++ tag
  branchRef cwd

/-- Whether a source directory has submodules. -/
def hasSubmodules (source : Path) : Act Bool := do
  return (← get).hasFile (source.child ".gitmodules")

end CiPipeline.Git
