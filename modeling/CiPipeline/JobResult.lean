import CiPipeline.Text.Search

/-
How a job ended, and how the results of the members of a matrix group become one result. A word
that names no ending is kept; gates and groups take no notice of it.
-/

namespace CiPipeline

/-- How a job ended, as the jobs that need it see it. -/
inductive JobResult
  | success
  | failure
  | skipped
  | cancelled
  | other (word : String)
  deriving DecidableEq, Repr

namespace JobResult

/-- The word for a result. -/
def word : JobResult → String
  | .success => "success"
  | .failure => "failure"
  | .skipped => "skipped"
  | .cancelled => "cancelled"
  | .other w => w

/-- The four results that a job can end with. -/
def all : List JobResult := [.success, .failure, .skipped, .cancelled]

/-- The result that a word names. -/
def ofWord (w : String) : JobResult := (all.find? fun r => r.word = w).getD (.other w)

/-- Whether a job can end so. -/
def isEnding : JobResult → Bool
  | .other _ => false
  | _ => true

/-- One result for many: a failure outweighs a cancellation, that one a success, and a success any
number of skipped members. -/
def aggregate (results : List JobResult) : JobResult :=
  if results.contains .failure then .failure
  else if results.contains .cancelled then .cancelled
  else if results.contains .success then .success
  else .skipped

theorem isEnding_aggregate (results : List JobResult) : (aggregate results).isEnding = true := by
  unfold aggregate
  split
  · rfl
  split
  · rfl
  split <;> rfl

theorem isEnding_iff_mem_all (r : JobResult) : r.isEnding = true ↔ r ∈ all := by
  cases r <;> simp [isEnding, all]

end JobResult

end CiPipeline
