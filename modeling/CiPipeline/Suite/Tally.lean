import CiPipeline.Console

/-
Tallies: what the checks of a test suite came to. A tally holds a record for each check and counts
them by outcome; entering a check gives a new tally and prints the check.
-/

namespace CiPipeline

/-- What a check came to. -/
inductive CheckOutcome
  | passed
  | failed
  | skipped
  deriving DecidableEq, Repr

/-- The word for an outcome. -/
def CheckOutcome.word : CheckOutcome → String
  | .passed => "passed"
  | .failed => "failed"
  | .skipped => "skipped"

/-- The counts of checks by outcome, and the checks in order. -/
structure Tally where
  passed : Nat := 0
  failed : Nat := 0
  skipped : Nat := 0
  records : List (CheckOutcome × String) := []
  deriving DecidableEq, Repr

namespace Tally

/-- The number of checks. -/
def total (t : Tally) : Nat := t.passed + t.failed + t.skipped

/-- Whether nothing has failed. -/
def isOk (t : Tally) : Bool := t.failed == 0

/-- The tally with one more check. -/
def add (t : Tally) (o : CheckOutcome) (message : String) : Tally :=
  match o with
  | .passed => { t with passed := t.passed + 1, records := t.records ++ [(o, message)] }
  | .failed => { t with failed := t.failed + 1, records := t.records ++ [(o, message)] }
  | .skipped => { t with skipped := t.skipped + 1, records := t.records ++ [(o, message)] }

/-- Prints a check. -/
def print (o : CheckOutcome) (message : String) : Act Unit :=
  match o with
  | .passed => Console.success message
  | .failed => Console.error message
  | .skipped => Console.warning message

/-- Prints a check and enters it. -/
def enter (t : Tally) (o : CheckOutcome) (message : String) : Act Tally := do
  print o message
  return t.add o message

/-- Enters a check that passed. -/
def pass (t : Tally) (message : String) : Act Tally := t.enter .passed message

/-- Enters a check that failed. -/
def reject (t : Tally) (message : String) : Act Tally := t.enter .failed message

/-- Enters a check that was skipped. -/
def skip (t : Tally) (message : String) : Act Tally := t.enter .skipped message

end Tally

end CiPipeline
