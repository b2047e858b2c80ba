import CiPipeline.Suite.Report

/-
The test suite: categories in order, and a report in any case. When a category ends with a fault,
the report is that of the categories before it, and the fault goes on.
-/

namespace CiPipeline.Suite

/-- How far a suite came: the categories that finished, each with the tally by then, and the fault
that ended the last one begun, if any. -/
structure Course where
  finished : List (String × Tally) := []
  fault : Option Fault := none

/-- The course with a category that finished before all others. -/
def Course.after (name : String) (t : Tally) (course : Course) : Course :=
  { course with finished := (name, t) :: course.finished }

/-- The tally at the end of a course that began with `start`. -/
def Course.tally (course : Course) (start : Tally) : Tally := (course.finished.getLast?.map (·.2)).getD start

/-- Runs categories in order; on request only up to the first that has a failing check. -/
def runCategories (c : SuiteConfig) : Tally → List (String × Category) → Act Course
  | _, [] => pure {}
  | t, (name, category) :: rest => do
    match ← (category c t).attempt with
    | .error f => return { fault := some f }
    | .ok next =>
      if c.failFast && t.failed < next.failed then
        Console.warning ("Stopping after failed category '" ++ name ++ "' (--fail-fast)")
        return { finished := [(name, next)] }
      Course.after name next <$> runCategories c next rest

/-- The note about where a suite was cut short. -/
def abortNote (f : Fault) (course : Course) : String :=
  f.className ++ " " ++
    match (course.finished.getLast?.map (·.1)).filter (· ≠ "") with
    | some name => "after category '" ++ name ++ "'"
    | none => "before any category finished"

/-- Makes the directories for the reports. -/
def prepare (c : SuiteConfig) : Act Unit := do
  Console.info "Setting up test environment..."
  Build.makeDirectory c.reports
  Build.makeDirectory c.coverageReports

/-- Prints what is going to be tested. -/
def announce (selector : String) (c : SuiteConfig) : Act Unit := do
  Console.info "Starting MLC-LLM test suite..."
  Console.info ("Test type: " ++ selector)
  Console.info ("Source directory: " ++ c.source.text)

/-- Prints how the suite ended. -/
def conclude (t : Tally) : Act Unit :=
  if t.isOk then Console.success "All tests completed successfully!"
  else Console.error "Some tests failed. Check the test report for details."

/-- Runs categories and always writes a report. -/
def runReported (c : SuiteConfig) (categories : List (String × Category)) : Act Tally := do
  let course ← runCategories c {} categories
  let t := course.tally {}
  match course.fault with
  | none => do
    Report.write t c
    conclude t
    return t
  | some f => do
    Report.write t c (some (abortNote f course))
    .fail f

/-- The names that a selector stands for. -/
def select (selector : String) : Except Fault (List CategoryName) :=
  match CategoryName.select? selector with
  | some names => .ok names
  | none => .error (.unknownCategory selector)

/-- Runs the categories that a selector stands for, `find` giving the category of each name. -/
def run (selector : String) (c : SuiteConfig) (find : CategoryName → Category := CategoryName.category) : Act Tally := do
  let names ← Act.ofExcept id (select selector)
  announce selector c
  prepare c
  runReported c (names.map fun n => (n.word, find n))

end CiPipeline.Suite
