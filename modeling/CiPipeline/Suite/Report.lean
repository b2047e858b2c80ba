import CiPipeline.Suite.Category

/-
The report of a test suite: the counts, the surroundings, and whether the suite passed. A suite that
was cut short has not passed, and its report says where it stopped.
-/

namespace CiPipeline.Report

/-- Whether a suite passed: nothing failed, and it was not cut short. -/
def isPass (t : Tally) (aborted : Option String) : Bool := t.isOk && aborted.isNone

/-- The lines about the checks. -/
def countLines (t : Tally) (aborted : Option String) : List String :=
  ["Test Results:",
    "- Passed: " ++ toString t.passed,
    "- Failed: " ++ toString t.failed,
    "- Skipped: " ++ toString t.skipped,
    "- Total: " ++ toString t.total] ++
  ((aborted.filter (· ≠ "")).map ("- Aborted: " ++ ·)).toList

/-- The lines about the surroundings. -/
def placeLines (c : SuiteConfig) (now : Moment) (python : String) : List String :=
  ["Test Environment:",
    "- Source Directory: " ++ c.source.text,
    "- Test Directory: " ++ c.tests.text,
    "- Python Version: " ++ python,
    "- Date: " ++ now.text]

/-- The text of a report. -/
def text (t : Tally) (c : SuiteConfig) (now : Moment) (python : String) (aborted : Option String) : String :=
  String.join ((["MLC-LLM Test Summary", "===================", ""] ++ countLines t aborted ++ [""] ++
    placeLines c now python ++ ["", "Test Status: " ++ if isPass t aborted then "PASS" else "FAIL"]).map (· ++ "\n"))

/-- The report of a tally as of now, or of another moment. -/
def render (t : Tally) (c : SuiteConfig) (now : Option Moment := none) (aborted : Option String := none) : Act String := do
  let python := ((← Toolchain.versionLine Build.python).filter (· ≠ "")).getD "unknown"
  return text t c (now.getD (← get).clock) python aborted

/-- The file of the report. -/
def file (c : SuiteConfig) : Path := c.reports.child "test_summary.txt"

/-- Writes a text into a file. -/
def save (path : Path) (content : String) : Act Unit := do
  let h ← get
  match h.files.write path.parts content with
  | .ok files => set { h with files := files }
  | .error e => .fail (.os e path.text)

/-- Writes and prints the report of a tally. -/
def write (t : Tally) (c : SuiteConfig) (aborted : Option String := none) : Act Unit := do
  Console.info "Generating test report..."
  Build.makeDirectory c.reports
  let report ← render t c none aborted
  save (file c) report
  Console.plain report
  Console.info ("Test report generated: " ++ (file c).text)

end CiPipeline.Report
