import CiPipeline.Host
import CiPipeline.Text.Ansi
import CiPipeline.Text.Capital

/-
The console: what a run prints, and on which of its two outputs. Unless colours are on, every line
is printed without colour sequences, also those inside a message.
-/

namespace CiPipeline

/-- The levels of messages. -/
inductive Level
  | info
  | test
  | success
  | warning
  | error
  deriving DecidableEq, Repr

namespace Level

/-- The mark in front of a message. -/
def mark : Level → String
  | .info => "[INFO]"
  | .test => "[TEST]"
  | .success => "[SUCCESS]"
  | .warning => "[WARNING]"
  | .error => "[ERROR]"

/-- The colour of the mark. -/
def colour : Level → Text.Colour
  | .info => .blue
  | .test => .blue
  | .success => .green
  | .warning => .yellow
  | .error => .red

/-- The line of a message. -/
def line (l : Level) (message : String) : String := Text.coloured l.colour l.mark ++ " " ++ message

end Level

/-- The line as it appears: without colours unless they are on. -/
def Display.shown (d : Display) (line : String) : String :=
  (if d.colour = some true then line ++ "\n" else Text.plain (line ++ "\n"))

namespace Console

/-- Prints a line. -/
def plain (line : String := "") : Act Unit := do
  Act.record (.out ((← get).display.shown line))

/-- Prints a line on the error output. -/
def aside (line : String) : Act Unit := do
  Act.record (.err ((← get).display.shown line))

/-- Prints a piece of information. -/
def info (message : String) : Act Unit := plain (Level.info.line message)

/-- Prints what is being tested. -/
def test (message : String) : Act Unit := plain (Level.test.line message)

/-- Prints a success. -/
def success (message : String) : Act Unit := plain (Level.success.line message)

/-- Prints a warning. -/
def warning (message : String) : Act Unit := aside (Level.warning.line message)

/-- Prints a detail, if details are shown. -/
def debug (message : String) : Act Unit := do
  if (← get).display.debug then aside ("[DEBUG] " ++ message)

/-- Prints an error with a message, details and a suggestion. -/
def error (title : String) (message : String := "") (details : List String := []) (suggestion : String := "") :
    Act Unit := do
  aside (Level.error.line title)
  if message ≠ "" then aside message
  details.forM fun d => aside ("  " ++ d)
  if suggestion ≠ "" then aside ("\n" ++ suggestion)

/-- A fault with its class in front; the pipeline's own classes are named in full. -/
def traced (f : Fault) : String :=
  let c := f.faultClass
  let name := if c.isPipeline || c == .step then "mlcpipe.errors." ++ f.className else f.className
  if f.message = "" then name else name ++ ": " ++ f.message

/-- Prints a fault, with its class if details are shown. -/
def fault (f : Fault) : Act Unit := do
  if (← get).display.debug then Act.record (.err (traced f ++ "\n"))
  else aside (Level.error.line f.message)

/-- Prints a title with a line under it. -/
def header (title : String) : Act Unit := do
  plain ("\n" ++ title)
  plain (Text.times title.length "-")

/-- Prints what is going to run. -/
def runStarted (workflow ref : String) (jobs : String) : Act Unit := do
  plain "\nRUN STARTED"
  plain ("Workflow: " ++ workflow)
  plain ("Ref: " ++ ref)
  plain ("Jobs: " ++ jobs)
  plain

/-- Prints that a job starts. -/
def jobStarted (name : String) : Act Unit := plain ("\nJOB STARTED: " ++ name)

/-- Prints that a step starts. -/
def step (job name : String) : Act Unit := plain ("[" ++ job ++ "] STEP: " ++ name)

/-- Prints why a job failed: the first line of the reason, or all of it if details are shown. -/
def jobFailed (name reason : String) (hint : Option Value := none) : Act Unit := do
  aside (Level.error.line ("JOB FAILED: " ++ name))
  if (← get).display.debug then aside ("Error details: " ++ reason)
  else aside ("Error: " ++ if reason = "" then "Unknown error" else Text.beforeNewline reason)
  match hint.filter Value.isGiven with
  | some v => aside ("Hint: " ++ v.plain)
  | none => pure ()

/-- The mark of a plan line. -/
def planMark (word : String) : String :=
  if word = "run" then "▶"
  else if word = "success" then "✓"
  else if word = "skipped" then "⏭"
  else "✗"

/-- The line of a plan for one job. -/
def planLine (name word reason : String) : String :=
  "  " ++ planMark word ++ " " ++ name ++ ": " ++ word ++ " (" ++ reason ++ ")"

/-- Prints the line of a plan for one job. -/
def plan (name word reason : String) : Act Unit := plain (planLine name word reason)

/-- How the summary shows a result. -/
def resultWord : JobResult → String
  | .success => "SUCCESS"
  | .failure => "FAILED"
  | .skipped => "SKIPPED"
  | .cancelled => "CANCELLED"
  | .other w => Text.upper w

/-- Prints the summary of results. -/
def results (rs : List (String × JobResult)) : Act Unit := do
  plain ("\n" ++ Text.times 40 "=")
  plain "RESULTS"
  plain (Text.times 40 "=")
  rs.forM fun (job, r) => plain ("  " ++ job ++ ": " ++ resultWord r)

end Console

end CiPipeline
