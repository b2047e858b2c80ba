import CiPipeline.Step.Data

/-
Lint checks: one linter with its options over some files, and the command line for it.
-/

namespace CiPipeline

/-- What a lint check needs; the guard is a path without which there is nothing to check. -/
structure LintCheck where
  tool : String
  args : Option String := none
  files : Option (List String) := none
  onlyIfExists : Option String := none

/-- A lint check as it is carried out. Each part that cannot be used is found out when it is needed. -/
structure LintTask where
  tool : Value
  guard : Except DataError (Option String)
  options : Except DataError (List Value)
  files : Except DataError (List Value)

namespace LintTask

/-- The command line of a linter, on `target` if no files are given. -/
def commandOn (target : String) (t : LintTask) : Except DataError (List Value) := do
  let options ← t.options
  match ← t.files with
  | [] => return t.tool :: options ++ [.text target]
  | f :: fs => return t.tool :: options ++ f :: fs

/-- The command line of a linter, on the working directory if no files are given. -/
def command (t : LintTask) : Except DataError (List Value) := t.commandOn "."

/-- Reads a check from a table; without a linter its name is empty. -/
def ofData (d : StepData) : LintTask where
  tool := (d.given? "tool").getD (.text "")
  guard := d.readOr "only_if_exists" none fun v => v.pathText.map some
  options := d.readOr "args" [] Value.lineWords
  files := d.readOr "files" [] Value.sequence

end LintTask

namespace LintCheck

/-- The command as it is shown. -/
def shown (c : LintCheck) : String :=
  let withOptions := match c.args with
    | some a => if a = "" then c.tool else c.tool ++ " " ++ a
    | none => c.tool
  match c.files with
  | some (f :: fs) => withOptions ++ " " ++ Text.join " " (f :: fs)
  | _ => withOptions

/-- The check as a table. -/
def toData (c : LintCheck) : StepData :=
  ⟨[("tool", .text c.tool),
    ("args", (c.args.map .text).getD .null),
    ("files", (c.files.map fun fs => Value.list (fs.map .text)).getD .null),
    ("only_if_exists", (c.onlyIfExists.map .text).getD .null)]⟩

/-- The check as it is carried out. -/
def task (c : LintCheck) : LintTask := .ofData c.toData

end LintCheck

end CiPipeline
