import CiPipeline.FileTree
import CiPipeline.Value

/-
Commands: what a host is asked to start, and what can come of it.
-/

namespace CiPipeline

/-- A program with its words, or a line for the shell. Values of which some are no texts are no
words of a program; nothing can be started with them. -/
inductive Program
  | words (argv : List String)
  | line (text : String)
  | values (items : List Value)

namespace Program

/-- The program with the given words, if all of them are texts. -/
def ofValues (items : List Value) : Program :=
  match items.mapM Value.text? with
  | some argv => .words argv
  | none => .values items

/-- The first of some values that is no text, with its place. -/
def notText? (items : List Value) : Option (Nat × Value) :=
  (items.zipIdx.find? fun (v, _) => v.text?.isNone).map fun (v, i) => (i, v)

/-- The whole command as one text. -/
def text : Program → String
  | .words argv => Text.join " " argv
  | .line text => text
  | .values items => Text.join " " (items.map Value.plain)

/-- What is looked up and started. -/
def name : Program → String
  | .words argv => argv.headD ""
  | .line text => text
  | .values items => (items.headD (.text "")).plain

/-- Whether a null character stands in a word or in the line. -/
def hasNull : Program → Bool
  | .words argv => argv.any Text.hasNull
  | .line text => Text.hasNull text
  | .values _ => false

/-- The command as messages show it: the words as a list, a line as it is. -/
def shown : Program → String
  | .words argv => quotedList argv
  | .line text => text
  | .values items => (Value.list items).literal

end Program

/-- A program with the directory, the environment and the time limit it is given, if any, and whether
what it prints is read as text. -/
structure Command where
  program : Program
  cwd : Option String := none
  env : Option (Dict Value) := none
  timeout : Option Number := none
  reads : Bool := false

/-- Whether a null character stands in a command, in its directory or in its environment. -/
def Command.hasNull (c : Command) : Bool :=
  c.program.hasNull || c.cwd.any Text.hasNull ||
    c.env.any fun env => env.entries.any fun (name, v) => Text.hasNull name || v.text?.any Text.hasNull

/-- What comes of a command: it ends with a code, having printed and written something, or having printed
what is no text and why it is none; it cannot be started; it is stopped at its time limit; or the run is
interrupted. -/
inductive Reply
  | ended (code : Int) (out err : String) (written : List (String × String))
  | garbled (code : Int) (why : String) (written : List (String × String))
  | refused (e : OsError)
  | overran
  | interrupted
  deriving DecidableEq, Repr

/-- How a command ended, and what it printed. -/
structure Ended where
  code : Int
  out : String
  err : String
  deriving DecidableEq, Repr

/-- Whether the command succeeded. -/
def Ended.isSuccess (e : Ended) : Bool := e.code == 0

/-- Both outputs together. -/
def Ended.output (e : Ended) : String := e.out ++ e.err

/-- The names of the signals by number. -/
def signalNames : List (Nat × String) :=
  [(1, "SIGHUP"), (2, "SIGINT"), (3, "SIGQUIT"), (4, "SIGILL"), (5, "SIGTRAP"), (6, "SIGABRT"), (7, "SIGBUS"),
   (8, "SIGFPE"), (9, "SIGKILL"), (10, "SIGUSR1"), (11, "SIGSEGV"), (12, "SIGUSR2"), (13, "SIGPIPE"),
   (14, "SIGALRM"), (15, "SIGTERM"), (16, "SIGSTKFLT"), (17, "SIGCHLD"), (18, "SIGCONT"), (19, "SIGSTOP"),
   (20, "SIGTSTP"), (21, "SIGTTIN"), (22, "SIGTTOU"), (23, "SIGURG"), (24, "SIGXCPU"), (25, "SIGXFSZ"),
   (26, "SIGVTALRM"), (27, "SIGPROF"), (28, "SIGWINCH"), (29, "SIGIO"), (30, "SIGPWR"), (31, "SIGSYS"),
   (34, "SIGRTMIN"), (64, "SIGRTMAX")]

/-- How messages describe a code that is no success; a negative one is a signal. -/
def describeCode (code : Int) : String :=
  if code < 0 then
    match signalNames.lookup code.natAbs with
    | some name => "died with <Signals." ++ name ++ ": " ++ toString code.natAbs ++ ">."
    | none => "died with unknown signal " ++ toString code.natAbs ++ "."
  else "returned non-zero exit status " ++ toString code ++ "."

end CiPipeline
