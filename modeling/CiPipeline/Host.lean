import CiPipeline.Moment
import CiPipeline.Workflow.File

/-
The host: everything outside the program that it can see or change. It has an environment, a tree
of files, the programs on its search path, a clock and a console; it knows what a workflow file means
and answers commands, and it keeps a journal of what was printed and started. An act is a computation on a
host that ends with a value or a fault; the host is left as it is then either way.
-/

namespace CiPipeline

/-- How messages appear: whether details are shown, and whether colours are on or off, if that is said. -/
structure Display where
  debug : Bool := false
  colour : Option Bool := none
  deriving DecidableEq, Repr

/-- What a journal records. -/
inductive Event
  | out (text : String)
  | err (text : String)
  | started (c : Command)
  | pool (workers : Int)
  | began (job : String)

/-- Everything outside the program. The answer to a command may depend on the commands answered before;
what a workflow file means depends on its text; `homes` has the home directories of users by their names. -/
structure Host where
  env : Dict String := {}
  user : String := "root"
  homes : Dict String := {}
  here : Path
  files : FileTree := {}
  onPath : List String := []
  processors : Option Int := some 4
  platform : String := "linux"
  clock : Moment
  display : Display := {}
  settings : Settings
  meaning : String → WorkflowFile := fun _ => .blank
  respond : List Command → Command → Reply := fun _ _ => .ended 0 "" "" []
  answered : List Command := []
  journal : List Event := []

/-- A computation on a host that ends with a value or a fault. -/
abbrev Act := ExceptT Fault (StateM Host)

namespace Act

/-- Ends with a fault. -/
def fail {α : Type} (f : Fault) : Act α := throw f

/-- The value, or a fault. -/
def ofExcept {ε α : Type} (fault : ε → Fault) : Except ε α → Act α
  | .ok a => pure a
  | .error e => fail (fault e)

/-- Deals with the faults of a kind; the others stay. -/
def recover {α : Type} (a : Act α) (kind : Fault → Bool) (deal : Fault → Act α) : Act α :=
  tryCatch a fun f => if kind f then deal f else throw f

/-- The value, or the fault as a value. -/
def attempt {α : Type} (a : Act α) : Act (Except Fault α) := tryCatch (.ok <$> a) fun f => pure (.error f)

/-- Adds to the journal. -/
def record (e : Event) : Act Unit := modify fun h => { h with journal := h.journal ++ [e] }

end Act

namespace Host

/-- The tree with some files written, their paths seen from the current directory. -/
def written (h : Host) (files : List (String × String)) : Host :=
  { h with files := files.foldl (fun t (path, content) => t.withFile (h.here.resolve (Path.parse path)).parts content) h.files }

/-- Whether a program is on the search path. -/
def finds (h : Host) (program : String) : Bool := h.onPath.contains program

/-- Whether a path names anything. -/
def has (h : Host) (p : Path) : Bool := h.files.has h.here p

/-- Whether a path names a file. -/
def hasFile (h : Host) (p : Path) : Bool := h.files.hasFile h.here p

/-- Whether a path names a directory. -/
def hasDirectory (h : Host) (p : Path) : Bool := h.files.hasDirectory h.here p

/-- What the file says that a path names. -/
def content? (h : Host) (p : Path) : Option String :=
  match h.files.at? h.here p with
  | some (.file content) => some content
  | _ => none

/-- The path without dots, from the root; no path holds a null character. -/
def resolve (h : Host) (p : Path) : Except Fault Path :=
  if p.hasNull then .error .nullInPath else .ok (h.here.resolve p)

/-- The home directory of a user; one's own, under the empty name, is that of the environment if it has one. -/
def home? (h : Host) (user : String) : Option String :=
  if user = "" then (h.env.get? "HOME").or (h.homes.get? h.user) else h.homes.get? user

/-- The path of a text with a home directory for a leading tilde, from the root. -/
def expand (h : Host) (s : String) : Except Fault Path :=
  if (Path.parse s).hasNullUser then .error .nullInPath
  else
    match Path.expandHome h.home? (Path.parse s) with
    | some p => h.resolve p
    | none => .error .unknownHome

/-- The path of a value, which has to be a text, as `expand` gives it. -/
def expandValue (h : Host) : Value → Except Fault Path
  | .text s => h.expand s
  | v => .error (.notPath v.kindName)

/-- Why no command can start in a directory. -/
def directoryFault (h : Host) (directory : String) : Option Fault :=
  match h.files.status h.here directory with
  | .ok .directory => none
  | .ok (.file _) => some (.os .notDirectory directory)
  | .error e => some (.os e directory)

end Host

/-- The first value of some that is no text, as the fault of taking it for a word. -/
def Program.wordFault? : Program → Option Fault
  | .values items =>
    let (i, v) := (notText? items).getD (0, .null)
    some (.notWord i v.kindName)
  | _ => none

/-- For how many thousandths of a second one can wait at most. -/
def longestWait : Nat := 2147483647

/-- Why one cannot wait for as long as a time limit says. -/
def Number.waitFault? : Number → Option Fault
  | .int n => if longestWait < 1000 * n then some .limitTooLong else none
  | .real x =>
    if x.isNaN then some .notANumber
    else if x.isInf && 0 < x then some .infinite
    else if Float.ofNat longestWait < 1000 * x then some .limitTooLong
    else none

namespace Command

/-- Why a host does not answer a command: a null character stands in it, its directory is none, or one of
its words is no text. -/
def refusal? (c : Command) (h : Host) : Option Fault :=
  if c.hasNull then some .nullInPath
  else (c.cwd.bind h.directoryFault).or c.program.wordFault?

/-- Why one cannot wait for the end of a command, which is stopped then. -/
def waitFault? (c : Command) : Option Fault := c.timeout.bind Number.waitFault?

/-- What is read of a command that has ended by itself, if one can wait for that. -/
def awaited (c : Command) (e : Except Fault Ended) : Except Fault Ended :=
  match c.waitFault? with
  | some f => .error f
  | none => e

/-- What a reply to a command amounts to. That its output is no text matters only if it is read. -/
def ending (c : Command) : Reply → Except Fault Ended
  | .ended code out err _ => c.awaited (.ok ⟨code, out, err⟩)
  | .garbled code why _ => c.awaited (if c.reads then .error (.undecodable why) else .ok ⟨code, "", ""⟩)
  | .refused e => .error (.os e c.program.name)
  | .overran => .error (.overran c.program c.timeout)
  | .interrupted => .error .interrupted

/-- What a command has written by then. -/
def writes (c : Command) : Reply → List (String × String)
  | .ended _ _ _ files | .garbled _ _ files => if c.waitFault?.isSome then [] else files
  | _ => []

/-- Starts a command and waits for its end. -/
def start (c : Command) : Act Ended := do
  Act.record (.started c)
  let h ← get
  match c.refusal? h with
  | some f => .fail f
  | none =>
    let reply := h.respond h.answered c
    set (Host.written { h with answered := h.answered ++ [c] } (c.writes reply))
    Act.ofExcept id (c.ending reply)

/-- Starts a command that has to succeed. -/
def demand (c : Command) : Act Ended := do
  let e ← c.start
  if e.isSuccess then return e
  .fail (.commandFailed c.program e.code)

end Command

end CiPipeline
