import CiPipeline.Build.Kind
import CiPipeline.Command
import CiPipeline.Graph
import CiPipeline.Moment
import CiPipeline.PipelineError
import CiPipeline.Suite.Selector
import CiPipeline.Text.Integer
import CiPipeline.Trigger.Request

/-
Faults: everything that can keep an operation from giving its result. A fault says what happened;
its class, by which callers decide what they can deal with, and its message follow from that.
-/

namespace CiPipeline

/-- The classes of faults, as far as callers tell them apart. -/
inductive FaultClass
  | pipeline
  | tool
  | build
  | step
  | value
  | undecodable
  | type
  | os
  | fileNotFound
  | permission
  | fileExists
  | notDirectory
  | isDirectory
  | runtime
  | key
  | attribute
  | unimportable
  | overflow
  | commandFailed
  | timeout
  | validation
  | interrupt
  | abort
  | exit
  | exception
  | baseException
  deriving DecidableEq, Repr

namespace FaultClass

/-- The name of a class. -/
def name : FaultClass → String
  | .pipeline => "CIError"
  | .tool => "ToolError"
  | .build => "BuildError"
  | .step => "StepFailure"
  | .value => "ValueError"
  | .undecodable => "UnicodeDecodeError"
  | .type => "TypeError"
  | .os => "OSError"
  | .fileNotFound => "FileNotFoundError"
  | .permission => "PermissionError"
  | .fileExists => "FileExistsError"
  | .notDirectory => "NotADirectoryError"
  | .isDirectory => "IsADirectoryError"
  | .runtime => "RuntimeError"
  | .key => "KeyError"
  | .attribute => "AttributeError"
  | .unimportable => "ImportError"
  | .overflow => "OverflowError"
  | .commandFailed => "CalledProcessError"
  | .timeout => "TimeoutExpired"
  | .validation => "ValidationError"
  | .interrupt => "KeyboardInterrupt"
  | .abort => "Abort"
  | .exit => "SystemExit"
  | .exception => "Exception"
  | .baseException => "BaseException"

/-- The class of an error of the operating system. -/
def ofOsError : OsError → FaultClass
  | .noEntry => .fileNotFound
  | .badFormat => .os
  | .denied => .permission
  | .exists => .fileExists
  | .notDirectory => .notDirectory
  | .isDirectory => .isDirectory

/-- The class of an error about the data of a step. -/
def ofDataError : DataError → FaultClass
  | .missing _ => .key
  | .notSequence _ | .notPath _ => .type
  | .notTable _ | .notLine _ => .attribute
  | .notPairs | .words _ => .value

/-- The operating system's own classes. -/
def isOs : FaultClass → Bool
  | .os | .fileNotFound | .permission | .fileExists | .notDirectory | .isDirectory => true
  | _ => false

/-- The classes for values that are not acceptable. -/
def isValue : FaultClass → Bool
  | .value | .undecodable | .validation => true
  | _ => false

/-- The pipeline's own errors. -/
def isPipeline : FaultClass → Bool
  | .pipeline | .tool | .build => true
  | _ => false

/-- All but an interruption, a request to stop and what else is no mere exception. -/
def isOrdinary : FaultClass → Bool
  | .interrupt | .exit | .baseException => false
  | _ => true

end FaultClass

/-- With what a program ends: a number, or a word that someone has put in its place. -/
inductive ExitCode
  | number (n : Int)
  | word (w : String)
  deriving DecidableEq, Repr

/-- The text of an exit code. -/
def ExitCode.text : ExitCode → String
  | .number n => toString n
  | .word w => w

/-- What happened. A fault that others have raised has a class of their own, under a name, and counts as
one of the class `c`. -/
inductive Fault
  | pipeline (e : PipelineError)
  | step (f : StepFailure)
  | os (e : OsError) (path : String)
  | notRemovable (path : String)
  | commandFailed (p : Program) (code : Int)
  | overran (p : Program) (limit : Option Number)
  | undecodable (why : String)
  | limitTooLong
  | interrupted
  | aborted
  | exit (code : ExitCode)
  | trigger (problems : List (TriggerField × FieldProblem))
  | graph (e : GraphError)
  | job (e : JobError)
  | data (e : DataError)
  | notWord (place : Nat) (kind : String)
  | missingEntry (key : String)
  | unknownHome
  | notPath (kind : String)
  | nullInPath
  | noStepDirectory (job step path : String)
  | unknownStepKind (job step kind : String)
  | noLinter (job step : String)
  | unknownResult (word job : String)
  | noWorkers
  | noWorkflow (path : String)
  | notWorkflowName (name : String)
  | workflowIsDirectory (path : String)
  | notJobs
  | integer (e : Text.IntegerError)
  | digits (e : Text.TooManyDigits)
  | moment (e : MomentError)
  | notNumber (kind : String)
  | infinite
  | notANumber
  | unknownBuildKind (given : Value)
  | tooFewJobs (given : String)
  | unreadableVersion (text : String)
  | unknownCategory (given : String)
  | raised (c : FaultClass) (name message : String)

namespace Fault

/-- The class of a fault. -/
def faultClass : Fault → FaultClass
  | .pipeline e =>
    match e.sort with
    | .general => .pipeline
    | .tools _ => .tool
    | .build _ _ => .build
  | .step _ => .step
  | .os e _ => .ofOsError e
  | .notRemovable _ => .notDirectory
  | .commandFailed _ _ => .commandFailed
  | .overran _ _ => .timeout
  | .undecodable _ => .undecodable
  | .interrupted => .interrupt
  | .aborted => .abort
  | .exit _ => .exit
  | .trigger _ => .validation
  | .graph (.unknownName _) => .key
  | .missingEntry _ => .key
  | .data e => .ofDataError e
  | .unknownHome => .runtime
  | .noStepDirectory _ _ _ | .noWorkflow _ => .fileNotFound
  | .workflowIsDirectory _ => .unimportable
  | .notJobs | .notNumber _ | .notWord _ _ | .notPath _ => .type
  | .infinite | .limitTooLong => .overflow
  | .raised c _ _ => c
  | _ => .value

/-- The name of the class of a fault, as reports and answers give it. -/
def className : Fault → String
  | .raised _ name _ => name
  | f => f.faultClass.name

/-- Number and wording of an error of the operating system, and what it is about. -/
def osText (e : OsError) (about : String) : String :=
  "[Errno " ++ toString e.number ++ "] " ++ e.text ++ ": " ++ about

/-- The message of a fault. -/
def message : Fault → String
  | .pipeline e => e.text
  | .step f => f.text
  | .os e path => osText e (Text.quoted path)
  | .notRemovable path => osText .notDirectory ("PosixPath(" ++ Text.quoted path ++ ")")
  | .commandFailed p code => "Command '" ++ p.shown ++ "' " ++ describeCode code
  | .overran p limit =>
    "Command '" ++ p.shown ++ "' timed out after " ++ (limit.map Number.text).getD "None" ++ " seconds"
  | .undecodable why => why
  | .limitTooLong => "timeout is too large"
  | .interrupted | .aborted => ""
  | .exit code => code.text
  | .trigger problems => Text.join "; " (problems.map fun (f, p) => f.name ++ ": " ++ p.message)
  | .graph e => e.message
  | .job e => e.message
  | .data e => e.message
  | .notWord place kind =>
    "sequence item " ++ toString place ++ ": expected str instance, " ++ kind ++ " found"
  | .missingEntry key => Text.quoted key
  | .unknownHome => "Could not determine home directory."
  | .notPath kind => "expected str, bytes or os.PathLike object, not " ++ kind
  | .nullInPath => "embedded null byte"
  | .noStepDirectory inJob inStep path => "[" ++ inJob ++ "] step '" ++ inStep ++ "' cwd not found: " ++ path
  | .unknownStepKind inJob inStep kind => "[" ++ inJob ++ "] step '" ++ inStep ++ "' has unknown kind " ++ Text.quoted kind
  | .noLinter inJob inStep => "[" ++ inJob ++ "] step '" ++ inStep ++ "' has no lint tool"
  | .unknownResult word forJob =>
    "Unknown job result " ++ Text.quoted word ++ " for " ++ Text.quoted forJob ++ "; expected one of (" ++
      Text.join ", " (JobResult.all.map fun r => Text.quoted r.word) ++ ")"
  | .noWorkers => "max_workers must be greater than 0"
  | .noWorkflow path => "Workflow file not found: " ++ path
  | .notWorkflowName name => "Workflow must be a .py file, got: " ++ name
  | .workflowIsDirectory path => "can't find '__main__' module in " ++ Text.quoted path
  | .notJobs =>
    "Workflow must return/define a List[Job]. " ++
      "Define workflow() -> List[Job], workflow(trigger) -> List[Job] or JOBS = [Job, ...]."
  | .integer e => e.message
  | .digits e => e.message
  | .moment e => e.message
  | .notNumber kind =>
    "int() argument must be a string, a bytes-like object or a real number, not '" ++ kind ++ "'"
  | .infinite => "cannot convert float infinity to integer"
  | .notANumber => "cannot convert float NaN to integer"
  | .unknownBuildKind given =>
    "Invalid build type " ++ given.literal ++ "; expected one of " ++ BuildKind.names
  | .tooFewJobs given => "jobs must be >= 1, got " ++ given
  | .unreadableVersion text => "Unparseable version requirement: " ++ Text.quoted text
  | .unknownCategory given =>
    "Unknown test type: " ++ Text.quoted given ++ "; expected one of " ++ Text.join ", " CategoryName.selectors
  | .raised _ _ message => message

/-- The hint among the details of a fault, if it has one. -/
def hint? : Fault → Option Value
  | .pipeline e => e.details.get? "hint"
  | _ => none

/-- Whether a program or a file was not found. -/
def isNotFound (f : Fault) : Bool := f.faultClass == .fileNotFound

/-- Whether an operation or the start of a program was not permitted. -/
def isDenied (f : Fault) : Bool := f.faultClass == .permission

/-- Whether the operating system refused something. -/
def isOs (f : Fault) : Bool := f.faultClass.isOs

/-- Whether a command ended with a failure that was not expected. -/
def isCommandFailed (f : Fault) : Bool := f.faultClass == .commandFailed

/-- Whether a command was stopped at its time limit. -/
def isTimeout (f : Fault) : Bool := f.faultClass == .timeout

/-- Whether a fault is more than an interruption or a request to stop. -/
def isOrdinary (f : Fault) : Bool := f.faultClass.isOrdinary

end Fault

end CiPipeline
