import CiPipeline.Trigger
import CiPipeline.Value

/-
Asking for a trigger: every field may be missing or of the wrong kind, and all problems are
reported together, in the order of the fields. A request without problems gives a trigger.
-/

namespace CiPipeline

/-- The fields of a trigger. -/
inductive TriggerField
  | ref
  | event
  | sha
  | defaultBranch
  | forceBuild
  deriving DecidableEq, Repr

/-- The name of a field. -/
def TriggerField.name : TriggerField → String
  | .ref => "ref"
  | .event => "event"
  | .sha => "sha"
  | .defaultBranch => "default_branch"
  | .forceBuild => "force_build"

/-- What can be wrong with a field. -/
inductive FieldProblem
  | missing
  | notText
  | blankRef (given : String)
  | notBoolean
  | unreadableBoolean
  deriving DecidableEq, Repr

/-- The wording of a problem. -/
def FieldProblem.message : FieldProblem → String
  | .missing => "Field required"
  | .notText => "Input should be a valid string"
  | .blankRef _ => "Value error, ref must not be empty"
  | .notBoolean => "Input should be a valid boolean"
  | .unreadableBoolean => "Input should be a valid boolean, unable to interpret input"

/-- The fields asked for; a missing one takes its default. -/
structure TriggerRequest where
  ref : Option Value := none
  event : Option Value := none
  sha : Option Value := none
  defaultBranch : Option Value := none
  forceBuild : Option Value := none

namespace TriggerRequest

/-- A text, and nothing else. -/
def readText : Value → Except FieldProblem String
  | .text s => .ok s
  | _ => .error .notText

/-- A text or null. -/
def readOptionalText : Value → Except FieldProblem (Option String)
  | .null => .ok none
  | v => (readText v).map some

/-- The least whole number beyond the signed ones of sixty-four bits. -/
def wordLimit : Int := Int.pow 2 63

/-- A whole number is a boolean if it is nought or one; beyond sixty-four bits it is not looked at. -/
def readIntBoolean (n : Int) : Except FieldProblem Bool :=
  if n = 0 then .ok false
  else if n = 1 then .ok true
  else if -wordLimit ≤ n && n < wordLimit then .error .unreadableBoolean
  else .error .notBoolean

/-- So is a floating-point number without fraction, of which the least of sixty-four bits is not looked at either. -/
def readRealBoolean (x : Float) : Except FieldProblem Bool :=
  match Decimal.whole? x with
  | some n =>
    if Decimal.isZero (x - Float.ofInt n) && n ≠ -wordLimit then readIntBoolean n else .error .notBoolean
  | none => .error .notBoolean

/-- A boolean, the numbers nought and one, or one of the usual words in either case. -/
def readBoolean : Value → Except FieldProblem Bool
  | .bool b => .ok b
  | .number (.int n) => readIntBoolean n
  | .number (.real x) => readRealBoolean x
  | .text s =>
    let word := Text.lowerAscii s
    if ["0", "off", "f", "false", "n", "no"].contains word then .ok false
    else if ["1", "on", "t", "true", "y", "yes"].contains word then .ok true
    else .error .unreadableBoolean
  | _ => .error .notBoolean

/-- A ref that is more than blanks, without the blanks around it. -/
def readRef : Option Value → Except FieldProblem { r : String // Text.strip r = r ∧ r ≠ "" }
  | none => .error .missing
  | some v =>
    match readText v with
    | .error e => .error e
    | .ok s =>
      if h : Text.strip s = "" then .error (.blankRef s) else .ok ⟨Text.strip s, Text.strip_strip s, h⟩

/-- A field's value, or its default. -/
def readOr {α : Type} (read : Value → Except FieldProblem α) (default : α) : Option Value → Except FieldProblem α
  | none => .ok default
  | some v => read v

/-- The problem of a field, if it has one. -/
def problem {α : Type} (field : TriggerField) : Except FieldProblem α → List (TriggerField × FieldProblem)
  | .ok _ => []
  | .error e => [(field, e)]

/-- The trigger asked for, or all that is wrong with the request. -/
def trigger (r : TriggerRequest) (defaultBranch : String) : Except (List (TriggerField × FieldProblem)) Trigger :=
  let ref := readRef r.ref
  let event := readOr readText "push" r.event
  let sha := readOr readOptionalText none r.sha
  let branch := readOr readText defaultBranch r.defaultBranch
  let force := readOr readBoolean false r.forceBuild
  match ref, event, sha, branch, force with
  | .ok ref, .ok event, .ok sha, .ok branch, .ok force =>
    .ok ⟨ref.1, event, sha, branch, force, ref.2.1, ref.2.2⟩
  | _, _, _, _, _ =>
    .error (problem .ref ref ++ problem .event event ++ problem .sha sha ++
      problem .defaultBranch branch ++ problem .forceBuild force)

end TriggerRequest

end CiPipeline
