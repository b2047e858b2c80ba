import CiPipeline.Shell.Words
import CiPipeline.Value

/-
The data of a step: a table whose entries may hold anything as long as nobody has checked them.
What an entry cannot be used for is found out when it is needed. The words of a command line are
texts, or, as they come from such data, any values.
-/

namespace CiPipeline

/-- What is wrong with the data of a step. -/
inductive DataError
  | missing (entry : String)
  | notSequence (kind : String)
  | notTable (kind : String)
  | notPairs
  | notLine (kind : String)
  | notPath (kind : String)
  | words (e : Shell.WordsError)
  deriving DecidableEq, Repr

/-- The wording of an error. -/
def DataError.message : DataError → String
  | .missing entry => Text.quoted entry
  | .notSequence kind => "'" ++ kind ++ "' object is not iterable"
  | .notTable kind => "'" ++ kind ++ "' object has no attribute 'items'"
  | .notPairs => "dictionary update sequence element #0 has length 1; 2 is required"
  | .notLine kind => "'" ++ kind ++ "' object has no attribute 'read'"
  | .notPath kind => "unsupported operand type(s) for /: 'PosixPath' and '" ++ kind ++ "'"
  | .words e => e.message

namespace Value

/-- What a value goes through as a sequence: a text its characters, a table its keys. -/
def sequence : Value → Except DataError (List Value)
  | .text s => .ok (s.toList.map fun c => .text (String.singleton c))
  | .list items => .ok items
  | .dict entries => .ok (entries.map fun (k, _) => .text k)
  | v => .error (.notSequence v.kindName)

/-- The variables that a value sets. -/
def environment : Value → Except DataError (Dict Value)
  | .dict entries => .ok ⟨entries⟩
  | .text _ => .error .notPairs
  | v => .error (.notSequence v.kindName)

/-- The entries of a value that has to be a table. -/
def asTable : Value → Except DataError (Dict Value)
  | .dict entries => .ok ⟨entries⟩
  | v => .error (.notTable v.kindName)

/-- The words of a value that has to be a shell line. -/
def lineWords : Value → Except DataError (List Value)
  | .text s => ((Shell.split s).mapError .words).map (·.map .text)
  | v => .error (.notLine v.kindName)

/-- The text of a value that has to be part of a path. -/
def pathText : Value → Except DataError String
  | .text s => .ok s
  | v => .error (.notPath v.kindName)

end Value

/-- The data of a step. -/
abbrev StepData := Dict Value

namespace StepData

/-- An entry that must be there. -/
def entry (d : StepData) (name : String) : Except DataError Value :=
  match d.get? name with
  | some v => .ok v
  | none => .error (.missing name)

/-- An entry that counts as given. -/
def given? (d : StepData) (name : String) : Option Value := (d.get? name).filter Value.isGiven

/-- What `read` makes of an entry that counts as given, or else `default`. -/
def readOr {α : Type} (d : StepData) (name : String) (default : α) (read : Value → Except DataError α) :
    Except DataError α :=
  match d.given? name with
  | some v => read v
  | none => .ok default

/-- Whether an entry counts as given; a missing one as `default`. -/
def flag (d : StepData) (name : String) (default : Bool) : Bool := ((d.get? name).map Value.isGiven).getD default

end StepData

/-- What can stand as a word of a command line. -/
class Word (ω : Type) where
  ofText : String → ω
  toValue : ω → Value
  toValue_ofText : ∀ s, toValue (ofText s) = .text s

instance : Word String := ⟨id, .text, fun _ => rfl⟩

instance : Word Value := ⟨.text, id, fun _ => rfl⟩

namespace Word

/-- Texts as words. -/
def texts {ω : Type} [Word ω] (words : List String) : List ω := words.map ofText

/-- Words as values. -/
def values {ω : Type} [Word ω] (words : List ω) : List Value := words.map toValue

/-- Whether a word counts as given. -/
def isGiven {ω : Type} [Word ω] (w : ω) : Bool := (toValue w).isGiven

end Word

end CiPipeline
