import CiPipeline.Decimal.Shortest
import CiPipeline.Dict
import CiPipeline.Text.Quoted
import CiPipeline.Text.Search

/-
Values as they stand in a workflow's data: what a matrix counts through, what an environment
variable or an error's details hold. A value has a plain text and, inside a list or a table, a
quoted one.
-/

namespace CiPipeline

/-- A whole or a floating-point number. -/
inductive Number
  | int (n : Int)
  | real (x : Float)

/-- The text of a number. -/
def Number.text : Number → String
  | .int n => toString n
  | .real x => Decimal.text x

/-- A value of a workflow's data. -/
inductive Value
  | null
  | bool (b : Bool)
  | number (n : Number)
  | text (s : String)
  | list (items : List Value)
  | dict (entries : List (String × Value))

namespace Value

mutual

/-- The text of a value inside another one: texts are quoted. -/
def literal : Value → String
  | .null => "None"
  | .bool b => if b then "True" else "False"
  | .number n => n.text
  | .text s => Text.quoted s
  | .list items => "[" ++ Text.join ", " (literals items) ++ "]"
  | .dict entries => "\x7b" ++ Text.join ", " (entryLiterals entries) ++ "\x7d"

/-- The texts of the items of a list. -/
def literals : List Value → List String
  | [] => []
  | v :: vs => literal v :: literals vs

/-- The texts of the entries of a table. -/
def entryLiterals : List (String × Value) → List String
  | [] => []
  | (k, v) :: rest => (Text.quoted k ++ ": " ++ literal v) :: entryLiterals rest

end

/-- The plain text of a value: a text is itself. -/
def plain : Value → String
  | .text s => s
  | v => v.literal

/-- Whether a value counts as given: neither null, false, zero nor empty. -/
def isGiven : Value → Bool
  | .null => false
  | .bool b => b
  | .number (.int n) => n != 0
  | .number (.real x) => !Decimal.isZero x
  | .text s => s != ""
  | .list items => !items.isEmpty
  | .dict entries => !entries.isEmpty

/-- The name of the kind of a value. -/
def kindName : Value → String
  | .null => "NoneType"
  | .bool _ => "bool"
  | .number (.int _) => "int"
  | .number (.real _) => "float"
  | .text _ => "str"
  | .list _ => "list"
  | .dict _ => "dict"

/-- The text that a value is. -/
def text? : Value → Option String
  | .text s => some s
  | _ => none

/-- The entries of a table. -/
def table? : Value → Option (Dict Value)
  | .dict entries => some ⟨entries⟩
  | _ => none

end Value

/-- The text of a list of texts, each quoted. -/
def quotedList (items : List String) : String :=
  "[" ++ Text.join ", " (items.map Text.quoted) ++ "]"

end CiPipeline
