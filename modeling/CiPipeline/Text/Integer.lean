import CiPipeline.Text.Blank
import CiPipeline.Text.Digit
import CiPipeline.Text.Quoted
import CiPipeline.Text.Search

/-
Whole numbers as people type them: blanks around, an optional sign, and decimal digits of any
script, between any two of which one underscore may stand. Of two mistakes the grouping of the
digits comes first, then their number, and then what stands behind them.
-/

namespace CiPipeline.Text

/-- Why a text is read as no whole number. -/
inductive IntegerError
  | notWhole (text : String)
  | tooLong (e : TooManyDigits)
  deriving DecidableEq, Repr

/-- The wording of an error, which shows no more than two hundred characters of the quoted text. -/
def IntegerError.message : IntegerError → String
  | .notWhole text => "invalid literal for int() with base 10: " ++ take 200 (quoted text)
  | .tooLong e => e.message

/-- The blanks that may surround a number: all but the four separators below the space. -/
def isNumberBlank (c : Char) : Bool := isBlank c && !(28 ≤ c.toNat && c.toNat ≤ 31)

/-- The characters of a number behind its sign. -/
def isNumberChar (c : Char) : Bool := isDigit c || c == '_'

/-- The digits of a number without its underscores; nothing if an underscore stands wrong. -/
def ungrouped? : List Char → Option (List Char)
  | [] => none
  | [c] => if isDigit c then some [c] else none
  | c :: '_' :: rest => if isDigit c then (ungrouped? rest).map (c :: ·) else none
  | c :: d :: rest => if isDigit c then (ungrouped? (d :: rest)).map (c :: ·) else none

/-- Whether a minus stands in front of a number, and the characters behind its sign. -/
def signed : List Char → Bool × List Char
  | '-' :: cs => (true, cs)
  | '+' :: cs => (false, cs)
  | cs => (false, cs)

/-- The whole number that the text writes. -/
def integer (s : String) : Except IntegerError Int :=
  let (negative, cs) := signed (s.toList.dropWhile isNumberBlank)
  match ungrouped? (cs.takeWhile isNumberChar) with
  | none => .error (.notWhole s)
  | some digits => do
    let n ← (readDigits digits).mapError .tooLong
    if !(cs.dropWhile isNumberChar).all isNumberBlank then throw (.notWhole s)
    return if negative then -(n : Int) else n

end CiPipeline.Text
