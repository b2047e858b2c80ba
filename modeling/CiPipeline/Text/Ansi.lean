/-
Terminal colours: a coloured text, and a text without its colour sequences. A sequence is the
escape character, an opening bracket, any of semicolon, question mark and digits, and one letter.
-/

namespace CiPipeline.Text

/-- The escape character. -/
def escape : Char := Char.ofNat 27

/-- The four colours in use. -/
inductive Colour
  | red
  | green
  | yellow
  | blue
  deriving DecidableEq, Repr

/-- The number that selects a colour. -/
def Colour.code : Colour → String
  | .red => "31"
  | .green => "32"
  | .yellow => "33"
  | .blue => "34"

/-- The text in a colour, which is reset behind it. -/
def coloured (c : Colour) (s : String) : String :=
  let e := String.ofList [escape]
  e ++ "[" ++ c.code ++ "m" ++ s ++ e ++ "[0m"

/-- The characters that may stand between the bracket and the letter. -/
def isParameter (c : Char) : Bool := c == ';' || c == '?' || ('0' ≤ c && c ≤ '9')

/-- What is left behind a colour sequence at the start, if there is one. -/
def afterSequence? : List Char → Option (List Char)
  | e :: '[' :: cs =>
    if e = escape then
      match cs.dropWhile isParameter with
      | c :: rest => if c.isAlpha then some rest else none
      | [] => none
    else none
  | _ => none

/-- The list without its colour sequences; the bound is on the number of characters looked at. -/
def plainUpTo : Nat → List Char → List Char
  | 0, cs => cs
  | _ + 1, [] => []
  | n + 1, c :: cs =>
    match afterSequence? (c :: cs) with
    | some rest => plainUpTo n rest
    | none => c :: plainUpTo n cs

/-- The text without its colour sequences. -/
def plain (s : String) : String :=
  let cs := s.toList
  String.ofList (plainUpTo cs.length cs)

end CiPipeline.Text
