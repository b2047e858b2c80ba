import CiPipeline.Fault
import CiPipeline.Text.Digit

/-
Version numbers in the output of tools: the first two or three numbers with dots between them, and
whether they are at least what is required.
-/

namespace CiPipeline

/-- A version number. -/
structure Version where
  major : Nat
  minor : Nat
  patch : Nat
  deriving DecidableEq, Repr

namespace Version

/-- The three numbers. -/
def parts (v : Version) : List Int := [v.major, v.minor, v.patch]

/-- The three numbers with dots between them. -/
def text (v : Version) : String := s!"{v.major}.{v.minor}.{v.patch}"

/-- A run of digits at the start, which must not be empty, and the rest. -/
def digits? (cs : List Char) : Option (List Char × List Char) :=
  match cs.takeWhile Text.isDigit with
  | [] => none
  | d :: ds => some (d :: ds, cs.dropWhile Text.isDigit)

/-- A dot and a run of digits at the start, and the rest. -/
def dotDigits? : List Char → Option (List Char × List Char)
  | '.' :: cs => digits? cs
  | _ => none

/-- A version number as it is written, its numbers not yet read. -/
structure Written where
  major : List Char
  minor : List Char
  patch : Option (List Char)
  deriving DecidableEq, Repr

/-- The version number that is written at the start. -/
def atStart? (cs : List Char) : Option Written :=
  match digits? cs with
  | none => none
  | some (major, cs) => (dotDigits? cs).map fun (minor, cs) => ⟨major, minor, (dotDigits? cs).map (·.1)⟩

/-- The first version number that is written in a list of characters. Behind a run of digits with
which none begins, `tried` says that the rest of the run need not be looked at. -/
def scan (tried : Bool) : List Char → Option Written
  | [] => none
  | c :: cs =>
    if tried && Text.isDigit c then scan true cs
    else (atStart? (c :: cs)).or (scan (Text.isDigit c) cs)

/-- The first version number that is written in a list of characters. -/
def find? (cs : List Char) : Option Written := scan false cs

/-- The version number that is written; a missing third number is nought. -/
def Written.read (w : Written) : Except Text.TooManyDigits Version := do
  let major ← Text.readDigits w.major
  let minor ← Text.readDigits w.minor
  let patch ← Text.readDigits (w.patch.getD ['0'])
  return ⟨major, minor, patch⟩

/-- The first version number in a text, if there is one. -/
def parse (s : String) : Except Text.TooManyDigits (Option Version) :=
  match find? s.toList with
  | none => .ok none
  | some w => w.read.map some

/-- Whether numbers reach a requirement, which must hold a version number. The first difference decides. -/
def reaches (found : List Int) (required : String) : Except Fault Bool := do
  match ← (parse required).mapError .digits with
  | some v => return !found.lex v.parts (· < ·)
  | none => throw (.unreadableVersion required)

end Version

end CiPipeline
