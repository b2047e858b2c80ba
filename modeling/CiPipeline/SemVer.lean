import CiPipeline.Text.Digit
import CiPipeline.Text.Search

/-
Semantic versions in tags: an optional `v`, three numbers without leading zeros, an optional
prerelease part behind a hyphen and an optional build part behind a plus. One line feed may end
the text. Digits behind the first may be of any script.
-/

namespace CiPipeline

/-- A semantic version without its build part. -/
structure SemVer where
  major : Nat
  minor : Nat
  patch : Nat
  pre : Option String := none
  deriving DecidableEq, Repr

namespace SemVer

/-- The text of a version. -/
def version (v : SemVer) : String :=
  let base := s!"{v.major}.{v.minor}.{v.patch}"
  match v.pre with
  | some p => if p = "" then base else base ++ "-" ++ p
  | none => base

/-- Whether the version has a prerelease part. -/
def isPrerelease (v : SemVer) : Bool := v.pre.any (· ≠ "")

/-- The characters of a prerelease or build part. -/
def isPartChar (c : Char) : Bool := c.isAlphanum || c == '.' || c == '-'

/-- The digits of a number without leading zeros at the start, and the rest. -/
def digits? : List Char → Option (List Char × List Char)
  | '0' :: cs => some (['0'], cs)
  | c :: cs =>
    if '1' ≤ c && c ≤ '9' then some (c :: cs.takeWhile Text.isDigit, cs.dropWhile Text.isDigit) else none
  | [] => none

/-- A dot and the digits of a number at the start, and the rest. -/
def dotDigits? : List Char → Option (List Char × List Char)
  | '.' :: cs => digits? cs
  | _ => none

/-- A part behind the mark `mark`, if one starts here, and the rest. -/
def part (mark : Char) : List Char → Option String × List Char
  | c :: cs =>
    if c = mark && !(cs.takeWhile isPartChar).isEmpty then
      (some (String.ofList (cs.takeWhile isPartChar)), cs.dropWhile isPartChar)
    else (none, c :: cs)
  | [] => (none, [])

/-- The digits of the three numbers, and what follows them. -/
def core? (cs : List Char) : Option (List Char × List Char × List Char × List Char) := do
  let (major, cs) ← digits? cs
  let (minor, cs) ← dotDigits? cs
  let (patch, cs) ← dotDigits? cs
  return (major, minor, patch, cs)

/-- The list without a leading `v`. -/
def dropV : List Char → List Char
  | 'v' :: cs => cs
  | cs => cs

/-- A version as it is written, its numbers not yet read. -/
structure Written where
  major : List Char
  minor : List Char
  patch : List Char
  pre : Option String
  deriving DecidableEq, Repr

/-- The written version, if a list of characters is one. -/
def written? (cs : List Char) : Option Written :=
  match core? (dropV cs) with
  | none => none
  | some (major, minor, patch, rest) =>
    let (pre, rest) := part '-' rest
    let (_, rest) := part '+' rest
    if rest = [] || rest = ['\n'] then some ⟨major, minor, patch, pre⟩ else none

/-- The version that is written; of its numbers the first that is too long counts. -/
def Written.read (w : Written) : Except Text.TooManyDigits SemVer := do
  let major ← Text.readDigits w.major
  let minor ← Text.readDigits w.minor
  let patch ← Text.readDigits w.patch
  return ⟨major, minor, patch, w.pre⟩

/-- The version that a text writes, if it is one. -/
def parse (s : String) : Except Text.TooManyDigits (Option SemVer) :=
  match written? s.toList with
  | none => .ok none
  | some w => w.read.map some

end SemVer

end CiPipeline
