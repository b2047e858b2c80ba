import CiPipeline.Text.Search

/-
File paths as texts: reading and writing them, joining, the parts of a name, the home directory,
and the lexical normal form in which no `.` and no `..` is left.
-/

namespace CiPipeline

/-- A path: the number of slashes at its root (none, one, or exactly two) and its components. A
component is neither empty nor a single dot. -/
structure Path where
  root : Nat
  parts : List String
  deriving DecidableEq, Repr

namespace Path

/-- The slashes that count at the start: two are kept as two, more are one. -/
def rootOf (cs : List Char) : Nat :=
  match (cs.takeWhile (· == '/')).length with
  | 0 => 0
  | 2 => 2
  | _ => 1

/-- Reads a path; repeated slashes and single dots say nothing. -/
def parse (s : String) : Path :=
  ⟨rootOf s.toList, (Text.splitOn '/' s).filter fun p => p != "" && p != "."⟩

/-- The text of a path; the empty relative path is a dot. -/
def text (p : Path) : String :=
  if p.root == 0 && p.parts.isEmpty then "."
  else Text.times p.root "/" ++ Text.join "/" p.parts

/-- The second path seen from the first; one with a root stands for itself. -/
def join (p q : Path) : Path := if q.root == 0 then ⟨p.root, p.parts ++ q.parts⟩ else q

/-- A path one component longer. -/
def child (p : Path) (name : String) : Path := p.join (parse name)

/-- Goes one component on; two dots go back, and nothing lies above the root. -/
def follow (done : List String) (part : String) : List String :=
  if part = ".." then done.dropLast else done ++ [part]

/-- The absolute path without dots that `p` names from the directory `here`. -/
def resolve (here p : Path) : Path := ⟨1, (here.join p).parts.foldl follow []⟩

/-- Whether a null character stands in a path. -/
def hasNull (p : Path) : Bool := p.parts.any Text.hasNull

/-- The last component. -/
def name (p : Path) : String := p.parts.getLast?.getD ""

/-- The last component cut at its last dot, when that is neither its first nor its last character. -/
def stemAndSuffix (p : Path) : String × String :=
  let cs := p.name.toList
  let tail := (cs.reverse.takeWhile (· != '.')).reverse
  let stem := cs.take (cs.length - tail.length - 1)
  if tail.length < cs.length && !tail.isEmpty && !stem.isEmpty then
    (String.ofList stem, String.ofList ('.' :: tail))
  else (p.name, "")

/-- The ending of the name from its last dot. -/
def suffix (p : Path) : String := p.stemAndSuffix.2

/-- The path without the slashes at its end. -/
def withoutFinalSlashes (s : String) : String :=
  String.ofList (s.toList.reverse.dropWhile (· == '/')).reverse

/-- The path with a leading tilde replaced by a home directory: one's own, under the empty name, or
that of the user whose name follows. Nothing comes of it if that directory is not known. -/
def expandHome (home : String → Option String) (p : Path) : Option Path :=
  match p.root, p.parts with
  | 0, first :: rest =>
    match Text.after? "~" first with
    | none => some p
    | some user =>
      match home user with
      | none => none
      | some h =>
        let h := withoutFinalSlashes h
        let h := if h = "" then "/" else h
        if Text.startsWith h "~" then none else some ((parse h).join ⟨0, rest⟩)
  | _, _ => some p

/-- Whether a path begins with a tilde and a name that holds a null character. -/
def hasNullUser (p : Path) : Bool := p.root == 0 && p.parts.head?.any fun s => Text.startsWith s "~" && Text.hasNull s

/-- A text path with one more component, without any normalisation. -/
def append (directory name : String) : String :=
  if Text.startsWith name "/" then name
  else if directory = "" || Text.endsWith directory "/" then directory ++ name
  else directory ++ "/" ++ name

end Path

end CiPipeline
