import CiPipeline.Path

/-
A tree of directories and text files. Every operation takes the components of an absolute path;
looking a path up walks it component by component, as a file system does, so that a path through
a missing directory or through a file fails even where its normal form exists.
-/

namespace CiPipeline

/-- Why an operation on a file, or the start of a program, fails. -/
inductive OsError
  | noEntry
  | badFormat
  | denied
  | exists
  | notDirectory
  | isDirectory
  deriving DecidableEq, Repr

/-- The number of an error. -/
def OsError.number : OsError → Nat
  | .noEntry => 2
  | .badFormat => 8
  | .denied => 13
  | .exists => 17
  | .notDirectory => 20
  | .isDirectory => 21

/-- The wording of an error. -/
def OsError.text : OsError → String
  | .noEntry => "No such file or directory"
  | .badFormat => "Exec format error"
  | .denied => "Permission denied"
  | .exists => "File exists"
  | .notDirectory => "Not a directory"
  | .isDirectory => "Is a directory"

/-- What stands at a path. -/
inductive Node
  | directory
  | file (content : String)
  deriving DecidableEq, Repr

/-- A tree, as the nodes below the root with the components of their paths. -/
structure FileTree where
  nodes : List (List String × Node) := []
  deriving DecidableEq, Repr

namespace FileTree

/-- What stands at a path; the root is a directory. -/
def node? (t : FileTree) (place : List String) : Option Node :=
  if place.isEmpty then some .directory else t.nodes.lookup place

/-- Walks `todo` from `here`. -/
def walk (t : FileTree) (here : List String) : List String → Except OsError (List String × Node)
  | [] =>
    match t.node? here with
    | some n => .ok (here, n)
    | none => .error .noEntry
  | part :: rest =>
    match t.node? here with
    | none => .error .noEntry
    | some (.file _) => .error .notDirectory
    | some .directory =>
      if part = "" || part = "." then t.walk here rest
      else if part = ".." then t.walk here.dropLast rest
      else t.walk (here ++ [part]) rest

/-- What a path names from the directory `here`. -/
def at? (t : FileTree) (here p : Path) : Option Node :=
  match t.walk (if p.root == 0 then here.parts else []) p.parts with
  | .ok (_, n) => some n
  | .error _ => none

/-- Whether the path names anything. -/
def has (t : FileTree) (here p : Path) : Bool := (t.at? here p).isSome

/-- Whether the path names a file. -/
def hasFile (t : FileTree) (here p : Path) : Bool :=
  match t.at? here p with
  | some (.file _) => true
  | _ => false

/-- Whether the path names a directory. -/
def hasDirectory (t : FileTree) (here p : Path) : Bool := t.at? here p == some .directory

/-- What a path text names from the directory `here`; the empty text names nothing, and a final
slash asks for a directory. -/
def status (t : FileTree) (here : Path) (s : String) : Except OsError Node :=
  if s = "" then .error .noEntry
  else (t.walk (if Text.startsWith s "/" then [] else here.parts) (Text.splitOn '/' s)).map (·.2)

/-- Puts a node at a path, in the place of what stood there. -/
def put (t : FileTree) (place : List String) (n : Node) : FileTree :=
  if t.nodes.any (·.1 == place) then ⟨t.nodes.map fun e => if e.1 == place then (place, n) else e⟩
  else ⟨t.nodes ++ [(place, n)]⟩

/-- The non-empty beginnings of a path, shortest first. -/
def beginnings : List String → List (List String)
  | [] => []
  | p :: ps => [p] :: (beginnings ps).map (p :: ·)

/-- The tree with directories wherever the path has nothing yet. -/
def fillDirectories (t : FileTree) (place : List String) : FileTree :=
  (beginnings place).foldl (fun t b => if (t.node? b).isNone then t.put b .directory else t) t

/-- Makes a directory with all that lead to it; an existing directory is fine. -/
def makeDirectory (t : FileTree) (place : List String) : Except OsError FileTree :=
  let isFile (b : List String) : Bool :=
    match t.node? b with
    | some (.file _) => true
    | _ => false
  if (beginnings place.dropLast).any isFile then .error .notDirectory
  else if isFile place then .error .exists
  else .ok (t.fillDirectories place)

/-- Writes a file into an existing directory. -/
def write (t : FileTree) (place : List String) (content : String) : Except OsError FileTree :=
  match t.node? place, t.node? place.dropLast with
  | some .directory, _ => .error .isDirectory
  | _, some .directory => .ok (t.put place (.file content))
  | _, some (.file _) => .error .notDirectory
  | _, none => .error .noEntry

/-- The tree with a file and all directories that lead to it. -/
def withFile (t : FileTree) (place : List String) (content : String) : FileTree :=
  (t.fillDirectories place.dropLast).put place (.file content)

/-- The tree without a path and all below it. -/
def without (t : FileTree) (place : List String) : FileTree :=
  ⟨t.nodes.filter fun e => !place.isPrefixOf e.1⟩

/-- Removes a directory with all that it holds. -/
def removeDirectory (t : FileTree) (place : List String) : Except OsError FileTree :=
  match t.node? place with
  | some .directory => .ok (t.without place)
  | some (.file _) => .error .notDirectory
  | none => .error .noEntry

/-- The names in a directory with what they name, in code point order. -/
def listing (t : FileTree) (place : List String) : List (String × Node) :=
  let found := t.nodes.filterMap fun e =>
    if e.1.dropLast = place then e.1.getLast?.map fun name => (name, e.2) else none
  found.mergeSort fun a b => a.1 ≤ b.1

/-- All paths below a directory with what they name, in code point order of their texts. -/
def below (t : FileTree) (place : List String) : List (String × Node) :=
  let found := t.nodes.filterMap fun e =>
    match place.isPrefixOf? e.1 with
    | some (p :: ps) => some (Text.join "/" (p :: ps), e.2)
    | _ => none
  found.mergeSort fun a b => a.1 ≤ b.1

end FileTree

end CiPipeline
