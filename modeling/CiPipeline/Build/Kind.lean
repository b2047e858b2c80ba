import CiPipeline.Text.Search

/-
The kinds of native build.
-/

namespace CiPipeline

/-- How the native code is compiled. -/
inductive BuildKind
  | debug
  | release
  | releaseWithDebugInfo
  deriving DecidableEq, Repr

namespace BuildKind

/-- The name of a kind. -/
def name : BuildKind → String
  | .debug => "Debug"
  | .release => "Release"
  | .releaseWithDebugInfo => "RelWithDebInfo"

/-- All kinds. -/
def all : List BuildKind := [.debug, .release, .releaseWithDebugInfo]

/-- The kind of a name. -/
def ofName? (name : String) : Option BuildKind := all.find? fun k => k.name = name

/-- The names as a sentence lists them. -/
def names : String := Text.join ", " (all.map BuildKind.name)

end BuildKind

end CiPipeline
