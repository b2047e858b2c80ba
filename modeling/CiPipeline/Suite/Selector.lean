import CiPipeline.Text.Search

/-
The test categories by name, and the selectors: one category, or all of them in order.
-/

namespace CiPipeline

/-- The test categories. -/
inductive CategoryName
  | imports
  | dependencies
  | libraries
  | pytest
  | performance
  deriving DecidableEq, Repr

namespace CategoryName

/-- The word for a category. -/
def word : CategoryName → String
  | .imports => "import"
  | .dependencies => "deps"
  | .libraries => "library"
  | .pytest => "pytest"
  | .performance => "performance"

/-- All categories in the order in which they run. -/
def all : List CategoryName := [.imports, .dependencies, .libraries, .pytest, .performance]

/-- The category of a word. -/
def ofWord? (word : String) : Option CategoryName := all.find? fun c => c.word = word

/-- The words that select categories. -/
def selectors : List String := "all" :: all.map word

/-- The categories that a word selects. -/
def select? (selector : String) : Option (List CategoryName) :=
  if selector = "all" then some all else (ofWord? selector).map ([·])

end CategoryName

end CiPipeline
