import CiPipeline.Text.Search

/-
Words of a shell command line: writing a word so that a shell reads it as one, and splitting a
line into its words. Splitting the quoted words of a list, joined by spaces, gives the list back.
-/

namespace CiPipeline.Shell

/-- Why a line cannot be split. -/
inductive WordsError
  | noClosingQuotation
  | noEscapedCharacter
  deriving DecidableEq, Repr

/-- The wording of the two errors. -/
def WordsError.message : WordsError → String
  | .noClosingQuotation => "No closing quotation"
  | .noEscapedCharacter => "No escaped character"

/-- The characters that no shell treats specially: ASCII letters, digits and ten marks. -/
def isSafe (c : Char) : Bool :=
  c.isAlphanum || ['_', '@', '%', '+', '=', ':', ',', '.', '/', '-'].contains c

/-- A character inside single quotation marks; the mark itself is closed over, quoted and reopened. -/
def insideMarks (c : Char) : List Char :=
  if c = '\'' then ['\'', '"', '\'', '"', '\''] else [c]

/-- The word as a shell reads it back. -/
def quoteChars (cs : List Char) : List Char :=
  if !cs.isEmpty && cs.all isSafe then cs else '\'' :: cs.flatMap insideMarks ++ ['\'']

/-- The word as a shell reads it back. -/
def quote (s : String) : String := String.ofList (quoteChars s.toList)

/-- The words as one line. -/
def quoteAll (words : List String) : String := Text.join " " (words.map quote)

/-- Where a reader stands: between words, in one, inside quotation marks, or behind a backslash. -/
inductive Mode
  | between
  | word
  | single
  | double
  | escaped
  | escapedInDouble
  deriving DecidableEq, Repr

/-- The blanks that separate words. -/
def isSeparator (c : Char) : Bool := c == ' ' || c == '\t' || c == '\r' || c == '\n'

/-- Reads the words of `cs` from a mode, `token` being the word begun so far. -/
def scan : Mode → List Char → List Char → Except WordsError (List (List Char))
  | .between, _, [] => .ok []
  | .word, token, [] => .ok [token]
  | .single, _, [] => .error .noClosingQuotation
  | .double, _, [] => .error .noClosingQuotation
  | .escaped, _, [] => .error .noEscapedCharacter
  | .escapedInDouble, _, [] => .error .noEscapedCharacter
  | .between, _, c :: cs =>
    if isSeparator c then scan .between [] cs
    else if c = '\\' then scan .escaped [] cs
    else if c = '\'' then scan .single [] cs
    else if c = '"' then scan .double [] cs
    else scan .word [c] cs
  | .word, token, c :: cs =>
    if isSeparator c then (scan .between [] cs).map (token :: ·)
    else if c = '\\' then scan .escaped token cs
    else if c = '\'' then scan .single token cs
    else if c = '"' then scan .double token cs
    else scan .word (token ++ [c]) cs
  | .single, token, c :: cs =>
    if c = '\'' then scan .word token cs else scan .single (token ++ [c]) cs
  | .double, token, c :: cs =>
    if c = '"' then scan .word token cs
    else if c = '\\' then scan .escapedInDouble token cs
    else scan .double (token ++ [c]) cs
  | .escaped, token, c :: cs => scan .word (token ++ [c]) cs
  | .escapedInDouble, token, c :: cs =>
    if c = '\\' || c = '"' then scan .double (token ++ [c]) cs
    else scan .double (token ++ ['\\', c]) cs

/-- The words of a line. -/
def split (s : String) : Except WordsError (List String) :=
  (scan .between [] s.toList).map (·.map String.ofList)

end CiPipeline.Shell
