/-
Looking for one text in another, cutting texts, and joining them.
-/

namespace CiPipeline.Text

/-- Whether `p` stands somewhere in the list. -/
def occurs (p : List Char) : List Char → Bool
  | [] => p.isEmpty
  | c :: cs => p.isPrefixOf (c :: cs) || occurs p cs

/-- Whether `part` stands somewhere in `s`. -/
def includes (s part : String) : Bool := occurs part.toList s.toList

/-- Whether a null character stands in `s`. -/
def hasNull (s : String) : Bool := s.toList.any (·.toNat == 0)

/-- The rest of `s` behind `start`, if `s` begins with it. -/
def after? (start s : String) : Option String := (start.toList.isPrefixOf? s.toList).map String.ofList

/-- Whether `s` begins with `start`. -/
def startsWith (s start : String) : Bool := start.toList.isPrefixOf s.toList

/-- Whether `s` ends with `last`. -/
def endsWith (s last : String) : Bool := last.toList.isSuffixOf s.toList

/-- The first `n` characters. -/
def take (n : Nat) (s : String) : String := String.ofList (s.toList.take n)

/-- The last `n` characters. -/
def takeLast (n : Nat) (s : String) : String :=
  let cs := s.toList
  String.ofList (cs.drop (cs.length - n))

/-- The pieces of the list between the occurrences of `sep`; there is always at least one. -/
def pieces (sep : Char) : List Char → List (List Char)
  | [] => [[]]
  | c :: cs =>
    if c = sep then [] :: pieces sep cs
    else
      match pieces sep cs with
      | [] => [[c]]
      | p :: ps => (c :: p) :: ps

/-- The pieces of `s` between the occurrences of `sep`. -/
def splitOn (sep : Char) (s : String) : List String := (pieces sep s.toList).map String.ofList

/-- What stands before the first line feed. -/
def beforeNewline (s : String) : String := String.ofList (s.toList.takeWhile (· != '\n'))

/-- The texts with `sep` between them. -/
def join (sep : String) : List String → String
  | [] => ""
  | [s] => s
  | s :: t :: rest => s ++ sep ++ join sep (t :: rest)

/-- The characters with each ASCII capital made small. -/
def lowerAscii (s : String) : String := String.ofList (s.toList.map Char.toLower)

/-- The text `s` repeated `n` times. -/
def times (n : Nat) (s : String) : String := String.join (List.replicate n s)

/-- The decimal text of `n` with zeros in front up to `width` places. -/
def padded (width n : Nat) : String :=
  let digits := (Nat.toDigits 10 n)
  String.ofList (List.replicate (width - digits.length) '0' ++ digits)

theorem join_cons_cons (sep s t : String) (rest : List String) :
    join sep (s :: t :: rest) = s ++ sep ++ join sep (t :: rest) := rfl

theorem pieces_ne_nil (sep : Char) (cs : List Char) : pieces sep cs ≠ [] := by
  cases cs with
  | nil => simp [pieces]
  | cons c cs => rw [pieces]; split <;> (try split) <;> simp

end CiPipeline.Text
