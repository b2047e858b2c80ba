/-
Blank characters, trimming, and the first line of a text. A trimmed text neither starts nor ends
with a blank, and it is empty exactly when the text holds blanks only.
-/

namespace CiPipeline.Text

/-- The twenty-nine characters that count as blank: the ASCII controls from tab to carriage return
and from the file to the unit separator, and the space-like characters of Unicode. -/
def isBlank (c : Char) : Bool :=
  let n := c.toNat
  (9 ≤ n && n ≤ 13) || (28 ≤ n && n ≤ 32) || n == 0x85 || n == 0xa0 || n == 0x1680 ||
    (0x2000 ≤ n && n ≤ 0x200a) || n == 0x2028 || n == 0x2029 || n == 0x202f || n == 0x205f || n == 0x3000

/-- The characters that end a line. -/
def isLineEnd (c : Char) : Bool :=
  let n := c.toNat
  (10 ≤ n && n ≤ 13) || (28 ≤ n && n ≤ 30) || n == 0x85 || n == 0x2028 || n == 0x2029

/-- The list without the run of `p` at its start and without the one at its end. -/
def trimBy (p : Char → Bool) (cs : List Char) : List Char :=
  ((cs.dropWhile p).reverse.dropWhile p).reverse

/-- The text without the blanks at its two ends. -/
def strip (s : String) : String := String.ofList (trimBy isBlank s.toList)

/-- What stands before the first line end. -/
def firstLine (s : String) : String := String.ofList (s.toList.takeWhile fun c => !isLineEnd c)

theorem dropWhile_eq_self {p : Char → Bool} :
    ∀ {cs : List Char}, (∀ c, cs.head? = some c → p c = false) → cs.dropWhile p = cs
  | [], _ => rfl
  | c :: cs, h => by rw [List.dropWhile_cons, if_neg (by simp [h c rfl])]

/-- A run of characters that is followed by none of its kind is what is taken from the start of a list. -/
theorem takeWhile_append_eq {p : Char → Bool} {cs rest : List Char} (hcs : ∀ c ∈ cs, p c = true)
    (hrest : ∀ c, rest.head? = some c → p c = false) : (cs ++ rest).takeWhile p = cs := by
  rw [List.takeWhile_append_of_pos hcs]
  cases rest with
  | nil => exact List.append_nil cs
  | cons c rest => rw [List.takeWhile_cons_of_neg (by simp [hrest c rfl]), List.append_nil]

theorem dropWhile_append_eq {p : Char → Bool} {cs rest : List Char} (hcs : ∀ c ∈ cs, p c = true)
    (hrest : ∀ c, rest.head? = some c → p c = false) : (cs ++ rest).dropWhile p = rest := by
  rw [List.dropWhile_append_of_pos hcs, dropWhile_eq_self hrest]

theorem head?_dropWhile {p : Char → Bool} {cs : List Char} {c : Char}
    (h : (cs.dropWhile p).head? = some c) : p c = false := by
  have := List.head?_dropWhile_not p cs
  rw [h] at this
  simpa using this

theorem dropWhile_dropWhile (p : Char → Bool) (cs : List Char) :
    (cs.dropWhile p).dropWhile p = cs.dropWhile p :=
  dropWhile_eq_self fun _ h => head?_dropWhile h

/-- Trimming a second time changes nothing. -/
theorem trimBy_trimBy (p : Char → Bool) (cs : List Char) : trimBy p (trimBy p cs) = trimBy p cs := by
  have hhead : (trimBy p cs).dropWhile p = trimBy p cs := by
    refine dropWhile_eq_self fun c h => ?_
    obtain ⟨l, hl⟩ : ∃ l, trimBy p cs ++ l = cs.dropWhile p := by
      obtain ⟨l, hl⟩ := @List.dropWhile_suffix _ (cs.dropWhile p).reverse p
      exact ⟨l.reverse, by rw [trimBy, ← List.reverse_append, hl, List.reverse_reverse]⟩
    refine @head?_dropWhile p cs c ?_
    rw [← hl, List.head?_append, h, Option.some_or]
  rw [show trimBy p (trimBy p cs) = (((trimBy p cs).dropWhile p).reverse.dropWhile p).reverse from rfl,
    hhead, trimBy, List.reverse_reverse, dropWhile_dropWhile]

theorem strip_strip (s : String) : strip (strip s) = strip s := by
  rw [strip, strip, String.toList_ofList, trimBy_trimBy]

/-- Every line end is blank. -/
theorem isBlank_of_isLineEnd {c : Char} (h : isLineEnd c = true) : isBlank c = true := by
  simp only [isLineEnd, isBlank, Bool.or_eq_true, Bool.and_eq_true, decide_eq_true_eq, beq_iff_eq] at h ⊢
  omega

end CiPipeline.Text
