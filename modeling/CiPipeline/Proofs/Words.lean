import CiPipeline.Shell.Words
import Mathlib.Data.List.Forall2

/-
Words that a shell reads back as they were meant. A piece of a line spells a word if it is read as that
one word wherever it stands between blanks (`Spells`). A quoted text spells the text itself, whatever
characters it holds (`spells_quote`); a word of ordinary characters spells itself (`spells_plain`).
`split_join`: a line of such pieces is split into exactly their words, so that no piece reaches into
another one.
-/

namespace CiPipeline.Shell

/-- Where a word may end: where the line ends, or before a blank. -/
def Ends : List Char → Prop
  | [] => True
  | c :: _ => isSeparator c = true

/-- A piece of a line that is read as one word, whatever follows behind its end. -/
def Spells (piece word : String) : Prop :=
  ∀ rest, Ends rest → scan .between [] (piece.toList ++ rest) = (scan .between [] rest).map (word.toList :: ·)

/-- Whether a character stands for itself in a word. -/
def isOrdinary (c : Char) : Bool := !isSeparator c && c != '\\' && c != '\'' && c != '"'

/-- Whether a text is a word as it is. -/
def isPlain (w : String) : Bool := !w.toList.isEmpty && w.toList.all isOrdinary

theorem isOrdinary_iff {c : Char} : isOrdinary c = true ↔
    isSeparator c = false ∧ c ≠ '\\' ∧ c ≠ '\'' ∧ c ≠ '"' := by
  simp [isOrdinary, and_assoc]

theorem isOrdinary_of_isSafe {c : Char} (h : isSafe c = true) : isOrdinary c = true := by
  have hne : ∀ d, isSafe d = false → c ≠ d := by
    rintro d hd rfl
    rw [hd] at h
    cases h
  have hsep : isSeparator c = false := by
    rw [isSeparator, beq_false_of_ne (hne ' ' (by decide)), beq_false_of_ne (hne '\t' (by decide)),
      beq_false_of_ne (hne '\r' (by decide)), beq_false_of_ne (hne '\n' (by decide))]
    rfl
  exact isOrdinary_iff.2 ⟨hsep, hne _ (by decide), hne _ (by decide), hne _ (by decide)⟩

/-! ## Reading on from within a word -/

variable {cs rest token : List Char} {c : Char}

theorem scan_between_cons (h : isOrdinary c = true) : scan .between [] (c :: rest) = scan .word [c] rest := by
  obtain ⟨hsep, hback, hsingle, hdouble⟩ := isOrdinary_iff.1 h
  rw [scan, hsep, if_neg Bool.false_ne_true, if_neg hback, if_neg hsingle, if_neg hdouble]

theorem scan_word_cons (h : isOrdinary c = true) : scan .word token (c :: rest) = scan .word (token ++ [c]) rest := by
  obtain ⟨hsep, hback, hsingle, hdouble⟩ := isOrdinary_iff.1 h
  rw [scan, hsep, if_neg Bool.false_ne_true, if_neg hback, if_neg hsingle, if_neg hdouble]

theorem scan_word_append : ∀ {cs token : List Char}, (∀ c ∈ cs, isOrdinary c = true) →
    scan .word token (cs ++ rest) = scan .word (token ++ cs) rest
  | [], token, _ => by rw [List.nil_append, List.append_nil]
  | c :: cs, token, h => by
    rw [List.cons_append, scan_word_cons (h c (List.mem_cons_self ..)),
      scan_word_append fun d hd => h d (List.mem_cons_of_mem _ hd), List.append_assoc]
    rfl

/-- Within single marks a character that is written for them is read back, also the mark itself. -/
theorem scan_insideMarks (c : Char) :
    scan .single token (insideMarks c ++ rest) = scan .single (token ++ [c]) rest := by
  unfold insideMarks
  split
  · rename_i h
    subst h
    -- the marks are closed, the mark is read within double ones, and the marks are opened again
    simp [scan, isSeparator]
  · rename_i h
    rw [List.singleton_append, scan, if_neg h]

theorem scan_flatMap_insideMarks : ∀ (cs token : List Char),
    scan .single token (cs.flatMap insideMarks ++ rest) = scan .single (token ++ cs) rest
  | [], token => by rw [List.flatMap_nil, List.nil_append, List.append_nil]
  | c :: cs, token => by
    rw [List.flatMap_cons, List.append_assoc, scan_insideMarks, scan_flatMap_insideMarks cs, List.append_assoc]
    rfl

/-- A word that has been begun is complete where a word may end. -/
theorem scan_word_of_ends (h : Ends rest) : scan .word token rest = (scan .between [] rest).map (token :: ·) := by
  cases rest with
  | nil => rfl
  | cons c rest =>
    have hsep : isSeparator c = true := h
    rw [scan, scan, if_pos hsep, if_pos hsep]

/-! ## Pieces that spell words -/

theorem spells_plain {w : String} (h : isPlain w = true) : Spells w w := by
  intro rest hrest
  rw [isPlain] at h
  cases hw : w.toList with
  | nil =>
    rw [hw] at h
    cases h
  | cons c cs =>
    rw [hw, Bool.and_eq_true, List.all_eq_true] at h
    calc scan .between [] (c :: cs ++ rest)
        = scan .word [c] (cs ++ rest) := scan_between_cons (h.2 c (List.mem_cons_self ..))
      _ = scan .word (c :: cs) rest := scan_word_append fun d hd => h.2 d (List.mem_cons_of_mem _ hd)
      _ = _ := scan_word_of_ends hrest

/-- A quoted text is read as the text, whatever characters it holds. -/
theorem spells_quote (s : String) : Spells (quote s) s := by
  by_cases hsafe : (!s.toList.isEmpty && s.toList.all isSafe) = true
  · -- the text is written as it is
    have hsame : quote s = s := by rw [quote, quoteChars, if_pos hsafe, String.ofList_toList]
    rw [Bool.and_eq_true, List.all_eq_true] at hsafe
    have hplain : isPlain s = true := by
      rw [isPlain, hsafe.1, Bool.true_and, List.all_eq_true]
      exact fun c hc => isOrdinary_of_isSafe (hsafe.2 c hc)
    rw [hsame]
    exact spells_plain hplain
  · intro rest hrest
    have hmarked : (quote s).toList = '\'' :: s.toList.flatMap insideMarks ++ ['\''] := by
      rw [quote, quoteChars, if_neg hsafe, String.toList_ofList]
    calc scan .between [] ((quote s).toList ++ rest)
        = scan .single [] (s.toList.flatMap insideMarks ++ '\'' :: rest) := by
          rw [hmarked, List.append_assoc, List.cons_append, scan]
          rfl
      _ = scan .word s.toList rest := by
          rw [scan_flatMap_insideMarks, List.nil_append, scan, if_pos rfl]
      _ = _ := scan_word_of_ends hrest

theorem spells_all {ws : List String} (h : ws.all isPlain = true) : List.Forall₂ Spells ws ws :=
  List.forall₂_same.2 fun w hw => spells_plain (List.all_eq_true.1 h w hw)

/-! ## Lines of pieces -/

theorem scan_join {pieces words : List String} (h : List.Forall₂ Spells pieces words) :
    scan .between [] (Text.join " " pieces).toList = .ok (words.map String.toList) := by
  induction h with
  | nil => rfl
  | @cons piece word pieces words hpiece hrest ih =>
    cases hrest with
    | nil =>
      have hlast := hpiece [] trivial
      rwa [List.append_nil] at hlast
    | cons hnext hmore =>
      -- the blank between two pieces ends the first and does not belong to the second
      have hends : ∀ cs, Ends (" ".toList ++ cs) := fun cs => rfl
      have hblank : ∀ cs, scan .between [] (" ".toList ++ cs) = scan .between [] cs := fun cs => rfl
      rw [Text.join_cons_cons, String.toList_append, String.toList_append, List.append_assoc, hpiece _ (hends _),
        hblank, ih]
      rfl

/-- A line of pieces that spell words is split into these words. -/
theorem split_join {pieces words : List String} (h : List.Forall₂ Spells pieces words) :
    split (Text.join " " pieces) = .ok words := by
  have hsame : (String.ofList ∘ String.toList) = id := funext fun _ => String.ofList_toList
  rw [split, scan_join h, Except.map, List.map_map, hsame, List.map_id]

/-- The quoted words of a list are split into that list. -/
theorem split_quoteAll (words : List String) : split (quoteAll words) = .ok words :=
  split_join (List.forall₂_map_left_iff.2 (List.forall₂_same.2 fun w _ => spells_quote w))

/-- A word with a mark, a line feed and a backslash, and an empty word behind it. -/
example : split (quoteAll ["it's\n\\", "", "v1"]) = .ok ["it's\n\\", "", "v1"] := by rfl

end CiPipeline.Shell
