import CiPipeline.Text.Blank
import CiPipeline.Text.Search
import Mathlib.Data.List.DropRight

/-
Texts that are put together: what trimming takes from one, what stands behind its start, and where a word
occurs in it. A word occurs in none of two pieces, or across the place where they meet; not the latter if a
character stands there that the word has not.
-/

namespace CiPipeline.Text

variable {p : Char → Bool} {a b w : List Char} {c : Char}

/-! ## Ends -/

/-- Nothing is taken away in front of a character that stays. -/
theorem rdropWhile_append (ha : a.rdropWhile p = a) (b : List Char) : (a ++ b).rdropWhile p = a ++ b.rdropWhile p := by
  induction b using List.reverseRecOn with
  | nil => rw [List.append_nil, ha, List.rdropWhile_nil, List.append_nil]
  | append_singleton b x ih =>
    rw [← List.append_assoc, List.rdropWhile_concat, List.rdropWhile_concat]
    split
    · exact ih
    · exact List.append_assoc ..

/-- The text without the blanks at its end. -/
def trimEnd (s : String) : String := String.ofList (s.toList.rdropWhile isBlank)

theorem strip_append {start : String} (hhead : ∀ c, start.toList.head? = some c → isBlank c = false)
    (hend : start.toList.rdropWhile isBlank = start.toList) (hne : start ≠ "") (s : String) :
    strip (start ++ s) = start ++ trimEnd s := by
  have hdrop : (start.toList ++ s.toList).dropWhile isBlank = start.toList ++ s.toList := by
    refine dropWhile_eq_self fun c hc => hhead c ?_
    rwa [List.head?_append_of_ne_nil _ fun hnil => hne (String.toList_eq_nil_iff.1 hnil)] at hc
  rw [← String.toList_inj, strip, String.toList_ofList, String.toList_append, String.toList_append, trimBy, hdrop, trimEnd,
    String.toList_ofList]
  exact rdropWhile_append hend s.toList

/-- No trimmed text ends with a blank. -/
theorem not_isBlank_of_strip {s : String} (hs : strip s = s) (hc : s.toList.getLast? = some c) : isBlank c = false := by
  rw [← hs, strip, String.toList_ofList, trimBy, List.getLast?_reverse] at hc
  exact head?_dropWhile hc

/-! ## Starts -/

theorem after?_eq_some {start s r : String} : after? start s = some r ↔ s = start ++ r := by
  unfold after?
  rw [Option.map_eq_some_iff]
  constructor
  · rintro ⟨cs, hcs, rfl⟩
    rw [← String.toList_inj, String.toList_append, String.toList_ofList]
    exact (List.isPrefixOf?_eq_some_iff_append_eq.1 hcs).symm
  · rintro rfl
    refine ⟨r.toList, ?_, String.ofList_toList⟩
    rw [List.isPrefixOf?_eq_some_iff_append_eq, String.toList_append]

/-! ## Occurrences -/

theorem occurs_iff : occurs w b = true ↔ w <:+: b := by
  induction b with
  | nil => rw [occurs, List.isEmpty_iff, List.infix_nil]
  | cons c b ih => rw [occurs, Bool.or_eq_true, List.isPrefixOf_iff_prefix, ih, List.infix_cons_iff]

theorem prefix_of_prefix_append_cons (hc : c ∉ w) (h : w <+: a ++ c :: b) : w <+: a := by
  induction a generalizing w with
  | nil =>
    cases w with
    | nil => exact List.prefix_rfl
    | cons d w => exact absurd (List.mem_cons.2 (.inl (List.cons_prefix_cons.1 h).1.symm)) hc
  | cons d a ih =>
    cases w with
    | nil => exact List.nil_prefix
    | cons e w =>
      obtain ⟨rfl, hw⟩ := List.cons_prefix_cons.1 h
      exact List.cons_prefix_cons.2 ⟨rfl, ih (fun hmem => hc (List.mem_cons_of_mem _ hmem)) hw⟩

/-- A word occurs on one side of a character that it has not. -/
theorem infix_append_cons (hc : c ∉ w) : w <:+: a ++ c :: b ↔ w <:+: a ∨ w <:+: b := by
  constructor
  · intro h
    induction a with
    | nil =>
      rcases List.infix_cons_iff.1 h with h | h
      · exact .inl (prefix_of_prefix_append_cons hc h).isInfix
      · exact .inr h
    | cons d a ih =>
      rcases List.infix_cons_iff.1 h with h | h
      · exact .inl (prefix_of_prefix_append_cons (a := d :: a) hc h).isInfix
      · exact (ih h).imp_left fun hw => hw.trans (List.suffix_cons d a).isInfix
  · rintro (h | h)
    · exact h.trans (List.prefix_append a _).isInfix
    · exact h.trans ((List.suffix_cons c b).trans (List.suffix_append a _)).isInfix

/-- A word occurs behind characters that it has not. -/
theorem infix_append_of_disjoint (hne : w ≠ []) (ha : ∀ c ∈ a, c ∉ w) : w <:+: a ++ b ↔ w <:+: b := by
  induction a with
  | nil => exact Iff.rfl
  | cons d a ih =>
    rw [List.cons_append, List.infix_cons_iff, ih fun c hc => ha c (List.mem_cons_of_mem _ hc), or_iff_right]
    intro h
    obtain ⟨e, w, rfl⟩ := List.exists_cons_of_ne_nil hne
    exact ha d (List.mem_cons_self ..) (List.mem_cons.2 (.inl (List.cons_prefix_cons.1 h).1.symm))

end CiPipeline.Text
