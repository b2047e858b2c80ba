import CiPipeline.Version

/-
When the version number in a text can be read. The first one that is written is taken, and each of its
numbers is read; that fails exactly if one of them has more digits than any number may have.
-/

namespace CiPipeline.Version

open Text (isDigit maxDigits readDigits)

/-- A version number of which one number has too many digits to be read. -/
def Written.Overlong (w : Written) : Prop :=
  maxDigits < w.major.length ∨ maxDigits < w.minor.length ∨ ∃ patch, w.patch = some patch ∧ maxDigits < patch.length

/-- A text whose first version number cannot be read. -/
def Overlong (s : String) : Prop := ∃ w, find? s.toList = some w ∧ w.Overlong

/-! ## Reading -/

theorem readDigits_of_lt {cs : List Char} (h : maxDigits < cs.length) : readDigits cs = .error ⟨cs.length⟩ :=
  if_neg (by omega)

theorem Written.overlong_iff {w : Written} :
    w.Overlong ↔ maxDigits < w.major.length ∨ maxDigits < w.minor.length ∨ maxDigits < (w.patch.getD ['0']).length := by
  have hpatch : (∃ patch, w.patch = some patch ∧ maxDigits < patch.length) ↔
      maxDigits < (w.patch.getD ['0']).length := by
    cases w.patch with
    | none => simp [maxDigits]
    | some patch => simp
  rw [Overlong, hpatch]

theorem Written.read_of_overlong {w : Written} (h : w.Overlong) : ∃ e, w.read = .error e := by
  unfold read
  rcases overlong_iff.1 h with h | h | h
  · exact ⟨_, by rw [readDigits_of_lt h]; rfl⟩
  · rw [readDigits_of_lt h]
    cases readDigits w.major with
    | error e => exact ⟨e, rfl⟩
    | ok n => exact ⟨_, rfl⟩
  · rw [readDigits_of_lt h]
    cases readDigits w.major with
    | error e => exact ⟨e, rfl⟩
    | ok n =>
      cases readDigits w.minor with
      | error e => exact ⟨e, rfl⟩
      | ok m => exact ⟨_, rfl⟩

theorem parse_of_overlong {s : String} (h : Overlong s) : ∃ e, parse s = .error e := by
  obtain ⟨w, hw, hlong⟩ := h
  obtain ⟨e, he⟩ := w.read_of_overlong hlong
  refine ⟨e, ?_⟩
  rw [parse, hw]
  show w.read.map some = .error e
  rw [he]
  rfl

/-! ## Finding -/

theorem digits?_append {ds rest : List Char} (hne : ds ≠ []) (hds : ∀ c ∈ ds, isDigit c = true)
    (hrest : ∀ c, rest.head? = some c → isDigit c = false) : digits? (ds ++ rest) = some (ds, rest) := by
  rw [digits?, Text.takeWhile_append_eq hds hrest, Text.dropWhile_append_eq hds hrest]
  cases ds with
  | nil => exact absurd rfl hne
  | cons d ds => rfl

/-- What stands before the first digit is no part of a version number. -/
theorem scan_append {pre : List Char} (hpre : ∀ c ∈ pre, isDigit c = false) (cs : List Char) :
    scan false (pre ++ cs) = scan false cs := by
  induction pre with
  | nil => rfl
  | cons c pre ih =>
    have hc := hpre c (List.mem_cons_self ..)
    have hstart : atStart? (c :: (pre ++ cs)) = none := by
      rw [atStart?, digits?, List.takeWhile_cons_of_neg (by simp [hc])]
    rw [List.cons_append, scan, hstart, hc, Bool.false_and]
    simp only [Bool.false_eq_true, if_false, Option.none_or]
    exact ih fun d hd => hpre d (List.mem_cons_of_mem _ hd)

/-- A version number that begins at the first digit is the first one. -/
theorem find?_append {pre cs : List Char} {w : Written} (hpre : ∀ c ∈ pre, isDigit c = false)
    (hw : atStart? cs = some w) : find? (pre ++ cs) = some w := by
  rw [find?, scan_append hpre]
  cases cs with
  | nil => cases hw
  | cons c cs =>
    rw [scan, hw, Bool.false_and]
    rfl

/-- A text is overlong if its first digits are too many and a number stands behind them. -/
theorem overlong_of_major {pre ds rest : List Char} {d : Char} (hpre : ∀ c ∈ pre, isDigit c = false)
    (hds : ∀ c ∈ ds, isDigit c = true) (hlong : maxDigits < ds.length) (hd : isDigit d = true) :
    Overlong (String.ofList (pre ++ (ds ++ '.' :: d :: rest))) := by
  have hne : ds ≠ [] := List.ne_nil_of_length_pos (by omega)
  have hmajor : digits? (ds ++ '.' :: d :: rest) = some (ds, '.' :: d :: rest) :=
    digits?_append hne hds (by rintro c ⟨⟩; decide)
  obtain ⟨minor, left, hminor⟩ : ∃ minor left, digits? (d :: rest) = some (minor, left) := by
    rw [digits?, List.takeWhile_cons_of_pos hd]
    exact ⟨_, _, rfl⟩
  have hstart : atStart? (ds ++ '.' :: d :: rest) = some ⟨ds, minor, (dotDigits? left).map (·.1)⟩ := by
    rw [atStart?, hmajor]
    show (digits? (d :: rest)).map _ = _
    rw [hminor]
    rfl
  exact ⟨_, by rw [String.toList_ofList]; exact find?_append hpre hstart, Or.inl hlong⟩

end CiPipeline.Version
