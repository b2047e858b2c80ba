import CiPipeline.Proofs.SemVer
import Mathlib.Tactic.Ring

/-
Printed versions are read back: `version_parses_back`. The decimal text of a number is a numeral of the
grammar and writes that number, and a number that was read is not too long when it is printed; so a text that
was read, and then printed, says the same as before.
-/

namespace CiPipeline.SemVer

open Text (maxDigits digitsValue)

/-! ## Decimal texts -/

theorem first_of_toDigits {n : Nat} (h : 0 < n) : ∃ c cs, Nat.toDigits 10 n = c :: cs ∧ '1' ≤ c ∧ c ≤ '9' := by
  induction n using Nat.strong_induction_on with
  | _ n ih =>
    rw [Nat.toDigits_eq_if (by decide)]
    by_cases hlt : n < 10
    · rw [if_pos hlt]
      have hdigit : ∀ k < 10, 0 < k → '1' ≤ k.digitChar ∧ k.digitChar ≤ '9' := by decide
      exact ⟨_, [], rfl, hdigit n hlt h⟩
    · obtain ⟨c, cs, hcons, hfirst⟩ := ih (n / 10) (by omega) (by omega)
      rw [if_neg hlt, hcons]
      exact ⟨c, _, rfl, hfirst⟩

/-- A number is printed as the grammar has it. -/
theorem numeral_toDigits (n : Nat) : Numeral Char.isDigit (Nat.toDigits 10 n) := by
  rcases Nat.eq_zero_or_pos n with rfl | hpos
  · exact .zero
  · obtain ⟨c, cs, hcons, hfirst⟩ := first_of_toDigits hpos
    rw [hcons]
    refine .positive hfirst fun d hd => ?_
    exact Nat.isDigit_of_mem_toDigits (by decide) (by decide) (hcons ▸ List.mem_cons_of_mem c hd)

theorem length_toDigits {n : Nat} (h : n < 10 ^ maxDigits) : (Nat.toDigits 10 n).length ≤ maxDigits :=
  (Nat.length_toDigits_le_iff (by decide) (by decide)).2 h

/-- Each digit read multiplies the bound of the number so far by ten. -/
theorem foldl_digits_lt (cs : List Char) (n : Nat) :
    cs.foldl (fun n c => 10 * n + (Text.digitValue? c).getD 0) n < (n + 1) * 10 ^ cs.length := by
  induction cs generalizing n with
  | nil => simp
  | cons c cs ih =>
    have hdigit : (Text.digitValue? c).getD 0 < 10 := by
      cases h : Text.digitValue? c with
      | none => decide
      | some d => exact Text.digitValue?_lt h
    calc (c :: cs).foldl (fun n c => 10 * n + (Text.digitValue? c).getD 0) n
        < (10 * n + (Text.digitValue? c).getD 0 + 1) * 10 ^ cs.length := ih _
      _ ≤ (10 * (n + 1)) * 10 ^ cs.length := Nat.mul_le_mul_right _ (by omega)
      _ = (n + 1) * 10 ^ (c :: cs).length := by
        rw [List.length_cons]
        ring

/-- A number is less than the power of ten with as many noughts as it has digits. -/
theorem digitsValue_lt (cs : List Char) : digitsValue cs < 10 ^ cs.length := by
  have hlt := foldl_digits_lt cs 0
  rwa [Nat.zero_add, Nat.one_mul] at hlt

/-! ## Printed versions -/

/-- The numbers of a version are not too long to be read when they are printed. -/
structure Readable (v : SemVer) : Prop where
  major : v.major < 10 ^ maxDigits
  minor : v.minor < 10 ^ maxDigits
  patch : v.patch < 10 ^ maxDigits

/-- The version as a text, perhaps with a `v` in front and a build part behind. -/
def printed (marked : Bool) (v : SemVer) (build : Option String) : String :=
  (if marked then "v" else "") ++ v.version ++ build.elim "" ("+" ++ ·)

/-- The parts of a printed version. -/
def partsOf (marked : Bool) (v : SemVer) (build : Option String) : Parts :=
  ⟨marked, Nat.toDigits 10 v.major, Nat.toDigits 10 v.minor, Nat.toDigits 10 v.patch, v.pre, build⟩

variable {v : SemVer} {build : Option String} (marked : Bool)

theorem toList_version (hpre : IsPart v.pre) : v.version.toList =
    Nat.toDigits 10 v.major ++ '.' :: (Nat.toDigits 10 v.minor ++ '.' :: (Nat.toDigits 10 v.patch ++ tail '-' v.pre)) := by
  have hbase : s!"{v.major}.{v.minor}.{v.patch}".toList =
      Nat.toDigits 10 v.major ++ '.' :: (Nat.toDigits 10 v.minor ++ '.' :: Nat.toDigits 10 v.patch) := by
    simp [← Nat.toList_repr, toString]
  unfold version
  cases h : v.pre with
  | none => simpa [tail] using hbase
  | some p =>
    simp only [if_neg (hpre p h).1, String.toList_append, hbase]
    simp [tail]

theorem toList_printed (hpre : IsPart v.pre) : (printed marked v build).toList = (partsOf marked v build).chars := by
  have hbuild : (build.elim "" ("+" ++ ·)).toList = tail '+' build := by cases build <;> simp [tail]
  rw [printed, String.toList_append, String.toList_append, hbuild, toList_version hpre]
  cases marked <;> simp [partsOf, Parts.chars, Parts.unmarked]

theorem legal_partsOf (hpre : IsPart v.pre) (hbuild : IsPart build) : (partsOf marked v build).Legal Char.isDigit :=
  ⟨numeral_toDigits _, numeral_toDigits _, numeral_toDigits _, hpre, hbuild⟩

theorem value_partsOf : (partsOf marked v build).value (Nat.ofDigitChars 10 · 0) = v := by
  unfold Parts.value partsOf
  simp only [Nat.ofDigitChars_toDigits (b := 10) (by decide) (by decide)]

theorem short_partsOf (h : v.Readable) : (partsOf marked v build).Short :=
  ⟨length_toDigits h.major, length_toDigits h.minor, length_toDigits h.patch⟩

theorem parse_printed (hpre : IsPart v.pre) (hbuild : IsPart build) (h : v.Readable) :
    parse (printed marked v build) = .ok (some v) := by
  have hlegal := legal_partsOf marked hpre hbuild
  refine (parse_eq_some_iff (hlegal.mono fun c _ => Text.isDigit_of_ascii) (.inl (toList_printed marked hpre))).2
    ⟨short_partsOf marked h, ?_⟩
  rw [hlegal.value_eq, value_partsOf]

/-- The numbers of a version that was read are not too long to be read again. -/
theorem readable_of_parse {s : String} (h : parse s = .ok (some v)) : v.Readable ∧ IsPart v.pre := by
  obtain ⟨p, hp, -, hshort, rfl⟩ := exists_parts_of_parse h
  have hlt : ∀ ds, ds.length ≤ maxDigits → digitsValue ds < 10 ^ maxDigits := fun ds hds =>
    (digitsValue_lt ds).trans_le (Nat.pow_le_pow_right (by decide) hds)
  exact ⟨⟨hlt _ hshort.major, hlt _ hshort.minor, hlt _ hshort.patch⟩, hp.pre⟩

/-- A version that is printed, with or without a `v` in front and a build part behind, is read back as it was; and a
version that was read is printed as a text that is read as the same version. -/
theorem version_parses_back :
    (∀ (marked : Bool) (v : SemVer) (build : Option String), IsPart v.pre → IsPart build → v.Readable →
      parse (printed marked v build) = .ok (some v)) ∧
    ∀ (s : String) (v : SemVer), parse s = .ok (some v) → parse v.version = .ok (some v) := by
  refine ⟨fun marked v build hpre hbuild h => parse_printed marked hpre hbuild h, fun s v h => ?_⟩
  obtain ⟨hreadable, hpre⟩ := readable_of_parse h
  have hversion : printed false v none = v.version := by simp [printed]
  rw [← hversion]
  exact parse_printed false hpre nofun hreadable

/-- A version with parts of hyphens, and a text that is no printed version. -/
theorem version_parses_back_sample :
    (IsPart (some "-.0") ∧ IsPart (some "-1.-") ∧ Readable ⟨0, 10, 203, "-.0"⟩ ∧
      parse (printed true ⟨0, 10, 203, "-.0"⟩ "-1.-") = .ok (some ⟨0, 10, 203, "-.0"⟩)) ∧
    parse "1\u0662.0.0\n" = .ok (some ⟨12, 0, 0, none⟩) ∧ parse "12.0.0" = .ok (some ⟨12, 0, 0, none⟩) := by
  have hpre : IsPart (some "-.0") := by
    rintro s ⟨⟩
    exact ⟨by decide, List.all_eq_true.1 (by decide)⟩
  have hbuild : IsPart (some "-1.-") := by
    rintro s ⟨⟩
    exact ⟨by decide, List.all_eq_true.1 (by decide)⟩
  have hreadable : Readable ⟨0, 10, 203, "-.0"⟩ := by
    have hlt : ∀ n < 10 ^ 3, n < 10 ^ maxDigits := fun n hn => hn.trans_le (Nat.pow_le_pow_right (by decide) (by decide))
    exact ⟨hlt _ (by decide), hlt _ (by decide), hlt _ (by decide)⟩
  have hread : parse "1\u0662.0.0\n" = .ok (some ⟨12, 0, 0, none⟩) := by rfl
  obtain ⟨hprinted, hagain⟩ := version_parses_back
  exact ⟨⟨hpre, hbuild, hreadable, hprinted true _ _ hpre hbuild hreadable⟩, hread, hagain _ _ hread⟩

end CiPipeline.SemVer
