import CiPipeline.ImageTag
import CiPipeline.Proofs.SemVer
import CiPipeline.Proofs.Text

/-
Which tags of images are legal: `legal_iff_fits`. All characters of a name are legal, however the name
is made; but its first character and its length are not seen to. A branch that does not start with a
letter, a digit or an underscore has an illegal name, and a suffix comes after the name was cut.
-/

namespace CiPipeline

/-! ## Legal names -/

namespace ImageTag

/-- A legal name of an image: up to 128 letters, digits, underscores, dots and hyphens, of which the
first is no dot and no hyphen. -/
structure Legal (n : String) : Prop where
  one_le : 1 ≤ n.length
  length_le : n.length ≤ 128
  first : ∀ c, n.toList.head? = some c → (c.isAlphanum || c == '_') = true
  chars : ∀ c ∈ n.toList, isTagChar c = true

/-- Whether a name starts with a letter, a digit or an underscore. -/
def starts (n : String) : Bool := n.toList.head?.any fun c => c.isAlphanum || c == '_'

/-- All characters of a name may stand in a tag. -/
def Plain (n : String) : Prop := ∀ c ∈ n.toList, isTagChar c = true

instance (n : String) : Decidable (Plain n) := decidable_of_iff (n.toList.all isTagChar = true) List.all_eq_true

variable {a b n : String}

theorem legal_iff : Legal n ↔ starts n = true ∧ n.length ≤ 128 ∧ Plain n := by
  unfold starts
  constructor
  · rintro ⟨hone, hle, hfirst, hchars⟩
    refine ⟨?_, hle, hchars⟩
    rw [← String.length_toList] at hone
    obtain ⟨c, cs, hcs⟩ := List.exists_cons_of_length_pos hone
    rw [hcs] at hfirst ⊢
    exact hfirst c rfl
  · rintro ⟨hfirst, hle, hchars⟩
    obtain ⟨c, hc, hstart⟩ := (Option.any_eq_true _ _).1 hfirst
    refine ⟨?_, hle, fun d hd => ?_, hchars⟩
    · rw [← String.length_toList]
      exact List.length_pos_of_mem (List.mem_of_head? hc)
    · rw [hc] at hd
      cases hd
      exact hstart

theorem plain_append : Plain (a ++ b) ↔ Plain a ∧ Plain b := by
  unfold Plain
  rw [String.toList_append, List.forall_mem_append]

theorem starts_append (hne : a ≠ "") : starts (a ++ b) = starts a := by
  unfold starts
  rw [String.toList_append]
  cases hcs : a.toList with
  | nil => exact absurd (String.toList_eq_nil_iff.1 hcs) hne
  | cons c cs => rfl

/-- A name in two parts, the second of which is harmless. -/
theorem legal_append (hne : a ≠ "") (hb : Plain b) :
    Legal (a ++ b) ↔ starts a = true ∧ a.length + b.length ≤ 128 ∧ Plain a := by
  rw [legal_iff, starts_append hne, String.length_append, plain_append, and_iff_left hb]

theorem isTagChar_of_isAlphanum {c : Char} (h : c.isAlphanum = true) : isTagChar c = true := by
  rw [isTagChar, h]
  rfl

/-! ## Branches -/

theorem length_sanitize (b : String) : (sanitize b).length = min 128 b.length := by
  rw [sanitize, String.length_ofList, List.length_take, List.length_map, String.length_toList]

theorem plain_sanitize (b : String) : Plain (sanitize b) := by
  intro c hc
  rw [sanitize, String.toList_ofList] at hc
  obtain ⟨d, -, rfl⟩ := List.mem_map.1 (List.mem_of_mem_take hc)
  split
  · assumption
  · rfl

/-- What stands first in a name is kept, or becomes a hyphen that may not stand first. -/
theorem starts_sanitize (b : String) : starts (sanitize b) = starts b := by
  unfold starts sanitize
  rw [String.toList_ofList, List.head?_take, if_neg (by decide), List.head?_map]
  cases b.toList.head? with
  | none => rfl
  | some c =>
    simp only [Option.map_some, Option.any_some]
    split
    · rfl
    · rename_i hno
      rw [isTagChar, Bool.or_eq_true, Bool.or_eq_true, not_or, not_or] at hno
      rw [Bool.eq_false_iff.2 hno.1.1]
      decide

theorem sanitize_ne_empty (hne : b ≠ "") : sanitize b ≠ "" := by
  intro hempty
  have hlength := length_sanitize b
  rw [hempty] at hlength
  have hpos : b.length ≠ 0 := fun hzero => hne (String.length_eq_zero_iff.1 hzero)
  have hzero : "".length = 0 := rfl
  omega

/-- The name of a branch by itself is legal if the branch starts as a name has to. -/
theorem legal_sanitize : Legal (sanitize b) ↔ starts b = true := by
  rw [legal_iff, starts_sanitize, length_sanitize]
  exact ⟨fun h => h.1, fun h => ⟨h, Nat.min_le_left .., plain_sanitize b⟩⟩

/-- With a suffix, the branch has to be as much shorter. -/
theorem legal_sanitize_append {k : Nat} (hne : b ≠ "") (hn : Plain n) (hk : n.length = k + 1) (hk128 : k < 128) :
    Legal (sanitize b ++ n) ↔ starts b = true ∧ b.length ≤ 127 - k := by
  rw [legal_append (sanitize_ne_empty hne) hn, starts_sanitize, length_sanitize, and_iff_left (plain_sanitize b)]
  refine and_congr_right fun _ => ?_
  omega

/-! ## Numbers and versions -/

theorem plain_toString (k : Nat) : Plain (toString k) := by
  intro c hc
  have hdigit : c.isDigit = true := by
    rw [show toString k = k.repr from rfl, Nat.toList_repr] at hc
    exact Nat.isDigit_of_mem_toDigits (by decide) (by decide) hc
  exact isTagChar_of_isAlphanum (by rw [Char.isAlphanum, hdigit, Bool.or_true])

theorem toString_ne_empty (k : Nat) : toString k ≠ "" := by
  intro hempty
  have hdigits : Nat.toDigits 10 k = [] := by
    rw [← Nat.toList_repr, show k.repr = toString k from rfl, hempty]
    rfl
  exact Nat.toDigits_ne_nil hdigits

theorem starts_toString (k : Nat) : starts (toString k) = true := by
  unfold starts
  rw [show toString k = k.repr from rfl, Nat.toList_repr]
  obtain ⟨c, cs, hcs⟩ := List.exists_cons_of_ne_nil (Nat.toDigits_ne_nil (n := k) (b := 10))
  have hdigit : c.isDigit = true :=
    Nat.isDigit_of_mem_toDigits (by decide) (by decide) (hcs ▸ List.mem_cons_self ..)
  rw [hcs]
  simp [Char.isAlphanum, hdigit]

end ImageTag

namespace SemVer

/-- The characters of the prerelease part of a version. -/
theorem chars_pre {s : String} {v : SemVer} (h : parse s = .ok (some v)) {p : String} (hp : v.pre = some p) :
    ∀ c ∈ p.toList, isPartChar c = true := by
  obtain ⟨parts, hlegal, -, -, rfl⟩ := exists_parts_of_parse h
  exact (hlegal.pre p hp).2

end SemVer

namespace ImageTag

theorem isTagChar_of_isPartChar {c : Char} (h : SemVer.isPartChar c = true) : isTagChar c = true := by
  rw [SemVer.isPartChar, Bool.or_eq_true, Bool.or_eq_true] at h
  rcases h with (h | h) | h <;> simp [isTagChar, h]

/-- The two numbers of a minor line. -/
def line (v : SemVer) : String := toString v.major ++ "." ++ toString v.minor

theorem plain_line (v : SemVer) : Plain (line v) :=
  plain_append.2 ⟨plain_append.2 ⟨plain_toString _, by decide⟩, plain_toString _⟩

theorem version_eq (v : SemVer) : ∃ rest, v.version = line v ++ rest ∧
    ((∀ p, v.pre = some p → ∀ c ∈ p.toList, SemVer.isPartChar c = true) → Plain rest) := by
  have hpatch : Plain ("." ++ toString v.patch) := plain_append.2 ⟨by decide, plain_toString _⟩
  have hbase : s!"{v.major}.{v.minor}.{v.patch}" = line v ++ ("." ++ toString v.patch) := String.append_assoc ..
  unfold SemVer.version
  rw [hbase]
  cases v.pre with
  | none => exact ⟨_, rfl, fun _ => hpatch⟩
  | some p =>
    simp only
    split
    · exact ⟨_, rfl, fun _ => hpatch⟩
    · refine ⟨"." ++ toString v.patch ++ "-" ++ p, by simp only [String.append_assoc], fun hpre => ?_⟩
      exact plain_append.2 ⟨plain_append.2 ⟨hpatch, by decide⟩, fun c hc => isTagChar_of_isPartChar (hpre p rfl c hc)⟩

theorem line_ne_empty (v : SemVer) : line v ≠ "" := by
  intro hempty
  have hlength := congrArg String.length hempty
  rw [line, String.length_append, String.length_append] at hlength
  simp at hlength

theorem starts_line (v : SemVer) : starts (line v) = true := by
  rw [line, String.append_assoc, starts_append (toString_ne_empty _), starts_toString]

section

variable {v : SemVer} (hpre : ∀ p, v.pre = some p → ∀ c ∈ p.toList, SemVer.isPartChar c = true)

include hpre

theorem plain_version : Plain v.version := by
  obtain ⟨rest, hversion, hrest⟩ := version_eq v
  rw [hversion]
  exact plain_append.2 ⟨plain_line v, hrest hpre⟩

/-- The name of a version, with a suffix, is legal if it is not too long. -/
theorem legal_version_append (hn : Plain n) : Legal (v.version ++ n) ↔ v.version.length + n.length ≤ 128 := by
  obtain ⟨rest, hversion, -⟩ := version_eq v
  have hne : v.version ≠ "" := by
    intro hempty
    rw [hversion, String.append_eq_empty_iff] at hempty
    exact line_ne_empty v hempty.1
  have hstarts : starts v.version = true := by rw [hversion, starts_append (line_ne_empty v), starts_line]
  rw [legal_append hne hn, hstarts]
  exact ⟨fun h => h.2.1, fun h => ⟨rfl, h, plain_version hpre⟩⟩

theorem legal_versionNames : (∀ n ∈ versionNames v, Legal n) ↔ v.version.length ≤ 128 := by
  have hversion : Legal v.version ↔ v.version.length ≤ 128 := by
    have := legal_version_append hpre (n := "") (by decide)
    rwa [String.append_empty] at this
  rw [versionNames, List.forall_mem_cons, hversion]
  refine and_iff_left_of_imp fun hlength n hn => ?_
  split at hn
  · cases hn
  -- the names of the minor and the major line are beginnings of that of the version
  obtain ⟨rest, heq, -⟩ := version_eq v
  rw [heq, String.length_append] at hlength
  rw [List.mem_cons, List.mem_singleton] at hn
  rcases hn with rfl | rfl
  · have hline : Legal (line v) := legal_iff.2 ⟨starts_line v, by omega, plain_line v⟩
    exact hline
  · rw [line, String.length_append, String.length_append] at hlength
    exact legal_iff.2 ⟨starts_toString _, by omega, plain_toString _⟩

end

/-! ## Commits -/

/-- A commit: at least seven hexadecimal digits. -/
structure IsCommit (s : String) : Prop where
  length : 7 ≤ s.length
  digits : ∀ c ∈ s.toList, (c.isDigit || ('a' ≤ c && c ≤ 'f') || ('A' ≤ c && c ≤ 'F')) = true

theorem isAlphanum_of_hex {c : Char} (h : (c.isDigit || ('a' ≤ c && c ≤ 'f') || ('A' ≤ c && c ≤ 'F')) = true) :
    c.isAlphanum = true := by
  change (decide (c.val ≥ '0'.val) && decide (c.val ≤ '9'.val) || decide ('a' ≤ c) && decide (c ≤ 'f') ||
    decide ('A' ≤ c) && decide (c ≤ 'F')) = true at h
  change (decide (c.val ≥ 'A'.val ∧ c.val ≤ 'Z'.val) || decide (c.val ≥ 'a'.val) && decide (c.val ≤ 'z'.val) ||
    decide (c.val ≥ '0'.val) && decide (c.val ≤ '9'.val)) = true
  simp only [Bool.or_eq_true, Bool.and_eq_true, decide_eq_true_eq, Char.le_def, UInt32.le_iff_toNat_le, ge_iff_le] at h ⊢
  change ((48 ≤ c.toNat ∧ c.toNat ≤ 57) ∨ (97 ≤ c.toNat ∧ c.toNat ≤ 102)) ∨ (65 ≤ c.toNat ∧ c.toNat ≤ 70) at h
  change ((65 ≤ c.toNat ∧ c.toNat ≤ 90) ∨ (97 ≤ c.toNat ∧ c.toNat ≤ 122)) ∨ (48 ≤ c.toNat ∧ c.toNat ≤ 57)
  omega

theorem of_shortSha_eq_some {t : Trigger} {n : String} (h : t.shortSha = some n) :
    ∃ s, t.sha = some s ∧ s ≠ "" ∧ n = Text.take 7 s := by
  unfold Trigger.shortSha at h
  cases hs : t.sha with
  | none =>
    rw [hs] at h
    cases h
  | some s =>
    rw [hs] at h
    simp only at h
    split at h
    · cases h
    · rename_i hne
      cases h
      exact ⟨s, rfl, hne, rfl⟩

/-- What is cut off a commit has seven characters, all of which may stand in a tag. -/
theorem shortSha_spec {t : Trigger} (hsha : ∀ s, t.sha = some s → IsCommit s) {n : String}
    (h : t.shortSha = some n) : n.length = 7 ∧ Plain n := by
  obtain ⟨s, hs, -, rfl⟩ := of_shortSha_eq_some h
  obtain ⟨hlength, hdigits⟩ := hsha s hs
  refine ⟨?_, fun c hc => ?_⟩
  · rw [Text.take, String.length_ofList, List.length_take, String.length_toList]
    omega
  · rw [Text.take, String.toList_ofList] at hc
    exact isTagChar_of_isAlphanum (isAlphanum_of_hex (hdigits c (List.mem_of_mem_take hc)))

/-- A name that ends with what is cut off a commit. -/
theorem legal_commit {s p : String} (hs : s.length = 7 ∧ Plain s) (hstarts : starts p = true) (hle : p.length ≤ 121)
    (hp : Plain p) : Legal (p ++ s) := by
  have hne : p ≠ "" := by
    rintro rfl
    exact absurd hstarts (by decide)
  refine (legal_append hne hs.2).2 ⟨hstarts, ?_, hp⟩
  rw [hs.1]
  omega

theorem shortSha_eq_none {t : Trigger} (hsha : ∀ s, t.sha = some s → IsCommit s) : t.shortSha = none ↔ t.sha = none := by
  unfold Trigger.shortSha
  cases hs : t.sha with
  | none => exact iff_of_true rfl rfl
  | some s =>
    have hne : s ≠ "" := by
      rintro rfl
      exact absurd (hsha _ hs).length (by decide)
    simp only [if_neg hne]
    exact iff_of_false nofun nofun

theorem namedBranch_ne_empty {t : Trigger} {b : String} (h : namedBranch t = some b) : b ≠ "" :=
  of_decide_eq_true (Option.filter_eq_some_iff.1 h).2

theorem namedBranch_of_primary {t : Trigger} (hdefault : t.defaultBranch ≠ "") (hprimary : t.isPrimaryBranch = true) :
    t.branch = some t.defaultBranch ∧ namedBranch t = some t.defaultBranch := by
  have hbranch : t.branch = some t.defaultBranch := by
    rw [Trigger.branch, of_decide_eq_true hprimary]
    exact Text.after?_eq_some.2 rfl
  rw [namedBranch, hbranch]
  exact ⟨rfl, Option.filter_eq_some_iff.2 ⟨rfl, decide_eq_true hdefault⟩⟩

/-! ## All names -/

/-- What holds of all names of the development image. -/
theorem forall_developmentNames {P : String → Prop} {t : Trigger} (hshort : ∀ s, t.shortSha = some s → P ("sha-" ++ s))
    (pull : Option Nat) (v : Option SemVer) :
    (∀ n ∈ developmentNames t pull v, P n) ↔
      (∀ b, namedBranch t = some b → P (sanitize b)) ∧ (∀ k, pull = some k → P s!"pr-{k}") ∧
      (∀ w, v = some w → ∀ n ∈ versionNames w, P n) ∧
      (∀ s, t.shortSha = some s → ∀ n ∈ commitNames t s, P n) ∧ (t.isPrimaryBranch = true → P "latest") := by
  have hnames : (∀ n ∈ ((namedBranch t).map sanitize).toList ++ (pull.map fun k => s!"pr-{k}").toList ++
      (v.map versionNames).getD [] ++ (t.shortSha.map (commitNames t)).getD [] ++
      (if t.isPrimaryBranch then ["latest"] else []), P n) ↔
      (∀ b, namedBranch t = some b → P (sanitize b)) ∧ (∀ k, pull = some k → P s!"pr-{k}") ∧
      (∀ w, v = some w → ∀ n ∈ versionNames w, P n) ∧
      (∀ s, t.shortSha = some s → ∀ n ∈ commitNames t s, P n) ∧ (t.isPrimaryBranch = true → P "latest") := by
    rw [List.forall_mem_append, List.forall_mem_append, List.forall_mem_append, List.forall_mem_append, and_assoc,
      and_assoc, and_assoc]
    refine and_congr ?_ (and_congr ?_ (and_congr ?_ (and_congr ?_ ?_)))
    · cases namedBranch t <;> simp
    · cases pull <;> simp
    · cases v <;> simp
    · cases t.shortSha <;> simp
    · cases t.isPrimaryBranch <;> simp
  rw [← hnames]
  unfold developmentNames
  simp only
  split
  · rename_i hnil hsha
    rw [hnil, List.forall_mem_singleton]
    exact iff_of_true (hshort _ hsha) nofun
  · exact Iff.rfl

/-- The names that a development image is to have, it has; the name by the commit alone is for when there are none. -/
theorem mem_developmentNames {n : String} {t : Trigger} {pull : Option Nat} {v : Option SemVer}
    (h : n ∈ ((namedBranch t).map sanitize).toList ++ (pull.map fun k => s!"pr-{k}").toList ++
      (v.map versionNames).getD [] ++ (t.shortSha.map (commitNames t)).getD [] ++
      (if t.isPrimaryBranch then ["latest"] else [])) : n ∈ developmentNames t pull v := by
  unfold developmentNames
  simp only
  split
  · rename_i hnil _
    rw [hnil] at h
    cases h
  · exact h

theorem forall_productionNames {P : String → Prop} {t : Trigger} (v : Option SemVer) :
    (∀ n ∈ productionNames t v, P n) ↔
      (∀ b, namedBranch t = some b → P (sanitize b ++ "-prod")) ∧ (∀ w, v = some w → P (w.version ++ "-prod")) ∧
      (t.isPrimaryBranch = true → P "prod") := by
  unfold productionNames
  rw [List.forall_mem_append, List.forall_mem_append, and_assoc]
  refine and_congr ?_ (and_congr ?_ ?_)
  · cases namedBranch t <;> simp
  · cases v <;> simp
  · cases t.isPrimaryBranch <;> simp

/-! ## The tags of a run -/

/-- An entry of a list of tags: the image under a legal name. -/
def IsLegalEntry (image e : String) : Prop := ∃ n, e = image ++ ":" ++ n ∧ Legal n

/-- An entry whose name is not empty and has only characters of tags. -/
def IsPlainEntry (image e : String) : Prop := ∃ n, e = image ++ ":" ++ n ∧ n ≠ "" ∧ Plain n

theorem forall_under {P : String → Prop} {image : String} {names : List String} :
    (∀ e ∈ under image names, ∃ n, e = image ++ ":" ++ n ∧ P n) ↔ ∀ n ∈ names, P n := by
  constructor
  · intro h n hn
    obtain ⟨m, heq, hm⟩ := h _ (List.mem_map.2 ⟨n, mem_distinct.2 hn, rfl⟩)
    rwa [(String.append_right_inj _).1 heq]
  · intro h e he
    obtain ⟨n, hn, rfl⟩ := List.mem_map.1 he
    exact ⟨n, rfl, h n (mem_distinct.1 hn)⟩

/-- Where the names of the development image are legal. -/
structure DevelopmentFits (t : Trigger) : Prop where
  branch : ∀ b, namedBranch t = some b → starts b = true
  commit : ∀ b, namedBranch t = some b → t.isPrimaryBranch = true → t.sha ≠ none → b.length ≤ 120
  pull : ∀ k, t.pullRequest = .ok (some k) → (toString k).length ≤ 125
  version : ∀ v, version t = .ok (some v) → v.version.length ≤ 128

/-- Where the names of the production image are legal. -/
structure ProductionFits (t : Trigger) : Prop where
  branch : ∀ b, namedBranch t = some b → starts b = true ∧ b.length ≤ 123
  version : ∀ v, version t = .ok (some v) → v.version.length ≤ 123

section

variable {t : Trigger} {image : String} {tags : List String}

theorem chars_version {v : SemVer} (h : version t = .ok (some v)) :
    ∀ p, v.pre = some p → ∀ c ∈ p.toList, SemVer.isPartChar c = true := by
  unfold version at h
  split at h
  · cases h
  · exact fun p hp => SemVer.chars_pre h hp

theorem production_eq_ok (h : production t image = .ok tags) :
    ∃ v, version t = .ok v ∧ tags = under image (productionNames t v) := by
  unfold production at h
  cases hv : version t with
  | error e => rw [hv] at h; cases h
  | ok v => rw [hv] at h; cases h; exact ⟨v, rfl, rfl⟩

theorem development_eq_ok (h : development t image = .ok tags) :
    ∃ pull v, t.pullRequest = .ok pull ∧ version t = .ok v ∧ tags = under image (developmentNames t pull v) := by
  unfold development at h
  cases hpull : t.pullRequest with
  | error e => rw [hpull] at h; cases h
  | ok pull =>
    cases hv : version t with
    | error e => rw [hpull, hv] at h; cases h
    | ok v => rw [hpull, hv] at h; cases h; exact ⟨pull, v, rfl, rfl, rfl⟩

theorem production_legal_iff (h : production t image = .ok tags) :
    (∀ e ∈ tags, IsLegalEntry image e) ↔ ProductionFits t := by
  obtain ⟨v, hv, rfl⟩ := production_eq_ok h
  have hbranch : ∀ b, namedBranch t = some b →
      (Legal (sanitize b ++ "-prod") ↔ starts b = true ∧ b.length ≤ 123) := fun b hb =>
    legal_sanitize_append (k := 4) (namedBranch_ne_empty hb) (by decide) rfl (by decide)
  have hversion : ∀ w, v = some w → (Legal (w.version ++ "-prod") ↔ w.version.length ≤ 123) := by
    rintro w rfl
    rw [legal_version_append (chars_version hv) (by decide)]
    have hprod : "-prod".length = 5 := rfl
    omega
  unfold IsLegalEntry
  rw [forall_under, forall_productionNames]
  constructor
  · rintro ⟨hb, hw, -⟩
    refine ⟨fun b hsome => (hbranch b hsome).1 (hb b hsome), fun w hsome => ?_⟩
    rw [hv] at hsome
    cases hsome
    exact (hversion w rfl).1 (hw w rfl)
  · rintro ⟨hb, hw⟩
    refine ⟨fun b hsome => (hbranch b hsome).2 (hb b hsome), fun w hsome => ?_, fun _ => ?_⟩
    · exact (hversion w hsome).2 (hw w (by rw [hv, hsome]))
    · exact legal_iff.2 ⟨by decide, by decide, by decide⟩

theorem legal_pull (k : Nat) : Legal s!"pr-{k}" ↔ (toString k).length ≤ 125 := by
  have hname : Legal ("pr-" ++ toString k) ↔ _ := legal_append (by decide) (plain_toString k)
  have hprefix : "pr-".length = 3 := rfl
  have hiff : Legal ("pr-" ++ toString k) ↔ (toString k).length ≤ 125 := by
    rw [hname, hprefix]
    exact ⟨fun h => by omega, fun h => ⟨by decide, by omega, by decide⟩⟩
  exact hiff

theorem legal_commitNames (hdefault : t.defaultBranch ≠ "") {s : String} (hs : s.length = 7 ∧ Plain s) :
    (∀ n ∈ commitNames t s, Legal n) ↔
      (t.isPrimaryBranch = true → starts t.defaultBranch = true ∧ t.defaultBranch.length ≤ 120) := by
  have hsuffix : Plain ("-" ++ s) := plain_append.2 ⟨by decide, hs.2⟩
  have hlength : ("-" ++ s).length = 7 + 1 := by
    rw [String.length_append, hs.1]
    rfl
  unfold commitNames
  rw [List.forall_mem_append]
  refine (and_iff_left ?_).trans ?_
  · split
    · rw [List.forall_mem_singleton]
      exact legal_commit hs (by decide) (by decide) (by decide)
    · exact nofun
  · cases hprimary : t.isPrimaryBranch with
    | false => exact iff_of_true nofun nofun
    | true =>
      rw [if_pos rfl, List.forall_mem_singleton, (namedBranch_of_primary hdefault hprimary).1, Option.getD_some,
        String.append_assoc, legal_sanitize_append hdefault hsuffix hlength (by decide)]
      exact ⟨fun h _ => h, fun h => h rfl⟩

theorem development_legal_iff (hdefault : t.defaultBranch ≠ "") (hsha : ∀ s, t.sha = some s → IsCommit s)
    (h : development t image = .ok tags) : (∀ e ∈ tags, IsLegalEntry image e) ↔ DevelopmentFits t := by
  obtain ⟨pull, v, hpull, hv, rfl⟩ := development_eq_ok h
  have hshort : ∀ s, t.shortSha = some s → s.length = 7 ∧ Plain s := fun s hs => shortSha_spec hsha hs
  unfold IsLegalEntry
  rw [forall_under, forall_developmentNames fun s hs => legal_commit (hshort s hs) (by decide) (by decide) (by decide)]
  constructor
  · rintro ⟨hbranch, hk, hw, hcommit, -⟩
    refine ⟨fun b hb => legal_sanitize.1 (hbranch b hb), fun b hb hprimary hne => ?_, fun k hsome => ?_, fun w hsome => ?_⟩
    · rw [(namedBranch_of_primary hdefault hprimary).2, Option.some_inj] at hb
      obtain ⟨s, hs⟩ := Option.ne_none_iff_exists'.1 fun hnone => hne ((shortSha_eq_none hsha).1 hnone)
      rw [← hb]
      exact ((legal_commitNames hdefault (hshort s hs)).1 (hcommit s hs) hprimary).2
    · rw [hpull] at hsome
      cases hsome
      exact (legal_pull k).1 (hk k rfl)
    · rw [hv] at hsome
      cases hsome
      exact (legal_versionNames (chars_version hv)).1 (hw w rfl)
  · rintro ⟨hbranch, hcommit, hk, hw⟩
    refine ⟨fun b hb => legal_sanitize.2 (hbranch b hb), ?_, ?_, fun s hs => ?_, fun _ => ?_⟩
    · rintro k rfl
      exact (legal_pull k).2 (hk k hpull)
    · rintro w rfl
      exact (legal_versionNames (chars_version hv)).2 (hw w hv)
    · refine (legal_commitNames hdefault (hshort s hs)).2 fun hprimary => ?_
      have hb := (namedBranch_of_primary hdefault hprimary).2
      have hne : t.sha ≠ none := by
        rw [ne_eq, ← shortSha_eq_none hsha, hs]
        exact nofun
      exact ⟨hbranch _ hb, hcommit _ hb hprimary hne⟩
    · exact legal_iff.2 ⟨by decide, by decide, by decide⟩

theorem append_ne_empty (ha : a ≠ "") : a ++ b ≠ "" := fun h => ha (String.append_eq_empty_iff.1 h).1

theorem version_ne_empty (v : SemVer) : v.version ≠ "" := by
  obtain ⟨rest, hversion, -⟩ := version_eq v
  rw [hversion]
  exact append_ne_empty (line_ne_empty v)

theorem production_plain (h : production t image = .ok tags) : ∀ e ∈ tags, IsPlainEntry image e := by
  obtain ⟨v, hv, rfl⟩ := production_eq_ok h
  unfold IsPlainEntry
  rw [forall_under, forall_productionNames]
  refine ⟨fun b hb => ?_, ?_, fun _ => ⟨by decide, by decide⟩⟩
  · exact ⟨append_ne_empty (sanitize_ne_empty (namedBranch_ne_empty hb)), plain_append.2 ⟨plain_sanitize b, by decide⟩⟩
  · rintro w rfl
    exact ⟨append_ne_empty (version_ne_empty w), plain_append.2 ⟨plain_version (chars_version hv), by decide⟩⟩

theorem plain_versionNames {v : SemVer} (hpre : ∀ p, v.pre = some p → ∀ c ∈ p.toList, SemVer.isPartChar c = true) :
    ∀ n ∈ versionNames v, n ≠ "" ∧ Plain n := by
  rw [versionNames, List.forall_mem_cons]
  refine ⟨⟨version_ne_empty v, plain_version hpre⟩, fun n hn => ?_⟩
  split at hn
  · cases hn
  rw [List.mem_cons, List.mem_singleton] at hn
  rcases hn with rfl | rfl
  · exact ⟨line_ne_empty v, plain_line v⟩
  · exact ⟨toString_ne_empty _, plain_toString _⟩

theorem development_plain (hsha : ∀ s, t.sha = some s → IsCommit s) (h : development t image = .ok tags) :
    ∀ e ∈ tags, IsPlainEntry image e := by
  obtain ⟨pull, v, -, hv, rfl⟩ := development_eq_ok h
  have hshort : ∀ s, t.shortSha = some s → Plain s := fun s hs => (shortSha_spec hsha hs).2
  unfold IsPlainEntry
  rw [forall_under, forall_developmentNames fun s hs =>
    ⟨append_ne_empty (by decide), plain_append.2 ⟨by decide, hshort s hs⟩⟩]
  refine ⟨fun b hb => ?_, fun k _ => ?_, ?_, fun s hs => ?_, fun _ => ⟨by decide, by decide⟩⟩
  · exact ⟨sanitize_ne_empty (namedBranch_ne_empty hb), plain_sanitize b⟩
  · exact ⟨append_ne_empty (b := toString k) (by decide), plain_append.2 ⟨by decide, plain_toString k⟩⟩
  · rintro w rfl
    exact plain_versionNames (chars_version hv)
  · unfold commitNames
    rw [List.forall_mem_append]
    constructor
    · split
      · rw [List.forall_mem_singleton]
        refine ⟨fun hempty => ?_, plain_append.2 ⟨plain_append.2 ⟨plain_sanitize _, by decide⟩, hshort s hs⟩⟩
        rw [String.append_eq_empty_iff, String.append_eq_empty_iff] at hempty
        exact absurd hempty.1.2 (by decide)
      · exact nofun
    · split
      · rw [List.forall_mem_singleton]
        exact ⟨append_ne_empty (by decide), plain_append.2 ⟨by decide, hshort s hs⟩⟩
      · exact nofun

end

/-- The names of both images have only characters of tags, whatever the trigger. They are legal
exactly if the branch starts as a name has to, and nothing is too long with its suffix. -/
theorem legal_iff_fits (t : Trigger) (image : String) (hdefault : t.defaultBranch ≠ "")
    (hsha : ∀ s, t.sha = some s → IsCommit s) :
    (∀ tags, development t image = .ok tags →
      (∀ e ∈ tags, IsPlainEntry image e) ∧ ((∀ e ∈ tags, IsLegalEntry image e) ↔ DevelopmentFits t)) ∧
    ∀ tags, production t image = .ok tags →
      (∀ e ∈ tags, IsPlainEntry image e) ∧ ((∀ e ∈ tags, IsLegalEntry image e) ↔ ProductionFits t) :=
  ⟨fun _ h => ⟨development_plain hsha h, development_legal_iff hdefault hsha h⟩,
    fun _ h => ⟨production_plain h, production_legal_iff h⟩⟩

end ImageTag

namespace Sample

theorem main_trimmed : Text.strip "refs/heads/main" = "refs/heads/main" := by decide +kernel

theorem main_ne_empty : "refs/heads/main" ≠ "" := by decide

/-- A push to the default branch. -/
def push : Trigger :=
  ⟨"refs/heads/main", "push", some "0123456789abcdef0123456789abcdef01234567", "main", false, main_trimmed, main_ne_empty⟩

/-- A push to a branch that starts with the number of an issue. -/
def issue : Trigger := ⟨"refs/heads/#42-fix", "push", none, "main", false, by rfl, by decide⟩

end Sample

namespace ImageTag

/-- The names of a push to the default branch are legal. -/
theorem legal_iff_fits_sample : (∀ e ∈ ["img:main", "img:main-0123456", "img:latest"], IsLegalEntry "img" e) ∧
    ∀ e ∈ ["img:main-prod", "img:prod"], IsLegalEntry "img" e := by
  have hbranch : namedBranch Sample.push = some "main" := by decide +kernel
  have hpull : Sample.push.pullRequest = .ok none := by decide +kernel
  have hversion : version Sample.push = .ok none := by decide +kernel
  have hdevelopment : development Sample.push "img" = .ok ["img:main", "img:main-0123456", "img:latest"] := by
    have hnames : under "img" (developmentNames Sample.push none none) =
        ["img:main", "img:main-0123456", "img:latest"] := by decide
    rw [development, hpull, hversion]
    exact congrArg Except.ok hnames
  have hproduction : production Sample.push "img" = .ok ["img:main-prod", "img:prod"] := by
    have hnames : under "img" (productionNames Sample.push none) = ["img:main-prod", "img:prod"] := by decide
    rw [production, hversion]
    exact congrArg Except.ok hnames
  have hsha : ∀ s, Sample.push.sha = some s → IsCommit s := by
    intro s hs
    cases hs
    exact ⟨by decide, List.all_eq_true.1 (by decide)⟩
  obtain ⟨hdev, hprod⟩ := legal_iff_fits Sample.push "img" (by decide) hsha
  refine ⟨(hdev _ hdevelopment).2.2 ⟨fun b hb => ?_, fun b hb _ _ => ?_, ?_, ?_⟩,
    (hprod _ hproduction).2.2 ⟨fun b hb => ?_, ?_⟩⟩
  · rw [hbranch] at hb; cases hb; decide
  · rw [hbranch] at hb; cases hb; decide
  · rw [hpull]; rintro n ⟨⟩
  · rw [hversion]; rintro v ⟨⟩
  · rw [hbranch] at hb; cases hb; decide
  · rw [hversion]; rintro v ⟨⟩

/-- The hyphen for a character that no tag may hold stands first. -/
theorem branch_not_legal : Sample.issue.defaultBranch ≠ "" ∧ Sample.issue.sha = none ∧
    production Sample.issue "img" = .ok ["img:-42-fix-prod"] ∧ ¬ IsLegalEntry "img" "img:-42-fix-prod" := by
  have hproduction : production Sample.issue "img" = .ok ["img:-42-fix-prod"] := by
    have hversion : version Sample.issue = .ok none := by decide +kernel
    have hnames : under "img" (productionNames Sample.issue none) = ["img:-42-fix-prod"] := by decide
    rw [production, hversion]
    exact congrArg Except.ok hnames
  refine ⟨by decide, rfl, hproduction, ?_⟩
  rintro ⟨n, heq, hlegal⟩
  have hentry : "img:-42-fix-prod" = "img" ++ ":" ++ "-42-fix-prod" := by decide
  rw [hentry, String.append_right_inj] at heq
  subst heq
  exact absurd (legal_iff.1 hlegal).1 (by decide)

end ImageTag

end CiPipeline
