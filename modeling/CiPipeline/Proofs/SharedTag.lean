import CiPipeline.Proofs.ImageTag
import Mathlib.Data.List.Lattice

/-
Which tags the development image and the production image share. Only the names that a run takes over
from its ref, the branch and the version, can be names of a production image too. All others end with a
number or a commit, or are `latest`, and no production name does or is.
-/

namespace CiPipeline

namespace ImageTag

/-! ## How the names of production end -/

/-- Whether a name looks like one of a production image. -/
def looksProduction (n : String) : Bool := n == "prod" || Text.endsWith n "-prod"

variable {n s p : String}

theorem endsWith_iff : Text.endsWith n p = true ↔ p.toList <:+ n.toList := by
  unfold Text.endsWith
  exact List.isSuffixOf_iff_suffix

/-- A name of production has `od` at its end, which is seen from behind. -/
theorem reverse_of_looksProduction (h : looksProduction n = true) :
    ∃ cs, n.toList.reverse = 'd' :: 'o' :: cs := by
  unfold looksProduction at h
  rw [Bool.or_eq_true, beq_iff_eq, endsWith_iff] at h
  rcases h with rfl | ⟨cs, hcs⟩
  · exact ⟨['r', 'p'], rfl⟩
  · refine ⟨'r' :: 'p' :: '-' :: cs.reverse, ?_⟩
    rw [← hcs, List.reverse_append]
    rfl

theorem looksProduction_append_prod (n : String) : looksProduction (n ++ "-prod") = true := by
  unfold looksProduction
  rw [Bool.or_eq_true, endsWith_iff, String.toList_append]
  exact Or.inr (List.suffix_append ..)

/-- A name that ends with a number is none of production. -/
theorem looksProduction_append_number (p : String) (k : Nat) : looksProduction (p ++ toString k) = false := by
  apply Bool.eq_false_iff.2
  intro h
  obtain ⟨cs, hcs⟩ := reverse_of_looksProduction h
  rw [String.toList_append, List.reverse_append, show toString k = k.repr from rfl, Nat.toList_repr] at hcs
  -- the last character is a digit, and `d` is none
  cases hdigits : (Nat.toDigits 10 k).reverse with
  | nil => exact Nat.toDigits_ne_nil (List.reverse_eq_nil_iff.1 hdigits)
  | cons c ds =>
    have hmem : c ∈ Nat.toDigits 10 k := List.mem_reverse.1 (hdigits ▸ List.mem_cons_self ..)
    have hdigit : c.isDigit = true := Nat.isDigit_of_mem_toDigits (by decide) (by decide) hmem
    rw [hdigits, List.cons_append, List.cons.injEq] at hcs
    rw [hcs.1] at hdigit
    exact absurd hdigit (by decide)

/-! ## Commits -/

/-- Whether a character is a hexadecimal digit. -/
def isHexDigit (c : Char) : Bool := c.isDigit || ('a' ≤ c && c ≤ 'f') || ('A' ≤ c && c ≤ 'F')

/-- All characters of a text are hexadecimal digits. -/
def IsHex (s : String) : Prop := ∀ c ∈ s.toList, isHexDigit c = true

instance (s : String) : Decidable (IsHex s) := decidable_of_iff (s.toList.all isHexDigit = true) List.all_eq_true

/-- What is cut off a commit is not empty, and hexadecimal as the commit is. -/
theorem shortSha_hex {t : Trigger} (hsha : ∀ s, t.sha = some s → IsHex s) (h : t.shortSha = some n) :
    n ≠ "" ∧ IsHex n := by
  obtain ⟨s, hs, hne, rfl⟩ := of_shortSha_eq_some h
  unfold Text.take
  constructor
  · intro hempty
    rw [← String.toList_eq_nil_iff, String.toList_ofList, List.take_eq_nil_iff, String.toList_eq_nil_iff] at hempty
    exact hempty.elim (by decide) hne
  · intro c hc
    rw [String.toList_ofList] at hc
    exact hsha s hs c (List.mem_of_mem_take hc)

/-- A name that ends with a hyphen and a commit is none of production: where the `o` of `prod` would
stand is a hexadecimal digit, or the hyphen. -/
theorem looksProduction_append_commit (p : String) (hne : s ≠ "") (hs : IsHex s) :
    looksProduction (p ++ "-" ++ s) = false := by
  apply Bool.eq_false_iff.2
  intro h
  obtain ⟨cs, hcs⟩ := reverse_of_looksProduction h
  rw [String.toList_append, String.toList_append, List.reverse_append, List.reverse_append] at hcs
  have hhex : ∀ c ∈ s.toList.reverse, isHexDigit c = true := fun c hc => hs c (List.mem_reverse.1 hc)
  match hrev : s.toList.reverse with
  | [] => exact hne (String.toList_eq_nil_iff.1 (List.reverse_eq_nil_iff.1 hrev))
  | [c] =>
    rw [hrev] at hcs
    exact absurd (List.cons.inj (List.cons.inj hcs).2).1 (by decide)
  | c :: d :: ds =>
    rw [hrev] at hcs hhex
    have hd : d = 'o' := (List.cons.inj (List.cons.inj hcs).2).1
    have hdhex := hhex d (by simp)
    rw [hd] at hdhex
    exact absurd hdhex (by decide)

/-! ## The names of a run -/

/-- The names of a development image that say no more than the ref: the branch, or the version. -/
def IsOwnName (t : Trigger) (n : String) : Prop :=
  (∃ b, namedBranch t = some b ∧ n = sanitize b) ∨ ∃ v, version t = .ok (some v) ∧ n = v.version

/-- The names of a production image. -/
def IsProductionName (t : Trigger) (n : String) : Prop :=
  (∃ b, namedBranch t = some b ∧ n = sanitize b ++ "-prod") ∨
    (∃ v, version t = .ok (some v) ∧ n = v.version ++ "-prod") ∨ (t.isPrimaryBranch = true ∧ n = "prod")

theorem mem_productionNames {t : Trigger} {v : Option SemVer} (hv : version t = .ok v) :
    n ∈ productionNames t v ↔ IsProductionName t n := by
  unfold productionNames IsProductionName
  rw [List.mem_append, List.mem_append, or_assoc, hv]
  refine or_congr ?_ (or_congr ?_ ?_)
  · cases namedBranch t with
    | none => simp
    | some b => simp
  · cases v with
    | none => simp
    | some w => simp
  · cases t.isPrimaryBranch with
    | false => simp
    | true => simp

theorem IsProductionName.looks {t : Trigger} (h : IsProductionName t n) : looksProduction n = true := by
  rcases h with ⟨b, -, rfl⟩ | ⟨v, -, rfl⟩ | ⟨-, rfl⟩
  · exact looksProduction_append_prod _
  · exact looksProduction_append_prod _
  · rfl

/-- A name that a development image takes over from the ref is one of its names. -/
theorem IsOwnName.mem {t : Trigger} {v : Option SemVer} (hv : version t = .ok v) (pull : Option Nat)
    (h : IsOwnName t n) : n ∈ developmentNames t pull v := by
  apply mem_developmentNames
  rcases h with ⟨b, hb, rfl⟩ | ⟨w, hw, rfl⟩
  · simp [hb]
  · rw [hv] at hw
    cases hw
    simp [versionNames]

section

variable {t : Trigger} (hsha : ∀ s, t.sha = some s → IsHex s)

include hsha

/-- The names with a commit are none of production. -/
theorem commitNames_not_production (hs : t.shortSha = some s) : ∀ m ∈ commitNames t s, looksProduction m = false := by
  obtain ⟨hne, hhex⟩ := shortSha_hex hsha hs
  unfold commitNames
  rw [List.forall_mem_append]
  constructor
  · split
    · rw [List.forall_mem_singleton]
      exact looksProduction_append_commit _ hne hhex
    · exact nofun
  · split
    · rw [List.forall_mem_singleton]
      exact looksProduction_append_commit "commit" hne hhex
    · exact nofun

/-- Of the names of a development image only those taken over from the ref may look like production. -/
theorem isOwnName_of_looksProduction {pull : Option Nat} {v : Option SemVer} (hv : version t = .ok v) :
    ∀ m ∈ developmentNames t pull v, looksProduction m = true → IsOwnName t m := by
  have hnever : ∀ {m : String}, looksProduction m = false → looksProduction m = true → IsOwnName t m := by
    intro m hno hlooks
    rw [hno] at hlooks
    cases hlooks
  rw [forall_developmentNames fun s hs =>
    have hshort := shortSha_hex hsha hs
    hnever (looksProduction_append_commit "sha" hshort.1 hshort.2)]
  refine ⟨fun b hb _ => Or.inl ⟨b, hb, rfl⟩, fun k _ => hnever (looksProduction_append_number "pr-" k), ?_,
    fun s hs m hm => hnever (commitNames_not_production hsha hs m hm), fun _ => hnever (by decide)⟩
  rintro w rfl m hm
  rw [versionNames, List.mem_cons] at hm
  rcases hm with rfl | hm
  · exact fun _ => Or.inr ⟨w, hv, rfl⟩
  · split at hm
    · cases hm
    · rw [List.mem_cons, List.mem_singleton] at hm
      rcases hm with rfl | rfl
      · exact hnever (looksProduction_append_number (toString w.major ++ ".") w.minor)
      · exact hnever (looksProduction_append_number "" w.major)

end

/-- A development image and a production image share exactly the tags under names that the development
image takes over from its ref and that are names of the production image. So they share none if
neither the branch nor the version of the development image is `prod` or ends with `-prod`. -/
theorem shared_iff (t u : Trigger) (image : String) (hsha : ∀ s, t.sha = some s → IsHex s) {dev prod : List String}
    (hdev : development t image = .ok dev) (hprod : production u image = .ok prod) :
    (∀ e, e ∈ dev ∧ e ∈ prod ↔ ∃ n, e = image ++ ":" ++ n ∧ IsOwnName t n ∧ IsProductionName u n) ∧
    ((∀ n, IsOwnName t n → looksProduction n = false) → dev.Disjoint prod) := by
  obtain ⟨pull, v, -, hv, rfl⟩ := development_eq_ok hdev
  obtain ⟨w, hw, rfl⟩ := production_eq_ok hprod
  have hshared : ∀ e, e ∈ under image (developmentNames t pull v) ∧ e ∈ under image (productionNames u w) ↔
      ∃ n, e = image ++ ":" ++ n ∧ IsOwnName t n ∧ IsProductionName u n := by
    intro e
    constructor
    · rintro ⟨hd, hp⟩
      obtain ⟨n, hn, rfl⟩ := List.mem_map.1 hd
      obtain ⟨m, hm, heq⟩ := List.mem_map.1 hp
      rw [String.append_right_inj] at heq
      subst heq
      have hproduction := (mem_productionNames hw).1 (mem_distinct.1 hm)
      exact ⟨m, rfl, isOwnName_of_looksProduction hsha hv m (mem_distinct.1 hn) hproduction.looks, hproduction⟩
    · rintro ⟨n, rfl, hown, hproduction⟩
      exact ⟨List.mem_map.2 ⟨n, mem_distinct.2 (hown.mem hv pull), rfl⟩,
        List.mem_map.2 ⟨n, mem_distinct.2 ((mem_productionNames hw).2 hproduction), rfl⟩⟩
  refine ⟨hshared, fun hplain e hd hp => ?_⟩
  obtain ⟨n, -, hown, hproduction⟩ := (hshared e).1 ⟨hd, hp⟩
  have hlooks := hproduction.looks
  rw [hplain n hown] at hlooks
  cases hlooks

theorem development_ok {t : Trigger} {pull : Option Nat} {v : Option SemVer} (hpull : t.pullRequest = .ok pull)
    (hv : version t = .ok v) (image : String) :
    development t image = .ok (under image (developmentNames t pull v)) := by
  rw [development, hpull, hv]
  rfl

theorem production_ok {t : Trigger} {v : Option SemVer} (hv : version t = .ok v) (image : String) :
    production t image = .ok (under image (productionNames t v)) := by
  rw [production, hv]
  rfl

end ImageTag

namespace Sample

/-- A push to a branch whose name is that of a production image. -/
def reserved : Trigger := ⟨"refs/heads/main-prod", "push", none, "main", false, by rfl, by decide⟩

theorem version_push : ImageTag.version push = .ok none := by decide +kernel

theorem isHex_push : ∀ s, push.sha = some s → ImageTag.IsHex s := by
  intro s hs
  cases hs
  decide

theorem production_push : ImageTag.production push "img" = .ok ["img:main-prod", "img:prod"] := by
  rw [ImageTag.production_ok version_push]
  decide

end Sample

namespace ImageTag

/-- A push to the default branch: its two images share no tag. -/
theorem shared_iff_sample : (∀ s, Sample.push.sha = some s → IsHex s) ∧
    development Sample.push "img" = .ok ["img:main", "img:main-0123456", "img:latest"] ∧
    production Sample.push "img" = .ok ["img:main-prod", "img:prod"] ∧
    ["img:main", "img:main-0123456", "img:latest"].Disjoint ["img:main-prod", "img:prod"] := by
  have hdev : development Sample.push "img" = .ok ["img:main", "img:main-0123456", "img:latest"] := by
    rw [development_ok (by decide +kernel : Sample.push.pullRequest = .ok none) Sample.version_push]
    decide
  refine ⟨Sample.isHex_push, hdev, Sample.production_push, ?_⟩
  apply (shared_iff Sample.push Sample.push "img" Sample.isHex_push hdev Sample.production_push).2
  rintro n (⟨b, hb, rfl⟩ | ⟨v, hv, -⟩)
  · have hbranch : namedBranch Sample.push = some "main" := by decide +kernel
    rw [hbranch] at hb
    cases hb
    decide
  · rw [Sample.version_push] at hv
    cases hv

/-- The development image of a branch `main-prod` has a tag of the production image of `main`. -/
theorem tags_shared : Sample.reserved.defaultBranch = Sample.push.defaultBranch ∧
    Sample.reserved.defaultBranch ≠ "" ∧ Sample.reserved.sha = none ∧ (∀ s, Sample.push.sha = some s → IsHex s) ∧
    development Sample.reserved "img" = .ok ["img:main-prod"] ∧
    production Sample.push "img" = .ok ["img:main-prod", "img:prod"] ∧
    ¬ ["img:main-prod"].Disjoint ["img:main-prod", "img:prod"] := by
  have hdev : development Sample.reserved "img" = .ok ["img:main-prod"] := by
    have hversion : version Sample.reserved = .ok none := by decide +kernel
    rw [development_ok (by decide +kernel : Sample.reserved.pullRequest = .ok none) hversion]
    decide
  exact ⟨rfl, by decide, rfl, Sample.isHex_push, hdev, Sample.production_push,
    fun hdisjoint => hdisjoint (List.mem_singleton_self _) (List.mem_cons_self ..)⟩

end ImageTag

end CiPipeline
