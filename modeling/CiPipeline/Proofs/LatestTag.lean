import CiPipeline.Proofs.SharedTag

/-
When a development image has the tag `latest`: on the default branch, and on a branch that is itself
called so, since the name of a branch is taken over as it is (`latest_iff`). No other name can be
`latest`, whatever the ref and the commit: it has a hyphen or a dot in it, or is a number.
-/

namespace CiPipeline

namespace ImageTag

variable {b n : String} {t : Trigger}

/-! ## Names that are not `latest` -/

/-- A name with a character that is not in the word `latest`. -/
theorem ne_latest {c : Char} (hc : c ∈ n.toList) (hno : c ∉ "latest".toList) : n ≠ "latest" := by
  rintro rfl
  exact hno hc

theorem ne_latest_of_hyphen (p s : String) : p ++ "-" ++ s ≠ "latest" :=
  ne_latest (c := '-') (by simp) (by decide)

theorem toString_ne_latest (k : Nat) : toString k ≠ "latest" := by
  intro h
  have hl : 'l' ∈ k.repr.toList := by
    rw [show k.repr = toString k from rfl, h]
    decide
  rw [Nat.toList_repr] at hl
  exact absurd (Nat.isDigit_of_mem_toDigits (by decide) (by decide) hl) (by decide)

theorem versionNames_ne_latest (v : SemVer) : ∀ n ∈ versionNames v, n ≠ "latest" := by
  have hline : '.' ∈ (line v).toList := by simp [line]
  intro n hn
  rw [versionNames, List.mem_cons] at hn
  rcases hn with rfl | hn
  · obtain ⟨rest, hversion, -⟩ := version_eq v
    rw [hversion]
    exact ne_latest (c := '.') (by simp [hline]) (by decide)
  · split at hn
    · cases hn
    · rw [List.mem_cons, List.mem_singleton] at hn
      rcases hn with rfl | rfl
      · exact ne_latest hline (by decide)
      · exact toString_ne_latest v.major

theorem commitNames_ne_latest (t : Trigger) (s : String) : ∀ n ∈ commitNames t s, n ≠ "latest" := by
  unfold commitNames
  rw [List.forall_mem_append]
  constructor
  · split
    · rw [List.forall_mem_singleton]
      exact ne_latest_of_hyphen _ s
    · exact nofun
  · split
    · rw [List.forall_mem_singleton]
      exact ne_latest_of_hyphen "commit" s
    · exact nofun

/-- A branch whose name comes to `latest` is called so: the word has no hyphen for another character to
become, and is not long enough to be cut. -/
theorem eq_latest_of_sanitize (h : sanitize b = "latest") : b = "latest" := by
  have hlength : b.length = 6 := by
    have hmin := length_sanitize b
    rw [h] at hmin
    have hsix : "latest".length = 6 := by decide
    omega
  have hchars : (b.toList.map fun c => if isTagChar c then c else '-') = "latest".toList := by
    rw [← h, sanitize, String.toList_ofList, List.take_of_length_le]
    rw [List.length_map, String.length_toList, hlength]
    decide
  apply String.toList_inj.1
  rw [← hchars]
  symm
  refine (List.map_congr_left fun c hc => ?_).trans (List.map_id _)
  have hmem : (if isTagChar c then c else '-') ∈ "latest".toList := hchars ▸ List.mem_map_of_mem hc
  split at hmem
  · rw [if_pos ‹_›]
    rfl
  · exact absurd hmem (by decide)

/-! ## The tag -/

/-- The ref of a branch is that of no pull request and of no tag. -/
theorem development_of_branch (hb : t.branch = some b) (image : String) :
    version t = .ok none ∧ development t image = .ok (under image (developmentNames t none none)) := by
  have href : t.ref.toList = Trigger.branchRefs.toList ++ b.toList := by
    rw [Text.after?_eq_some.1 hb, String.toList_append]
  have hpull : t.pullRequest = .ok none := by
    rw [Trigger.pullRequest, Trigger.pullDigits?, Text.after?, href]
    rfl
  have hversion : version t = .ok none := by
    rw [version, namedTag, Trigger.tag, Text.after?, href]
    rfl
  exact ⟨hversion, development_ok hpull hversion image⟩

theorem branch_of_primary (hprimary : t.isPrimaryBranch = true) : t.branch = some t.defaultBranch := by
  rw [Trigger.branch, of_decide_eq_true hprimary]
  exact Text.after?_eq_some.2 rfl

/-- The development image has the tag `latest` exactly on the default branch and on a branch that is called
`latest` itself. -/
theorem latest_iff (t : Trigger) (image : String) :
    (∃ tags, development t image = .ok tags ∧ image ++ ":latest" ∈ tags) ↔
      t.isPrimaryBranch = true ∨ t.branch = some "latest" := by
  have hentry : image ++ ":latest" = image ++ ":" ++ "latest" := by
    rw [String.append_assoc]
    rfl
  constructor
  · rintro ⟨tags, htags, hmem⟩
    obtain ⟨pull, v, -, -, rfl⟩ := development_eq_ok htags
    obtain ⟨n, hn, heq⟩ := List.mem_map.1 hmem
    rw [hentry, String.append_right_inj] at heq
    -- of all names only those by the branch and of the default branch can be `latest`
    have hnames : ∀ n ∈ developmentNames t pull v,
        n = "latest" → t.isPrimaryBranch = true ∨ t.branch = some "latest" := by
      rw [forall_developmentNames fun s _ h => absurd h (ne_latest_of_hyphen "sha" s)]
      refine ⟨fun b hb h => Or.inr ?_, fun k _ h => absurd h (ne_latest_of_hyphen "pr" (toString k)),
        fun w _ n hn h => absurd h (versionNames_ne_latest w n hn),
        fun s _ n hn h => absurd h (commitNames_ne_latest t s n hn), fun hprimary _ => Or.inl hprimary⟩
      rw [← eq_latest_of_sanitize h]
      exact (Option.filter_eq_some_iff.1 hb).1
    exact hnames n (mem_distinct.1 hn) heq
  · intro h
    obtain ⟨b, hb⟩ : ∃ b, t.branch = some b := h.elim (fun hprimary => ⟨_, branch_of_primary hprimary⟩) fun hb => ⟨_, hb⟩
    obtain ⟨hversion, hdevelopment⟩ := development_of_branch hb image
    refine ⟨_, hdevelopment, ?_⟩
    rw [hentry]
    refine List.mem_map.2 ⟨"latest", mem_distinct.2 ?_, rfl⟩
    rcases h with hprimary | hlatest
    · exact mem_developmentNames (by simp [hprimary])
    · have hown : IsOwnName t "latest" :=
        Or.inl ⟨"latest", Option.filter_eq_some_iff.2 ⟨hlatest, by decide⟩, by decide⟩
      exact hown.mem hversion none

end ImageTag

namespace Sample

/-- A push to a branch that is called `latest`. -/
def moving : Trigger := ⟨"refs/heads/latest", "push", none, "main", false, by rfl, by decide⟩

end Sample

namespace ImageTag

/-- A branch that is called `latest` is not the default branch, and has the tag. -/
theorem latest_beside_default : Sample.moving.isPrimaryBranch = false ∧
    development Sample.moving "img" = .ok ["img:latest"] := by
  have hbranch : Sample.moving.branch = some "latest" := by decide +kernel
  refine ⟨by decide, ?_⟩
  rw [(development_of_branch hbranch "img").2]
  decide

end ImageTag

end CiPipeline
