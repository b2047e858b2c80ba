import CiPipeline.Proofs.LatestTag
import CiPipeline.Proofs.Release.Lines

/-
What makes a version tag one of a prerelease. For the release it is a word in the ref, which can only stand in
the prerelease part or the build part; for the tags of the images it is that there is a prerelease part
(`prerelease_told`). The two differ where that part has none of the words, and where the build part alone has one
(`prereleases_differ`).
-/

namespace CiPipeline

open SemVer (Parts IsPart tail)

/-- A part in which one of the words of a prerelease stands. -/
def Marked (part : Option String) : Prop :=
  ∃ s, part = some s ∧ ∃ m ∈ Trigger.prereleaseMarkers, Text.includes s m = true

/-! ## Words in a ref -/

namespace SemVer

variable {p : Parts} {c : Char} {m : List Char}

/-- What stands in front of the parts behind the numbers. -/
def Parts.numbers (p : Parts) : List Char :=
  (if p.marked then ['v'] else []) ++ (p.major ++ '.' :: (p.minor ++ '.' :: p.patch))

theorem Parts.chars_eq (p : Parts) : p.chars = p.numbers ++ (tail '-' p.pre ++ tail '+' p.build) := by
  simp [chars, unmarked, numbers]

theorem Parts.Legal.numbers (hp : p.Legal Text.isDigit) (hc : c ∈ p.numbers) :
    Text.isDigit c = true ∨ c = 'v' ∨ c = '.' := by
  have hnumeral : ∀ ds, Numeral Text.isDigit ds → c ∈ ds → Text.isDigit c = true ∨ c = 'v' ∨ c = '.' := fun ds h hc =>
    .inl ((h.char hc).elim id Text.isDigit_of_ascii)
  rw [Parts.numbers, List.mem_append, List.mem_append, List.mem_cons, List.mem_append, List.mem_cons] at hc
  rcases hc with hc | hc | hc | hc | hc | hc
  · split at hc
    · exact .inr (.inl (List.mem_singleton.1 hc))
    · cases hc
  · exact hnumeral _ hp.major hc
  · exact .inr (.inr hc)
  · exact hnumeral _ hp.minor hc
  · exact .inr (.inr hc)
  · exact hnumeral _ hp.patch hc

/-- A word occurs in the parts behind their marks exactly if it occurs in one of them, as it has neither mark. -/
theorem infix_tails (hne : m ≠ []) (hminus : '-' ∉ m) (hplus : '+' ∉ m) (pre build : Option String) :
    m <:+: tail '-' pre ++ tail '+' build ↔
      (∃ s, pre = some s ∧ m <:+: s.toList) ∨ ∃ s, build = some s ∧ m <:+: s.toList := by
  have hbehind : ∀ mark, mark ∉ m → ∀ o : Option String, m <:+: tail mark o ↔ ∃ s, o = some s ∧ m <:+: s.toList := by
    intro mark hmark o
    cases o with
    | none => simpa [tail] using hne
    | some s =>
      have hcons : m <:+: [] ++ mark :: s.toList ↔ _ := Text.infix_append_cons hmark
      simpa [tail, hne] using hcons
  cases build with
  | none =>
    have hnone : tail '-' pre ++ tail '+' none = tail '-' pre := List.append_nil _
    rw [hnone, hbehind '-' hminus]
    simp
  | some s =>
    have hsome : tail '-' pre ++ tail '+' (some s) = tail '-' pre ++ '+' :: s.toList := rfl
    rw [hsome, Text.infix_append_cons hplus, hbehind '-' hminus]
    simp

end SemVer

namespace Trigger

variable {t : Trigger} {tag : String} {p : Parts}

/-- No character of the words is a digit, a dot, a mark of a version or a slash. -/
theorem char_of_marker {m : String} (hm : m ∈ prereleaseMarkers) {c : Char} (hc : c ∈ m.toList) :
    Text.isDigit c = false ∧ c ∉ ['v', '.', '-', '+', '/'] := by
  have hall : prereleaseMarkers.all (fun m => m.toList.all fun c =>
      !Text.isDigit c && !(['v', '.', '-', '+', '/'].contains c)) = true := by decide
  simpa using List.all_eq_true.1 (List.all_eq_true.1 hall m hm) c hc

theorem marker_ne_nil {m : String} (hm : m ∈ prereleaseMarkers) : m.toList ≠ [] := by
  have hall : prereleaseMarkers.all (fun m => !m.toList.isEmpty) = true := by decide
  simpa using List.all_eq_true.1 hall m hm

theorem includes_ref (htag : t.tag = some tag) (hp : p.Legal Text.isDigit) (hs : tag.toList = p.chars) {m : String}
    (hm : m ∈ prereleaseMarkers) : Text.includes t.ref m = true ↔
      (∃ s, p.pre = some s ∧ Text.includes s m = true) ∨ ∃ s, p.build = some s ∧ Text.includes s m = true := by
  have hno : ∀ c ∈ ['v', '.', '-', '+', '/'], c ∉ m.toList := fun c hc hmem => (char_of_marker hm hmem).2 hc
  have hrefs : ¬ m.toList <:+: "refs/tags".toList := by
    have hall : prereleaseMarkers.all (fun m => !Text.includes "refs/tags" m) = true := by decide
    rw [← Text.occurs_iff]
    simpa [Text.includes] using List.all_eq_true.1 hall m hm
  have hnumbers : ∀ c ∈ p.numbers, c ∉ m.toList := by
    intro c hc hmem
    rcases hp.numbers hc with hdigit | rfl | rfl
    · rw [(char_of_marker hm hmem).1] at hdigit
      cases hdigit
    · exact hno _ (by decide) hmem
    · exact hno _ (by decide) hmem
  have href : t.ref.toList = "refs/tags".toList ++ '/' :: (p.numbers ++ (tail '-' p.pre ++ tail '+' p.build)) := by
    rw [Text.after?_eq_some.1 htag, String.toList_append, hs, Parts.chars_eq]
    rfl
  simp only [Text.includes, Text.occurs_iff]
  rw [href, Text.infix_append_cons (hno _ (by decide)), or_iff_right hrefs,
    Text.infix_append_of_disjoint (marker_ne_nil hm) hnumbers,
    SemVer.infix_tails (marker_ne_nil hm) (hno _ (by decide)) (hno _ (by decide))]

/-- In the ref of a version the words of a prerelease can only stand in the parts behind the numbers. -/
theorem isPrerelease_iff (htag : t.tag = some tag) (hp : p.Legal Text.isDigit) (hs : tag.toList = p.chars) :
    t.isPrerelease = true ↔ Marked p.pre ∨ Marked p.build := by
  rw [isPrerelease, List.any_eq_true, Marked, Marked]
  constructor
  · rintro ⟨m, hm, hin⟩
    rcases (includes_ref htag hp hs hm).1 hin with ⟨s, hsome, hin⟩ | ⟨s, hsome, hin⟩
    · exact .inl ⟨s, hsome, m, hm, hin⟩
    · exact .inr ⟨s, hsome, m, hm, hin⟩
  · rintro (⟨s, hsome, m, hm, hin⟩ | ⟨s, hsome, m, hm, hin⟩)
    · exact ⟨m, hm, (includes_ref htag hp hs hm).2 (.inl ⟨s, hsome, hin⟩)⟩
    · exact ⟨m, hm, (includes_ref htag hp hs hm).2 (.inr ⟨s, hsome, hin⟩)⟩

/-- No line feed ends the tag of a ref, as refs are trimmed. -/
theorem exists_parts_of_tag {v : SemVer} (htag : t.tag = some tag) (hv : SemVer.parse tag = .ok (some v)) :
    ∃ p : Parts, p.Legal Text.isDigit ∧ tag.toList = p.chars ∧ v.pre = p.pre := by
  obtain ⟨p, hp, hs | hs, -, rfl⟩ := SemVer.exists_parts_of_parse hv
  · exact ⟨p, hp, hs, rfl⟩
  · have hlast : t.ref.toList.getLast? = some '\n' := by
      rw [Text.after?_eq_some.1 htag, String.toList_append, hs, ← List.append_assoc, List.getLast?_append]
      rfl
    exact absurd (Text.not_isBlank_of_strip t.ref_trimmed hlast) (by decide)

end Trigger

/-! ## Tags of images -/

namespace ImageTag

variable {t : Trigger} {tag image n : String} {v : SemVer}

/-- The tags of the minor and the major line of a version. -/
def lineTags (v : SemVer) (image : String) : List String :=
  [image ++ ":" ++ line v, image ++ ":" ++ toString v.major]

/-- The ref of a tag is that of no branch and of no pull request. -/
theorem development_of_tag (htag : t.tag = some tag) (hv : version t = .ok (some v)) (image : String) :
    namedBranch t = none ∧ t.isPrimaryBranch = false ∧
      development t image = .ok (under image (developmentNames t none (some v))) := by
  have href : t.ref.toList = Trigger.tagRefs.toList ++ tag.toList := by
    rw [Text.after?_eq_some.1 htag, String.toList_append]
  have hpull : t.pullRequest = .ok none := by
    rw [Trigger.pullRequest, Trigger.pullDigits?, Text.after?, href]
    rfl
  have hbranch : t.branch = none := by
    rw [Trigger.branch, Text.after?, href]
    rfl
  refine ⟨by rw [namedBranch, hbranch]; rfl, Bool.eq_false_iff.2 fun hprimary => ?_, development_ok hpull hv image⟩
  rw [branch_of_primary hprimary] at hbranch
  cases hbranch

theorem version_of_tag (htag : t.tag = some tag) (hv : SemVer.parse tag = .ok (some v)) : version t = .ok (some v) := by
  have hne : tag ≠ "" := by
    rintro rfl
    cases hv
  have hnamed : namedTag t = some tag := Option.filter_eq_some_iff.2 ⟨htag, decide_eq_true hne⟩
  rw [version, hnamed]
  exact hv

theorem hyphen_not_mem_toString (k : Nat) : '-' ∉ (toString k).toList := by
  intro hmem
  rw [show toString k = k.repr from rfl, Nat.toList_repr] at hmem
  exact absurd (Nat.isDigit_of_mem_toDigits (by decide) (by decide) hmem) (by decide)

theorem hyphen_not_mem_line (v : SemVer) : '-' ∉ (line v).toList := by
  rw [line, String.toList_append, String.toList_append, List.mem_append, List.mem_append]
  rintro ((h | h) | h)
  · exact hyphen_not_mem_toString _ h
  · exact absurd h (by decide)
  · exact hyphen_not_mem_toString _ h

/-- All names of a prerelease have a hyphen. -/
theorem hyphen_mem_developmentNames (hbranch : namedBranch t = none) (hprimary : t.isPrimaryBranch = false)
    (hpre : v.isPrerelease = true) : ∀ n ∈ developmentNames t none (some v), '-' ∈ n.toList := by
  rw [forall_developmentNames fun s _ => by simp]
  refine ⟨fun b hb => ?_, nofun, ?_, fun s _ => ?_, fun h => ?_⟩
  · rw [hbranch] at hb
    cases hb
  · rintro w ⟨⟩ n hn
    rw [versionNames, if_pos hpre, List.mem_singleton] at hn
    obtain ⟨p, hp, hne⟩ := (Option.any_eq_true _ _).1 hpre
    rw [hn, SemVer.version, hp]
    simp only [if_neg (of_decide_eq_true hne)]
    simp
  · unfold commitNames
    rw [hprimary]
    split
    · simp
    · simp
  · rw [hprimary] at h
    cases h

/-- The development image of a version tag has the tags of the minor and the major line exactly if the version has
no prerelease part. -/
theorem lineTags_told (htag : t.tag = some tag) (hv : version t = .ok (some v)) (hpart : IsPart v.pre) (image : String) :
    ∃ tags, development t image = .ok tags ∧ (v.pre = none → ∀ e ∈ lineTags v image, e ∈ tags) ∧
      (v.pre ≠ none → ∀ e ∈ lineTags v image, e ∉ tags) := by
  obtain ⟨hbranch, hprimary, hdevelopment⟩ := development_of_tag htag hv image
  refine ⟨_, hdevelopment, fun hpre => ?_, fun hpre => ?_⟩
  · have hnames : ∀ n ∈ versionNames v, n ∈ developmentNames t none (some v) := fun n hn =>
      mem_developmentNames (by simp [hn])
    have hlines : versionNames v = [v.version, line v, toString v.major] := by
      rw [versionNames, SemVer.isPrerelease, hpre]
      rfl
    rw [hlines] at hnames
    have hentry : ∀ n ∈ [v.version, line v, toString v.major],
        image ++ ":" ++ n ∈ under image (developmentNames t none (some v)) := fun n hn =>
      List.mem_map.2 ⟨n, mem_distinct.2 (hnames n hn), rfl⟩
    intro e he
    rw [lineTags, List.mem_pair] at he
    rcases he with rfl | rfl
    · exact hentry _ (by simp)
    · exact hentry _ (by simp)
  · have hmarked : v.isPrerelease = true := by
      obtain ⟨p, hp⟩ := Option.ne_none_iff_exists'.1 hpre
      rw [SemVer.isPrerelease, hp]
      exact decide_eq_true (hpart p hp).1
    have hhyphen := hyphen_mem_developmentNames hbranch hprimary hmarked
    have hno : ∀ n, '-' ∉ n.toList → image ++ ":" ++ n ∉ under image (developmentNames t none (some v)) := by
      intro n hn hmem
      obtain ⟨k, hk, heq⟩ := List.mem_map.1 hmem
      rw [String.append_right_inj] at heq
      exact hn (heq ▸ hhyphen k (mem_distinct.1 hk))
    intro e he
    rw [lineTags, List.mem_pair] at he
    rcases he with rfl | rfl
    · exact hno _ (hyphen_not_mem_line v)
    · exact hno _ (hyphen_not_mem_toString v.major)

end ImageTag

/-! ## The release -/

namespace Release

variable {t : Trigger} {tag : String} {v : SemVer} {p : Parts}

/-- The pipeline for a version tag has one line that makes a release, and it says whether this is a prerelease. -/
theorem release_told (htag : t.tag = some tag) (hv : ImageTag.version t = .ok (some v)) (hs : tag.toList = p.chars)
    (s : Settings) (env : Dict String) :
    ∃ js words, file.load s env >>= Definitions.given (some t) = .ok (some js) ∧
      linesNamed "Create release" js = [⟨none, "shell", .ok words⟩] ∧ ("--prerelease" ∈ words ↔ t.isPrerelease = true) := by
  obtain ⟨-, -, hdevelopment⟩ := ImageTag.development_of_tag htag hv (Surroundings.of s env).image
  obtain ⟨tags, htags⟩ : ∃ tags, Tags.of (.of s env) t = .ok tags := by
    rw [Tags.of, hdevelopment, ImageTag.production_ok hv]
    exact ⟨_, rfl⟩
  have hload : file.load s env >>= Definitions.given (some t) = .ok (some (jobs (.of s env) t tags)) := by
    show ((pipeline (.of s env) t).mapError Fault.digits).map some = _
    rw [pipeline, htags]
    rfl
  -- the tag itself is no option, as it has dots
  have htagged : tag ≠ "--prerelease" := by
    rintro rfl
    have hdot : '.' ∈ p.chars := by simp [Parts.chars, Parts.unmarked]
    rw [← hs] at hdot
    exact absurd hdot (by decide)
  refine ⟨_, _, hload, (jobs_split _ _ _).release, ?_⟩
  rw [releaseWords, htag]
  cases t.isPrerelease with
  | false => simpa using htagged.symm
  | true => simp

/-- What becomes of a version tag as one of a prerelease. -/
structure Told (t : Trigger) (v : SemVer) (p : Parts) : Prop where
  flagged : t.isPrerelease = true ↔ Marked p.pre ∨ Marked p.build
  released : ∀ (s : Settings) (env : Dict String), ∃ js words,
    file.load s env >>= Definitions.given (some t) = .ok (some js) ∧
      linesNamed "Create release" js = [⟨none, "shell", .ok words⟩] ∧ ("--prerelease" ∈ words ↔ t.isPrerelease = true)
  tagged : ∀ image, ∃ tags, ImageTag.development t image = .ok tags ∧
    (v.pre = none → ∀ e ∈ ImageTag.lineTags v image, e ∈ tags) ∧
    (v.pre ≠ none → ∀ e ∈ ImageTag.lineTags v image, e ∉ tags)
  agree : (t.isPrerelease = true ↔ v.pre ≠ none) ↔ if v.pre = none then ¬ Marked p.build else Marked p.pre ∨ Marked p.build

/-- A version tag is released as a prerelease exactly if one of the words stands in its prerelease part or its build
part; and its image has the tags of the minor and the major line exactly if it has no prerelease part. -/
theorem prerelease_told (t : Trigger) {tag : String} {v : SemVer} (htag : t.tag = some tag)
    (hv : SemVer.parse tag = .ok (some v)) :
    ∃ p : Parts, p.Legal Text.isDigit ∧ tag.toList = p.chars ∧ v.pre = p.pre ∧ Told t v p := by
  obtain ⟨p, hp, hs, hpre⟩ := Trigger.exists_parts_of_tag htag hv
  have hversion := ImageTag.version_of_tag htag hv
  have hflagged := Trigger.isPrerelease_iff htag hp hs
  refine ⟨p, hp, hs, hpre, hflagged, release_told htag hversion hs,
    ImageTag.lineTags_told htag hversion (hpre ▸ hp.pre), ?_⟩
  rw [hflagged]
  split
  · rename_i hnone
    have hunmarked : ¬ Marked p.pre := by
      rintro ⟨s, hsome, -⟩
      rw [← hpre, hnone] at hsome
      cases hsome
    simp [hnone, hunmarked]
  · rename_i hsome
    simp [hsome]

end Release

namespace Sample

/-- A tag of a prerelease without one of the words. -/
def snapshot : Trigger := ⟨"refs/tags/v1.0.0-dev", "push", none, "main", false, by rfl, by decide⟩

/-- A tag of a release with one of the words in its build part. -/
def rebuilt : Trigger := ⟨"refs/tags/v1.0.0+rc", "push", none, "main", false, by rfl, by decide⟩

/-- A tag of a prerelease with one of the words. -/
def candidate : Trigger := ⟨"refs/tags/v1.4.2-rc1", "push", none, "main", false, by rfl, by decide⟩

end Sample

namespace Release

/-- A release candidate is one by both notions. -/
theorem prerelease_told_sample : Sample.candidate.tag = some "v1.4.2-rc1" ∧
    SemVer.parse "v1.4.2-rc1" = .ok (some ⟨1, 4, 2, "rc1"⟩) ∧
    ∃ p : Parts, p.pre = some "rc1" ∧ Told Sample.candidate ⟨1, 4, 2, "rc1"⟩ p := by
  have htag : Sample.candidate.tag = some "v1.4.2-rc1" := by decide +kernel
  have hv : SemVer.parse "v1.4.2-rc1" = .ok (some ⟨1, 4, 2, "rc1"⟩) := by rfl
  obtain ⟨p, -, -, hpre, htold⟩ := prerelease_told Sample.candidate htag hv
  exact ⟨htag, hv, p, hpre.symm, htold⟩

/-- A prerelease part without one of the words is none to the release, and a build part with one of them is one. -/
theorem prereleases_differ :
    (Sample.snapshot.tag = some "v1.0.0-dev" ∧ SemVer.parse "v1.0.0-dev" = .ok (some ⟨1, 0, 0, "dev"⟩) ∧
      Sample.snapshot.isPrerelease = false ∧ "--prerelease" ∉ releaseWords Sample.snapshot ∧
      ImageTag.development Sample.snapshot "img" = .ok ["img:1.0.0-dev"]) ∧
    Sample.rebuilt.tag = some "v1.0.0+rc" ∧ SemVer.parse "v1.0.0+rc" = .ok (some ⟨1, 0, 0, none⟩) ∧
      Sample.rebuilt.isPrerelease = true ∧ "--prerelease" ∈ releaseWords Sample.rebuilt ∧
      ImageTag.development Sample.rebuilt "img" = .ok ["img:1.0.0", "img:1.0", "img:1"] := by
  have hsnapshot : Sample.snapshot.tag = some "v1.0.0-dev" := by decide +kernel
  have hrebuilt : Sample.rebuilt.tag = some "v1.0.0+rc" := by decide +kernel
  have hdev : SemVer.parse "v1.0.0-dev" = .ok (some ⟨1, 0, 0, "dev"⟩) := by rfl
  have hrc : SemVer.parse "v1.0.0+rc" = .ok (some ⟨1, 0, 0, none⟩) := by rfl
  refine ⟨⟨hsnapshot, hdev, by decide, by decide, ?_⟩, hrebuilt, hrc, by decide, by decide, ?_⟩
  · rw [(ImageTag.development_of_tag hsnapshot (ImageTag.version_of_tag hsnapshot hdev) "img").2.2]
    decide
  · rw [(ImageTag.development_of_tag hrebuilt (ImageTag.version_of_tag hrebuilt hrc) "img").2.2]
    decide

end Release

end CiPipeline
