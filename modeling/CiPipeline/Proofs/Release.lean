import CiPipeline.Proofs.Force
import CiPipeline.Workflow.Release

/-
The safety of the release pipeline: `file_safe`. What a release and a production image need is told by
the gates on the way to them. A release needs neither the lint job nor the image tests, but it needs
wheels, and wheels that were built without force needed both (`Setting.Solves.checked`).
-/

namespace CiPipeline

namespace Release

variable (u : Surroundings) (t : Trigger) (tags : Tags)

/-! ## The order of the jobs -/

def testNames : List String := ["test-docker-image (basic)", "test-docker-image (import)"]

def wheelNames : List String := ["build-wheels (linux-x64)", "build-wheels (windows-x64)"]

/-- The names of the jobs. Each job stands after those that it needs. -/
def names : List String :=
  ["lint-and-format", "build-docker-image"] ++ testNames ++ wheelNames ++ ["build-production-image", "create-release"]

/-- The names of the groups. -/
def groupNames : List String := ["test-docker-image", "build-wheels"]

theorem map_name_jobs : (jobs u t tags).map (·.name) = names := rfl

theorem membersOf_tests : membersOf (jobs u t tags) "test-docker-image" = testNames := rfl

theorem membersOf_wheels : membersOf (jobs u t tags) "build-wheels" = wheelNames := rfl

theorem exists_memberOf {group : String} (h : group ∈ groupNames) : ∃ d ∈ jobs u t tags, d.MemberOf group := by
  rw [groupNames, List.mem_pair] at h
  rw [← membersOf_ne_nil]
  rcases h with rfl | rfl
  · rw [membersOf_tests]; exact List.cons_ne_nil _ _
  · rw [membersOf_wheels]; exact List.cons_ne_nil _ _

theorem wellFormed : WellFormed (jobs u t tags) := by
  refine ⟨?_, fun d hd j hj hmember => ?_, fun j hj need hneed => ?_⟩
  · rw [map_name_jobs]
    decide
  · -- no job has the name of a group
    have hgroups : (jobs u t tags).filterMap (·.group) =
        ["test-docker-image", "test-docker-image", "build-wheels", "build-wheels"] := rfl
    have hno : ∀ group ∈ (jobs u t tags).filterMap (·.group), group ∉ names := by rw [hgroups]; decide
    exact absurd (List.mem_map.2 ⟨j, hj, rfl⟩) (hno j.name (List.mem_filterMap.2 ⟨d, hd, hmember.1⟩))
  · have hneeds : (jobs u t tags).flatMap (·.needs) =
        ["lint-and-format", "build-docker-image", "build-docker-image", "lint-and-format", "test-docker-image",
          "lint-and-format", "test-docker-image", "build-wheels", "test-docker-image", "build-wheels",
          "build-docker-image"] := rfl
    have hknown : ∀ n ∈ (jobs u t tags).flatMap (·.needs), n ∈ names ∨ n ∈ groupNames := by rw [hneeds]; decide
    exact (hknown need (List.mem_flatMap.2 ⟨j, hj, hneed⟩)).imp_right (exists_memberOf u t tags)

theorem edgesOf_jobs : Graph.edgesOf (jobs u t tags) = [
    ("lint-and-format", []),
    ("build-docker-image", ["lint-and-format"]),
    ("test-docker-image (basic)", ["build-docker-image"]),
    ("test-docker-image (import)", ["build-docker-image"]),
    ("build-wheels (linux-x64)", ["lint-and-format", "test-docker-image (basic)", "test-docker-image (import)"]),
    ("build-wheels (windows-x64)", ["lint-and-format", "test-docker-image (basic)", "test-docker-image (import)"]),
    ("build-production-image", ["build-wheels (linux-x64)", "build-wheels (windows-x64)", "test-docker-image (basic)",
      "test-docker-image (import)"]),
    ("create-release", ["build-wheels (linux-x64)", "build-wheels (windows-x64)", "build-docker-image"])] := rfl

/-- The jobs of the pipeline have a graph, and the graph has levels. -/
theorem exists_levels : ∃ g levels, Graph.ofJobs (jobs u t tags) = .ok g ∧ g.levels = .ok levels := by
  have hwf := wellFormed u t tags
  obtain ⟨levels, hl⟩ := Graph.levels_of_rank (Graph.represents_ofEdges hwf) names.idxOf (by
    rw [map_name_jobs]
    unfold Graph.beforeName
    rw [edgesOf_jobs]
    decide)
  exact ⟨_, levels, Graph.ofJobs_eq_ok hwf, hl⟩

/-! ## What the gates ask for -/

/-- Some wheels were built, and no build of wheels failed or was cancelled. -/
def Built (R : String → JobResult) : Prop :=
  (∃ n ∈ wheelNames, R n = .success) ∧ ∀ n ∈ wheelNames, R n ≠ .failure ∧ R n ≠ .cancelled

variable {u t tags} {c : Setting} {E R : String → JobResult}

theorem seen_wheels : seen (jobs u t tags) R "build-wheels" = .success ↔ Built R := by
  have hgroup : "build-wheels" ∉ (jobs u t tags).map (·.name) := by rw [map_name_jobs]; decide
  rw [seen_eq_success hgroup, membersOf_wheels]
  rfl

theorem seen_tests : seen (jobs u t tags) R "test-docker-image" = .success ↔
    (∃ n ∈ testNames, R n = .success) ∧ ∀ n ∈ testNames, R n ≠ .failure ∧ R n ≠ .cancelled := by
  have hgroup : "test-docker-image" ∉ (jobs u t tags).map (·.name) := by rw [map_name_jobs]; decide
  rw [seen_eq_success hgroup, membersOf_tests]

theorem seen_job {n : String} (hn : n ∈ names) : seen (jobs u t tags) R n = .success ↔ R n = .success := by
  rw [seen_of_name R hn]

section

variable (hjobs : c.jobs = jobs u t tags)

include hjobs

theorem isDue_imageTest {kind : String} :
    c.isDue R (imageTest u tags kind) = true ↔ R "build-docker-image" = .success := by
  have hsuits : (imageTest u tags kind).isElsewhere c.platform = false := rfl
  have hopen : (imageTest u tags kind).gateOrDefault = .needsSucceeded := rfl
  have hneeds : (imageTest u tags kind).needs = ["build-docker-image"] := rfl
  rw [Setting.isDue, hsuits, Bool.not_false, Bool.and_true, hjobs, hopen, Job.needsSucceeded_sees, hneeds,
    List.forall_mem_singleton, seen_job (by decide)]

/-- The tests of the image are of one kind: if one of them succeeds and the other one neither fails nor
is cancelled, it succeeds as well. -/
theorem tests_succeeded (h : c.Solves E R) (hE : ∀ n, E n = .success ∨ E n = .failure)
    (hseen : seen (jobs u t tags) R "test-docker-image" = .success) :
    R "build-docker-image" = .success ∧ ∀ n ∈ testNames, R n = .success := by
  rw [seen_tests] at hseen
  have hkind : ∀ n ∈ testNames, ∃ kind, imageTest u tags kind ∈ c.jobs ∧ (imageTest u tags kind).name = n := by
    intro n hn
    rw [testNames, List.mem_pair] at hn
    rw [hjobs]
    rcases hn with rfl | rfl
    · exact ⟨"basic", .tail _ (.tail _ (.head _)), rfl⟩
    · exact ⟨"import", .tail _ (.tail _ (.tail _ (.head _))), rfl⟩
  obtain ⟨⟨n, hn, hR⟩, hspared⟩ := hseen
  have hdocker : R "build-docker-image" = .success := by
    obtain ⟨kind, hmem, rfl⟩ := hkind n hn
    have hexecutes := h.executes_of_success hmem hR
    rw [Setting.executes, Bool.and_eq_true, isDue_imageTest hjobs] at hexecutes
    exact hexecutes.1
  refine ⟨hdocker, fun m hm => ?_⟩
  obtain ⟨kind, hmem, rfl⟩ := hkind m hm
  rcases h.cases hmem with ⟨hdue, -⟩ | ⟨-, -, hcancelled⟩ | ⟨-, hended⟩
  · rw [(isDue_imageTest hjobs).2 hdocker] at hdue
    cases hdue
  · exact absurd hcancelled (hspared _ hm).2
  · have hfailure := (hspared _ hm).1
    rw [hended] at hfailure ⊢
    exact (hE _).resolve_right hfailure

variable (ht : c.trigger = t)

include ht

theorem of_isDue_release (hdue : c.isDue R (release t) = true) :
    t.isVersionTag = true ∧ R "build-docker-image" = .success ∧ Built R := by
  rw [Setting.isDue, Bool.and_eq_true, hjobs, ht] at hdue
  have hopen : (t.isVersionTag && (Gate.allSucceeded ((release t).sees (jobs u t tags) R)
      ["build-wheels", "build-docker-image"] && true)) = true := hdue.1
  rw [Bool.and_true, Bool.and_eq_true, Job.allSucceeded_sees] at hopen
  exact ⟨hopen.1, (seen_job (by decide)).1 (hopen.2 "build-docker-image" (by decide)).2,
    seen_wheels.1 (hopen.2 "build-wheels" (by decide)).2⟩

theorem of_isDue_production (hdue : c.isDue R (productionImage u tags) = true) :
    (t.isPrimaryBranch = true ∨ t.isVersionTag = true) ∧ Built R ∧
      seen (jobs u t tags) R "test-docker-image" = .success := by
  rw [Setting.isDue, Bool.and_eq_true, hjobs, ht] at hdue
  have hopen : (Gate.needsSucceeded.isOpen ((productionImage u tags).sees (jobs u t tags) R) t &&
      ((t.isPrimaryBranch || t.isVersionTag) && true)) = true := hdue.1
  rw [Bool.and_true, Bool.and_eq_true, Bool.or_eq_true, Job.needsSucceeded_sees] at hopen
  exact ⟨hopen.2, seen_wheels.1 (hopen.1 _ (List.mem_cons_self ..)),
    hopen.1 _ (List.mem_cons_of_mem _ (List.mem_singleton_self _))⟩

theorem of_isDue_wheels {target : Target} (hforce : t.forceBuild = false) (hdue : c.isDue R (wheels u target) = true) :
    R "lint-and-format" = .success ∧ seen (jobs u t tags) R "test-docker-image" = .success := by
  rw [Setting.isDue, Bool.and_eq_true, hjobs, ht] at hdue
  have hopen : (t.forceBuild || Gate.allSucceeded ((wheels u target).sees (jobs u t tags) R)
      ["lint-and-format", "test-docker-image"]) = true := hdue.1
  rw [hforce, Bool.false_or, Job.allSucceeded_sees] at hopen
  exact ⟨(seen_job (by decide)).1 (hopen "lint-and-format" (by decide)).2, (hopen "test-docker-image" (by decide)).2⟩

/-- Wheels that were built without force were built after all checks. -/
theorem checked_of_built (h : c.Solves E R) (hE : ∀ n, E n = .success ∨ E n = .failure)
    (hforce : t.forceBuild = false) (hbuilt : Built R) :
    R "lint-and-format" = .success ∧ R "build-docker-image" = .success ∧ ∀ n ∈ testNames, R n = .success := by
  have htarget : ∀ n ∈ wheelNames, ∃ target, wheels u target ∈ c.jobs ∧ (wheels u target).name = n := by
    intro n hn
    rw [wheelNames, List.mem_pair] at hn
    rw [hjobs]
    rcases hn with rfl | rfl
    · exact ⟨⟨"linux", "x64"⟩, .tail _ (.tail _ (.tail _ (.tail _ (.head _)))), rfl⟩
    · exact ⟨⟨"windows", "x64"⟩, .tail _ (.tail _ (.tail _ (.tail _ (.tail _ (.head _))))), rfl⟩
  obtain ⟨⟨n, hn, hR⟩, -⟩ := hbuilt
  obtain ⟨target, hmem, rfl⟩ := htarget n hn
  have hexecutes := h.executes_of_success hmem hR
  rw [Setting.executes, Bool.and_eq_true] at hexecutes
  obtain ⟨hlint, hseen⟩ := of_isDue_wheels hjobs ht hforce hexecutes.1
  exact ⟨hlint, tests_succeeded hjobs h hE hseen⟩

end

/-! ## Runs -/

/-- Results with wheels: some were built, and no build of wheels failed or was cancelled. -/
def HasWheels (rs : List (String × JobResult)) : Prop :=
  (∃ n ∈ wheelNames, (n, .success) ∈ rs) ∧ ∀ n ∈ wheelNames, (n, .failure) ∉ rs ∧ (n, .cancelled) ∉ rs

/-- A run that releases nothing too early. It returns if it has workers, and else it executes nothing.
A release is made for a version tag only, with an image and with wheels; a production image is built on
the default branch or for a version tag only, with wheels and after all tests of the image. If the run
is not forced, neither is done unless the lint job, the image and all its tests succeeded. -/
structure Safe (js : List Job) (t : Trigger) (o : RunOptions) (execute : Executor) (h : Host) : Prop where
  returns : (∀ w, o.workers = some w → 1 ≤ w) → ∃ rs, ((run js t o execute).on h).1 = .ok rs
  idle : ∀ f, ((run js t o execute).on h).1 = .error f → Run.calls js t o execute h = []
  release : ∀ rs, ((run js t o execute).on h).1 = .ok rs →
    (∃ c ∈ Run.calls js t o execute h, c.1.name = "create-release") →
      Text.startsWith t.ref "refs/tags/v" = true ∧ ("build-docker-image", .success) ∈ rs ∧ HasWheels rs
  production : ∀ rs, ((run js t o execute).on h).1 = .ok rs →
    (∃ c ∈ Run.calls js t o execute h, c.1.name = "build-production-image") →
      (t.ref = "refs/heads/" ++ t.defaultBranch ∨ Text.startsWith t.ref "refs/tags/v" = true) ∧ HasWheels rs ∧
        ∀ n ∈ testNames, (n, .success) ∈ rs
  unforced : ∀ rs, ((run js t o execute).on h).1 = .ok rs → t.forceBuild = false →
    (∃ c ∈ Run.calls js t o execute h, c.1.name = "create-release" ∨ c.1.name = "build-production-image") →
      ("lint-and-format", .success) ∈ rs ∧ ("build-docker-image", .success) ∈ rs ∧ ∀ n ∈ testNames, (n, .success) ∈ rs

/-- The results of a run by the names of the jobs, and what is due in it. -/
theorem exists_meaning {o : RunOptions} {execute : Executor} {h : Host} {rs : List (String × JobResult)}
    (hexec : Run.Ordinary (jobs u t tags) execute) (hrun : ((run (jobs u t tags) t o execute).on h).1 = .ok rs) :
    ∃ (c : Setting) (E R : String → JobResult), c.jobs = jobs u t tags ∧ c.trigger = t ∧ c.Solves E R ∧
      (∀ n, E n = .success ∨ E n = .failure) ∧ (∀ n ∈ names, ∀ r, (n, r) ∈ rs ↔ R n = r) ∧
      ∀ j ∈ jobs u t tags, (∃ call ∈ Run.calls (jobs u t tags) t o execute h, call.1.name = j.name) →
        c.isDue R j = true := by
  obtain ⟨g, levels, hg, hl⟩ := exists_levels u t tags
  have hc : (Run.settingOf (jobs u t tags) levels t o h).Leveled := Run.leveled hg hl
  obtain ⟨R, rfl, hR, hcalled⟩ := Run.run_solves hg hl execute hrun
  refine ⟨_, _, R, rfl, rfl, hR, fun n => ?_, fun n hn r => Run.mem_results (hc.perm.mem_iff.2 hn), ?_⟩
  · unfold Run.outcomes Run.outcomesOf
    cases hf : (Run.calls (jobs u t tags) t o execute h).find? (·.1.name = n) with
    | none => exact .inl rfl
    | some call =>
      rcases Run.calls_ordinary hg hl hexec call (List.mem_of_find?_eq_some hf) with hok | ⟨f, hf, -⟩
      · rw [Option.map_some, Option.getD_some, hok]
        exact .inl rfl
      · rw [Option.map_some, Option.getD_some, hf]
        exact .inr rfl
  · rintro j hj ⟨call, hm, hname⟩
    obtain rfl : call.1 = j :=
      List.inj_on_of_nodup_map hc.wellFormed.names_nodup (Run.calls_real hg hl call hm).1 hj hname
    have hexecutes := (hcalled call.1 hj).2 ⟨call, hm, rfl⟩
    rw [Setting.executes, Bool.and_eq_true] at hexecutes
    exact hexecutes.1

theorem release_mem : release t ∈ jobs u t tags :=
  .tail _ (.tail _ (.tail _ (.tail _ (.tail _ (.tail _ (.tail _ (.head _)))))))

theorem productionImage_mem : productionImage u tags ∈ jobs u t tags :=
  .tail _ (.tail _ (.tail _ (.tail _ (.tail _ (.tail _ (.head _))))))

theorem hasWheels {R : String → JobResult} {rs : List (String × JobResult)}
    (hrs : ∀ n ∈ names, ∀ r, (n, r) ∈ rs ↔ R n = r) (hbuilt : Built R) : HasWheels rs := by
  have hnames : ∀ n ∈ wheelNames, n ∈ names := by decide
  obtain ⟨⟨n, hn, hR⟩, hspared⟩ := hbuilt
  refine ⟨⟨n, hn, (hrs n (hnames n hn) _).2 hR⟩, fun n hn => ?_⟩
  rw [hrs n (hnames n hn), hrs n (hnames n hn)]
  exact hspared n hn

/-- Every run of the pipeline is safe. -/
theorem run_safe (u : Surroundings) (t : Trigger) (tags : Tags) (o : RunOptions) {execute : Executor}
    (hexec : Run.Ordinary (jobs u t tags) execute) (h : Host) : Safe (jobs u t tags) t o execute h := by
  obtain ⟨g, levels, hg, hl⟩ := exists_levels u t tags
  have htests : ∀ n ∈ testNames, n ∈ names := by decide
  refine ⟨fun ho => ?_, fun f hrun => Run.calls_eq_nil hg hl hexec hrun, fun rs hrun hcalled => ?_,
    fun rs hrun hcalled => ?_, fun rs hrun hforce hcalled => ?_⟩
  · obtain ⟨rs, h', hrun⟩ := Run.run_ok hg hl ho fun c hm => Run.settles_of_ordinary (Run.calls_ordinary hg hl hexec c hm)
    exact ⟨rs, by rw [hrun]⟩
  · obtain ⟨c, E, R, hjobs, ht, -, -, hrs, hdue⟩ := exists_meaning hexec hrun
    obtain ⟨hversion, hdocker, hbuilt⟩ := of_isDue_release hjobs ht (hdue _ release_mem hcalled)
    exact ⟨hversion, (hrs _ (by decide) _).2 hdocker, hasWheels hrs hbuilt⟩
  · obtain ⟨c, E, R, hjobs, ht, hR, hE, hrs, hdue⟩ := exists_meaning hexec hrun
    obtain ⟨href, hbuilt, hseen⟩ := of_isDue_production hjobs ht (hdue _ productionImage_mem hcalled)
    obtain ⟨-, htested⟩ := tests_succeeded hjobs hR hE hseen
    exact ⟨href.imp_left of_decide_eq_true, hasWheels hrs hbuilt, fun n hn => (hrs n (htests n hn) _).2 (htested n hn)⟩
  · obtain ⟨c, E, R, hjobs, ht, hR, hE, hrs, hdue⟩ := exists_meaning hexec hrun
    -- both of them need wheels
    have hbuilt : Built R := by
      obtain ⟨call, hm, hname | hname⟩ := hcalled
      · exact (of_isDue_release hjobs ht (hdue _ release_mem ⟨call, hm, hname⟩)).2.2
      · exact (of_isDue_production hjobs ht (hdue _ productionImage_mem ⟨call, hm, hname⟩)).2.1
    obtain ⟨hlint, hdocker, htested⟩ := checked_of_built hjobs ht hR hE hforce hbuilt
    exact ⟨(hrs _ (by decide) _).2 hlint, (hrs _ (by decide) _).2 hdocker,
      fun n hn => (hrs n (htests n hn) _).2 (htested n hn)⟩

theorem exists_tags {s : Settings} {env : Dict String} {js : List Job}
    (hload : file.load s env >>= Definitions.given (some t) = .ok (some js)) :
    ∃ tags, Tags.of (.of s env) t = .ok tags ∧ js = jobs (.of s env) t tags := by
  have hpipeline : ((pipeline (.of s env) t).mapError Fault.digits).map some = .ok (some js) := hload
  unfold pipeline at hpipeline
  cases htags : Tags.of (.of s env) t with
  | error e => rw [htags] at hpipeline; cases hpipeline
  | ok tags =>
    rw [htags] at hpipeline
    cases hpipeline
    exact ⟨tags, rfl, rfl⟩

/-- Every run of the jobs that the file of the pipeline gives for a trigger is safe, with every executor
that comes to success or to an ordinary fault with each of the jobs. -/
theorem file_safe (s : Settings) (env : Dict String) (t : Trigger) {js : List Job}
    (hload : file.load s env >>= Definitions.given (some t) = .ok (some js)) (o : RunOptions) (execute : Executor)
    (hexec : Run.Ordinary js execute) (h : Host) : Safe js t o execute h := by
  obtain ⟨tags, -, rfl⟩ := exists_tags hload
  exact run_safe _ t tags o hexec h

end Release

namespace Sample

/-- A push of a version tag. -/
def versionTag : Trigger := ⟨"refs/tags/v1.2.0", "push", none, "main", false, by rfl, by decide⟩

/-- The production image fails, and everything else succeeds. -/
def unproductive : Executor := fun j =>
  if j.name = "build-production-image" then .fail (.os .denied "docker") else pure .success

end Sample

namespace Release

/-- A run for a version tag on one of the platforms for which wheels are built. -/
theorem file_safe_sample : ∃ js,
    file.load Sample.host.settings {} >>= Definitions.given (some Sample.versionTag) = .ok (some js) ∧
      Run.Ordinary js Sample.unproductive ∧
      Safe js Sample.versionTag { failFast := true } Sample.unproductive Sample.host := by
  have htags : Tags.of (.of Sample.host.settings {}) Sample.versionTag =
      .ok ⟨["/:1.2.0", "/:1.2", "/:1"], ["/:1.2.0-prod"]⟩ := by
    have hpull : Sample.versionTag.pullRequest = .ok none := by decide +kernel
    have hversion : ImageTag.version Sample.versionTag = .ok (some ⟨1, 2, 0, none⟩) := by decide +kernel
    rw [Tags.of, ImageTag.development, ImageTag.production, hpull, hversion]
    rfl
  have hload : file.load Sample.host.settings {} >>= Definitions.given (some Sample.versionTag) =
      .ok (some (jobs (.of Sample.host.settings {}) Sample.versionTag
        ⟨["/:1.2.0", "/:1.2", "/:1"], ["/:1.2.0-prod"]⟩)) := by
    simp only [file, bind, Except.bind, Definitions.given, Option.elim, pipeline, htags]
    rfl
  have hexec : Run.Ordinary (jobs (.of Sample.host.settings {}) Sample.versionTag
      ⟨["/:1.2.0", "/:1.2", "/:1"], ["/:1.2.0-prod"]⟩) Sample.unproductive := by
    intro j _ h
    unfold Sample.unproductive
    split
    · exact .inr ⟨_, rfl, rfl⟩
    · exact .inl rfl
  exact ⟨_, hload, hexec, file_safe _ _ _ hload _ _ hexec _⟩

end Release

end CiPipeline
