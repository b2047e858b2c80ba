import CiPipeline.Proofs.Run.Calls
import CiPipeline.Proofs.Run.Meaning

/-
The course of a run solves the equations of its setting. The invariant of the levels is `Knows`: the
results so far are those of the names that have been placed, and the run counts as failed exactly if
one of these is a failure. A level that has everything before it placed finds all that its jobs see
(`screen_eq`), and gives each of them the result that its equation asks for (`courseLevel_spec`).
-/

namespace CiPipeline

/-- The result of a name so far; a name that has none counts as skipped. -/
def Progress.value (p : Progress) (n : String) : JobResult := (p.results.get? n).getD .skipped

/-- The progress when the names of `placed` have their results. -/
structure Progress.Knows (p : Progress) (placed : Finset String) : Prop where
  isSome : ∀ n, (p.results.get? n).isSome ↔ n ∈ placed
  failed : p.failed = true ↔ ∃ n ∈ placed, p.value n = .failure

theorem Progress.Knows.get?_eq {p : Progress} {placed : Finset String} (h : p.Knows placed) {n : String}
    (hn : n ∈ placed) : p.results.get? n = some (p.value n) := by
  obtain ⟨r, hr⟩ := Option.isSome_iff_exists.1 ((h.isSome n).2 hn)
  rw [Progress.value, hr]; rfl

theorem Progress.Knows.get?_eq_none {p : Progress} {placed : Finset String} (h : p.Knows placed) {n : String}
    (hn : n ∉ placed) : p.results.get? n = none := by
  rw [← Option.not_isSome_iff_eq_none, h.isSome]; exact hn

theorem knows_empty : Progress.Knows {} ∅ := ⟨fun n => by simp, by simp⟩

/-! ## Results of several jobs -/

theorem results_foldl_pass (v : Job → Verdict) : ∀ (js : List Job) (p : Progress),
    (js.foldl (fun p j => p.pass j (v j)) p).results =
        p.results.update ⟨(js.filter (v · ≠ .run)).map fun j => (j.name, (v j).result)⟩ ∧
      (js.foldl (fun p j => p.pass j (v j)) p).failed = p.failed
  | [], _ => ⟨rfl, rfl⟩
  | j :: js, p => by
    obtain ⟨hr, hf⟩ := results_foldl_pass v js (p.pass j (v j))
    rw [List.foldl_cons, hr, hf, List.filter_cons]
    cases hv : v j <;> simp [Progress.pass, hv, Dict.update]

theorem results_foldl_settle {α : Type} (name : α → String) (f : α → JobResult) : ∀ (l : List α) (p : Progress),
    (l.foldl (fun p a => p.settle (name a) (f a)) p).results = p.results.update ⟨l.map fun a => (name a, f a)⟩ ∧
      (l.foldl (fun p a => p.settle (name a) (f a)) p).failed = (p.failed || l.any (f · == .failure))
  | [], p => ⟨rfl, by simp⟩
  | a :: l, p => by
    obtain ⟨hr, hf⟩ := results_foldl_settle name f l (p.settle (name a) (f a))
    rw [List.foldl_cons, hr, hf, List.any_cons, ← Bool.or_assoc]
    exact ⟨rfl, rfl⟩

namespace Run

/-- The result that an outcome stands for. -/
def ended : Except Fault JobResult → JobResult
  | .ok r => r
  | .error _ => .failure

/-- An outcome that is no interruption. -/
def Settles (x : Except Fault JobResult) : Prop := settled x = .ok (ended x)

theorem receive_of_settles {x : Except Fault JobResult} (h : Settles x) (p : Progress) (n : String) :
    receive p n x = .ok (p.settle n (ended x)) := by
  rw [receive, h]; rfl

theorem receive_eq_ok {x : Except Fault JobResult} {p p' : Progress} {n : String} (h : receive p n x = .ok p') :
    p' = p.settle n (ended x) := by
  unfold receive at h
  cases x with
  | ok r => cases h; rfl
  | error f =>
    by_cases hf : f.isOrdinary = true
    · simp only [settled, hf, if_true] at h; cases h; rfl
    · simp only [settled, hf] at h; cases h

theorem foldlM_receive_of_settles {E : Outcomes} : ∀ {js : List Job}, (∀ j ∈ js, Settles (E j.name)) → ∀ p : Progress,
    js.foldlM (fun p j => receive p j.name (E j.name)) p =
      .ok (js.foldl (fun p j => p.settle j.name (ended (E j.name))) p)
  | [], _, _ => rfl
  | j :: js, h, p => by
    rw [List.foldlM_cons, receive_of_settles (h j (List.mem_cons_self ..))]
    exact foldlM_receive_of_settles (fun k hk => h k (List.mem_cons_of_mem _ hk)) _

theorem foldlM_receive_eq_ok {E : Outcomes} : ∀ {js : List Job} {p p' : Progress},
    js.foldlM (fun p j => receive p j.name (E j.name)) p = .ok p' →
      p' = js.foldl (fun p j => p.settle j.name (ended (E j.name))) p
  | [], p, p', h => by cases h; rfl
  | j :: js, p, p', h => by
    rw [List.foldlM_cons] at h
    cases hr : receive p j.name (E j.name) with
    | error f => rw [hr] at h; cases h
    | ok q =>
      rw [hr] at h
      rw [List.foldl_cons, ← receive_eq_ok hr]
      exact foldlM_receive_eq_ok h

end Run

/-! ## A level -/

/-- The part of a setting that the verdicts look at. -/
def Setting.scene (c : Setting) : RunScene := ⟨Groups.ofJobs c.jobs, c.trigger, c.platform, c.failFast⟩

section

variable {c : Setting} {placed : Finset String}

/-- Jobs of a level: jobs that are not placed, each once, and all that precedes them is placed. -/
structure Setting.Follows (c : Setting) (placed : Finset String) (js : List Job) : Prop where
  mem : ∀ j ∈ js, j ∈ c.jobs
  fresh : ∀ j ∈ js, j.name ∉ placed
  before : ∀ j ∈ js, ∀ d, Precedes c.jobs d j → d.name ∈ placed
  nodup : (js.map (·.name)).Nodup

/-- The verdicts on a level are those that its jobs are to have, given the results of what is placed. -/
theorem screen_eq (hwf : WellFormed c.jobs) {R : String → JobResult} (b : Bool) :
    ∀ {js : List Job} {p : Progress}, c.Follows placed js → (∀ n ∈ placed, p.results.get? n = some (R n)) →
      (∀ n, n ∉ c.jobs.map (·.name) → p.results.get? n = none) → p.failed = b →
      p.screen c.scene js =
        .ok (js.foldl (fun p j => p.pass j (verdictOf c R (c.failFast && b) j)) p,
          js.map fun j => (j, verdictOf c R (c.failFast && b) j))
  | [], p, _, _, _, _ => rfl
  | j :: js, p, hjs, hval, hno, hb => by
    have hj := hjs.mem j (List.mem_cons_self ..)
    have hdec : j.decide p.results (Groups.ofJobs c.jobs) c.trigger c.platform (c.failFast && b) =
        .ok (verdictOf c R (c.failFast && b) j) :=
      j.decide_eq c hwf hj (fun d hd => hval _ (hjs.before j (List.mem_cons_self ..) d hd)) hno _
    have hrest : c.Follows placed js :=
      ⟨fun k hk => hjs.mem k (List.mem_cons_of_mem _ hk), fun k hk => hjs.fresh k (List.mem_cons_of_mem _ hk),
        fun k hk => hjs.before k (List.mem_cons_of_mem _ hk), (List.nodup_cons.1 hjs.nodup).2⟩
    -- passing over a job of the level changes nothing that the jobs after it look at
    have hpass : ∀ n, n ≠ j.name →
        (p.pass j (verdictOf c R (c.failFast && b) j)).results.get? n = p.results.get? n := by
      intro n hn
      unfold Progress.pass
      split
      · rfl
      · rw [Dict.get?_set, if_neg hn]
    have hfailed : (p.pass j (verdictOf c R (c.failFast && b) j)).failed = b := by
      unfold Progress.pass
      split <;> exact hb
    have ih := screen_eq hwf (R := R) b hrest
      (fun n hn => by rw [hpass n fun h => hjs.fresh j (List.mem_cons_self ..) (h ▸ hn)]; exact hval n hn)
      (fun n hn => by rw [hpass n fun h => hn (h ▸ List.mem_map.2 ⟨j, hj, rfl⟩)]; exact hno n hn) hfailed
    rw [Progress.screen, Setting.scene]
    simp only [hb, hdec, bind, Except.bind]
    rw [← Setting.scene, ih]
    rfl

theorem chosen_map (v : Job → Verdict) : ∀ js : List Job, chosen (js.map fun j => (j, v j)) = js.filter (v · = .run)
  | [] => rfl
  | j :: js => by
    have ih := chosen_map v js
    unfold chosen at ih ⊢
    rw [List.map_cons, List.filter_cons, List.filter_cons]
    by_cases hv : v j = .run <;> simp [hv, ih]

/-- The verdict on a job of a level, given the progress before the level. -/
def Setting.levelVerdict (c : Setting) (p : Progress) : Job → Verdict := verdictOf c p.value (c.failFast && p.failed)

/-- The jobs of a level that run, given the progress before the level. -/
def Setting.levelRuns (c : Setting) (p : Progress) (js : List Job) : List Job := js.filter (c.levelVerdict p · = .run)

/-- The progress after a level: the jobs that do not run are passed over, and then the others are settled. -/
def Setting.levelDone (c : Setting) (E : Run.Outcomes) (p : Progress) (js : List Job) : Progress :=
  (c.levelRuns p js).foldl (fun p j => p.settle j.name (Run.ended (E j.name)))
    (js.foldl (fun q j => q.pass j (c.levelVerdict p j)) p)

/-- The result that a level gives a job. -/
def Setting.levelResult (c : Setting) (E : Run.Outcomes) (p : Progress) (j : Job) : JobResult :=
  if c.levelVerdict p j = .run then Run.ended (E j.name) else (c.levelVerdict p j).result

theorem Setting.mem_levelRuns {p : Progress} {js : List Job} {j : Job} :
    j ∈ c.levelRuns p js ↔ j ∈ js ∧ c.levelVerdict p j = .run := by
  rw [levelRuns, List.mem_filter, decide_eq_true_iff]

/-- The course of a level is to settle the jobs that run after the others have been passed over. -/
theorem courseLevel_eq (hwf : WellFormed c.jobs) {p : Progress} {js : List Job} (hp : p.Knows placed)
    (hsub : placed ⊆ (c.jobs.map (·.name)).toFinset) (hjs : c.Follows placed js) (workers : Int) (E : Run.Outcomes) :
    Run.levelJobs c.scene workers p js = (if workers < 1 then [] else c.levelRuns p js) ∧
      Run.courseLevel c.scene workers E p js =
        if workers < 1 ∧ c.levelRuns p js ≠ [] then .error .noWorkers
        else (c.levelRuns p js).foldlM (fun p j => Run.receive p j.name (E j.name))
          (js.foldl (fun q j => q.pass j (c.levelVerdict p j)) p) := by
  have hscreen := screen_eq hwf (R := p.value) p.failed hjs (fun n hn => hp.get?_eq hn)
    (fun n hn => hp.get?_eq_none fun h => hn (List.mem_toFinset.1 (hsub h))) rfl
  unfold Run.levelJobs Run.courseLevel Run.screened
  simp only [hscreen, chosen_map]
  refine ⟨rfl, ?_⟩
  change (if (c.levelRuns p js).isEmpty = true then _ else if workers < 1 then _ else _) = _
  by_cases hnone : c.levelRuns p js = []
  · rw [hnone, if_pos List.isEmpty_nil, if_neg fun h => h.2 rfl]; rfl
  · rw [if_neg (by rwa [List.isEmpty_iff])]
    simp only [hnone, ne_eq, not_false_eq_true, and_true]
    rfl

/-- A level whose course ends well has settled all of its jobs that run. -/
theorem courseLevel_eq_ok (hwf : WellFormed c.jobs) {p p' : Progress} {js : List Job} (hp : p.Knows placed)
    (hsub : placed ⊆ (c.jobs.map (·.name)).toFinset) (hjs : c.Follows placed js) {workers : Int} {E : Run.Outcomes}
    (h : Run.courseLevel c.scene workers E p js = .ok p') :
    Run.levelJobs c.scene workers p js = c.levelRuns p js ∧ p' = c.levelDone E p js := by
  obtain ⟨hjobs, hcourse⟩ := courseLevel_eq hwf hp hsub hjs workers E
  rw [hcourse] at h
  split at h
  · cases h
  · rename_i hw
    refine ⟨?_, Run.foldlM_receive_eq_ok h⟩
    rw [hjobs]
    split
    · rename_i hlt
      exact (not_not.1 fun hne => hw ⟨hlt, hne⟩).symm
    · rfl

/-- A level gives each of its jobs its result, and leaves all other results as they were. -/
theorem get?_levelDone (c : Setting) (E : Run.Outcomes) {p : Progress} {js : List Job} (hnd : (js.map (·.name)).Nodup) :
    (∀ j ∈ js, (c.levelDone E p js).results.get? j.name = some (c.levelResult E p j)) ∧
      ∀ n, n ∉ js.map (·.name) → (c.levelDone E p js).results.get? n = p.results.get? n := by
  have hset := (results_foldl_settle Job.name (fun j => Run.ended (E j.name)) (c.levelRuns p js)
    (js.foldl (fun q j => q.pass j (c.levelVerdict p j)) p)).1
  rw [(results_foldl_pass (c.levelVerdict p) js p).1] at hset
  -- first the names of the jobs that do not run are set, then those of the jobs that do
  have hsub : ∀ q : Job → Bool, ((js.filter q).map (·.name)).Sublist (js.map (·.name)) :=
    fun q => List.filter_sublist.map _
  obtain ⟨hpin, hpout⟩ := Dict.get?_update_named Job.name (fun j => (c.levelVerdict p j).result)
    ((hsub (c.levelVerdict p · ≠ .run)).nodup hnd) p.results
  have hruns : ((c.levelRuns p js).map (·.name)).Nodup := (hsub _).nodup hnd
  obtain ⟨hsin, hsout⟩ := Dict.get?_update_named Job.name (fun j => Run.ended (E j.name)) hruns (p.results.update _)
  rw [Setting.levelDone, hset]
  refine ⟨fun j hj => ?_, fun n hn => ?_⟩
  · unfold Setting.levelResult
    split
    · rename_i hv
      exact hsin j (Setting.mem_levelRuns.2 ⟨hj, hv⟩)
    · rename_i hv
      -- no job that runs has the name of one that does not
      have hno : j.name ∉ (c.levelRuns p js).map (·.name) := by
        intro hm
        obtain ⟨k, hk, hname⟩ := List.mem_map.1 hm
        obtain ⟨hkjs, hkrun⟩ := Setting.mem_levelRuns.1 hk
        rw [List.inj_on_of_nodup_map hnd hkjs hj hname] at hkrun
        exact hv hkrun
      rw [hsout j.name hno]
      exact hpin j (List.mem_filter.2 ⟨hj, decide_eq_true hv⟩)
  · rw [hsout n fun hm => hn ((hsub _).subset hm), hpout n fun hm => hn ((hsub _).subset hm)]

/-- After a level the run counts as failed if it did before, or if a job of the level failed. -/
theorem failed_levelDone (c : Setting) (E : Run.Outcomes) (p : Progress) (js : List Job) :
    (c.levelDone E p js).failed = true ↔ p.failed = true ∨ ∃ j ∈ js, c.levelResult E p j = .failure := by
  have hfailed := (results_foldl_settle Job.name (fun j => Run.ended (E j.name)) (c.levelRuns p js)
    (js.foldl (fun q j => q.pass j (c.levelVerdict p j)) p)).2
  rw [(results_foldl_pass (c.levelVerdict p) js p).2] at hfailed
  rw [Setting.levelDone, hfailed, Bool.or_eq_true, List.any_eq_true]
  refine or_congr_right ⟨?_, ?_⟩
  · rintro ⟨j, hj, hr⟩
    obtain ⟨hjs, hrun⟩ := Setting.mem_levelRuns.1 hj
    refine ⟨j, hjs, ?_⟩
    rw [Setting.levelResult, if_pos hrun]
    exact eq_of_beq hr
  · rintro ⟨j, hj, hr⟩
    unfold Setting.levelResult at hr
    split at hr
    · rename_i hv
      exact ⟨j, Setting.mem_levelRuns.2 ⟨hj, hv⟩, beq_iff_eq.2 hr⟩
    · rename_i hv
      rw [Setting.levelVerdict, result_verdictOf hv] at hr
      split at hr <;> cases hr

/-- After a level, the names of its jobs are placed too. -/
theorem knows_level {p p' : Progress} {js : List Job} {f : Job → JobResult} (hp : p.Knows placed)
    (hjs : c.Follows placed js) (hin : ∀ j ∈ js, p'.results.get? j.name = some (f j))
    (hout : ∀ n, n ∉ js.map (·.name) → p'.results.get? n = p.results.get? n)
    (hfailed : p'.failed = true ↔ p.failed = true ∨ ∃ j ∈ js, f j = .failure) :
    p'.Knows (placed ∪ (js.map (·.name)).toFinset) ∧ ∀ n ∈ placed, p'.value n = p.value n := by
  have hkeep : ∀ n ∈ placed, p'.value n = p.value n := by
    intro n hn
    have hno : n ∉ js.map (·.name) := by
      intro hm
      obtain ⟨j, hj, rfl⟩ := List.mem_map.1 hm
      exact hjs.fresh j hj hn
    rw [Progress.value, hout n hno, Progress.value]
  have hnew : ∀ j ∈ js, p'.value j.name = f j := fun j hj => by rw [Progress.value, hin j hj]; rfl
  refine ⟨⟨fun n => ?_, ?_⟩, hkeep⟩
  · rw [Finset.mem_union, List.mem_toFinset]
    by_cases hn : n ∈ js.map (·.name)
    · obtain ⟨j, hj, rfl⟩ := List.mem_map.1 hn
      rw [hin j hj]
      exact iff_of_true rfl (.inr hn)
    · rw [hout n hn, hp.isSome]
      exact ⟨.inl, fun h => h.resolve_right hn⟩
  · rw [hfailed, hp.failed]
    constructor
    · rintro (⟨n, hn, hr⟩ | ⟨j, hj, hr⟩)
      · exact ⟨n, Finset.mem_union_left _ hn, by rw [hkeep n hn]; exact hr⟩
      · exact ⟨j.name, Finset.mem_union_right _ (List.mem_toFinset.2 (List.mem_map.2 ⟨j, hj, rfl⟩)), by
          rw [hnew j hj]; exact hr⟩
    · rintro ⟨n, hn, hr⟩
      rcases Finset.mem_union.1 hn with hn | hn
      · exact .inl ⟨n, hn, by rw [← hkeep n hn]; exact hr⟩
      · obtain ⟨j, hj, rfl⟩ := List.mem_map.1 (List.mem_toFinset.1 hn)
        exact .inr ⟨j, hj, by rw [← hnew j hj]; exact hr⟩

theorem Setting.levelVerdict_eq_run {p : Progress} {j : Job} :
    c.levelVerdict p j = .run ↔ c.isDue p.value j = true ∧ (c.failFast && p.failed) = false := verdictOf_eq_run

theorem Setting.levelResult_eq (c : Setting) (E : Run.Outcomes) (p : Progress) (j : Job) :
    c.levelResult E p j = if !c.isDue p.value j then .skipped
      else if c.failFast && p.failed then .cancelled else Run.ended (E j.name) := by
  unfold Setting.levelResult
  split
  · rename_i hv
    obtain ⟨hdue, hgo⟩ := Setting.levelVerdict_eq_run.1 hv
    rw [hdue, hgo]; rfl
  · rename_i hv
    rw [Setting.levelVerdict, result_verdictOf hv]
    rw [Setting.levelVerdict_eq_run, not_and, Bool.not_eq_false] at hv
    cases hdue : c.isDue p.value j with
    | false => rfl
    | true => rw [hv hdue]; rfl

/-- The course of a level that ends well places its jobs, with the results that their equations ask for. -/
theorem courseLevel_spec (hwf : WellFormed c.jobs) {p p' : Progress} {js : List Job} (hp : p.Knows placed)
    (hsub : placed ⊆ (c.jobs.map (·.name)).toFinset) (hjs : c.Follows placed js) {workers : Int} {E : Run.Outcomes}
    (h : Run.courseLevel c.scene workers E p js = .ok p') :
    p'.Knows (placed ∪ (js.map (·.name)).toFinset) ∧ (∀ n ∈ placed, p'.value n = p.value n) ∧
      ∀ j ∈ js, p'.value j.name = c.levelResult E p j := by
  obtain rfl := (courseLevel_eq_ok hwf hp hsub hjs h).2
  obtain ⟨hin, hout⟩ := get?_levelDone c E hjs.nodup
  obtain ⟨hknows, hkeep⟩ := knows_level hp hjs hin hout (failed_levelDone c E p js)
  exact ⟨hknows, hkeep, fun j hj => by rw [Progress.value, hin j hj]; rfl⟩

/-- The course of a level ends well if none of its executions is interrupted. -/
theorem courseLevel_of_settles (hwf : WellFormed c.jobs) {p : Progress} {js : List Job} (hp : p.Knows placed)
    (hsub : placed ⊆ (c.jobs.map (·.name)).toFinset) (hjs : c.Follows placed js) {workers : Int} (hw : 1 ≤ workers)
    {E : Run.Outcomes} (hE : ∀ j ∈ c.jobs, Run.Settles (E j.name)) :
    ∃ p', Run.courseLevel c.scene workers E p js = .ok p' := by
  rw [(courseLevel_eq hwf hp hsub hjs workers E).2, if_neg fun h => absurd h.1 (by omega),
    Run.foldlM_receive_of_settles fun j hj => hE j (hjs.mem j (Setting.mem_levelRuns.1 hj).1)]
  exact ⟨_, rfl⟩

end

end CiPipeline
