import CiPipeline.Proofs.Run.Interruption

/-
The order in which the jobs of a level complete. The outcomes of a level are handled one by one as its
jobs complete. What this comes to can be told without their order (`Handled`): each of them writes the
result of its own job, and a failure once noted stays. So from progress that is alike every order leads
to progress that is alike, level after level, and a run returns the same in whatever order the jobs of
each of its levels complete (`completion_order`).
-/

namespace CiPipeline

/-! ## Progress that is alike -/

/-- A job is decided about by the results that it looks up, in whatever order these came. -/
theorem Job.decide_congr {d e : Dict JobResult} (h : ∀ n, d.get? n = e.get? n) (j : Job) (groups : Groups)
    (t : Trigger) (platform : String) (halted : Bool) :
    j.decide d groups t platform halted = j.decide e groups t platform halted := by
  have hresult : resultOf d = resultOf e := by
    funext n
    rw [resultOf, resultOf, h]
  have hneed : needResult d groups = needResult e groups := by
    funext need
    unfold needResult
    rw [hresult, h]
  rw [Job.decide, Job.view, hneed, ← Job.view, ← Job.decide]

namespace Progress

/-- The same results, in whatever order they came, and a failure noted in both or in neither. -/
structure Alike (p q : Progress) : Prop where
  results : p.results.Alike q.results
  failed : p.failed = q.failed

variable {p q : Progress}

theorem alike_refl (h : p.results.keys.Nodup) : p.Alike p := ⟨⟨h, h, fun _ => rfl⟩, rfl⟩

theorem Alike.trans {r : Progress} (h : p.Alike q) (h' : q.Alike r) : p.Alike r :=
  ⟨⟨h.results.nodup, h'.results.nodup', fun n => (h.results.get?_eq n).trans (h'.results.get?_eq n)⟩,
    h.failed.trans h'.failed⟩

theorem Alike.pass (h : p.Alike q) (j : Job) (v : Verdict) : (p.pass j v).Alike (q.pass j v) := by
  cases v with
  | run => exact h
  | gateFalse | otherPlatform | cancelled => exact ⟨h.results.set _ _, h.failed⟩

/-- From progress that is alike, the same is decided about the jobs of a level. -/
theorem Alike.screen (s : RunScene) : ∀ (js : List Job) {p q : Progress}, p.Alike q →
    (∃ n, p.screen s js = .error n ∧ q.screen s js = .error n) ∨
      ∃ p' q' vs, p.screen s js = .ok (p', vs) ∧ q.screen s js = .ok (q', vs) ∧ p'.Alike q'
  | [], p, q, h => .inr ⟨p, q, [], rfl, rfl, h⟩
  | j :: js, p, q, h => by
    rw [Progress.screen, Progress.screen, ← h.failed, ← Job.decide_congr h.results.get?_eq]
    cases j.decide p.results s.groups s.trigger s.platform (s.failFast && p.failed) with
    | error n => exact .inl ⟨n, rfl, rfl⟩
    | ok v =>
      rcases Alike.screen s js (h.pass j v) with ⟨n, hp, hq⟩ | ⟨p', q', vs, hp, hq, halike⟩
      · refine .inl ⟨n, ?_, ?_⟩
        · simp only [bind, Except.bind, hp]
        · simp only [bind, Except.bind, hq]
      · refine .inr ⟨p', q', (j, v) :: vs, ?_, ?_, halike⟩
        · simp only [bind, Except.bind, hp]
          rfl
        · simp only [bind, Except.bind, hq]
          rfl

end Progress

namespace Run

/-! ## Outcomes in any order -/

/-- The progress when the outcomes of some calls have been handled, in whatever order. -/
structure Handled (p : Progress) (cs : List Call) (q : Progress) : Prop where
  nodup : q.results.keys.Nodup
  settled : ∀ c ∈ cs, q.results.get? c.1.name = some (ended c.2)
  kept : ∀ n, n ∉ cs.map (·.1.name) → q.results.get? n = p.results.get? n
  failed : q.failed = true ↔ p.failed = true ∨ ∃ c ∈ cs, ended c.2 = .failure

section

variable {p p' q q' : Progress} {cs cs' : List Call}

theorem Handled.perm (h : Handled p cs q) (hperm : cs.Perm cs') : Handled p cs' q where
  nodup := h.nodup
  settled c hc := h.settled c (hperm.mem_iff.2 hc)
  kept n hn := h.kept n fun hm => hn ((hperm.map _).mem_iff.1 hm)
  failed := by
    rw [h.failed]
    exact or_congr_right (exists_congr fun c => and_congr_left fun _ => hperm.mem_iff)

/-- There is one way only in which the outcomes can have been handled. -/
theorem Handled.alike (h : Handled p cs q) (h' : Handled p' cs q') (hp : p.Alike p') : q.Alike q' := by
  refine ⟨⟨h.nodup, h'.nodup, fun n => ?_⟩, ?_⟩
  · by_cases hn : n ∈ cs.map (·.1.name)
    · obtain ⟨c, hc, rfl⟩ := List.mem_map.1 hn
      rw [h.settled c hc, h'.settled c hc]
    · rw [h.kept n hn, h'.kept n hn, hp.results.get?_eq]
  · rw [Bool.eq_iff_iff, h.failed, h'.failed, hp.failed]

theorem handled_foldl (hp : p.results.keys.Nodup) (hnd : (cs.map (·.1.name)).Nodup) :
    Handled p cs (cs.foldl (fun p c => p.settle c.1.name (ended c.2)) p) := by
  obtain ⟨hresults, hfailed⟩ := results_foldl_settle (fun c : Call => c.1.name) (fun c => ended c.2) cs p
  obtain ⟨hin, hout⟩ := Dict.get?_update_named (fun c : Call => c.1.name) (fun c => ended c.2) hnd p.results
  refine ⟨hresults ▸ Dict.nodup_keys_update hp _, fun c hc => ?_, fun n hn => ?_, ?_⟩
  · rw [hresults, hin c hc]
  · rw [hresults, hout n hn]
  · simp only [hfailed, Bool.or_eq_true, List.any_eq_true, beq_iff_eq]

/-- Outcomes without an interruption are handled, and the notes on them change nothing. -/
theorem exists_received (hnone : ∀ c ∈ cs, interruption? c.2 = none) (hp : p.results.keys.Nodup)
    (hnd : (cs.map (·.1.name)).Nodup) :
    ∃ q, Handled p cs q ∧ cs.foldlM (fun p c => receive p c.1.name c.2) p = .ok q ∧
      ∀ o h, ((cs.foldlM (conclude o) p).on h).1 = .ok q := by
  refine ⟨_, handled_foldl hp hnd, ?_, fun o h => ?_⟩
  · rw [foldlM_receive_eq, firstInterruption?_eq_none.2 hnone]
  · rw [on_foldlM_conclude, firstInterruption?_eq_none.2 hnone]

end

/-! ## Runs with an order of completion -/

/-- In which order the jobs of a level complete, given the calls that are made in it. -/
structure Completion where
  order : List Call → List Call
  perm : ∀ cs, (order cs).Perm cs

/-- The jobs complete in the order in which they were begun. -/
def Completion.asBegun : Completion := ⟨id, fun cs => .refl cs⟩

/-- The jobs complete in the opposite order. -/
def Completion.lastFirst : Completion := ⟨List.reverse, List.reverse_perm⟩

/-- Runs a level whose outcomes are handled in the order of completion. -/
def levelIn (q : Completion) (s : RunScene) (o : RunOptions) (workers : Int) (execute : Executor) (p : Progress)
    (js : List Job) : Act Progress := do
  let done ← callLevel s o workers execute p js
  (q.order done).foldlM (conclude o) (screened s p js).1

/-- Runs jobs whose outcomes are handled, level by level, in the order of completion. -/
def runIn (q : Completion) (jobs : List Job) (t : Trigger) (o : RunOptions) (execute : Executor) :
    Act (List (String × JobResult)) := do
  let graph ← Act.ofExcept .graph (Graph.ofJobs jobs)
  let levels ← Act.ofExcept .graph graph.levels
  let h ← get
  let p ← (levels.map (named jobs)).foldlM (levelIn q (sceneOf jobs t o h) o (workers o h) execute) {}
  return inOrder levels p.results

/-- A run handles outcomes in the order in which it began the jobs. -/
theorem runIn_asBegun (jobs : List Job) (t : Trigger) (o : RunOptions) (execute : Executor) :
    runIn .asBegun jobs t o execute = run jobs t o execute := by
  have hlevel : levelIn .asBegun = level := by
    funext s o workers execute p js
    exact (level_eq s o workers execute p js).symm
  rw [runIn, hlevel]
  rfl

/-- Of each of the jobs comes what is assigned to it, on every host, and this is no interruption. -/
structure Assigned (execute : Executor) (E : Outcomes) (js : List Job) : Prop where
  gives : ∀ j ∈ js, (execute j).Gives (E j.name)
  ordinary : ∀ j ∈ js, interruption? (E j.name) = none

theorem Assigned.subset {execute : Executor} {E : Outcomes} {js js' : List Job} (h : Assigned execute E js')
    (hsub : js ⊆ js') : Assigned execute E js :=
  ⟨fun j hj => h.gives j (hsub hj), fun j hj => h.ordinary j (hsub hj)⟩

/-- Two ends of a run: with one fault, or with progress that is alike. -/
inductive EndsAlike : Except Fault Progress → Except Fault Progress → Prop
  | fault (f : Fault) : EndsAlike (.error f) (.error f)
  | progress {p q : Progress} : p.Alike q → EndsAlike (.ok p) (.ok q)

theorem EndsAlike.of_error {f : Fault} {x : Except Fault Progress} (h : EndsAlike (.error f) x) : x = .error f := by
  cases h
  rfl

theorem EndsAlike.of_ok {p : Progress} {x : Except Fault Progress} (h : EndsAlike (.ok p) x) :
    ∃ q, x = .ok q ∧ p.Alike q := by
  cases h with
  | progress hpq => exact ⟨_, rfl, hpq⟩

theorem EndsAlike.trans {x y z : Except Fault Progress} (h : EndsAlike x y) (h' : EndsAlike y z) : EndsAlike x z := by
  cases h with
  | fault f => exact h'
  | progress hpq =>
    obtain ⟨r, rfl, hqr⟩ := h'.of_ok
    exact .progress (hpq.trans hqr)

section

variable {q : Completion} {s : RunScene} {o : RunOptions} {workers : Int} {execute : Executor} {E : Outcomes}
  {p p' : Progress} {js : List Job}

theorem nodup_screened (hp : p.results.keys.Nodup) : (screened s p js).1.results.keys.Nodup := by
  unfold screened
  rcases (Progress.alike_refl hp).screen s js with ⟨n, hn, -⟩ | ⟨p', _, vs, hvs, -, halike⟩
  · rw [hn]
    exact hp
  · rw [hvs]
    exact halike.results.nodup

/-- Outcomes of the same jobs are received alike by progress that is alike. -/
theorem EndsAlike.received (hE : ∀ j ∈ js, interruption? (E j.name) = none) (hnd : (js.map (·.name)).Nodup)
    (h : p.Alike p') : EndsAlike (js.foldlM (fun p j => receive p j.name (E j.name)) p)
      (js.foldlM (fun p j => receive p j.name (E j.name)) p') := by
  let calls : List Call := js.map fun j => (j, E j.name)
  have hcalls : ∀ r : Progress, js.foldlM (fun p j => receive p j.name (E j.name)) r =
      calls.foldlM (fun p c => receive p c.1.name c.2) r := fun r => by rw [List.foldlM_map]
  have hordinary : ∀ c ∈ calls, interruption? c.2 = none := by
    intro c hc
    obtain ⟨j, hj, rfl⟩ := List.mem_map.1 hc
    exact hE j hj
  have hnames : (calls.map (·.1.name)).Nodup := by
    rw [List.map_map]
    exact hnd
  obtain ⟨r, hr, hrun, -⟩ := exists_received hordinary h.results.nodup hnames
  obtain ⟨r', hr', hrun', -⟩ := exists_received hordinary h.results.nodup' hnames
  rw [hcalls, hcalls, hrun, hrun']
  exact .progress (hr.alike hr' h)

/-- A level ends alike from progress that is alike. -/
theorem EndsAlike.courseLevel (hE : ∀ j ∈ js, interruption? (E j.name) = none) (hnd : (js.map (·.name)).Nodup)
    (h : p.Alike p') : EndsAlike (courseLevel s workers E p js) (courseLevel s workers E p' js) := by
  unfold Run.courseLevel
  rcases h.screen s js with ⟨n, hp, hp'⟩ | ⟨r, r', vs, hp, hp', halike⟩
  · rw [hp, hp']
    exact .fault _
  · rw [hp, hp']
    have hsub : (chosen vs).Sublist js := map_fst_screen s hp ▸ chosen_sublist vs
    simp only
    split
    · exact .progress halike
    · split
      · exact .fault _
      · exact .received (fun j hj => hE j (hsub.subset hj)) ((hsub.map _).nodup hnd) halike

/-- A level ends as its course does, whatever the order of completion. -/
theorem levelIn_ends (hjs : Assigned execute E js) (hnd : (js.map (·.name)).Nodup) (hp : p.results.keys.Nodup)
    (h : Host) : EndsAlike ((levelIn q s o workers execute p js).on h).1 (courseLevel s workers E p js) := by
  unfold levelIn
  rcases on_callLevel s o workers execute p js h with
    ⟨f, h', hcall, -, hcourse⟩ | ⟨done, h', hcall, hjobs, hreal, hcourse⟩
  · rw [Act.on_bind_error hcall, hcourse E]
    exact .fault f
  · have hsub : (done.map (·.1)).Sublist js := hjobs ▸ levelJobs_sublist s workers p js
    have hassigned : ∀ c ∈ done, c.1 ∈ js ∧ E c.1.name = c.2 := by
      intro c hc
      have hj := hsub.subset (List.mem_map_of_mem hc)
      obtain ⟨h₁, hx⟩ := hreal c hc
      exact ⟨hj, by rw [← hx, hjs.gives c.1 hj h₁]⟩
    have hordinary : ∀ c ∈ done, interruption? c.2 = none := by
      intro c hc
      obtain ⟨hj, hx⟩ := hassigned c hc
      rw [← hx]
      exact hjs.ordinary c.1 hj
    have hnames : (done.map (·.1.name)).Nodup := by
      have hmap := (hsub.map (·.name)).nodup hnd
      rwa [List.map_map] at hmap
    have hperm := q.perm done
    obtain ⟨r, hr, hrun, -⟩ := exists_received hordinary (nodup_screened hp) hnames
    obtain ⟨r', hr', -, hrun'⟩ := exists_received (fun c (hc : c ∈ q.order done) => hordinary c (hperm.mem_iff.1 hc))
      (nodup_screened hp) ((hperm.map _).nodup_iff.2 hnames)
    rw [Act.on_bind_ok hcall, hrun', hcourse E fun c hc => (hassigned c hc).2, hrun]
    exact .progress ((hr'.perm hperm).alike hr (Progress.alike_refl (nodup_screened hp)))

/-- So do several levels, one after another. -/
theorem levelsIn_end : ∀ (jss : List (List Job)) {p p' : Progress} (h : Host),
    (∀ js ∈ jss, Assigned execute E js ∧ (js.map (·.name)).Nodup) → p.Alike p' →
      EndsAlike ((jss.foldlM (levelIn q s o workers execute) p).on h).1 (jss.foldlM (courseLevel s workers E) p')
  | [], p, p', h, _, halike => .progress halike
  | js :: rest, p, p', h, hjss, halike => by
    obtain ⟨hjs, hnd⟩ := hjss js (List.mem_cons_self ..)
    have hlevel : EndsAlike ((levelIn q s o workers execute p js).on h).1 (courseLevel s workers E p' js) :=
      (levelIn_ends hjs hnd halike.results.nodup h).trans (.courseLevel hjs.ordinary hnd halike)
    rw [List.foldlM_cons, List.foldlM_cons]
    rcases hon : (levelIn q s o workers execute p js).on h with ⟨f | r, h'⟩
    · rw [hon] at hlevel
      rw [Act.on_bind_error hon, hlevel.of_error]
      exact .fault f
    · rw [hon] at hlevel
      obtain ⟨r', hcourse, hr⟩ := hlevel.of_ok
      rw [Act.on_bind_ok hon, hcourse]
      exact levelsIn_end rest h' (fun js' hjs' => hjss js' (List.mem_cons_of_mem _ hjs')) hr

end

section

variable {jobs : List Job} {g : Graph} {levels : List (List String)} {execute : Executor} {E : Outcomes}

theorem inOrder_congr {d e : Dict JobResult} (h : ∀ n, d.get? n = e.get? n) (levels : List (List String)) :
    inOrder levels d = inOrder levels e := by
  unfold inOrder
  simp only [h]

/-- A run returns the results of its course, whatever the order of completion. -/
theorem runIn_eq_course (hg : Graph.ofJobs jobs = .ok g) (hl : g.levels = .ok levels) (hjobs : Assigned execute E jobs)
    (q : Completion) (t : Trigger) (o : RunOptions) (h : Host) :
    ((runIn q jobs t o execute).on h).1 = course jobs levels t o E h := by
  have hc : (settingOf jobs levels t o h).Leveled := leveled hg hl
  have hlevels : ∀ js ∈ levels.map (named jobs), Assigned execute E js ∧ (js.map (·.name)).Nodup := by
    intro js hjs
    obtain ⟨level, hlevel, rfl⟩ := List.mem_map.1 hjs
    have hnames : level ⊆ jobs.map (·.name) := fun n hn =>
      hc.perm.subset (List.mem_flatten.2 ⟨level, hlevel, hn⟩)
    refine ⟨hjobs.subset fun j hj => (mem_of_mem_named hj).1, ?_⟩
    rw [map_name_named hnames]
    exact (List.nodup_flatten.1 hc.layered.nodup_flatten).1 level hlevel
  have hends : EndsAlike
      (((levels.map (named jobs)).foldlM (levelIn q (sceneOf jobs t o h) o (workers o h) execute) {}).on h).1
      ((levels.map (named jobs)).foldlM (courseLevel (sceneOf jobs t o h) (workers o h) E) {}) :=
    levelsIn_end (levels.map (named jobs)) h hlevels (Progress.alike_refl List.nodup_nil)
  unfold runIn course
  simp only [hg, hl, Act.ofExcept, pure_bind]
  rw [Act.on_bind_ok (Act.on_get h), Act.on_bind]
  rcases hon : ((levels.map (named jobs)).foldlM (levelIn q (sceneOf jobs t o h) o (workers o h) execute) {}).on h
    with ⟨f | p, h'⟩
  · rw [hon] at hends
    rw [hends.of_error]
    rfl
  · rw [hon] at hends
    obtain ⟨p', hcourse, halike⟩ := hends.of_ok
    rw [hcourse]
    exact congrArg Except.ok (inOrder_congr halike.results.get?_eq levels)

/-- A run returns the same whatever the order of completion. -/
theorem runIn_eq_run (hjobs : Assigned execute E jobs) (q : Completion) (t : Trigger) (o : RunOptions) (h : Host) :
    ((runIn q jobs t o execute).on h).1 = ((run jobs t o execute).on h).1 := by
  rw [← runIn_asBegun]
  cases hg : Graph.ofJobs jobs with
  | error e =>
    unfold runIn
    simp only [hg, Act.ofExcept]
    rw [Act.on_bind_error (Act.on_fail _ h), Act.on_bind_error (Act.on_fail _ h)]
  | ok g =>
    cases hl : g.levels with
    | error e =>
      unfold runIn
      simp only [hg, hl, Act.ofExcept, pure_bind]
      rw [Act.on_bind_error (Act.on_fail _ h), Act.on_bind_error (Act.on_fail _ h)]
    | ok levels => rw [runIn_eq_course hg hl hjobs, runIn_eq_course hg hl hjobs]

end

/-- The order in which the jobs of a level complete does not matter. From any progress, outcomes of
different jobs without an interruption lead to the same results and the same note of a failure in
whatever order they are handled: each job gets its own result, and all other results stay. So a run
returns the same results, in the same order, in whatever order the jobs of any of its levels complete. -/
theorem completion_order :
    (∀ (p : Progress) (cs : List Call), p.results.keys.Nodup → (cs.map (·.1.name)).Nodup →
      (∀ c ∈ cs, interruption? c.2 = none) → ∃ q, Handled p cs q ∧ ∀ cs' : List Call, cs'.Perm cs → ∀ o h, ∃ q',
        ((cs'.foldlM (conclude o) p).on h).1 = .ok q' ∧ Handled p cs q' ∧ q'.Alike q ∧
          q'.results.entries.Perm q.results.entries) ∧
    ∀ (jobs : List Job) (execute : Executor) (E : Outcomes), Assigned execute E jobs →
      ∀ (q : Completion) (t : Trigger) (o : RunOptions) (h : Host),
        ((runIn q jobs t o execute).on h).1 = ((run jobs t o execute).on h).1 := by
  refine ⟨fun p cs hp hnd hnone => ?_, fun jobs execute E hjobs => runIn_eq_run hjobs⟩
  obtain ⟨q, hq, -⟩ := exists_received hnone hp hnd
  refine ⟨q, hq, fun cs' hperm o h => ?_⟩
  obtain ⟨q', hq', -, hrun⟩ := exists_received (fun c hc => hnone c (hperm.mem_iff.1 hc)) hp
    ((hperm.map _).nodup_iff.2 hnd)
  have hsame : Handled p cs q' := hq'.perm hperm
  have halike : q'.Alike q := hsame.alike hq (Progress.alike_refl hp)
  exact ⟨q', hrun o h, hsame, halike, halike.results.entries_perm⟩

end Run

namespace Sample

/-- The check comes to a failure, and everything else to a success. -/
def outcomes : Run.Outcomes := fun n => if n = "lint" then .error (.os .denied "lint") else .ok .success

theorem assigned_jobs : Run.Assigned execute outcomes jobs where
  gives j _ h := by
    unfold execute outcomes
    split <;> rfl
  ordinary j _ := by
    unfold outcomes
    split <;> rfl

/-- A job that was assumed to be cancelled, one that failed and one that succeeded. -/
def completed : List Run.Call := [
  ({ name := "docs", steps := [] }, .ok .cancelled),
  ({ name := "lint", steps := [] }, .error (.os .denied "lint")),
  ({ name := "build", steps := [] }, .ok .success)]

end Sample

namespace Run

/-- Outcomes that are handled from the last to the first, by themselves and in all levels of a run. -/
theorem completion_order_sample :
    (∃ q, ((Sample.completed.reverse.foldlM (conclude {}) {}).on Sample.host).1 = .ok q ∧ q.failed = true ∧
      q.results.get? "docs" = some .cancelled ∧ q.results.get? "lint" = some .failure) ∧
    ((runIn .lastFirst Sample.jobs Sample.trigger { failFast := true } Sample.execute).on Sample.host).1 =
      .ok [("build", .success), ("lint", .failure), ("test-linux", .cancelled), ("test-windows", .skipped),
        ("publish", .skipped)] := by
  obtain ⟨hfold, hrun⟩ := completion_order
  constructor
  · obtain ⟨_, -, hany⟩ := hfold {} Sample.completed List.nodup_nil (by decide) (by decide)
    obtain ⟨q, hq, hhandled, -⟩ := hany Sample.completed.reverse (List.reverse_perm _) {} Sample.host
    have hsettled := hhandled.settled
    simp only [Sample.completed, List.forall_mem_cons] at hsettled
    obtain ⟨hdocs, hlint, -⟩ := hsettled
    exact ⟨q, hq, hhandled.failed.2 (.inr ⟨_, List.mem_cons_of_mem _ (List.mem_cons_self ..), rfl⟩), hdocs, hlint⟩
  · rw [hrun _ _ _ Sample.assigned_jobs, ← runIn_asBegun,
      runIn_eq_course Sample.ofJobs_jobs Sample.levels_jobs Sample.assigned_jobs]
    rfl

end Run

end CiPipeline
