import CiPipeline.Graph
import CiPipeline.Proofs.Dict

/-
Which job has to finish before which, and the lists of jobs that have a graph. A need names a job,
or else all members of a matrix group. `ofJobs_eq_ok`: a list whose names are distinct, whose groups
are not named after jobs other than their only members, and whose needs are all there has the graph
of the precedence between its jobs; `ofJobs_eq_error`: any other list is refused.
-/

namespace CiPipeline

/-- The job is in the group of that name; the empty text names no group. -/
def Job.MemberOf (j : Job) (group : String) : Prop := j.group = some group ∧ group ≠ ""

/-- A job precedes another that needs it by its name, or by a group of it that is not the name of a job. -/
def Precedes (jobs : List Job) (d j : Job) : Prop :=
  d ∈ jobs ∧ j ∈ jobs ∧ ∃ need ∈ j.needs, need = d.name ∨ need ∉ jobs.map (·.name) ∧ d.MemberOf need

/-- The lists of jobs that have a graph. -/
structure WellFormed (jobs : List Job) : Prop where
  names_nodup : (jobs.map (·.name)).Nodup
  only_member : ∀ d ∈ jobs, ∀ j ∈ jobs, d.MemberOf j.name → d = j
  needs_known : ∀ j ∈ jobs, ∀ need ∈ j.needs, need ∈ jobs.map (·.name) ∨ ∃ d ∈ jobs, d.MemberOf need

/-! ## Traversals that can fail -/

section

variable {α β ε : Type}

theorem mapM_ok {f : α → Except ε β} {g : α → β} :
    ∀ {xs : List α}, (∀ x ∈ xs, f x = .ok (g x)) → xs.mapM f = .ok (xs.map g)
  | [], _ => rfl
  | x :: xs, h => by
    rw [List.mapM_cons, h x (List.mem_cons_self ..), mapM_ok fun y hy => h y (List.mem_cons_of_mem _ hy)]
    rfl

theorem mapM_congr {f g : α → Except ε β} : ∀ {xs : List α}, (∀ x ∈ xs, f x = g x) → xs.mapM f = xs.mapM g
  | [], _ => rfl
  | x :: xs, h => by
    rw [List.mapM_cons, List.mapM_cons, h x (List.mem_cons_self ..),
      mapM_congr fun y hy => h y (List.mem_cons_of_mem _ hy)]

/-- A traversal succeeds if all elements do, and then has what comes of them. -/
theorem mapM_eq_ok_iff {f : α → Except ε β} : ∀ {xs : List α} {ys : List β},
    xs.mapM f = .ok ys ↔ List.Forall₂ (fun x y => f x = .ok y) xs ys
  | [], ys => by
    rw [List.mapM_nil, List.forall₂_nil_left_iff]
    exact ⟨fun h => by cases h; rfl, fun h => by rw [h]; rfl⟩
  | x :: xs, ys => by
    rw [List.mapM_cons, List.forall₂_cons_left_iff]
    constructor
    · intro h
      cases hx : f x with
      | error e => rw [hx] at h; cases h
      | ok y =>
        cases hxs : xs.mapM f with
        | error e => rw [hx, hxs] at h; cases h
        | ok zs =>
          rw [hx, hxs] at h
          cases h
          exact ⟨y, zs, rfl, mapM_eq_ok_iff.1 hxs, rfl⟩
    · rintro ⟨y, zs, hx, hxs, rfl⟩
      rw [hx, mapM_eq_ok_iff.2 hxs]
      rfl

/-- A traversal that fails at some element fails with what some element fails with. -/
theorem mapM_error {f : α → Except ε β} :
    ∀ {xs : List α}, (∃ x ∈ xs, ∃ e, f x = .error e) → ∃ x ∈ xs, ∃ e, f x = .error e ∧ xs.mapM f = .error e
  | x :: xs, h => by
    rw [List.mapM_cons]
    cases hx : f x with
    | error e => exact ⟨x, List.mem_cons_self .., e, hx, rfl⟩
    | ok b =>
      obtain ⟨y, hy, e, he⟩ := h
      have hys : y ∈ xs := (List.mem_cons.1 hy).resolve_left fun hyx => by rw [← hyx, he] at hx; cases hx
      obtain ⟨z, hz, e', hz', hm⟩ := mapM_error ⟨y, hys, e, he⟩
      exact ⟨z, List.mem_cons_of_mem _ hz, e', hz', by rw [hm]; rfl⟩

theorem exists_mapM_eq_error {f : α → Except ε β} {xs : List α} :
    (∃ e, xs.mapM f = .error e) ↔ ∃ x ∈ xs, ∃ e, f x = .error e := by
  constructor
  · rintro ⟨e, he⟩
    induction xs generalizing e with
    | nil => cases he
    | cons x xs ih =>
      cases hx : f x with
      | error e' => exact ⟨x, List.mem_cons_self .., e', hx⟩
      | ok y =>
        cases hxs : xs.mapM f with
        | error e' =>
          obtain ⟨z, hz, hfz⟩ := ih e' hxs
          exact ⟨z, List.mem_cons_of_mem _ hz, hfz⟩
        | ok zs =>
          rw [List.mapM_cons, hx, hxs] at he
          cases he
  · intro h
    obtain ⟨_, _, e, _, he⟩ := mapM_error h
    exact ⟨e, he⟩

end

/-! ## Groups -/

/-- The names of the members of a group, in the order of the jobs. -/
def membersOf (jobs : List Job) (group : String) : List String :=
  (jobs.filter fun j => j.group.filter (· ≠ "") = some group).map (·.name)

theorem Job.memberOf_iff {j : Job} {group : String} : j.group.filter (· ≠ "") = some group ↔ j.MemberOf group := by
  rw [Option.filter_eq_some_iff, Job.MemberOf, decide_eq_true_eq]

theorem mem_membersOf {jobs : List Job} {group n : String} :
    n ∈ membersOf jobs group ↔ ∃ d ∈ jobs, d.MemberOf group ∧ d.name = n := by
  simp only [membersOf, List.mem_map, List.mem_filter, decide_eq_true_eq, Job.memberOf_iff, and_assoc]

theorem membersOf_ne_nil {jobs : List Job} {group : String} :
    membersOf jobs group ≠ [] ↔ ∃ d ∈ jobs, d.MemberOf group := by
  constructor
  · intro h
    obtain ⟨n, hn⟩ := List.exists_mem_of_ne_nil _ h
    obtain ⟨d, hd, hm, -⟩ := mem_membersOf.1 hn
    exact ⟨d, hd, hm⟩
  · rintro ⟨d, hd, hm⟩
    exact List.ne_nil_of_mem (mem_membersOf.2 ⟨d, hd, hm, rfl⟩)

namespace Groups

theorem get?_foldl_enter (group : String) :
    ∀ (jobs : List Job) (g : Groups), (jobs.foldl enter g).get? group =
      if membersOf jobs group = [] then g.get? group else some ((g.get? group).getD [] ++ membersOf jobs group)
  | [], g => by simp [membersOf]
  | j :: jobs, g => by
    rw [List.foldl_cons, get?_foldl_enter group jobs]
    have hskip : j.group.filter (· ≠ "") ≠ some group → membersOf (j :: jobs) group = membersOf jobs group := by
      intro h
      simp only [membersOf, List.filter_cons, decide_eq_true_eq, if_neg h]
    cases hj : j.group.filter (· ≠ "") with
    | none => rw [enter, hj, hskip (by rw [hj]; simp)]
    | some name =>
      simp only [enter, hj]
      rw [Dict.get?_set]
      by_cases hn : name = group
      · subst hn
        have hm : membersOf (j :: jobs) name = j.name :: membersOf jobs name := by
          simp only [membersOf, List.filter_cons, decide_eq_true_eq, if_pos hj, List.map_cons]
        rw [hm, if_pos rfl]
        by_cases he : membersOf jobs name = [] <;> simp [he]
      · rw [if_neg (Ne.symm hn), hskip (by rw [hj]; simpa using hn)]

/-- The groups of a list of jobs: each name that a job has for its group, with its members. -/
theorem get?_ofJobs (jobs : List Job) (group : String) :
    (ofJobs jobs).get? group = if membersOf jobs group = [] then none else some (membersOf jobs group) := by
  rw [ofJobs, get?_foldl_enter, Dict.get?_empty]
  rfl

theorem nodup_keys_foldl_enter : ∀ (jobs : List Job) (g : Groups), g.keys.Nodup → (jobs.foldl enter g).keys.Nodup
  | [], _, h => h
  | j :: jobs, g, h => by
    refine nodup_keys_foldl_enter jobs _ ?_
    unfold enter
    split
    · exact Dict.nodup_keys_set h _ _
    · exact h

theorem nodup_keys_ofJobs (jobs : List Job) : (ofJobs jobs).keys.Nodup :=
  nodup_keys_foldl_enter jobs {} List.nodup_nil

theorem get?_ofJobs_eq_some {jobs : List Job} {group : String} {members : List String} :
    (ofJobs jobs).get? group = some members ↔ members = membersOf jobs group ∧ members ≠ [] := by
  rw [get?_ofJobs]
  split
  · rename_i h; rw [h]; simp
  · rename_i h
    rw [Option.some.injEq]
    constructor
    · rintro rfl; exact ⟨rfl, h⟩
    · exact fun hm => hm.1.symm

end Groups

/-! ## The names that a need stands for -/

/-- The names of the jobs that a need stands for. -/
def resolved (jobs : List Job) (need : String) : List String :=
  if need ∈ jobs.map (·.name) then [need] else membersOf jobs need

/-- The names of the jobs before `j`, in the order of its needs. -/
def predecessorNames (jobs : List Job) (j : Job) : List String := j.needs.flatMap (resolved jobs)

theorem mem_predecessorNames {jobs : List Job} {j : Job} (hj : j ∈ jobs) {n : String} :
    n ∈ predecessorNames jobs j ↔ ∃ d, Precedes jobs d j ∧ d.name = n := by
  simp only [predecessorNames, List.mem_flatMap, resolved]
  constructor
  · rintro ⟨need, hneed, hn⟩
    split at hn
    · rename_i hname
      obtain rfl := List.mem_singleton.1 hn
      obtain ⟨d, hd, rfl⟩ := List.mem_map.1 hname
      exact ⟨d, ⟨hd, hj, _, hneed, .inl rfl⟩, rfl⟩
    · rename_i hname
      obtain ⟨d, hd, hm, rfl⟩ := mem_membersOf.1 hn
      exact ⟨d, ⟨hd, hj, need, hneed, .inr ⟨hname, hm⟩⟩, rfl⟩
  · rintro ⟨d, ⟨hd, -, need, hneed, rfl | ⟨hname, hm⟩⟩, rfl⟩
    · exact ⟨d.name, hneed, by rw [if_pos (List.mem_map.2 ⟨d, hd, rfl⟩)]; exact List.mem_singleton_self _⟩
    · exact ⟨need, hneed, by rw [if_neg hname]; exact mem_membersOf.2 ⟨d, hd, hm, rfl⟩⟩

theorem resolved_ne_nil {jobs : List Job} {need : String} :
    resolved jobs need ≠ [] ↔ need ∈ jobs.map (·.name) ∨ ∃ d ∈ jobs, d.MemberOf need := by
  unfold resolved
  split
  · rename_i h; exact ⟨fun _ => .inl h, fun _ => List.cons_ne_nil _ _⟩
  · rename_i h; rw [membersOf_ne_nil]; exact ⟨.inr, fun hm => hm.resolve_left h⟩

theorem Job.resolve_eq {jobs : List Job} (j : Job) (need : String) :
    j.resolve (jobs.map (·.name)) (Groups.ofJobs jobs) need =
      if resolved jobs need = [] then
        .error (.missingNeed j.name need (sorted (distinct (jobs.map (·.name) ++ (Groups.ofJobs jobs).keys))))
      else .ok (resolved jobs need) := by
  unfold Job.resolve resolved
  by_cases hname : need ∈ jobs.map (·.name)
  · rw [if_pos (List.contains_iff_mem.2 hname), if_pos hname, if_neg (List.cons_ne_nil _ _)]
  · rw [if_neg (by rwa [List.contains_iff_mem]), if_neg hname, Groups.get?_ofJobs]
    by_cases hm : membersOf jobs need = []
    · rw [if_pos hm, if_pos hm]
    · rw [if_neg hm, if_neg hm]

/-! ## The lists that are accepted -/

theorem sorted_eq_nil {names : List String} : sorted names = [] ↔ names = [] := by
  rw [← List.length_eq_zero_iff, sorted, List.length_mergeSort, List.length_eq_zero_iff]

theorem distinct_eq_nil {α : Type} [DecidableEq α] {xs : List α} : distinct xs = [] ↔ xs = [] := by
  cases xs <;> simp [distinct]

namespace Graph

theorem repeated_eq_nil {names : List String} : repeated names = [] ↔ names.Nodup := by
  rw [repeated, sorted_eq_nil, distinct_eq_nil, List.filter_eq_nil_iff, List.nodup_iff_count_le_one]
  constructor
  · intro h n
    by_cases hn : n ∈ names
    · simpa using h n hn
    · rw [List.count_eq_zero_of_not_mem hn]; exact Nat.zero_le 1
  · intro h n _
    simpa using h n

theorem eq_singleton {names : List String} {n : String} (hne : names ≠ []) (hnd : names.Nodup)
    (h : ∀ m ∈ names, m = n) : names = [n] := by
  match names, hne with
  | [m], _ => rw [h m (List.mem_singleton_self m)]
  | m :: m' :: rest, _ =>
    have hm := h m (List.mem_cons_self ..)
    have hm' := h m' (List.mem_cons_of_mem _ (List.mem_cons_self ..))
    exact absurd (hm.trans hm'.symm) fun hmm => (List.nodup_cons.1 hnd).1 (hmm ▸ List.mem_cons_self ..)

theorem clashing_eq_nil {jobs : List Job} (hnd : (jobs.map (·.name)).Nodup) :
    clashing (jobs.map (·.name)) (Groups.ofJobs jobs) = [] ↔ ∀ d ∈ jobs, ∀ j ∈ jobs, d.MemberOf j.name → d = j := by
  rw [clashing, sorted_eq_nil, List.map_eq_nil_iff, List.filter_eq_nil_iff]
  have hentry : ∀ g members, (g, members) ∈ (Groups.ofJobs jobs).entries ↔ members = membersOf jobs g ∧ members ≠ [] :=
    fun g members => by rw [← Dict.get?_eq_some_iff (Groups.nodup_keys_ofJobs jobs), Groups.get?_ofJobs_eq_some]
  constructor
  · intro h d hd j hj hm
    have hne : membersOf jobs j.name ≠ [] := membersOf_ne_nil.2 ⟨d, hd, hm⟩
    have hno := h (j.name, membersOf jobs j.name) ((hentry _ _).2 ⟨rfl, hne⟩)
    have hname : j.name ∈ jobs.map (·.name) := List.mem_map.2 ⟨j, hj, rfl⟩
    have honly : membersOf jobs j.name = [j.name] := by simpa [hname] using hno
    have hdj : d.name ∈ membersOf jobs j.name := mem_membersOf.2 ⟨d, hd, hm, rfl⟩
    rw [honly, List.mem_singleton] at hdj
    exact List.inj_on_of_nodup_map hnd hd hj hdj
  · rintro h ⟨g, members⟩ hg
    obtain ⟨rfl, hne⟩ := (hentry g members).1 hg
    rw [Bool.and_eq_true, not_and, List.contains_iff_mem]
    intro hname
    obtain ⟨j, hj, rfl⟩ := List.mem_map.1 hname
    have honly : membersOf jobs j.name = [j.name] := by
      refine eq_singleton hne ((List.filter_sublist.map _).nodup hnd) fun n hn => ?_
      obtain ⟨d, hd, hm, rfl⟩ := mem_membersOf.1 hn
      rw [h d hd j hj hm]
    simp [honly]

/-- Who waits for whom, as the graph of a list of jobs is told. -/
def edgesOf (jobs : List Job) : List (String × List String) := jobs.map fun j => (j.name, predecessorNames jobs j)

theorem ofJobs_eq (jobs : List Job) :
    ofJobs jobs =
      if repeated (jobs.map (·.name)) ≠ [] then .error (.duplicates (repeated (jobs.map (·.name))))
      else if clashing (jobs.map (·.name)) (Groups.ofJobs jobs) ≠ [] then
        .error (.clashes (clashing (jobs.map (·.name)) (Groups.ofJobs jobs)))
      else (jobs.mapM fun j : Job =>
        (j.predecessors (jobs.map (·.name)) (Groups.ofJobs jobs)).map (j.name, ·)).map ofEdges := by
  unfold ofJobs
  simp only
  split
  · rfl
  split
  · rfl
  · cases jobs.mapM fun j : Job => (j.predecessors (jobs.map (·.name)) (Groups.ofJobs jobs)).map (j.name, ·) <;> rfl

theorem predecessors_eq_ok {jobs : List Job} {j : Job} (h : ∀ need ∈ j.needs, resolved jobs need ≠ []) :
    j.predecessors (jobs.map (·.name)) (Groups.ofJobs jobs) = .ok (predecessorNames jobs j) := by
  have hall : ∀ need ∈ j.needs, j.resolve (jobs.map (·.name)) (Groups.ofJobs jobs) need = .ok (resolved jobs need) :=
    fun need hneed => by rw [Job.resolve_eq, if_neg (h need hneed)]
  rw [Job.predecessors, mapM_ok hall]
  rfl

theorem predecessors_eq_error {jobs : List Job} {j : Job} (h : ∃ need ∈ j.needs, resolved jobs need = []) :
    ∃ need known,
      j.predecessors (jobs.map (·.name)) (Groups.ofJobs jobs) = .error (.missingNeed j.name need known) := by
  have hsome : ∃ need ∈ j.needs, ∃ e, j.resolve (jobs.map (·.name)) (Groups.ofJobs jobs) need = .error e := by
    obtain ⟨need, hneed, hnil⟩ := h
    exact ⟨need, hneed, _, by rw [Job.resolve_eq, if_pos hnil]⟩
  obtain ⟨need, -, e, he, hm⟩ := mapM_error hsome
  rw [Job.resolve_eq] at he
  split at he
  · cases he
    exact ⟨need, _, by rw [Job.predecessors, hm]; rfl⟩
  · cases he

/-- A well-formed list of jobs has the graph of its precedence. -/
theorem ofJobs_eq_ok {jobs : List Job} (h : WellFormed jobs) : ofJobs jobs = .ok (ofEdges (edgesOf jobs)) := by
  rw [ofJobs_eq, if_neg (not_not_intro (repeated_eq_nil.2 h.names_nodup)),
    if_neg (not_not_intro ((clashing_eq_nil h.names_nodup).2 h.only_member))]
  have hall : ∀ j ∈ jobs, (j.predecessors (jobs.map (·.name)) (Groups.ofJobs jobs)).map (j.name, ·) =
      .ok (j.name, predecessorNames jobs j) := fun j hj => by
    rw [predecessors_eq_ok fun need hneed => resolved_ne_nil.2 (h.needs_known j hj need hneed)]
    rfl
  rw [mapM_ok hall]
  rfl

/-- A list of jobs that is not well formed is refused, and not for a name that cannot be found. -/
theorem ofJobs_eq_error {jobs : List Job} (h : ¬ WellFormed jobs) :
    ∃ e, ofJobs jobs = .error e ∧ ∀ n, e ≠ .unknownName n := by
  rw [ofJobs_eq]
  split
  · exact ⟨_, rfl, nofun⟩
  rename_i hnd
  split
  · exact ⟨_, rfl, nofun⟩
  rename_i hclash
  rw [ne_eq, not_not, repeated_eq_nil] at hnd
  rw [ne_eq, not_not, clashing_eq_nil hnd] at hclash
  have hunknown : ∃ j ∈ jobs, ∃ need ∈ j.needs, resolved jobs need = [] := by
    by_contra hno
    push Not at hno
    exact h ⟨hnd, hclash, fun j hj need hneed => resolved_ne_nil.1 (hno j hj need hneed)⟩
  have hsome : ∃ j ∈ jobs, ∃ e,
      (j.predecessors (jobs.map (·.name)) (Groups.ofJobs jobs)).map (j.name, ·) = .error e := by
    obtain ⟨j, hj, hneed⟩ := hunknown
    obtain ⟨need, known, he⟩ := predecessors_eq_error hneed
    exact ⟨j, hj, _, by rw [he]; rfl⟩
  obtain ⟨j, -, e, he, hm⟩ := mapM_error hsome
  refine ⟨e, by rw [hm]; rfl, ?_⟩
  -- the error is that of the job at which the traversal stopped
  by_cases hneed : ∃ need ∈ j.needs, resolved jobs need = []
  · obtain ⟨need, known, hp⟩ := predecessors_eq_error hneed
    rw [hp] at he
    cases he
    exact nofun
  · push Not at hneed
    rw [predecessors_eq_ok hneed] at he
    cases he

theorem wellFormed_of_ofJobs {jobs : List Job} {g : Graph} (h : ofJobs jobs = .ok g) :
    WellFormed jobs ∧ g = ofEdges (edgesOf jobs) := by
  by_cases hwf : WellFormed jobs
  · rw [ofJobs_eq_ok hwf] at h
    cases h
    exact ⟨hwf, rfl⟩
  · obtain ⟨e, he, -⟩ := ofJobs_eq_error hwf
    rw [he] at h
    cases h

end Graph

end CiPipeline
