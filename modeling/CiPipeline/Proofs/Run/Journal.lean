import CiPipeline.Proofs.Run.Solution

/-
The journal of a run. Of all that a run does itself, only the beginning of a job is recorded as one;
so if its executor keeps to that too, the journal says which jobs were executed and in which order:
those of the calls (`began_run`).
-/

namespace CiPipeline

/-- The job that an event is the beginning of. -/
def Event.job? : Event → Option String
  | .began name => some name
  | _ => none

/-- The jobs that have begun, in order. -/
def Host.began (h : Host) : List String := h.journal.filterMap Event.job?

/-! ## Acts that begin no job -/

namespace Act

variable {α β : Type}

theorem began_record (e : Event) (h : Host) : ((record e).on h).2.began = h.began ++ e.job?.toList := by
  have hon : ((record e).on h).2 = { h with journal := h.journal ++ [e] } := rfl
  rw [hon, Host.began, Host.began, List.filterMap_append, List.filterMap_cons]
  cases e.job? <;> rfl

/-- An act adds no beginning of a job to the journal. -/
def BeginsNone (x : Act α) : Prop := ∀ h, (on x h).2.began = h.began

theorem beginsNone_pure (a : α) : BeginsNone (pure a) := fun _ => rfl

theorem beginsNone_fail (f : Fault) : BeginsNone (fail f : Act α) := fun _ => rfl

theorem beginsNone_record {e : Event} (he : e.job? = none) : BeginsNone (record e) := by
  intro h
  rw [began_record, he]
  exact List.append_nil _

theorem BeginsNone.bind {x : Act α} {f : α → Act β} (hx : BeginsNone x) (hf : ∀ a, BeginsNone (f a)) :
    BeginsNone (x >>= f) :=
  Keeps.bind hx hf

theorem BeginsNone.ite {p : Prop} [Decidable p] {x y : Act α} (hx : BeginsNone x) (hy : BeginsNone y) :
    BeginsNone (if p then x else y) :=
  Keeps.ite hx hy

theorem beginsNone_forM {f : α → Act Unit} (hf : ∀ a, BeginsNone (f a)) (l : List α) : BeginsNone (l.forM f) :=
  keeps_forM hf l

theorem beginsNone_foldlM {f : β → α → Act β} (hf : ∀ b a, BeginsNone (f b a)) (l : List α) (b : β) :
    BeginsNone (l.foldlM f b) :=
  keeps_foldlM hf l b

/-- What is printed is no beginning of a job. -/
theorem began_noting (h : Host) {events : List Event} (hprint : ∀ e ∈ events, IsPrint e) :
    (noting h events).began = h.began := by
  have hnone : events.filterMap Event.job? = [] := by
    rw [List.filterMap_eq_nil_iff]
    intro e he
    have hevent := hprint e he
    cases e <;> first | rfl | cases hevent
  rw [noting, Host.began, List.filterMap_append, hnone]
  exact List.append_nil _

theorem Prints.beginsNone {x : Act Unit} (hx : Prints x) : BeginsNone x := by
  intro h
  obtain ⟨events, hevents, hon⟩ := hx h
  rw [hon]
  exact began_noting h hevents

theorem beginsNone_plain (line : String) : BeginsNone (Console.plain line) := (prints_plain line).beginsNone

end Act

/-! ## The parts of a run -/

namespace Run

section

variable (s : RunScene) (o : RunOptions) (workers : Int) {execute : Executor}

theorem beginsNone_announce (j : Job) (v : Verdict) : (announce o j v).BeginsNone := by
  unfold announce
  split
  · exact .ite (Act.beginsNone_plain _) (Act.beginsNone_pure ())
  · exact .ite (Act.beginsNone_plain _) (Act.beginsNone_pure ())

theorem beginsNone_openPool : (openPool workers).BeginsNone := by
  unfold openPool
  split
  · exact (Act.beginsNone_fail _).bind fun _ => Act.beginsNone_record rfl
  · exact Act.beginsNone_record rfl

theorem beginsNone_outcome (name : String) (x : Except Fault JobResult) : (outcome name x).BeginsNone := by
  unfold outcome
  split
  · exact Act.beginsNone_pure _
  · exact .ite ((Act.prints_jobFailed _ _ _).beginsNone.bind fun _ => Act.beginsNone_pure _) (Act.beginsNone_fail _)

theorem beginsNone_conclude (p : Progress) (c : Call) : (conclude o p c).BeginsNone :=
  (beginsNone_outcome c.1.name c.2).bind fun _ =>
    .ite ((Act.beginsNone_plain _).bind fun _ => Act.beginsNone_pure _) (Act.beginsNone_pure _)

/-- An execution is the beginning of its job. -/
theorem began_begin {j : Job} (hexec : (execute j).BeginsNone) (h : Host) :
    ((begin o execute j).on h).2.began = h.began ++ [j.name] := by
  -- what is said before makes no difference to what begins
  have hbegin : ∃ say : Act Unit, say.Gives (.ok ()) ∧ say.BeginsNone ∧ begin o execute j =
      say >>= fun _ => Act.record (.began j.name) >>= fun _ => (execute j).attempt >>= fun x => pure (j, x) := by
    unfold begin
    cases o.quiet
    · exact ⟨Console.jobStarted j.name, Act.gives_plain _, Act.beginsNone_plain _, rfl⟩
    · exact ⟨pure (), Act.gives_pure (), Act.beginsNone_pure (), rfl⟩
  obtain ⟨say, hgives, hsay, hbegin⟩ := hbegin
  have hattempt : ((execute j).attempt >>= fun x => pure (j, x)).BeginsNone :=
    Act.BeginsNone.bind (fun h => by rw [Act.on_attempt]; exact hexec h) fun _ => Act.beginsNone_pure _
  obtain ⟨h₁, hs⟩ := hgives.on_eq h
  have hsame : h₁.began = h.began := by
    have hbegan := hsay h
    rwa [hs] at hbegan
  rw [hbegin, Act.on_bind_ok hs, ← hsame]
  exact (hattempt _).trans (Act.began_record (.began j.name) h₁)

/-- Executions are the beginnings of their jobs, one after another. -/
theorem began_mapM_begin : ∀ (js : List Job), (∀ j ∈ js, (execute j).BeginsNone) → ∀ h : Host,
    ((js.mapM (begin o execute)).on h).2.began = h.began ++ js.map (·.name)
  | [], _, h => (List.append_nil _).symm
  | j :: js, hexec, h => by
    obtain ⟨h₁, h₂, hb⟩ := on_begin o execute j h
    obtain ⟨done, h₃, hm, -⟩ := on_mapM_begin o execute js h₂
    have hfirst := began_begin o (hexec j (List.mem_cons_self ..)) h
    have hrest := began_mapM_begin js (fun k hk => hexec k (List.mem_cons_of_mem _ hk)) h₂
    rw [hb] at hfirst
    rw [hm] at hrest
    rw [List.mapM_cons, Act.on_bind_ok hb, Act.on_bind_ok hm, Act.on_pure, hrest, hfirst, List.map_cons,
      List.append_assoc, List.singleton_append]

/-- The jobs that begin while the calls of a level are made are those of the calls. -/
theorem began_callLevel {p : Progress} {js : List Job} (hexec : ∀ j ∈ js, (execute j).BeginsNone) (h : Host) :
    ((callLevel s o workers execute p js).on h).2.began =
      h.began ++ (((callLevel s o workers execute p js).on h).1.toOption.getD []).map (·.1.name) := by
  unfold callLevel
  cases hs : p.screen s js with
  | error n => exact (List.append_nil _).symm
  | ok r =>
    obtain ⟨p', vs⟩ := r
    obtain ⟨h₁, hsay⟩ := (Act.gives_forM (fun jv : Job × Verdict => gives_announce o jv.1 jv.2) vs).on_eq h
    have hquiet := Act.beginsNone_forM (fun jv : Job × Verdict => beginsNone_announce o jv.1 jv.2) vs h
    rw [hsay] at hquiet
    simp only [Act.ofExcept, pure_bind]
    rw [Act.on_bind_ok hsay, ← hquiet]
    by_cases hnone : (chosen vs).isEmpty
    · simp only [hnone, if_true]
      exact (List.append_nil _).symm
    · simp only [hnone, Bool.false_eq_true, if_false]
      have hopen := beginsNone_openPool workers h₁
      rw [Act.on_bind]
      rcases hpool : (openPool workers).on h₁ with ⟨f | ⟨⟩, h₂⟩
      · rw [hpool] at hopen
        rw [← hopen]
        exact (List.append_nil _).symm
      · rw [hpool] at hopen
        obtain ⟨done, h₃, hdone, hjobs, -⟩ := on_mapM_begin o execute (chosen vs) h₂
        have hsub : chosen vs ⊆ js := by
          have hsublist := chosen_sublist vs
          rw [map_fst_screen s hs] at hsublist
          exact hsublist.subset
        have hbegan := began_mapM_begin o (chosen vs) (fun j hj => hexec j (hsub hj)) h₂
        simp only
        rw [hbegan, hopen, hdone, ← hjobs, List.map_map]
        rfl

theorem began_level {p : Progress} {js : List Job} (hexec : ∀ j ∈ js, (execute j).BeginsNone) (h : Host) :
    ((level s o workers execute p js).on h).2.began =
      h.began ++ (((callLevel s o workers execute p js).on h).1.toOption.getD []).map (·.1.name) := by
  rw [level_eq, ← began_callLevel s o workers hexec h, Act.on_bind]
  rcases (callLevel s o workers execute p js).on h with ⟨f | done, h'⟩
  · rfl
  · exact Act.beginsNone_foldlM (beginsNone_conclude o) done _ h'

/-- The calls of some levels are what begins in them. -/
theorem began_levels : ∀ (jss : List (List Job)) (p : Progress) (h : Host),
    (∀ js ∈ jss, ∀ j ∈ js, (execute j).BeginsNone) →
    ((jss.foldlM (level s o workers execute) p).on h).2.began =
      h.began ++ (callsFrom s o workers execute jss p h).map (·.1.name)
  | [], p, h, _ => (List.append_nil _).symm
  | js :: rest, p, h, hexec => by
    have hlevel := began_level s o workers (p := p) (hexec js (List.mem_cons_self ..)) h
    rw [List.foldlM_cons, callsFrom, List.map_append, ← List.append_assoc, ← hlevel]
    rcases hl : (level s o workers execute p js).on h with ⟨f | p', h'⟩
    · rw [Act.on_bind_error hl]
      exact (List.append_nil _).symm
    · rw [Act.on_bind_ok hl]
      exact began_levels rest p' h' fun js' hjs => hexec js' (List.mem_cons_of_mem _ hjs)

end

/-- If its executor begins no job by itself, the jobs that begin in a run are those of its calls. -/
theorem began_run {jobs : List Job} {g : Graph} {levels : List (List String)} (hg : Graph.ofJobs jobs = .ok g)
    (hl : g.levels = .ok levels) {t : Trigger} {o : RunOptions} {execute : Executor}
    (hexec : ∀ j ∈ jobs, (execute j).BeginsNone) (h : Host) :
    ((run jobs t o execute).on h).2.began = h.began ++ (calls jobs t o execute h).map (·.1.name) := by
  have hlevels := began_levels (sceneOf jobs t o h) o (workers o h) (levels.map (named jobs)) {} h fun js hjs j hj => by
    obtain ⟨ns, -, rfl⟩ := List.mem_map.1 hjs
    exact hexec j (mem_of_mem_named hj).1
  rw [on_run hg hl, calls_eq hg hl, ← hlevels]
  split
  · rename_i hon; rw [hon]
  · rename_i hon; rw [hon]

end Run

end CiPipeline
