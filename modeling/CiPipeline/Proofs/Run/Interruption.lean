import CiPipeline.Proofs.Run.Decision

/-
Interruptions of a run. Outcomes are handled one after another until one of them is an interruption,
which then is what the handling ends with (`on_foldlM_conclude`); in a run, all calls of the level have
been made by then, and no other level is begun (`run_interrupted`).
-/

namespace CiPipeline.Run

/-- The interruption that an outcome is, if it is one. -/
def interruption? : Except Fault JobResult → Option Fault
  | .ok _ => none
  | .error f => if f.isOrdinary then none else some f

/-- The first interruption among the outcomes of some calls. -/
def firstInterruption? (cs : List Call) : Option Fault := cs.findSome? (interruption? ·.2)

theorem settles_iff {x : Except Fault JobResult} : Settles x ↔ interruption? x = none := by
  unfold Settles
  cases x with
  | ok r => exact iff_of_true rfl rfl
  | error f => by_cases hf : f.isOrdinary = true <;> simp [settled, ended, interruption?, hf]

theorem receive_of_interruption {x : Except Fault JobResult} {f : Fault} (h : interruption? x = some f) (p : Progress)
    (name : String) : receive p name x = .error f := by
  cases x with
  | ok r => cases h
  | error f' =>
    rw [interruption?] at h
    split at h
    · cases h
    · rename_i hf
      cases h
      rw [receive, settled, if_neg hf]
      rfl

theorem firstInterruption?_eq_none {cs : List Call} :
    firstInterruption? cs = none ↔ ∀ c ∈ cs, interruption? c.2 = none := List.findSome?_eq_none_iff

/-- To handle outcomes is to settle them up to the first interruption. -/
theorem foldlM_receive_eq : ∀ (cs : List Call) (p : Progress),
    cs.foldlM (fun p c => receive p c.1.name c.2) p =
      match firstInterruption? cs with
      | some f => .error f
      | none => .ok (cs.foldl (fun p c => p.settle c.1.name (ended c.2)) p)
  | [], p => rfl
  | c :: cs, p => by
    rw [List.foldlM_cons, firstInterruption?, List.findSome?_cons]
    cases hc : interruption? c.2 with
    | none =>
      rw [receive_of_settles (settles_iff.2 hc)]
      exact foldlM_receive_eq cs _
    | some f => rw [receive_of_interruption hc]; rfl

theorem on_foldlM_conclude (o : RunOptions) (cs : List Call) (p : Progress) (h : Host) :
    ((cs.foldlM (conclude o) p).on h).1 =
      match firstInterruption? cs with
      | some f => .error f
      | none => .ok (cs.foldl (fun p c => p.settle c.1.name (ended c.2)) p) := by
  rw [← foldlM_receive_eq]
  exact Act.gives_foldlM cs p (fun p' c _ => gives_conclude o p' c) h

/-- Outcomes with an interruption among them come to an interruption when they are handled. -/
theorem exists_handled {cs : List Call} {c : Call} (hm : c ∈ cs) (hne : interruption? c.2 ≠ none) (o : RunOptions) :
    ∃ f, firstInterruption? cs = some f ∧ ∀ p h, ((cs.foldlM (conclude o) p).on h).1 = .error f := by
  cases hf : firstInterruption? cs with
  | none => exact absurd (firstInterruption?_eq_none.1 hf c hm) hne
  | some f => exact ⟨f, rfl, fun p h => by rw [on_foldlM_conclude, hf]⟩

theorem firstInterruption?_filter {q : Call → Bool} : ∀ {cs : List Call},
    (∀ c ∈ cs, interruption? c.2 ≠ none → q c = true) → firstInterruption? (cs.filter q) = firstInterruption? cs
  | [], _ => rfl
  | c :: cs, h => by
    have hrest := firstInterruption?_filter fun d hd => h d (List.mem_cons_of_mem _ hd)
    unfold firstInterruption? at hrest ⊢
    rw [List.filter_cons, List.findSome?_cons]
    split
    · rw [List.findSome?_cons, hrest]
    · rename_i hq
      rw [hrest, not_not.1 fun hne => hq (h c (List.mem_cons_self ..) hne)]

/-! ## The level of an interruption -/

section

variable (s : RunScene) (o : RunOptions) (workers : Int) (execute : Executor)

/-- A level ends with the first interruption of its calls, if there is one. -/
theorem level_interrupted (p : Progress) (js : List Job) (h : Host) :
    ∃ cs, ((callLevel s o workers execute p js).on h).1.toOption.getD [] = cs ∧ (∀ c ∈ cs, c.1 ∈ js) ∧
      ∀ f, firstInterruption? cs = some f → ((level s o workers execute p js).on h).1 = .error f := by
  rw [level_eq]
  rcases on_callLevel s o workers execute p js h with ⟨e, h', hcall, -, -⟩ | ⟨cs, h', hcall, hjobs, -, -⟩
  · rw [hcall]
    exact ⟨[], rfl, fun _ hc => absurd hc List.not_mem_nil, fun f hf => by cases hf⟩
  · rw [Act.on_bind_ok hcall, hcall]
    refine ⟨cs, rfl, fun c hc => ?_, fun f hf => ?_⟩
    · have hsub := levelJobs_sublist s workers p js
      rw [← hjobs] at hsub
      exact hsub.subset (List.mem_map.2 ⟨c, hc, rfl⟩)
    · rw [on_foldlM_conclude, hf]

/-- An interruption ends the run in its level: no interruption is of an earlier level, and no call is
of a later one. -/
theorem levels_interrupted {f : Fault} : ∀ (jss : List (List Job)) (p : Progress) (h : Host),
    firstInterruption? (callsFrom s o workers execute jss p h) = some f →
      ((jss.foldlM (level s o workers execute) p).on h).1 = .error f ∧
        ∃ done js left, jss = done ++ js :: left ∧
          (∀ c ∈ callsFrom s o workers execute jss p h, c.1 ∈ done.flatten ∨ c.1 ∈ js) ∧
          ∀ c ∈ callsFrom s o workers execute jss p h, interruption? c.2 ≠ none → c.1 ∈ js
  | [], p, h, hf => by cases hf
  | js :: rest, p, h, hf => by
    obtain ⟨cs, hcs, hmem, hends⟩ := level_interrupted s o workers execute p js h
    rw [callsFrom, hcs] at hf ⊢
    rw [List.foldlM_cons]
    rw [firstInterruption?, List.findSome?_append] at hf
    -- either this level is interrupted, or one of the levels after it
    cases hfirst : firstInterruption? cs with
    | some f' =>
      have hlevel := hends f' hfirst
      rw [firstInterruption?] at hfirst
      rw [hfirst] at hf
      cases hf
      rcases hon : (level s o workers execute p js).on h with ⟨e | p', h'⟩
      · rw [hon] at hlevel
        cases hlevel
        rw [Act.on_bind_error hon, List.append_nil]
        exact ⟨rfl, [], js, rest, rfl, fun c hc => .inr (hmem c hc), fun c hc _ => hmem c hc⟩
      · rw [hon] at hlevel
        cases hlevel
    | none =>
      have hnone := firstInterruption?_eq_none.1 hfirst
      rw [firstInterruption?] at hfirst
      rw [hfirst, Option.none_or] at hf
      rcases hon : (level s o workers execute p js).on h with ⟨e | p', h'⟩
      · rw [hon] at hf
        cases hf
      · rw [hon] at hf
        obtain ⟨hrun, done, js', left, rfl, hcalls, hlevel⟩ := levels_interrupted rest p' h' hf
        rw [Act.on_bind_ok hon]
        refine ⟨hrun, js :: done, js', left, rfl, fun c hc => ?_, fun c hc hne => ?_⟩
        · rcases List.mem_append.1 hc with hc | hc
          · exact .inl (List.mem_append_left _ (hmem c hc))
          · exact (hcalls c hc).imp_left fun h => List.mem_append_right _ h
        · rcases List.mem_append.1 hc with hc | hc
          · exact absurd (hnone c hc) hne
          · exact hlevel c hc hne

end

section

variable {jobs : List Job} {g : Graph} {levels : List (List String)} {t : Trigger} {o : RunOptions} {h : Host}

/-- A run with an interruption among its calls ends with the first one, and all its calls are of the
level of that one or of earlier levels. -/
theorem run_interrupted (hg : Graph.ofJobs jobs = .ok g) (hl : g.levels = .ok levels) {execute : Executor} {f : Fault}
    (hf : firstInterruption? (calls jobs t o execute h) = some f) :
    ((run jobs t o execute).on h).1 = .error f ∧
      ∀ c ∈ calls jobs t o execute h, interruption? c.2 ≠ none → ∀ d ∈ calls jobs t o execute h,
        Graph.levelOf levels d.1.name ≤ Graph.levelOf levels c.1.name := by
  have hc : (settingOf jobs levels t o h).Leveled := leveled hg hl
  rw [calls_eq hg hl] at hf ⊢
  obtain ⟨hrun, done, js, left, hlevels, hcalls, hinterrupted⟩ := levels_interrupted _ o _ execute _ {} h hf
  obtain ⟨mid, rest, heq, rfl, hrest⟩ := List.map_eq_append_iff.1 hlevels
  obtain ⟨level, left', rfl, rfl, -⟩ := List.map_eq_cons_iff.1 hrest
  refine ⟨?_, fun c hm hne d hd => ?_⟩
  · rw [on_run hg hl]
    rcases hon : ((levels.map (named jobs)).foldlM (Run.level (sceneOf jobs t o h) o (workers o h) execute) {}).on h
      with ⟨e | p, h'⟩
    · rw [hon] at hrun
      cases hrun
      rfl
    · rw [hon] at hrun
      cases hrun
  · have hlevel : Graph.levelOf levels c.1.name = mid.length :=
      ((hc.mem_named_level (j := c.1) heq).1 (hinterrupted c hm hne)).2
    rw [hlevel]
    rcases hcalls d hd with hd | hd
    · rw [named_flatten] at hd
      exact ((hc.mem_named_flatten (j := d.1) heq).1 hd).2.le
    · exact ((hc.mem_named_level (j := d.1) heq).1 hd).2.le

end

end CiPipeline.Run
