import CiPipeline.Proofs.Cycle
import Mathlib.Data.List.Chain
import Mathlib.Data.List.Pairwise
import Mathlib.Data.String.Basic

/-
The order of the names in a level. A name is placed when the last of those that it waits for has been counted
down, and what one of them makes ready is counted down in order. So the names of a level stand in
the order of the last places that they wait for in the level before, and only those with the same last
place in the order of the names (`levels_in_release_order`).
-/

namespace CiPipeline

/-- A job of the name `d` precedes a job of the name `n`. -/
def NamePrecedes (jobs : List Job) (d n : String) : Prop := ∃ e j, Precedes jobs e j ∧ e.name = d ∧ j.name = n

namespace Graph

/-! ## Last places -/

/-- The last place of a level with a name that comes before `n`. -/
def LastPlace (before : String → String → Prop) (level : List String) (n : String) (k : Nat) : Prop :=
  IsGreatest {k | ∃ d, level[k]? = some d ∧ before d n} k

/-- The last place of the one name is ahead of that of the other, or the two are the same and the names in order. -/
def Ahead (before : String → String → Prop) (level : List String) (n m : String) : Prop :=
  ∃ k l, LastPlace before level n k ∧ LastPlace before level m l ∧ (k < l ∨ k = l ∧ n < m)

/-- Each name of a level waits for one of the level before it, and they stand in the order of the last such places. -/
structure ReleaseOrder (before : String → String → Prop) (prev level : List String) : Prop where
  awaited : ∀ n ∈ level, ∃ k, LastPlace before prev n k
  ordered : level.Pairwise (Ahead before prev)

variable {before : String → String → Prop} {prev level : List String} {d n m : String} {k l : Nat}

theorem lastPlace_head (hd : before d n) (hlevel : ∀ e ∈ level, ¬ before e n) : LastPlace before (d :: level) n 0 := by
  refine ⟨⟨d, rfl, hd⟩, ?_⟩
  rintro k ⟨e, he, hen⟩
  cases k with
  | zero => exact Nat.le_refl 0
  | succ k => exact absurd hen (hlevel e (List.mem_of_getElem? he))

theorem LastPlace.cons (h : LastPlace before level n k) (d : String) : LastPlace before (d :: level) n (k + 1) := by
  refine ⟨h.1, ?_⟩
  rintro l ⟨e, he, hen⟩
  cases l with
  | zero => exact Nat.zero_le _
  | succ l => exact Nat.succ_le_succ (h.2 ⟨e, he, hen⟩)

theorem exists_lastPlace : ∀ {level : List String}, (∃ d ∈ level, before d n) → ∃ k, LastPlace before level n k
  | [], ⟨d, hd, _⟩ => absurd hd List.not_mem_nil
  | d :: level, h => by
    by_cases hlevel : ∃ e ∈ level, before e n
    · obtain ⟨k, hk⟩ := exists_lastPlace hlevel
      exact ⟨k + 1, hk.cons d⟩
    · push Not at hlevel
      obtain ⟨e, he, hen⟩ := h
      rcases List.mem_cons.1 he with rfl | he
      · exact ⟨0, lastPlace_head hen hlevel⟩
      · exact absurd hen (hlevel e he)

theorem Ahead.cons (h : Ahead before level n m) (d : String) : Ahead before (d :: level) n m := by
  obtain ⟨k, l, hk, hl, hlt⟩ := h
  refine ⟨k + 1, l + 1, hk.cons d, hl.cons d, ?_⟩
  rcases hlt with hlt | ⟨rfl, hlt⟩
  · exact .inl (Nat.succ_lt_succ hlt)
  · exact .inr ⟨rfl, hlt⟩

/-- In a level in which the names ascend, the smaller of two names is the one that is ahead. -/
theorem ReleaseOrder.ahead_of_lt (h : ReleaseOrder before prev level) (hascending : level.Pairwise (· < ·))
    (hn : n ∈ level) (hm : m ∈ level) (hlt : n < m) : Ahead before prev n m := by
  let either := fun n m => n < m ∧ Ahead before prev n m ∨ m < n ∧ Ahead before prev m n
  have hsymm : Std.Symm either := ⟨fun _ _ => Or.symm⟩
  have hall : level.Pairwise either := (hascending.and h.ordered).imp Or.inl
  rcases hall.forall hn hm (ne_of_lt hlt) with ⟨-, hahead⟩ | ⟨hgt, -⟩
  · exact hahead
  · exact absurd hgt (lt_asymm hlt)

/-- The names of a level ascend exactly if their last places do. -/
theorem ReleaseOrder.ascending_iff (h : ReleaseOrder before prev level) :
    level.Pairwise (· < ·) ↔ ∀ n ∈ level, ∀ m ∈ level, n < m → ∀ k l, LastPlace before prev n k →
      LastPlace before prev m l → k ≤ l := by
  constructor
  · intro hascending n hn m hm hlt k l hk hl
    obtain ⟨k', l', hk', hl', hle⟩ := h.ahead_of_lt hascending hn hm hlt
    rw [hk.unique hk', hl.unique hl']
    omega
  · intro hmono
    refine h.ordered.imp_of_mem fun {n m} hn hm => ?_
    rintro ⟨k, l, hk, hl, hkl | ⟨-, hlt⟩⟩
    · rcases lt_trichotomy n m with hlt | rfl | hgt
      · exact hlt
      · exact absurd (hk.unique hl) hkl.ne
      · exact absurd (hmono m hm n hn hgt l k hl hk) (by omega)
    · exact hlt

/-! ## Counting down in turn -/

theorem of_releaseAll_cons {w w' : Dict Int} {name : String} {names ready : List String}
    (h : releaseAll w (name :: names) = .ok (w', ready)) :
    ∃ w₁ done more, release w name = .ok (w₁, done) ∧ releaseAll w₁ names = .ok (w', more) ∧
      ready = if done then name :: more else more := by
  rw [releaseAll] at h
  rcases hone : release w name with e | ⟨w₁, done⟩
  · rw [hone] at h
    cases h
  · rw [hone] at h
    rcases hrest : releaseAll w₁ names with e | ⟨w₂, more⟩
    · simp only [bind, Except.bind, hrest] at h
      cases h
    · simp only [bind, Except.bind, hrest] at h
      cases h
      exact ⟨w₁, done, more, rfl, hrest, rfl⟩

theorem releaseAll_append {more ready₂ : List String} {w₁ w₂ : Dict Int} :
    ∀ {names ready₁ : List String} {w : Dict Int}, releaseAll w names = .ok (w₁, ready₁) →
      releaseAll w₁ more = .ok (w₂, ready₂) → releaseAll w (names ++ more) = .ok (w₂, ready₁ ++ ready₂)
  | [], ready₁, w, h₁, h₂ => by
    cases h₁
    exact h₂
  | name :: names, ready₁, w, h₁, h₂ => by
    obtain ⟨w', done, ready, hone, hrest, rfl⟩ := of_releaseAll_cons h₁
    rw [List.cons_append, releaseAll, hone]
    simp only [bind, Except.bind, releaseAll_append hrest h₂]
    cases done <;> rfl

theorem releaseAll_sublist : ∀ {names ready : List String} {w w' : Dict Int},
    releaseAll w names = .ok (w', ready) → ready.Sublist names
  | [], _, _, _, h => by
    cases h
    exact .slnil
  | name :: names, _, _, _, h => by
    obtain ⟨w₁, done, more, -, hrest, rfl⟩ := of_releaseAll_cons h
    cases done with
    | false => exact (releaseAll_sublist hrest).cons name
    | true => exact (releaseAll_sublist hrest).cons_cons name

theorem pairwise_lt_waitingFor (g : Graph) (d : String) : (g.waitingFor d).Pairwise (· < ·) :=
  pairwise_lt_sorted (nodup_distinct _)

/-- What counting down for a level makes ready stands in the order of the last places, if no name is counted down
more often than it waits. -/
theorem pairwise_releaseAll (g : Graph) : ∀ {level next : List String} {w w' : Dict Int},
    (∀ n ∈ level.flatMap g.waitingFor, ∃ k, w.get? n = some k ∧ ((level.flatMap g.waitingFor).count n : Int) ≤ k) →
      releaseAll w (level.flatMap g.waitingFor) = .ok (w', next) →
        next.Pairwise (Ahead (fun d n => n ∈ g.waitingFor d) level)
  | [], next, w, w', _, h => by
    cases h
    exact .nil
  | d :: level, next, w, w', hcount, h => by
    rw [List.flatMap_cons] at h hcount
    have hkeys : ∀ n ∈ g.waitingFor d ++ level.flatMap g.waitingFor, n ∈ w.keys := by
      intro n hn
      obtain ⟨k, hk, -⟩ := hcount n hn
      rw [← Dict.isSome_get?, hk]
      rfl
    obtain ⟨w₁, ready₁, h₁, hkeys₁, hget₁, -, hmem₁⟩ :=
      releaseAll_spec (g.waitingFor d) w fun n hn => hkeys n (List.mem_append_left _ hn)
    obtain ⟨w₂, ready₂, h₂, -, -, -, hmem₂⟩ := releaseAll_spec (level.flatMap g.waitingFor) w₁ fun n hn => by
      rw [hkeys₁]
      exact hkeys n (List.mem_append_right _ hn)
    cases h.symm.trans (releaseAll_append h₁ h₂)
    have ih := pairwise_releaseAll g (fun n hn => by
      obtain ⟨k, hk, hle⟩ := hcount n (List.mem_append_right _ hn)
      rw [List.count_append] at hle
      exact ⟨k - (g.waitingFor d).count n, by rw [hget₁, hk]; rfl, by omega⟩) h₂
    -- what the first name makes ready is not counted down again, and so its last place is the first
    have hfirst : ∀ n ∈ ready₁, LastPlace (fun d n => n ∈ g.waitingFor d) (d :: level) n 0 := by
      intro n hn
      obtain ⟨k, hk, hpos, hle⟩ := (hmem₁ n).1 hn
      have hd : n ∈ g.waitingFor d := List.count_pos_iff.1 (by omega)
      obtain ⟨k', hk', hle'⟩ := hcount n (List.mem_append_left _ hd)
      cases hk.symm.trans hk'
      rw [List.count_append] at hle'
      have hzero : (level.flatMap g.waitingFor).count n = 0 := by omega
      exact lastPlace_head hd fun e he hen =>
        List.count_eq_zero.1 hzero (List.mem_flatMap.2 ⟨e, he, hen⟩)
    have hsecond : ∀ m ∈ ready₂, ∃ l, LastPlace (fun d n => n ∈ g.waitingFor d) level m l := by
      intro m hm
      obtain ⟨k, -, hpos, hle⟩ := (hmem₂ m).1 hm
      exact exists_lastPlace (List.mem_flatMap.1 (List.count_pos_iff.1 (by omega)))
    refine List.pairwise_append.2 ⟨?_, ih.imp (Ahead.cons · d), fun n hn m hm => ?_⟩
    · have hlt : ready₁.Pairwise (· < ·) := (g.pairwise_lt_waitingFor d).sublist (releaseAll_sublist h₁)
      exact hlt.imp_of_mem fun hn hm hnm => ⟨0, 0, hfirst _ hn, hfirst _ hm, .inr ⟨rfl, hnm⟩⟩
    · obtain ⟨l, hl⟩ := hsecond m hm
      exact ⟨0, l + 1, hfirst n hn, hl.cons d, .inl (Nat.succ_pos l)⟩

/-! ## The levels -/

section

variable {g : Graph} {names : List String} {pre : String → Finset String}

/-- The next level that counting down finds stands in the order of the last places in the one at hand. -/
theorem Placing.releaseOrder (hg : g.Represents names pre) {w w' : Dict Int} {placed : Finset String}
    {next : List String} (hp : Placing names pre w placed level)
    (h : releaseAll w (level.flatMap g.waitingFor) = .ok (w', next)) :
    ReleaseOrder (fun d n => n ∈ g.waitingFor d) level next := by
  refine ⟨fun n hn => ?_, g.pairwise_releaseAll (fun n hn => ?_) h⟩
  · exact exists_lastPlace (List.mem_flatMap.1 ((releaseAll_sublist h).subset hn))
  · obtain ⟨d, -, hd⟩ := List.mem_flatMap.1 hn
    have hname : n ∈ names := ((hg.mem_waitingFor d n).1 hd).1
    refine ⟨_, hp.counts n hname, ?_⟩
    rw [count_flatMap_waitingFor hg hname hp.nodup, Int.ofNat_le]
    refine Finset.card_le_card fun e he => ?_
    rw [Finset.mem_inter, List.mem_toFinset] at he
    exact Finset.mem_sdiff.2 ⟨he.1, ((hp.mem_level e).1 he.2).2.1⟩

/-- Along the levels that the countdown finds, each stands in the order of the last places in the one before. -/
theorem isChain_levelsFrom (hg : g.Represents names pre) : ∀ (fuel : Nat) {w w' : Dict Int} {placed : Finset String}
    {level : List String} {levels : List (List String)}, Placing names pre w placed level →
      g.levelsFrom fuel w level = .ok (levels, w') →
        levels.IsChain (ReleaseOrder fun d n => n ∈ g.waitingFor d) ∧ ∀ first ∈ levels.head?, first = level
  | 0, _, _, _, _, _, _, h => by
    cases h
    exact ⟨.nil, nofun⟩
  | fuel + 1, _, _, _, [], _, _, h => by
    cases h
    exact ⟨.nil, nofun⟩
  | fuel + 1, w, w', placed, d :: level, levels, hp, h => by
    obtain ⟨w₁, next, hnext, hp'⟩ := placing_step hg hp
    unfold levelsFrom at h
    rcases hrest : g.levelsFrom fuel w₁ next with e | ⟨rest, w₂⟩
    · simp only [hnext, bind, Except.bind, hrest] at h
      cases h
    · simp only [hnext, bind, Except.bind, hrest] at h
      cases h
      obtain ⟨hchain, hhead⟩ := isChain_levelsFrom hg fuel hp' hrest
      refine ⟨List.isChain_cons.2 ⟨fun second hsecond => ?_, hchain⟩, fun _ hfirst => (Option.some.inj hfirst).symm⟩
      rw [hhead second hsecond]
      exact hp.releaseOrder hg hnext

end

/-! ## The levels of a list of jobs -/

theorem mem_waitingFor_iff {jobs : List Job} (h : WellFormed jobs) (d n : String) :
    n ∈ (ofEdges (edgesOf jobs)).waitingFor d ↔ NamePrecedes jobs d n := by
  rw [(represents_ofEdges h).mem_waitingFor]
  constructor
  · rintro ⟨hn, hd⟩
    obtain ⟨j, hj, rfl⟩ := List.mem_map.1 hn
    obtain ⟨e, hpre, rfl⟩ := (mem_beforeName h hj).1 hd
    exact ⟨e, j, hpre, rfl, rfl⟩
  · rintro ⟨e, j, hpre, rfl, rfl⟩
    exact ⟨List.mem_map.2 ⟨j, hpre.2.1, rfl⟩, (mem_beforeName h hpre.2.1).2 ⟨e, hpre, rfl⟩⟩

theorem releaseOrder_levels {jobs : List Job} (h : WellFormed jobs) {levels : List (List String)}
    (hlevels : (ofEdges (edgesOf jobs)).levels = .ok levels) :
    (∀ first ∈ levels.head?, first.Pairwise (· < ·)) ∧ levels.IsChain (ReleaseOrder (NamePrecedes jobs)) := by
  have hrep := represents_ofEdges h
  have hsame : (fun d n => n ∈ (ofEdges (edgesOf jobs)).waitingFor d) = NamePrecedes jobs :=
    funext₂ fun d n => propext (mem_waitingFor_iff h d n)
  have hstart := placing_start hrep
  unfold Graph.levels at hlevels
  rcases hfrom : (ofEdges (edgesOf jobs)).levelsFrom (ofEdges (edgesOf jobs)).waiting.entries.length
      (ofEdges (edgesOf jobs)).waiting (ready (ofEdges (edgesOf jobs)).waiting) with e | ⟨found, w⟩
  · simp only [hfrom, bind, Except.bind] at hlevels
    cases hlevels
  · obtain ⟨hchain, hhead⟩ := isChain_levelsFrom hrep _ hstart hfrom
    simp only [hfrom, bind, Except.bind] at hlevels
    split at hlevels
    · cases hlevels
      refine ⟨fun first hfirst => ?_, hsame ▸ hchain⟩
      rw [hhead first hfirst]
      exact pairwise_lt_sorted (nodup_sorted.1 hstart.nodup)
    · cases hlevels

/-- The levels of a graph without cycles. In the first, the names ascend. In each other, every name
waits for names of the level before; those come first whose last such name comes first there, and only
those that wait for the same last name are in order. So its names ascend exactly if the last places
that they wait for do. -/
theorem levels_in_release_order {jobs : List Job} {g : Graph} (hg : ofJobs jobs = .ok g)
    (hacyclic : ∀ j, ¬ OnCycle jobs j) : ∃ levels, g.levels = .ok levels ∧
      (∀ first ∈ levels.head?, first.Pairwise (· < ·)) ∧
      levels.IsChain fun prev level => ReleaseOrder (NamePrecedes jobs) prev level ∧
        (level.Pairwise (· < ·) ↔ ∀ n ∈ level, ∀ m ∈ level, n < m → ∀ k l,
          LastPlace (NamePrecedes jobs) prev n k → LastPlace (NamePrecedes jobs) prev m l → k ≤ l) := by
  obtain ⟨hwf, rfl⟩ := wellFormed_of_ofJobs hg
  obtain ⟨levels, hlevels⟩ := (exists_levels_iff hwf).2 hacyclic
  obtain ⟨hfirst, hchain⟩ := releaseOrder_levels hwf hlevels
  exact ⟨levels, hlevels, hfirst, hchain.imp fun _ _ h => ⟨h, h.ascending_iff⟩⟩

end Graph

namespace Sample

/-- Two jobs, each needed by another one, whose names are the other way round. -/
def crossed : List Job := [
  { name := "a", steps := [] },
  { name := "b", steps := [] },
  { name := "z", steps := [], needs := ["a"] },
  { name := "c", steps := [], needs := ["b"] }]

theorem wellFormed_crossed : WellFormed crossed where
  names_nodup := by decide
  only_member := by simp [crossed, Job.MemberOf]
  needs_known := by simp [crossed, Job.MemberOf]

theorem ofJobs_crossed : Graph.ofJobs crossed = .ok (Graph.ofEdges (Graph.edgesOf crossed)) :=
  Graph.ofJobs_eq_ok wellFormed_crossed

theorem levels_crossed : (Graph.ofEdges (Graph.edgesOf crossed)).levels = .ok [["a", "b"], ["z", "c"]] := by
  simp [crossed, Graph.edgesOf, predecessorNames, resolved, Graph.ofEdges, Graph.levels,
    Graph.levelsFrom, Graph.releaseAll, Graph.release, Graph.waitingFor, Graph.ready, sorted, List.mergeSort, distinct,
    Dict.get?, Dict.lookup_cons_if, Dict.set, Dict.setIn, bind, Except.bind, pure, Except.pure]

theorem acyclic_crossed (j : Job) : ¬ OnCycle crossed j :=
  (Graph.exists_levels_iff (Graph.wellFormed_of_ofJobs ofJobs_crossed).1).1 ⟨_, levels_crossed⟩ j

end Sample

namespace Graph

/-- The names of the second level stand in the order of the jobs that they wait for. -/
theorem levels_in_release_order_sample : ∃ g, ofJobs Sample.crossed = .ok g ∧ g.levels = .ok [["a", "b"], ["z", "c"]] ∧
    ["a", "b"].Pairwise (· < ·) ∧ ReleaseOrder (NamePrecedes Sample.crossed) ["a", "b"] ["z", "c"] := by
  obtain ⟨levels, hlevels, hfirst, hchain⟩ := levels_in_release_order Sample.ofJobs_crossed Sample.acyclic_crossed
  cases Sample.levels_crossed.symm.trans hlevels
  exact ⟨_, Sample.ofJobs_crossed, Sample.levels_crossed, hfirst _ rfl, (List.isChain_cons_cons.1 hchain).1.1⟩

/-- A level that is not the first can stand in another order than that of its names. -/
theorem level_not_ascending : ∃ g, ofJobs Sample.crossed = .ok g ∧ (∀ j, ¬ OnCycle Sample.crossed j) ∧
    ∃ levels, g.levels = .ok levels ∧ ¬ ∀ level ∈ levels, level.Pairwise (· < ·) := by
  refine ⟨_, Sample.ofJobs_crossed, Sample.acyclic_crossed, _, Sample.levels_crossed, fun hall => ?_⟩
  have hlt : "z" < "c" := List.rel_of_pairwise_cons (hall ["z", "c"] (by simp)) (List.mem_singleton_self "c")
  exact absurd hlt (by decide)

end Graph

end CiPipeline
