import CiPipeline.Proofs.Precedence
import Mathlib.Data.Finset.Card
import Mathlib.Data.Finset.Max

/-
Levelling: `levels_of_rank` says which graphs have levels, and `Layered` says what they are. Each
level holds exactly the names that are not placed yet and wait for placed names only.

The proof is the invariant of the countdown: when the names of `placed` have been counted down,
every name waits for as many names as it has before it that are not placed, and the level at hand
holds those that wait for none. A step of the loop places the level (`placing_step`), and the loop
ends when no name is ready (`placing_loop`).
-/

namespace CiPipeline.Graph

/-! ## Counting down -/

/-- Counting some names down takes from each as often as it occurs, and makes those ready, each
once, that come to nothing on the way. -/
theorem releaseAll_spec : ∀ (names : List String) (w : Dict Int), (∀ n ∈ names, n ∈ w.keys) →
    ∃ w' ready, releaseAll w names = .ok (w', ready) ∧ w'.keys = w.keys ∧
      (∀ n, w'.get? n = (w.get? n).map (· - (names.count n : Int))) ∧ ready.Nodup ∧
      ∀ n, n ∈ ready ↔ ∃ k, w.get? n = some k ∧ 1 ≤ k ∧ k ≤ names.count n
  | [], w, _ => by
    refine ⟨w, [], rfl, rfl, fun n => ?_, List.nodup_nil, fun n => ?_⟩
    · cases w.get? n <;> simp
    · simp only [List.not_mem_nil, List.count_nil, false_iff, not_exists, not_and]
      intro k _ _; omega
  | name :: names, w, hw => by
    have hname := hw name (List.mem_cons_self ..)
    obtain ⟨k, hk⟩ := Option.isSome_iff_exists.1 (Dict.isSome_get?.2 hname)
    have hkeys : (w.set name (k - 1)).keys = w.keys := by rw [Dict.keys_set, if_pos hname]
    obtain ⟨w', more, h, hkeys', hget, hnd, hmem⟩ := releaseAll_spec names (w.set name (k - 1))
      fun n hn => hkeys ▸ hw n (List.mem_cons_of_mem _ hn)
    -- the head is ready if this was its last count; the tail counts on in the new table
    have hrel : release w name = .ok (w.set name (k - 1), k - 1 == 0) := by rw [release, hk]
    refine ⟨w', if k - 1 == 0 then name :: more else more, ?_, hkeys'.trans hkeys, fun n => ?_, ?_, fun n => ?_⟩
    · rw [releaseAll, hrel]
      simp only [bind, Except.bind, h]
      rfl
    · rw [hget, Dict.get?_set]
      by_cases hn : n = name
      · subst hn; rw [if_pos rfl, hk, List.count_cons_self]; simp; omega
      · rw [if_neg hn, List.count_cons_of_ne (Ne.symm hn)]
    · split
      · rename_i h0
        refine List.nodup_cons.2 ⟨fun hm => ?_, hnd⟩
        obtain ⟨k', hk', h1, -⟩ := (hmem name).1 hm
        rw [Dict.get?_set, if_pos rfl] at hk'
        cases hk'
        rw [beq_iff_eq] at h0; omega
      · exact hnd
    · have hif : n ∈ (if k - 1 == 0 then name :: more else more) ↔ k = 1 ∧ n = name ∨ n ∈ more := by
        split
        · rename_i h0
          rw [beq_iff_eq] at h0
          rw [List.mem_cons, eq_comm (a := k), show (1 = k) ↔ True from iff_of_true (by omega) trivial, true_and]
        · rename_i h0
          rw [beq_iff_eq] at h0
          exact ⟨.inr, fun hn => hn.resolve_left fun hn => h0 (by omega)⟩
      rw [hif, hmem, Dict.get?_set]
      by_cases hn : n = name
      · subst hn
        rw [if_pos rfl, List.count_cons_self, hk]
        simp only [Option.some.injEq, exists_eq_left', and_true]
        omega
      · rw [if_neg hn, List.count_cons_of_ne (Ne.symm hn)]
        simp only [hn, and_false, false_or]

/-! ## Graphs of a precedence -/

/-- The graph of a precedence: each of the names waits for the names before it, and those are all
among the names. -/
structure Represents (g : Graph) (names : List String) (before : String → Finset String) : Prop where
  names_nodup : names.Nodup
  keys : g.waiting.keys = names
  counts : ∀ n ∈ names, g.waiting.get? n = some ((before n).card : Int)
  mem_waitingFor : ∀ d c, c ∈ g.waitingFor d ↔ c ∈ names ∧ d ∈ before c
  before_subset : ∀ n ∈ names, before n ⊆ names.toFinset

theorem mem_sorted {names : List String} {n : String} : n ∈ sorted names ↔ n ∈ names := List.mem_mergeSort

theorem nodup_sorted {names : List String} : (sorted names).Nodup ↔ names.Nodup :=
  (List.mergeSort_perm names _).nodup_iff

theorem pairwise_sorted (names : List String) : (sorted names).Pairwise (· ≤ ·) := by
  have h : (sorted names).Pairwise fun a b => decide (a ≤ b) = true := List.pairwise_mergeSort
    (fun a b c hab hbc => by rw [decide_eq_true_eq] at hab hbc ⊢; exact String.le_trans hab hbc)
    (fun a b => by rw [Bool.or_eq_true, decide_eq_true_eq, decide_eq_true_eq]; exact String.le_total a b) names
  exact h.imp fun hab => of_decide_eq_true hab

theorem pairwise_lt_sorted {names : List String} (h : names.Nodup) : (sorted names).Pairwise (· < ·) :=
  ((pairwise_sorted names).and (nodup_sorted.2 h)).imp fun ⟨hle, hne⟩ => Std.lt_of_le_of_ne hle hne

theorem nodup_waitingFor (g : Graph) (d : String) : (g.waitingFor d).Nodup := nodup_sorted.2 (nodup_distinct _)

/-- Levels of a precedence, `placed` being placed before them: each is made of the names that are
not placed yet and have only placed names before them, each once. -/
def Layered (names : List String) (before : String → Finset String) : Finset String → List (List String) → Prop
  | _, [] => True
  | placed, level :: rest => level ≠ [] ∧ level.Nodup ∧
      (∀ n, n ∈ level ↔ n ∈ names ∧ n ∉ placed ∧ before n ⊆ placed) ∧
      Layered names before (placed ∪ level.toFinset) rest

/-- The state of the countdown when the names of `placed` have been placed and counted down. -/
structure Placing (names : List String) (before : String → Finset String) (w : Dict Int) (placed : Finset String)
    (level : List String) : Prop where
  keys : w.keys = names
  counts : ∀ n ∈ names, w.get? n = some ((before n \ placed).card : Int)
  nodup : level.Nodup
  mem_level : ∀ n, n ∈ level ↔ n ∈ names ∧ n ∉ placed ∧ before n ⊆ placed
  closed : ∀ n ∈ placed, before n ⊆ placed
  subset : placed ⊆ names.toFinset

section

variable {g : Graph} {names : List String} {before : String → Finset String}

/-- Counting down for a level counts each name down once for every name of the level before it. -/
theorem count_flatMap_waitingFor (hg : g.Represents names before) {n : String} (hn : n ∈ names) :
    ∀ {level : List String}, level.Nodup →
      (level.flatMap g.waitingFor).count n = (before n ∩ level.toFinset).card
  | [], _ => by simp
  | d :: level, hnd => by
    rw [List.nodup_cons] at hnd
    rw [List.flatMap_cons, List.count_append, count_flatMap_waitingFor hg hn hnd.2, List.toFinset_cons]
    by_cases hd : d ∈ before n
    · have hone : (g.waitingFor d).count n = 1 :=
        List.count_eq_one_of_mem (g.nodup_waitingFor d) ((hg.mem_waitingFor d n).2 ⟨hn, hd⟩)
      have hno : d ∉ before n ∩ level.toFinset := by
        rw [Finset.mem_inter, List.mem_toFinset]; exact fun h => hnd.1 h.2
      rw [hone, Finset.inter_insert_of_mem hd, Finset.card_insert_of_notMem hno, Nat.add_comm]
    · have hzero : (g.waitingFor d).count n = 0 :=
        List.count_eq_zero_of_not_mem fun h => hd ((hg.mem_waitingFor d n).1 h).2
      rw [hzero, Finset.inter_insert_of_notMem hd, Nat.zero_add]

theorem card_sdiff_union {s placed level : Finset String} (h : Disjoint placed level) :
    (s \ (placed ∪ level)).card + (s ∩ level).card = (s \ placed).card := by
  have hlevel : (s \ placed) ∩ level = s ∩ level := by
    ext n
    simp only [Finset.mem_inter, Finset.mem_sdiff]
    constructor
    · rintro ⟨⟨hs, -⟩, hl⟩; exact ⟨hs, hl⟩
    · rintro ⟨hs, hl⟩; exact ⟨⟨hs, fun hp => Finset.disjoint_left.1 h hp hl⟩, hl⟩
  rw [← Finset.card_sdiff_add_card_inter (s \ placed) level, hlevel, sdiff_sdiff_left]
  rfl

/-- Counting down for the level at hand places it and finds the next one. -/
theorem placing_step (hg : g.Represents names before) {w : Dict Int} {placed : Finset String}
    {level : List String} (hp : Placing names before w placed level) :
    ∃ w' next, releaseAll w (level.flatMap g.waitingFor) = .ok (w', next) ∧
      Placing names before w' (placed ∪ level.toFinset) next := by
  have hknown : ∀ n ∈ level.flatMap g.waitingFor, n ∈ w.keys := by
    intro n hn
    obtain ⟨d, -, hd⟩ := List.mem_flatMap.1 hn
    rw [hp.keys]
    exact ((hg.mem_waitingFor d n).1 hd).1
  obtain ⟨w', next, h, hkeys, hget, hnd, hmem⟩ := releaseAll_spec _ w hknown
  have hdis : Disjoint placed level.toFinset :=
    Finset.disjoint_left.2 fun n hn hl => ((hp.mem_level n).1 (List.mem_toFinset.1 hl)).2.1 hn
  -- what a name waits for afterwards, and what it was counted down for, make up what it waited for
  have hcard : ∀ n, (before n \ (placed ∪ level.toFinset)).card + (before n ∩ level.toFinset).card =
      (before n \ placed).card := fun n => card_sdiff_union hdis
  refine ⟨w', next, h, hkeys.trans hp.keys, fun n hn => ?_, hnd, fun n => ?_, fun n hn => ?_, ?_⟩
  · rw [hget, hp.counts n hn, count_flatMap_waitingFor hg hn hp.nodup, Option.map_some, Option.some.injEq]
    have := hcard n; omega
  · rw [hmem]
    constructor
    · rintro ⟨k, hk, h1, hle⟩
      have hn : n ∈ names := by rw [← hp.keys, ← Dict.isSome_get?, hk]; rfl
      rw [hp.counts n hn, Option.some.injEq] at hk
      rw [count_flatMap_waitingFor hg hn hp.nodup] at hle
      have hnone : before n \ (placed ∪ level.toFinset) = ∅ := by
        rw [← Finset.card_eq_zero]; have := hcard n; omega
      -- so it is not placed: what is placed, and what is in the level, waits for placed names only
      have hsome : ¬ before n ⊆ placed := by
        intro hs; rw [← Finset.sdiff_eq_empty_iff_subset, ← Finset.card_eq_zero] at hs; omega
      refine ⟨hn, fun hu => ?_, Finset.sdiff_eq_empty_iff_subset.1 hnone⟩
      rcases Finset.mem_union.1 hu with hu | hu
      · exact hsome (hp.closed n hu)
      · exact hsome ((hp.mem_level n).1 (List.mem_toFinset.1 hu)).2.2
    · rintro ⟨hn, hu, hs⟩
      rw [Finset.mem_union, not_or, List.mem_toFinset] at hu
      have hnone : (before n \ (placed ∪ level.toFinset)).card = 0 := by
        rw [Finset.card_eq_zero, Finset.sdiff_eq_empty_iff_subset]; exact hs
      have hsome : (before n \ placed).card ≠ 0 := by
        rw [Finset.card_ne_zero, Finset.nonempty_iff_ne_empty, ne_eq, Finset.sdiff_eq_empty_iff_subset]
        exact fun hs => hu.2 ((hp.mem_level n).2 ⟨hn, hu.1, hs⟩)
      refine ⟨_, hp.counts n hn, by omega, ?_⟩
      rw [count_flatMap_waitingFor hg hn hp.nodup]
      have := hcard n; omega
  · rcases Finset.mem_union.1 hn with hn | hn
    · exact (hp.closed n hn).trans Finset.subset_union_left
    · exact ((hp.mem_level n).1 (List.mem_toFinset.1 hn)).2.2.trans Finset.subset_union_left
  · refine Finset.union_subset hp.subset fun n hn => ?_
    exact List.mem_toFinset.2 ((hp.mem_level n).1 (List.mem_toFinset.1 hn)).1

/-- When all names are placed, no level is at hand. -/
theorem Placing.level_eq_nil {w : Dict Int} {placed : Finset String} {level : List String}
    (hp : Placing names before w placed level) (hnd : names.Nodup) (hall : names.length ≤ placed.card) :
    level = [] := by
  have heq : placed = names.toFinset := by
    refine Finset.eq_of_subset_of_card_le hp.subset ?_
    rw [List.toFinset_card_of_nodup hnd]; exact hall
  refine List.eq_nil_iff_forall_not_mem.2 fun n hn => ?_
  obtain ⟨h1, h2, -⟩ := (hp.mem_level n).1 hn
  rw [heq, List.mem_toFinset] at h2
  exact h2 h1

/-- The countdown ends when no name is ready, and the bound on the number of levels is never in the way. -/
theorem placing_loop (hg : g.Represents names before) :
    ∀ (fuel : Nat) (w : Dict Int) (placed : Finset String) (level : List String),
      Placing names before w placed level → names.length ≤ fuel + placed.card →
      ∃ levels w', g.levelsFrom fuel w level = .ok (levels, w') ∧ Layered names before placed levels ∧
        Placing names before w' (placed ∪ levels.flatten.toFinset) []
  | 0, w, placed, level, hp, hf => by
    -- as many names are placed as there are
    have hnil := hp.level_eq_nil hg.names_nodup (by omega)
    subst hnil
    exact ⟨[], w, rfl, trivial, by simpa using hp⟩
  | fuel + 1, w, placed, [], hp, _ => ⟨[], w, rfl, trivial, by simpa using hp⟩
  | fuel + 1, w, placed, d :: level, hp, hf => by
    obtain ⟨w', next, h, hp'⟩ := placing_step hg hp
    have hdis : Disjoint placed (d :: level).toFinset :=
      Finset.disjoint_left.2 fun n hn hl => ((hp.mem_level n).1 (List.mem_toFinset.1 hl)).2.1 hn
    have hcard : (placed ∪ (d :: level).toFinset).card = placed.card + (d :: level).length := by
      rw [Finset.card_union_of_disjoint hdis, List.toFinset_card_of_nodup hp.nodup]
    obtain ⟨levels, w'', hl, hlay, hend⟩ := placing_loop hg fuel w' _ next hp' (by
      rw [hcard, List.length_cons]; omega)
    refine ⟨(d :: level) :: levels, w'', ?_, ⟨List.cons_ne_nil _ _, hp.nodup, hp.mem_level, hlay⟩, ?_⟩
    · unfold levelsFrom
      simp only [h, bind, Except.bind, hl]
      rfl
    · rw [List.flatten_cons, List.toFinset_append, ← Finset.union_assoc]
      exact hend

theorem mem_ready {w : Dict Int} (hnd : w.keys.Nodup) {n : String} : n ∈ ready w ↔ w.get? n = some 0 := by
  rw [ready, mem_sorted, Dict.get?_eq_some_iff hnd, List.mem_map]
  simp only [List.mem_filter, beq_iff_eq]
  constructor
  · rintro ⟨⟨n, k⟩, ⟨hm, rfl⟩, rfl⟩; exact hm
  · exact fun hm => ⟨(n, 0), ⟨hm, rfl⟩, rfl⟩

theorem placing_start (hg : g.Represents names before) : Placing names before g.waiting ∅ (ready g.waiting) := by
  have hnd : g.waiting.keys.Nodup := hg.keys ▸ hg.names_nodup
  refine ⟨hg.keys, fun n hn => by rw [Finset.sdiff_empty]; exact hg.counts n hn, ?_, fun n => ?_, by simp, by simp⟩
  · exact nodup_sorted.2 ((List.filter_sublist.map _).nodup hnd)
  · rw [mem_ready hnd]
    constructor
    · intro h
      have hn : n ∈ names := by rw [← hg.keys, ← Dict.isSome_get?, h]; rfl
      rw [hg.counts n hn, Option.some.injEq, Int.natCast_eq_zero, Finset.card_eq_zero] at h
      exact ⟨hn, Finset.notMem_empty n, by rw [h]⟩
    · rintro ⟨hn, -, h⟩
      rw [hg.counts n hn, Finset.subset_empty.1 h]; rfl

/-- What levelling gives: layers from the start on, and those names are stuck that the layers leave. -/
theorem levels_eq (hg : g.Represents names before) :
    ∃ levels w, Layered names before ∅ levels ∧ Placing names before w levels.flatten.toFinset [] ∧
      g.levels = if levels.flatten.length = names.length then .ok levels else .error (.cycle (stuck w)) := by
  have hlen : g.waiting.entries.length = names.length := by rw [← hg.keys, Dict.length_entries]
  obtain ⟨levels, w, h, hlay, hend⟩ := placing_loop hg g.waiting.entries.length g.waiting ∅ _ (placing_start hg)
    (by rw [hlen, Finset.card_empty]; omega)
  rw [Finset.empty_union] at hend
  refine ⟨levels, w, hlay, hend, ?_⟩
  unfold Graph.levels
  simp only [h, bind, Except.bind]
  rw [hlen]
  rfl

end

/-! ## What the levels are -/

section

variable {names : List String} {before : String → Finset String}

theorem Layered.mem_flatten :
    ∀ {levels : List (List String)} {placed : Finset String}, Layered names before placed levels →
      ∀ n ∈ levels.flatten, n ∈ names ∧ n ∉ placed
  | [], _, _, n, hn => by cases hn
  | level :: rest, placed, ⟨_, _, hmem, hrest⟩, n, hn => by
    rw [List.flatten_cons, List.mem_append] at hn
    rcases hn with hn | hn
    · exact ⟨((hmem n).1 hn).1, ((hmem n).1 hn).2.1⟩
    · obtain ⟨h1, h2⟩ := hrest.mem_flatten n hn
      exact ⟨h1, fun hp => h2 (Finset.mem_union_left _ hp)⟩

theorem Layered.nodup_flatten :
    ∀ {levels : List (List String)} {placed : Finset String}, Layered names before placed levels → levels.flatten.Nodup
  | [], _, _ => List.nodup_nil
  | level :: rest, placed, ⟨_, hnd, _, hrest⟩ => by
    rw [List.flatten_cons]
    refine List.nodup_append.2 ⟨hnd, hrest.nodup_flatten, fun a ha b hb hab => ?_⟩
    subst hab
    exact (hrest.mem_flatten a hb).2 (Finset.mem_union_right _ (List.mem_toFinset.2 ha))

/-- The place of a name's level among the levels. -/
def levelOf (levels : List (List String)) (n : String) : Nat := levels.findIdx (·.contains n)

theorem levelOf_cons_of_mem {level : List String} {rest : List (List String)} {n : String} (h : n ∈ level) :
    levelOf (level :: rest) n = 0 := by
  rw [levelOf, List.findIdx_cons, List.contains_iff_mem.2 h]; rfl

theorem levelOf_cons_of_not_mem {level : List String} {rest : List (List String)} {n : String} (h : n ∉ level) :
    levelOf (level :: rest) n = levelOf rest n + 1 := by
  rw [levelOf, List.findIdx_cons, Bool.eq_false_iff.2 fun hc => h (List.contains_iff_mem.1 hc)]; rfl

/-- What a placed name has before it is placed in an earlier level. -/
theorem Layered.levelOf_lt {n d : String} (hd : d ∈ before n) :
    ∀ {levels : List (List String)} {placed : Finset String}, Layered names before placed levels →
      n ∈ levels.flatten → d ∉ placed → d ∈ levels.flatten ∧ levelOf levels d < levelOf levels n
  | level :: rest, placed, ⟨_, _, hmem, hrest⟩, hn, hp => by
    rw [List.flatten_cons, List.mem_append] at hn ⊢
    by_cases hnl : n ∈ level
    · exact absurd (((hmem n).1 hnl).2.2 hd) hp
    · rw [levelOf_cons_of_not_mem hnl]
      by_cases hdl : d ∈ level
      · rw [levelOf_cons_of_mem hdl]
        exact ⟨.inl hdl, Nat.zero_lt_succ _⟩
      · have hpd : d ∉ placed ∪ level.toFinset := by
          rw [Finset.mem_union, List.mem_toFinset, not_or]; exact ⟨hp, hdl⟩
        obtain ⟨hd', hlt⟩ := hrest.levelOf_lt hd (hn.resolve_left hnl) hpd
        rw [levelOf_cons_of_not_mem hdl]
        exact ⟨.inr hd', Nat.succ_lt_succ hlt⟩

/-- A name of an earlier level stands before one of a later level. -/
theorem idxOf_lt_of_levelOf_lt {n d : String} :
    ∀ {levels : List (List String)}, d ∈ levels.flatten → levelOf levels d < levelOf levels n →
      levels.flatten.idxOf d < levels.flatten.idxOf n
  | level :: rest, hd, hlt => by
    have hnl : n ∉ level := fun h => by rw [levelOf_cons_of_mem h] at hlt; omega
    rw [List.flatten_cons] at hd ⊢
    rw [List.idxOf_append_of_notMem hnl]
    by_cases hdl : d ∈ level
    · rw [List.idxOf_append_of_mem hdl]
      exact Nat.lt_add_right _ (List.idxOf_lt_length_of_mem hdl)
    · rw [levelOf_cons_of_not_mem hnl, levelOf_cons_of_not_mem hdl] at hlt
      rw [List.idxOf_append_of_notMem hdl]
      have hrest := idxOf_lt_of_levelOf_lt ((List.mem_append.1 hd).resolve_left hdl) (Nat.lt_of_succ_lt_succ hlt)
      omega

end

section

variable {g : Graph} {names : List String} {before : String → Finset String}

/-- Levels that are given place every name once, in layers from the start on. -/
theorem levels_eq_ok (hg : g.Represents names before) {levels : List (List String)} (h : g.levels = .ok levels) :
    Layered names before ∅ levels ∧ levels.flatten.Perm names := by
  obtain ⟨levels', w, hlay, -, heq⟩ := levels_eq hg
  rw [h] at heq
  split at heq
  · rename_i hlen
    cases heq
    have hsub : levels.flatten ⊆ names := fun n hn => (hlay.mem_flatten n hn).1
    exact ⟨hlay, (List.subperm_of_subset hlay.nodup_flatten hsub).perm_of_length_le hlen.ge⟩
  · cases heq

/-- Levels are refused for nothing but a cycle. -/
theorem levels_eq_error (hg : g.Represents names before) {e : GraphError} (h : g.levels = .error e) :
    ∃ names, e = .cycle names := by
  obtain ⟨levels, w, -, -, heq⟩ := levels_eq hg
  rw [h] at heq
  split at heq
  · cases heq
  · cases heq; exact ⟨_, rfl⟩

/-- A graph has levels if the names can be numbered so that each has only lower numbers before it. -/
theorem levels_of_rank (hg : g.Represents names before) (rank : String → Nat)
    (hrank : ∀ n ∈ names, ∀ d ∈ before n, rank d < rank n) : ∃ levels, g.levels = .ok levels := by
  obtain ⟨levels, w, hlay, hend, heq⟩ := levels_eq hg
  have hall : names.toFinset ⊆ levels.flatten.toFinset := by
    by_contra hno
    -- the name of least number that is not placed has only placed names before it
    have hleft : (names.toFinset \ levels.flatten.toFinset).Nonempty :=
      Finset.nonempty_iff_ne_empty.2 fun h => hno (Finset.sdiff_eq_empty_iff_subset.1 h)
    obtain ⟨n, hn, hmin⟩ := Finset.exists_min_image _ rank hleft
    rw [Finset.mem_sdiff, List.mem_toFinset] at hn
    have hbefore : before n ⊆ levels.flatten.toFinset := by
      intro d hd
      by_contra hdl
      have hdn := hg.before_subset n hn.1 hd
      have := hmin d (Finset.mem_sdiff.2 ⟨hdn, hdl⟩)
      have := hrank n hn.1 d hd
      omega
    exact List.not_mem_nil ((hend.mem_level n).2 ⟨hn.1, hn.2, hbefore⟩)
  refine ⟨levels, ?_⟩
  have hle := Finset.card_le_card hall
  have hge := Finset.card_le_card hend.subset
  rw [List.toFinset_card_of_nodup hg.names_nodup, List.toFinset_card_of_nodup hlay.nodup_flatten] at hle hge
  rw [heq, if_pos (by omega)]

end

/-! ## The graph of a list of jobs -/

/-- The names before a name: those of the jobs that precede the job of that name. -/
def beforeName (jobs : List Job) (n : String) : Finset String :=
  (((⟨edgesOf jobs⟩ : Dict (List String)).get? n).getD []).toFinset

theorem keys_edgesOf (jobs : List Job) : (⟨edgesOf jobs⟩ : Dict (List String)).keys = jobs.map (·.name) := by
  rw [Dict.keys, edgesOf, List.map_map]; rfl

theorem beforeName_eq {jobs : List Job} (h : WellFormed jobs) {j : Job} (hj : j ∈ jobs) :
    beforeName jobs j.name = (predecessorNames jobs j).toFinset := by
  have hget : (⟨edgesOf jobs⟩ : Dict (List String)).get? j.name = some (predecessorNames jobs j) := by
    rw [Dict.get?_eq_some_iff (by rw [keys_edgesOf]; exact h.names_nodup)]
    exact List.mem_map.2 ⟨j, hj, rfl⟩
  rw [beforeName, hget]; rfl

theorem mem_beforeName {jobs : List Job} (h : WellFormed jobs) {j : Job} (hj : j ∈ jobs) {n : String} :
    n ∈ beforeName jobs j.name ↔ ∃ d, Precedes jobs d j ∧ d.name = n := by
  rw [beforeName_eq h hj, List.mem_toFinset, mem_predecessorNames hj]

theorem card_toFinset (names : List String) : names.toFinset.card = (distinct names).length := by
  have heq : names.toFinset = (distinct names).toFinset := by
    ext n; rw [List.mem_toFinset, List.mem_toFinset, mem_distinct]
  rw [heq, List.toFinset_card_of_nodup (nodup_distinct names)]

theorem keys_successors (jobs : List Job) : (ofEdges (edgesOf jobs)).successors.keys = jobs.map (·.name) := by
  simp only [ofEdges, Dict.keys, edgesOf, List.map_map]; rfl

theorem get?_successors {jobs : List Job} (h : WellFormed jobs) {d : Job} (hd : d ∈ jobs) :
    (ofEdges (edgesOf jobs)).successors.get? d.name =
      some (sorted (((edgesOf jobs).filter fun (_, before) => before.contains d.name).map (·.1))) := by
  rw [Dict.get?_eq_some_iff (by rw [keys_successors]; exact h.names_nodup)]
  exact List.mem_map.2 ⟨(d.name, predecessorNames jobs d), List.mem_map.2 ⟨d, hd, rfl⟩, rfl⟩

theorem represents_ofEdges {jobs : List Job} (h : WellFormed jobs) :
    (ofEdges (edgesOf jobs)).Represents (jobs.map (·.name)) (beforeName jobs) := by
  have hkeys : (ofEdges (edgesOf jobs)).waiting.keys = jobs.map (·.name) := by
    simp only [ofEdges, Dict.keys, edgesOf, List.map_map]; rfl
  refine ⟨h.names_nodup, hkeys, fun n hn => ?_, fun d c => ?_, fun n hn => ?_⟩
  · obtain ⟨j, hj, rfl⟩ := List.mem_map.1 hn
    rw [beforeName_eq h hj, card_toFinset, Dict.get?_eq_some_iff (by rw [hkeys]; exact h.names_nodup)]
    exact List.mem_map.2 ⟨(j.name, predecessorNames jobs j), List.mem_map.2 ⟨j, hj, rfl⟩, rfl⟩
  · by_cases hd : d ∈ jobs.map (·.name)
    · obtain ⟨j, hj, rfl⟩ := List.mem_map.1 hd
      rw [waitingFor, mem_sorted, mem_distinct, get?_successors h hj, Option.getD_some, mem_sorted]
      simp only [edgesOf, List.mem_map, List.mem_filter, List.contains_iff_mem]
      constructor
      · rintro ⟨_, ⟨⟨c, hc, rfl⟩, hm⟩, rfl⟩
        exact ⟨⟨c, hc, rfl⟩, by rw [beforeName_eq h hc, List.mem_toFinset]; exact hm⟩
      · rintro ⟨⟨c, hc, rfl⟩, hm⟩
        rw [beforeName_eq h hc, List.mem_toFinset] at hm
        exact ⟨_, ⟨⟨c, hc, rfl⟩, hm⟩, rfl⟩
    · have hnone : (ofEdges (edgesOf jobs)).successors.get? d = none := by
        rw [Dict.get?_eq_none, keys_successors]; exact hd
      rw [waitingFor, hnone]
      refine iff_of_false (by simp [mem_sorted, mem_distinct]) ?_
      rintro ⟨hc, hdc⟩
      obtain ⟨j, hj, rfl⟩ := List.mem_map.1 hc
      obtain ⟨d', hpre, rfl⟩ := (mem_beforeName h hj).1 hdc
      exact hd (List.mem_map.2 ⟨d', hpre.1, rfl⟩)
  · obtain ⟨j, hj, rfl⟩ := List.mem_map.1 hn
    intro d hd
    obtain ⟨d', hpre, rfl⟩ := (mem_beforeName h hj).1 hd
    exact List.mem_toFinset.2 (List.mem_map.2 ⟨d', hpre.1, rfl⟩)

end CiPipeline.Graph
