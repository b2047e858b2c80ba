import CiPipeline.Fault
import CiPipeline.Proofs.Cycle

/-
Which lists of jobs are accepted, and how they are levelled. `levels_by_depth`: a list has a graph exactly if
it is well formed, and this is the graph of its precedence; it has levels exactly if no job is on a
cycle, and then each job stands in the level of its depth, the length of the longest chain of jobs
before it; otherwise the blocked jobs are named, in order.

A chain ascends one level at each step at least (`CountedDown.chain_le`), and from any level but the
first some step leads just one level back (`Layered.exists_before`).
-/

namespace CiPipeline

/-! ## Chains of predecessors -/

/-- There is a chain of so many jobs before a job, each preceding the next. -/
inductive Chain (jobs : List Job) : Nat → Job → Prop
  | start {j : Job} : j ∈ jobs → Chain jobs 0 j
  | step {n : Nat} {d j : Job} : Chain jobs n d → Precedes jobs d j → Chain jobs (n + 1) j

namespace Graph

/-- A name that is not in the first level has a name before it in the level just before its own. -/
theorem Layered.exists_before {names : List String} {before : String → Finset String} {n : String} :
    ∀ {levels : List (List String)} {placed : Finset String} {l : Nat}, Layered names before placed levels →
      n ∈ levels.flatten → levelOf levels n = l + 1 → ∃ d ∈ before n, d ∈ levels.flatten ∧ levelOf levels d = l
  | level :: rest, placed, l, hlay@⟨_, _, hmem, hrest⟩, hn, hl => by
    have hnl : n ∉ level := fun h => by rw [levelOf_cons_of_mem h] at hl; omega
    rw [levelOf_cons_of_not_mem hnl, Nat.succ_inj] at hl
    have hnr : n ∈ rest.flatten := by
      rw [List.flatten_cons, List.mem_append] at hn
      exact hn.resolve_left hnl
    cases l with
    | zero =>
      -- not all that is before it was placed before the first level, but all of it is after that
      obtain ⟨hnames, hplaced⟩ := hlay.mem_flatten n hn
      obtain ⟨d, hd, hdp⟩ := Finset.not_subset.1 fun hs => hnl ((hmem n).2 ⟨hnames, hplaced, hs⟩)
      have hdl : d ∈ level := by
        match rest, hrest, hnr, hl with
        | second :: _, ⟨_, _, hsecond, _⟩, hnr, hl =>
          have hns : n ∈ second := by
            by_contra hns
            rw [levelOf_cons_of_not_mem hns] at hl
            omega
          have hdu := ((hsecond n).1 hns).2.2 hd
          rw [Finset.mem_union, List.mem_toFinset] at hdu
          exact hdu.resolve_left hdp
      exact ⟨d, hd, List.mem_append_left _ hdl, levelOf_cons_of_mem hdl⟩
    | succ l =>
      obtain ⟨d, hd, hdr, hdl⟩ := hrest.exists_before hnr hl
      have hdlevel : d ∉ level := fun h =>
        (hrest.mem_flatten d hdr).2 (Finset.mem_union_right _ (List.mem_toFinset.2 h))
      exact ⟨d, hd, List.mem_append_right _ hdr, by rw [levelOf_cons_of_not_mem hdlevel, hdl]⟩

section

variable {jobs : List Job} {levels : List (List String)} {w : Dict Int}

theorem CountedDown.chain_le (h : CountedDown jobs levels w) {n : Nat} {j : Job} (hc : Chain jobs n j) :
    j.name ∈ levels.flatten → n ≤ levelOf levels j.name := by
  induction hc with
  | start _ => exact fun _ => Nat.zero_le _
  | step _ hpre ih =>
    intro hj
    obtain ⟨hd, hlt⟩ := h.mem_flatten_of_precedes hpre hj
    exact lt_of_le_of_lt (ih hd) hlt

theorem CountedDown.chain_levelOf (h : CountedDown jobs levels w) {j : Job} (hj : j ∈ jobs)
    (hmem : j.name ∈ levels.flatten) : Chain jobs (levelOf levels j.name) j := by
  induction hl : levelOf levels j.name generalizing j with
  | zero => exact .start hj
  | succ l ih =>
    obtain ⟨n, hn, hnmem, hnl⟩ := h.layered.exists_before hmem hl
    obtain ⟨d, hpre, rfl⟩ := (mem_beforeName h.wellFormed hj).1 hn
    exact .step (ih hpre.1 hnmem hnl) hpre

/-- The level of a job that is placed is the length of the longest chain before it. -/
theorem CountedDown.isGreatest_levelOf (h : CountedDown jobs levels w) {j : Job} (hj : j ∈ jobs)
    (hmem : j.name ∈ levels.flatten) : IsGreatest {n | Chain jobs n j} (levelOf levels j.name) :=
  ⟨h.chain_levelOf hj hmem, fun _ hc => h.chain_le hc hmem⟩

end

/-! ## The graph of some jobs -/

/-- The graph shows the precedence between the jobs: under the name of each, in order and each once,
the names of those that it precedes, and the number of those that precede it. -/
structure Shows (g : Graph) (jobs : List Job) : Prop where
  successors_keys : g.successors.keys = jobs.map (·.name)
  successors : ∀ d ∈ jobs, ∃ ns, g.successors.get? d.name = some ns ∧ ns.Pairwise (· < ·) ∧
    ∀ n, n ∈ ns ↔ ∃ j, Precedes jobs d j ∧ j.name = n
  waiting_keys : g.waiting.keys = jobs.map (·.name)
  waiting : ∀ j ∈ jobs, ∃ ds : List Job, g.waiting.get? j.name = some (ds.length : Int) ∧ ds.Nodup ∧
    ∀ d, d ∈ ds ↔ Precedes jobs d j

theorem shows_ofEdges {jobs : List Job} (h : WellFormed jobs) : (ofEdges (edgesOf jobs)).Shows jobs := by
  have hrep := represents_ofEdges h
  refine ⟨keys_successors jobs, fun d hd => ⟨_, get?_successors h hd, ?_, fun n => ?_⟩, hrep.keys, fun j hj => ?_⟩
  · refine pairwise_lt_sorted ((List.filter_sublist.map _).nodup ?_)
    rw [edgesOf, List.map_map]
    exact h.names_nodup
  · simp only [mem_sorted, edgesOf, List.mem_map, List.mem_filter, List.contains_iff_mem]
    constructor
    · rintro ⟨_, ⟨⟨j, hj, rfl⟩, hm⟩, rfl⟩
      obtain ⟨d', hpre, hname⟩ := (mem_predecessorNames hj).1 hm
      rw [List.inj_on_of_nodup_map h.names_nodup hpre.1 hd hname] at hpre
      exact ⟨j, hpre, rfl⟩
    · rintro ⟨j, hpre, rfl⟩
      exact ⟨_, ⟨⟨j, hpre.2.1, rfl⟩, (mem_predecessorNames hpre.2.1).2 ⟨d, hpre, rfl⟩⟩, rfl⟩
  · have hmem : ∀ d, d ∈ jobs.filter (·.name ∈ beforeName jobs j.name) ↔ Precedes jobs d j := by
      intro d
      rw [List.mem_filter, decide_eq_true_eq, mem_beforeName h hj]
      constructor
      · rintro ⟨hd, d', hpre, hname⟩
        rwa [List.inj_on_of_nodup_map h.names_nodup hpre.1 hd hname] at hpre
      · exact fun hpre => ⟨hpre.1, d, hpre, rfl⟩
    have hnames : ((jobs.filter (·.name ∈ beforeName jobs j.name)).map (·.name)).toFinset = beforeName jobs j.name := by
      ext n
      simp only [List.mem_toFinset, List.mem_map, hmem, mem_beforeName h hj]
    have hcard := List.toFinset_card_of_nodup ((List.filter_sublist.map _).nodup h.names_nodup :
      ((jobs.filter (·.name ∈ beforeName jobs j.name)).map (·.name)).Nodup)
    rw [hnames, List.length_map] at hcard
    exact ⟨_, by rw [hrep.counts j.name (List.mem_map.2 ⟨j, hj, rfl⟩), hcard],
      (List.Nodup.of_map _ h.names_nodup).filter _, hmem⟩

/-! ## Levels by depth -/

/-- Levels in which each job stands once, at the place that is the length of the longest chain before it. -/
structure ByDepth (jobs : List Job) (levels : List (List String)) : Prop where
  names : levels.flatten.Perm (jobs.map (·.name))
  depth : ∀ j ∈ jobs, ∀ l level, levels[l]? = some level → j.name ∈ level → IsGreatest {n | Chain jobs n j} l

theorem levelOf_eq_of_getElem? {n : String} {level : List String} (hn : n ∈ level) :
    ∀ {levels : List (List String)} {l : Nat}, levels.flatten.Nodup → levels[l]? = some level → levelOf levels n = l
  | first :: rest, 0, _, hl => by
    rw [List.getElem?_cons_zero, Option.some.injEq] at hl
    exact levelOf_cons_of_mem (hl ▸ hn)
  | first :: rest, l + 1, hnd, hl => by
    rw [List.getElem?_cons_succ] at hl
    rw [List.flatten_cons, List.nodup_append] at hnd
    have hrest : n ∈ rest.flatten := List.mem_flatten.2 ⟨level, List.mem_of_getElem? hl, hn⟩
    rw [levelOf_cons_of_not_mem fun hfirst => hnd.2.2 n hfirst n hrest rfl,
      levelOf_eq_of_getElem? hn hnd.2.1 hl]

/-- A list of jobs has a graph exactly if it is well formed, and this shows the precedence between the
jobs. The graph has levels exactly if no job is on a cycle, and these are by depth; otherwise it is
refused with an error of value that names the blocked jobs in order. -/
theorem levels_by_depth (jobs : List Job) :
    ((∃ g, ofJobs jobs = .ok g) ↔ WellFormed jobs) ∧
    ∀ g, ofJobs jobs = .ok g → g.Shows jobs ∧
      ((∃ levels, g.levels = .ok levels) ↔ ∀ j, ¬ OnCycle jobs j) ∧
      (∀ levels, g.levels = .ok levels → ByDepth jobs levels) ∧
      ∀ e, g.levels = .error e → (Fault.graph e).faultClass = .value ∧ ∃ names, e = .cycle names ∧
        names.Pairwise (· < ·) ∧ ∀ n, n ∈ names ↔ ∃ j ∈ jobs, j.name = n ∧ Blocked jobs j := by
  refine ⟨⟨fun ⟨g, hg⟩ => (wellFormed_of_ofJobs hg).1, fun h => ⟨_, ofJobs_eq_ok h⟩⟩, fun g hg => ?_⟩
  obtain ⟨hwf, rfl⟩ := wellFormed_of_ofJobs hg
  obtain ⟨levels, w, hlay, hplacing, heq⟩ := levels_eq (represents_ofEdges hwf)
  have hdown : CountedDown jobs levels w := ⟨hwf, hlay, hplacing⟩
  have hall := hdown.length_eq_iff
  refine ⟨shows_ofEdges hwf, ?_, fun levels' hl => ?_, fun e he => ?_⟩
  · rw [heq, ← hall]
    split
    · rename_i hlen; exact iff_of_true ⟨levels, rfl⟩ hlen
    · rename_i hlen; exact iff_of_false (fun ⟨_, h⟩ => nomatch h) hlen
  · rw [heq] at hl
    split at hl
    · rename_i hlen
      cases hl
      have hperm : levels.flatten.Perm (jobs.map (·.name)) :=
        (List.subperm_of_subset hlay.nodup_flatten fun n hn => (hlay.mem_flatten n hn).1).perm_of_length_le hlen.ge
      refine ⟨hperm, fun j hj l level hl hmem => ?_⟩
      rw [← levelOf_eq_of_getElem? hmem hlay.nodup_flatten hl]
      exact hdown.isGreatest_levelOf hj (hperm.mem_iff.2 (List.mem_map.2 ⟨j, hj, rfl⟩))
    · cases hl
  · rw [heq] at he
    split at he
    · cases he
    · cases he
      have hkeys : w.keys.Nodup := hplacing.keys ▸ hwf.names_nodup
      exact ⟨rfl, _, rfl, pairwise_lt_sorted ((List.filter_sublist.map _).nodup hkeys), fun n =>
        hdown.mem_stuck_iff_blocked⟩

end Graph

namespace Sample

/-- Two jobs that need each other and one after them, beside tests in a group and what these need. -/
def knotted : List Job := [
  { name := "publish", steps := [], needs := ["test", "release"] },
  { name := "release", steps := [], needs := ["sign"] },
  { name := "sign", steps := [], needs := ["release", "build"] },
  { name := "test-linux", steps := [], needs := ["build", "build"], group := some "test" },
  { name := "test-windows", steps := [], needs := ["build"], group := some "test" },
  { name := "build", steps := [] }]

/-- The tests and what these need, without the jobs that need each other. -/
def untied : List Job := knotted.drop 3

theorem wellFormed_knotted : WellFormed knotted where
  names_nodup := by decide
  only_member := by simp [knotted, Job.MemberOf]
  needs_known := by simp [knotted, Job.MemberOf]

theorem ofJobs_knotted : Graph.ofJobs knotted = .ok (Graph.ofEdges (Graph.edgesOf knotted)) :=
  Graph.ofJobs_eq_ok wellFormed_knotted

theorem levels_knotted :
    (Graph.ofEdges (Graph.edgesOf knotted)).levels = .error (.cycle ["publish", "release", "sign"]) := by
  simp [knotted, Graph.edgesOf, predecessorNames, resolved, membersOf, Graph.ofEdges, Graph.levels,
    Graph.levelsFrom, Graph.releaseAll, Graph.release, Graph.waitingFor, Graph.ready, sorted, List.mergeSort, distinct,
    Dict.get?, Dict.lookup_cons_if, Dict.set, Dict.setIn, bind, Except.bind, pure, Except.pure,
    Graph.stuck, throw, throwThe, MonadExceptOf.throw]

theorem wellFormed_untied : WellFormed untied where
  names_nodup := by decide
  only_member := by simp [untied, knotted, Job.MemberOf]
  needs_known := by simp [untied, knotted, Job.MemberOf]

theorem ofJobs_untied : Graph.ofJobs untied = .ok (Graph.ofEdges (Graph.edgesOf untied)) :=
  Graph.ofJobs_eq_ok wellFormed_untied

theorem levels_untied :
    (Graph.ofEdges (Graph.edgesOf untied)).levels = .ok [["build"], ["test-linux", "test-windows"]] := by
  simp [untied, knotted, Graph.edgesOf, predecessorNames, resolved, Graph.ofEdges, Graph.levels,
    Graph.levelsFrom, Graph.releaseAll, Graph.release, Graph.waitingFor, Graph.ready, sorted, List.mergeSort, distinct,
    Dict.get?, Dict.lookup_cons_if, Dict.set, Dict.setIn, bind, Except.bind, pure, Except.pure]

end Sample

/-- The jobs that need each other are named, and the one after them; the others alone have levels. -/
theorem Graph.levels_by_depth_sample :
    (∃ g names, ofJobs Sample.knotted = .ok g ∧ g.levels = .error (.cycle names) ∧ names = ["publish", "release", "sign"] ∧
      ∀ n, n ∈ names ↔ ∃ j ∈ Sample.knotted, j.name = n ∧ Blocked Sample.knotted j) ∧
    ∃ g levels, ofJobs Sample.untied = .ok g ∧ g.Shows Sample.untied ∧ g.levels = .ok levels ∧
      levels = [["build"], ["test-linux", "test-windows"]] ∧ ByDepth Sample.untied levels := by
  obtain ⟨-, -, -, hrefused⟩ := (levels_by_depth Sample.knotted).2 _ Sample.ofJobs_knotted
  obtain ⟨-, names, hnames, -, hmem⟩ := hrefused _ Sample.levels_knotted
  obtain ⟨hshows, -, hlevels, -⟩ := (levels_by_depth Sample.untied).2 _ Sample.ofJobs_untied
  cases hnames
  exact ⟨⟨_, _, Sample.ofJobs_knotted, Sample.levels_knotted, rfl, hmem⟩, _, _, Sample.ofJobs_untied, hshows,
    Sample.levels_untied, rfl, hlevels _ Sample.levels_untied⟩

end CiPipeline
