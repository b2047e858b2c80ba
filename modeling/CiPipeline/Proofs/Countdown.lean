import CiPipeline.Proofs.Levels
import Mathlib.Algebra.BigOperators.Group.List.Basic

/-
Levelling of any graph that knows its names, whether the counts fit the edges or not. A count only goes
down, so a name becomes ready once at most: at the start, or when its count passes through zero.
Hence a countdown comes to an end, and gives levels exactly if it has placed all names
(`levels_of_any_counts`).

The invariant is `Countdown.Tracks`. Each count is what it was at first less the times at which the
name was counted down, and those names are placed or ready whose count was not below zero at first
and is not above zero any more.
-/

namespace CiPipeline

namespace Graph

/-- A countdown under way: the graph that it is given, its own table of what names wait for, the levels
that are complete, and the names that are ready. -/
structure Countdown where
  graph : Graph
  waiting : Dict Int
  levels : List (List String) := []
  ready : List String

namespace Countdown

/-- The countdown of a graph before its first round. -/
def start (g : Graph) : Countdown where
  graph := g
  waiting := g.waiting
  ready := Graph.ready g.waiting

/-- One round: the names that are ready are placed as a level, and the names that wait for them are
counted down. -/
def round (c : Countdown) : Except GraphError Countdown := do
  let (waiting, ready) ← releaseAll c.waiting (c.ready.flatMap c.graph.waitingFor)
  return { c with waiting := waiting, levels := c.levels ++ [c.ready], ready := ready }

/-- A countdown goes on as long as names are ready. -/
def Goes (c c' : Countdown) : Prop := c.ready ≠ [] ∧ c.round = .ok c'

/-- What the countdown of a graph comes to after some rounds. -/
def Reached (g : Graph) (c : Countdown) : Prop := Relation.ReflTransGen Goes (start g) c

/-- The names that are placed, and those to be placed in the next round. -/
def placed (c : Countdown) : List String := c.levels.flatten ++ c.ready

/-- How often a name has been counted down. -/
def released (c : Countdown) (n : String) : Nat := (c.levels.flatten.flatMap c.graph.waitingFor).count n

/-- The state of the countdown of a graph. The graph is as it was given. -/
structure Tracks (c : Countdown) (g : Graph) : Prop where
  graph : c.graph = g
  keys : c.waiting.keys = g.waiting.keys
  counts : ∀ n, c.waiting.get? n = (g.waiting.get? n).map (· - (c.released n : Int))
  nodup : c.placed.Nodup
  mem_placed : ∀ n, n ∈ c.placed ↔ ∃ k, g.waiting.get? n = some k ∧ 0 ≤ k ∧ k ≤ c.released n
  level_ne_nil : ∀ level ∈ c.levels, level ≠ []

variable {g : Graph} {c c' : Countdown}

theorem of_round_eq_ok (h : c.round = .ok c') :
    ∃ w next, releaseAll c.waiting (c.ready.flatMap c.graph.waitingFor) = .ok (w, next) ∧
      c' = { c with waiting := w, levels := c.levels ++ [c.ready], ready := next } := by
  unfold round at h
  rcases hrel : releaseAll c.waiting (c.ready.flatMap c.graph.waitingFor) with e | ⟨w, next⟩
  · rw [hrel] at h
    cases h
  · rw [hrel] at h
    cases h
    exact ⟨w, next, rfl, rfl⟩

theorem tracks_start (hkeys : g.waiting.keys.Nodup) : (start g).Tracks g where
  graph := rfl
  keys := rfl
  counts n := by
    change g.waiting.get? n = (g.waiting.get? n).map (· - 0)
    cases g.waiting.get? n <;> simp
  nodup := nodup_sorted.2 ((List.filter_sublist.map _).nodup hkeys)
  mem_placed n := by
    change n ∈ Graph.ready g.waiting ↔ ∃ k, g.waiting.get? n = some k ∧ 0 ≤ k ∧ k ≤ 0
    rw [mem_ready hkeys]
    constructor
    · exact fun h => ⟨0, h, le_refl 0, le_refl 0⟩
    · rintro ⟨k, hk, hle, hge⟩
      rw [hk, le_antisymm hge hle]
  level_ne_nil := nofun

theorem Tracks.placed_subset (h : c.Tracks g) : c.placed ⊆ g.waiting.keys := by
  intro n hn
  obtain ⟨k, hk, -⟩ := (h.mem_placed n).1 hn
  rw [← Dict.isSome_get?, hk]
  rfl

theorem Tracks.length_placed_le (h : c.Tracks g) : c.placed.length ≤ g.waiting.keys.length :=
  (List.subperm_of_subset h.nodup h.placed_subset).length_le

/-- There are no more levels than names, since every level places one at least. -/
theorem Tracks.length_levels_le (h : c.Tracks g) : c.levels.length ≤ g.waiting.keys.length := by
  have hsum : c.levels.length ≤ c.levels.flatten.length := by
    rw [List.length_flatten, ← List.length_map (f := List.length)]
    refine List.length_le_sum_of_one_le _ fun k hk => ?_
    obtain ⟨level, hm, rfl⟩ := List.mem_map.1 hk
    exact List.length_pos_iff.2 (h.level_ne_nil level hm)
  have hplaced := h.length_placed_le
  rw [placed, List.length_append] at hplaced
  omega

/-- A round that is due goes well. What it makes ready has not been placed before: its count was above
zero until then, and those of the names placed were not. -/
theorem Tracks.round (h : c.Tracks g) (hknown : ∀ d, g.waitingFor d ⊆ g.waiting.keys) (hne : c.ready ≠ []) :
    ∃ c', c.round = .ok c' ∧ c'.Tracks g := by
  obtain ⟨w, next, hrel, hkeys, hget, hnd, hmem⟩ :=
    releaseAll_spec (c.ready.flatMap c.graph.waitingFor) c.waiting fun n hn => by
      obtain ⟨d, -, hd⟩ := List.mem_flatMap.1 hn
      rw [h.keys]
      exact hknown d (h.graph ▸ hd)
  let c' : Countdown := { c with waiting := w, levels := c.levels ++ [c.ready], ready := next }
  have hround : c.round = .ok c' := by
    rw [Countdown.round, hrel]
    rfl
  -- a name has been counted down as often as before, and once for each ready name that it waits for
  have hreleased : ∀ n, c'.released n = c.released n + (c.ready.flatMap c.graph.waitingFor).count n := by
    intro n
    rw [released, List.flatten_append, List.flatten_singleton, List.flatMap_append, List.count_append]
    rfl
  have hplaced : c'.placed = c.placed ++ next := by
    rw [placed, placed, List.flatten_append, List.flatten_singleton]
  have hnext : ∀ n, n ∈ next ↔ ∃ k, g.waiting.get? n = some k ∧ c.released n < k ∧ k ≤ c'.released n := by
    intro n
    rw [hmem, h.counts, hreleased]
    cases g.waiting.get? n with
    | none => simp
    | some k =>
      simp only [Option.map_some, Option.some.injEq, exists_eq_left']
      omega
  refine ⟨c', hround, h.graph, hkeys.trans h.keys, fun n => ?_, ?_, fun n => ?_, fun level hm => ?_⟩
  · rw [show c'.waiting = w from rfl, hget, h.counts, hreleased]
    cases g.waiting.get? n with
    | none => rfl
    | some k =>
      simp only [Option.map_some, Option.some.injEq]
      omega
  · rw [hplaced]
    refine List.nodup_append.2 ⟨h.nodup, hnd, fun n hn m hm heq => ?_⟩
    obtain ⟨k, hk, -, hle⟩ := (h.mem_placed n).1 hn
    obtain ⟨k', hk', hlt, -⟩ := (hnext m).1 hm
    rw [← heq, hk] at hk'
    cases hk'
    rw [← heq] at hlt
    omega
  · rw [hplaced, List.mem_append, h.mem_placed, hnext, hreleased]
    cases g.waiting.get? n with
    | none => simp
    | some k =>
      simp only [Option.some.injEq, exists_eq_left']
      omega
  · rcases List.mem_append.1 hm with hm | hm
    · exact h.level_ne_nil level hm
    · exact List.mem_singleton.1 hm ▸ hne

theorem Tracks.goes (h : c.Tracks g) (hknown : ∀ d, g.waitingFor d ⊆ g.waiting.keys) (hgoes : c.Goes c') :
    c'.Tracks g := by
  obtain ⟨c₁, hround, htracks⟩ := h.round hknown hgoes.1
  cases hround.symm.trans hgoes.2
  exact htracks

/-- Every state of a countdown is as its graph asks for. -/
theorem Reached.tracks (hkeys : g.waiting.keys.Nodup) (hknown : ∀ d, g.waitingFor d ⊆ g.waiting.keys)
    (h : Reached g c) : c.Tracks g := by
  induction h with
  | refl => exact tracks_start hkeys
  | tail _ hgoes ih => exact ih.goes hknown hgoes

/-- A countdown comes to an end, and the bound on the number of levels is never in the way. -/
theorem Tracks.ends (hknown : ∀ d, g.waitingFor d ⊆ g.waiting.keys) : ∀ (bound : Nat) {c : Countdown}, c.Tracks g →
    g.waiting.keys.length ≤ bound + c.levels.flatten.length →
      ∃ c' levels, Relation.ReflTransGen Goes c c' ∧ c'.ready = [] ∧ c'.levels = c.levels ++ levels ∧
        g.levelsFrom bound c.waiting c.ready = .ok (levels, c'.waiting)
  | 0, c, h, hbound => by
    have hplaced := h.length_placed_le
    rw [placed, List.length_append] at hplaced
    have hnil : c.ready = [] := List.length_eq_zero_iff.1 (by omega)
    exact ⟨c, [], .refl, hnil, (List.append_nil _).symm, rfl⟩
  | bound + 1, c, h, hbound => by
    cases hready : c.ready with
    | nil => exact ⟨c, [], .refl, hready, (List.append_nil _).symm, rfl⟩
    | cons d rest =>
      have hne : c.ready ≠ [] := by
        rw [hready]
        exact List.cons_ne_nil d rest
      obtain ⟨c₁, hround, h₁⟩ := h.round hknown hne
      have hgoes : c.Goes c₁ := ⟨hne, hround⟩
      obtain ⟨w, next, hrel, rfl⟩ := of_round_eq_ok hround
      rw [h.graph, hready] at hrel
      have hlength : c.levels.flatten.length < (c.levels ++ [c.ready]).flatten.length := by
        have hpos : 0 < c.ready.length := List.length_pos_iff.2 hne
        rw [List.flatten_append, List.flatten_singleton, List.length_append]
        omega
      obtain ⟨c₂, levels, hreach, hnil, hlevels, hfrom⟩ := Tracks.ends hknown bound h₁ (by
        change g.waiting.keys.length ≤ bound + (c.levels ++ [c.ready]).flatten.length
        omega)
      refine ⟨c₂, c.ready :: levels, .head hgoes hreach, hnil, ?_, ?_⟩
      · rw [hlevels, List.append_assoc, List.singleton_append]
      · unfold levelsFrom
        simp only [hrel, bind, Except.bind, hfrom, hready]
        rfl

end Countdown

/-! ## Levels -/

variable {g : Graph}

theorem waitingFor_subset (hknown : ∀ names ∈ g.successors.values, names ⊆ g.waiting.keys) (d : String) :
    g.waitingFor d ⊆ g.waiting.keys := by
  intro n hn
  rw [waitingFor, mem_sorted, mem_distinct] at hn
  cases hget : g.successors.get? d with
  | none =>
    rw [hget] at hn
    exact absurd hn List.not_mem_nil
  | some names =>
    obtain ⟨before, after, heq, -⟩ := List.lookup_eq_some_iff.1 hget
    have hmem : names ∈ g.successors.values := by
      rw [Dict.values, heq]
      simp
    rw [hget] at hn
    exact hknown names hmem hn

/-- The names of the levels, each once. -/
theorem Countdown.Tracks.levels_flatten {c : Countdown} (h : c.Tracks g) :
    c.levels.flatten.Nodup ∧ c.levels.flatten ⊆ g.waiting.keys :=
  ⟨(List.nodup_append.1 h.nodup).1, fun _ hn => h.placed_subset (List.mem_append_left _ hn)⟩

/-- Levelling ends where the countdown does. It gives the levels if these have all names, and is refused
for the names that still wait if not. -/
theorem exists_end (hkeys : g.waiting.keys.Nodup) (hknown : ∀ d, g.waitingFor d ⊆ g.waiting.keys) :
    ∃ c, Countdown.Reached g c ∧ c.ready = [] ∧
      (c.levels.flatten.Perm g.waiting.keys ∧ g.levels = .ok c.levels ∨
        ¬ c.levels.flatten.Perm g.waiting.keys ∧ g.levels = .error (.cycle (stuck c.waiting))) := by
  have hlength := Dict.length_entries g.waiting
  obtain ⟨c, levels, hreach, hnil, hlevels, hfrom⟩ :=
    Countdown.Tracks.ends hknown g.waiting.entries.length (Countdown.tracks_start hkeys) (by
      rw [hlength]
      exact Nat.le_add_right _ _)
  obtain rfl : c.levels = levels := hlevels
  have heq : g.levels = if c.levels.flatten.length = g.waiting.entries.length then .ok c.levels
      else .error (.cycle (stuck c.waiting)) := by
    rw [Countdown.start] at hfrom
    unfold Graph.levels
    simp only [hfrom, bind, Except.bind]
    rfl
  obtain ⟨hnd, hsub⟩ := (Countdown.Reached.tracks hkeys hknown hreach).levels_flatten
  refine ⟨c, hreach, hnil, ?_⟩
  rw [heq, hlength]
  split
  · rename_i hall
    exact .inl ⟨(List.subperm_of_subset hnd hsub).perm_of_length_le hall.ge, rfl⟩
  · rename_i hall
    exact .inr ⟨fun hperm => hall hperm.length_eq, rfl⟩

/-- Levelling of any graph whose names are known, with whatever counts. Its countdown leaves the graph as it is, and
goes on as long as names are ready; it places no name twice, and comes to an end after no more rounds than there
are names. There are levels exactly if it has placed all names, and these are its levels, in which each
name stands once; otherwise levelling is refused. -/
theorem levels_of_any_counts (hkeys : g.waiting.keys.Nodup)
    (hknown : ∀ names ∈ g.successors.values, names ⊆ g.waiting.keys) :
    (∀ c, Countdown.Reached g c → c.Tracks g ∧ c.levels.length ≤ g.waiting.keys.length ∧
      (c.ready ≠ [] → ∃ c', c.Goes c')) ∧
    ∃ c, Countdown.Reached g c ∧ c.ready = [] ∧
      ((∃ levels, g.levels = .ok levels) ↔ ∀ n ∈ g.waiting.keys, n ∈ c.levels.flatten) ∧
      (∀ levels, g.levels = .ok levels → levels = c.levels ∧ levels.flatten.Perm g.waiting.keys) ∧
      ∀ e, g.levels = .error e → e = .cycle (stuck c.waiting) := by
  have hsub := waitingFor_subset hknown
  refine ⟨fun c hc => ?_, ?_⟩
  · have htracks := hc.tracks hkeys hsub
    refine ⟨htracks, htracks.length_levels_le, fun hne => ?_⟩
    obtain ⟨c', hround, -⟩ := htracks.round hsub hne
    exact ⟨c', hne, hround⟩
  · obtain ⟨c, hc, hnil, hend⟩ := exists_end hkeys hsub
    obtain ⟨hnd, hnames⟩ := (hc.tracks hkeys hsub).levels_flatten
    have hall : c.levels.flatten.Perm g.waiting.keys ↔ ∀ n ∈ g.waiting.keys, n ∈ c.levels.flatten :=
      ⟨fun hperm n hn => hperm.mem_iff.2 hn, fun hall => (List.perm_ext_iff_of_nodup hnd hkeys).2 fun n =>
        ⟨fun hn => hnames hn, hall n⟩⟩
    refine ⟨c, hc, hnil, ?_⟩
    rw [← hall]
    rcases hend with ⟨hperm, hlevels⟩ | ⟨hperm, hlevels⟩
    · rw [hlevels]
      refine ⟨iff_of_true ⟨_, rfl⟩ hperm, fun levels hl => ?_, nofun⟩
      cases hl
      exact ⟨rfl, hperm⟩
    · rw [hlevels]
      refine ⟨iff_of_false nofun hperm, nofun, fun e he => ?_⟩
      cases he
      rfl

end Graph

namespace Sample

/-- Counts that are too small, for names that wait for themselves or for each other. -/
def undercounted : Graph where
  successors := ⟨[("build", ["build", "docs", "test"]), ("docs", ["publish", "test"]), ("test", ["publish"]),
    ("publish", ["docs"])]⟩
  waiting := ⟨[("publish", 1), ("test", 1), ("docs", 1), ("build", 0)]⟩

/-- A count that is too large, and one below zero. -/
def overcounted : Graph where
  successors := ⟨[("build", ["lint", "sign"]), ("audit", ["build"])]⟩
  waiting := ⟨[("build", 0), ("sign", 2), ("lint", -1)]⟩

theorem levels_undercounted : undercounted.levels = .ok [["build"], ["docs", "test"], ["publish"]] := by
  simp [undercounted, Graph.levels, Graph.levelsFrom, Graph.releaseAll, Graph.release, Graph.waitingFor, Graph.ready,
    sorted, List.mergeSort, distinct,
    Dict.get?, Dict.lookup_cons_if, Dict.set, Dict.setIn, bind, Except.bind, pure, Except.pure]

theorem levels_overcounted : overcounted.levels = .error (.cycle ["sign"]) := by
  simp [overcounted, Graph.levels, Graph.levelsFrom, Graph.releaseAll, Graph.release, Graph.waitingFor, Graph.ready,
    Graph.stuck, sorted, List.mergeSort, distinct, Dict.get?, Dict.lookup_cons_if, Dict.set, Dict.setIn, bind,
    Except.bind, pure, Except.pure, throw, throwThe, MonadExceptOf.throw]

end Sample

namespace Graph

/-- Counts that are too small still come to zero once; one that is too large never does, and neither does one below zero. -/
theorem levels_of_any_counts_sample :
    (∃ c, Countdown.Reached Sample.undercounted c ∧ c.ready = [] ∧ c.placed.Nodup ∧
      c.levels = [["build"], ["docs", "test"], ["publish"]] ∧ Sample.undercounted.levels = .ok c.levels ∧
      c.levels.flatten.Perm Sample.undercounted.waiting.keys) ∧
    ∃ c, Countdown.Reached Sample.overcounted c ∧ c.ready = [] ∧ c.placed.Nodup ∧
      Sample.overcounted.levels = .error (.cycle ["sign"]) ∧
      ¬ ∀ n ∈ Sample.overcounted.waiting.keys, n ∈ c.levels.flatten := by
  constructor
  · obtain ⟨hstates, c, hc, hnil, -, hlevels, -⟩ :=
      levels_of_any_counts (g := Sample.undercounted) (by decide) (by decide)
    obtain ⟨heq, hperm⟩ := hlevels _ Sample.levels_undercounted
    rw [heq] at hperm
    exact ⟨c, hc, hnil, (hstates c hc).1.nodup, heq.symm, heq ▸ Sample.levels_undercounted, hperm⟩
  · obtain ⟨hstates, c, hc, hnil, hall, -⟩ :=
      levels_of_any_counts (g := Sample.overcounted) (by decide) (by decide)
    refine ⟨c, hc, hnil, (hstates c hc).1.nodup, Sample.levels_overcounted, fun hplaced => ?_⟩
    obtain ⟨levels, hlevels⟩ := hall.2 hplaced
    cases hlevels.symm.trans Sample.levels_overcounted

end Graph

end CiPipeline
