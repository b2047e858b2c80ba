import CiPipeline.Proofs.Levels

/-
Levels do not depend on the order in which a graph was told. The countdown looks at counts by their
names and at successors in order only, so graphs of one precedence between the same names have the
same levels, and if they have none the same names are stuck (`Represents.levels_congr`).
-/

namespace CiPipeline.Graph

/-! ## Names in order -/

/-- Names in order are the same for the same names. -/
theorem sorted_congr {xs ys : List String} (h : xs.Perm ys) : sorted xs = sorted ys :=
  List.Perm.eq_of_pairwise (fun _ _ _ _ hab hba => String.le_antisymm hab hba) (pairwise_sorted xs) (pairwise_sorted ys)
    ((List.mergeSort_perm xs _).trans (h.trans (List.mergeSort_perm ys _).symm))

theorem sorted_distinct_congr {xs ys : List String} (h : ∀ n, n ∈ xs ↔ n ∈ ys) :
    sorted (distinct xs) = sorted (distinct ys) :=
  sorted_congr ((List.perm_ext_iff_of_nodup (nodup_distinct xs) (nodup_distinct ys)).2 fun n => by
    rw [mem_distinct, mem_distinct]; exact h n)

/-! ## The same counts -/

theorem ready_congr {w w' : Dict Int} (h : w.Alike w') : ready w = ready w' :=
  sorted_congr ((h.entries_perm.filter _).map _)

theorem stuck_congr {w w' : Dict Int} (h : w.Alike w') : stuck w = stuck w' :=
  sorted_congr ((h.entries_perm.filter _).map _)

/-- Counting the same names down finds the same names ready. -/
theorem releaseAll_congr : ∀ (names : List String) {w w' : Dict Int}, w.Alike w' →
    (∃ e, releaseAll w names = .error e ∧ releaseAll w' names = .error e) ∨
      ∃ v v' ready, releaseAll w names = .ok (v, ready) ∧ releaseAll w' names = .ok (v', ready) ∧ v.Alike v'
  | [], w, w', h => .inr ⟨w, w', [], rfl, rfl, h⟩
  | name :: names, w, w', h => by
    rw [releaseAll, releaseAll, release, release, ← h.get?_eq]
    cases hk : w.get? name with
    | none => exact .inl ⟨.unknownName name, rfl, rfl⟩
    | some k =>
      simp only [bind, Except.bind, pure, Except.pure]
      rcases releaseAll_congr names (h.set name (k - 1)) with ⟨e, he, he'⟩ | ⟨v, v', ready, hv, hv', hs⟩
      · rw [he, he']; exact .inl ⟨e, rfl, rfl⟩
      · rw [hv, hv']; exact .inr ⟨v, v', _, rfl, rfl, hs⟩

variable {g g' : Graph}

theorem levelsFrom_congr (hs : ∀ d, g.waitingFor d = g'.waitingFor d) :
    ∀ (fuel : Nat) {w w' : Dict Int} (level : List String), w.Alike w' →
      (∃ e, g.levelsFrom fuel w level = .error e ∧ g'.levelsFrom fuel w' level = .error e) ∨
        ∃ levels v v', g.levelsFrom fuel w level = .ok (levels, v) ∧ g'.levelsFrom fuel w' level = .ok (levels, v') ∧
          v.Alike v'
  | 0, w, w', _, h => .inr ⟨[], w, w', rfl, rfl, h⟩
  | _ + 1, w, w', [], h => .inr ⟨[], w, w', rfl, rfl, h⟩
  | fuel + 1, w, w', d :: level, h => by
    have hnext : (d :: level).flatMap g.waitingFor = (d :: level).flatMap g'.waitingFor := by
      rw [funext hs]
    simp only [levelsFrom, hnext, bind, Except.bind, pure, Except.pure]
    rcases releaseAll_congr ((d :: level).flatMap g'.waitingFor) h with ⟨e, he, he'⟩ | ⟨v, v', next, hv, hv', hsame⟩
    · rw [he, he']; exact .inl ⟨e, rfl, rfl⟩
    · rw [hv, hv']
      rcases levelsFrom_congr hs fuel next hsame with ⟨e, he, he'⟩ | ⟨levels, u, u', hu, hu', hend⟩
      · simp only [he, he']; exact .inl ⟨e, rfl, rfl⟩
      · simp only [hu, hu']; exact .inr ⟨_, u, u', rfl, rfl, hend⟩

/-- Graphs with the same counts and the same successors have the same levels, or are refused alike. -/
theorem levels_congr (hw : g.waiting.Alike g'.waiting) (hs : ∀ d, g.waitingFor d = g'.waitingFor d) :
    g.levels = g'.levels := by
  unfold levels
  rw [← ready_congr hw, ← hw.entries_perm.length_eq]
  simp only [bind, Except.bind]
  rcases levelsFrom_congr hs g.waiting.entries.length (ready g.waiting) hw with
    ⟨e, he, he'⟩ | ⟨levels, v, v', hv, hv', hsame⟩
  · rw [he, he']
  · rw [hv, hv']
    simp only [stuck_congr hsame]

/-- Graphs of one precedence between the same names have the same levels, or are refused alike. -/
theorem Represents.levels_congr {names names' : List String} {before before' : String → Finset String}
    (hg : g.Represents names before) (hg' : g'.Represents names' before') (hnames : names.Perm names')
    (hbefore : ∀ n ∈ names, before n = before' n) : g.levels = g'.levels := by
  have hkeys : g.waiting.keys.Nodup := by rw [hg.keys]; exact hg.names_nodup
  have hkeys' : g'.waiting.keys.Nodup := by rw [hg'.keys]; exact hg'.names_nodup
  refine Graph.levels_congr ⟨hkeys, hkeys', fun n => ?_⟩ fun d => ?_
  · by_cases hn : n ∈ names
    · rw [hg.counts n hn, hg'.counts n (hnames.mem_iff.1 hn), hbefore n hn]
    · rw [Dict.get?_eq_none.2 (by rw [hg.keys]; exact hn),
        Dict.get?_eq_none.2 (by rw [hg'.keys, ← hnames.mem_iff]; exact hn)]
  · have hmem : ∀ c, c ∈ g.waitingFor d ↔ c ∈ g'.waitingFor d := by
      intro c
      rw [hg.mem_waitingFor, hg'.mem_waitingFor, ← hnames.mem_iff]
      exact and_congr_right fun hc => by rw [hbefore c hc]
    refine sorted_distinct_congr fun c => ?_
    have hc := hmem c
    rwa [waitingFor, waitingFor, mem_sorted, mem_sorted, mem_distinct, mem_distinct] at hc

end CiPipeline.Graph
