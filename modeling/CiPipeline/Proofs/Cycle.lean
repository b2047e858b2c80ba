import CiPipeline.Proofs.Levels
import Mathlib.Data.Set.Finite.Basic
import Mathlib.Logic.Relation

/-
What levelling leaves behind. A job that is not placed waits for another one that is not placed, and
as there are finitely many jobs this leads back to a cycle; a job on a cycle is never placed, and
neither is any job after it. So the names that are stuck are those of the blocked jobs, which are the
jobs on cycles and all jobs after them (`mem_stuck_iff_blocked`).
-/

namespace CiPipeline

/-- A job that precedes itself, directly or through others. -/
def OnCycle (jobs : List Job) (j : Job) : Prop := Relation.TransGen (Precedes jobs) j j

/-- A job on a cycle, or after one that is. -/
def Blocked (jobs : List Job) (j : Job) : Prop := ∃ c, OnCycle jobs c ∧ Relation.ReflTransGen (Precedes jobs) c j

theorem OnCycle.blocked {jobs : List Job} {j : Job} (h : OnCycle jobs j) : Blocked jobs j := ⟨j, h, .refl⟩

/-- From any element of a finite set without first elements, the way back leads into a cycle. -/
theorem exists_cycle {α : Type} {r : α → α → Prop} {s : Set α} (hs : s.Finite) (hback : ∀ a ∈ s, ∃ b ∈ s, r b a)
    {a : α} (ha : a ∈ s) : ∃ c, Relation.TransGen r c c ∧ Relation.ReflTransGen r c a := by
  by_contra hno
  push Not at hno
  -- without a cycle, what leads to `a` is strictly ordered, and has a first element
  let before := {b // b ∈ s ∧ Relation.ReflTransGen r b a}
  have hfinite : Finite before := (hs.subset fun _ hb => hb.1).to_subtype
  let precedes : before → before → Prop := fun b c => Relation.TransGen r b.1 c.1
  have htrans : IsTrans before precedes := ⟨fun _ _ _ => Relation.TransGen.trans⟩
  have hirrefl : Std.Irrefl precedes := ⟨fun b hb => hno b.1 hb b.2.2⟩
  obtain ⟨b, -, hfirst⟩ := (Finite.wellFounded_of_trans_of_irrefl precedes).has_min Set.univ
    ⟨⟨a, ha, .refl⟩, trivial⟩
  obtain ⟨c, hc, hcb⟩ := hback b.1 b.2.1
  exact hfirst ⟨c, hc, .head hcb b.2.2⟩ trivial (.single hcb)

namespace Graph

theorem mem_stuck {w : Dict Int} (hnd : w.keys.Nodup) {n : String} : n ∈ stuck w ↔ ∃ k, w.get? n = some k ∧ 0 < k := by
  rw [stuck, mem_sorted, List.mem_map]
  simp only [List.mem_filter, decide_eq_true_eq, Dict.get?_eq_some_iff hnd]
  constructor
  · rintro ⟨⟨n, k⟩, ⟨hm, hk⟩, rfl⟩; exact ⟨k, hm, hk⟩
  · rintro ⟨k, hm, hk⟩; exact ⟨(n, k), ⟨hm, hk⟩, rfl⟩

/-- When the countdown has ended, those names still wait that have not been placed. -/
theorem Placing.mem_stuck {names : List String} {before : String → Finset String} {w : Dict Int}
    {placed : Finset String} (hp : Placing names before w placed []) (hnd : names.Nodup) {n : String} :
    n ∈ stuck w ↔ n ∈ names ∧ n ∉ placed := by
  rw [Graph.mem_stuck (hp.keys ▸ hnd)]
  constructor
  · rintro ⟨k, hk, hpos⟩
    have hn : n ∈ names := by rw [← hp.keys, ← Dict.isSome_get?, hk]; rfl
    rw [hp.counts n hn, Option.some.injEq] at hk
    refine ⟨hn, fun hpl => ?_⟩
    rw [Finset.sdiff_eq_empty_iff_subset.2 (hp.closed n hpl), Finset.card_empty] at hk
    omega
  · rintro ⟨hn, hpl⟩
    refine ⟨_, hp.counts n hn, ?_⟩
    have hne : (before n \ placed).card ≠ 0 := by
      rw [Finset.card_ne_zero, Finset.nonempty_iff_ne_empty, ne_eq, Finset.sdiff_eq_empty_iff_subset]
      exact fun hs => List.not_mem_nil ((hp.mem_level n).2 ⟨hn, hpl, hs⟩)
    omega

section

variable {jobs : List Job} {levels : List (List String)} {w : Dict Int}

/-- The state in which the countdown of well-formed jobs ends. -/
structure CountedDown (jobs : List Job) (levels : List (List String)) (w : Dict Int) : Prop where
  wellFormed : WellFormed jobs
  layered : Layered (jobs.map (·.name)) (beforeName jobs) ∅ levels
  placing : Placing (jobs.map (·.name)) (beforeName jobs) w levels.flatten.toFinset []

theorem CountedDown.mem_flatten_of_precedes (h : CountedDown jobs levels w) {d j : Job} (hpre : Precedes jobs d j)
    (hj : j.name ∈ levels.flatten) : d.name ∈ levels.flatten ∧ levelOf levels d.name < levelOf levels j.name :=
  h.layered.levelOf_lt ((mem_beforeName h.wellFormed hpre.2.1).2 ⟨d, hpre, rfl⟩) hj (Finset.notMem_empty _)

/-- Every job before a job that is placed is placed, in an earlier level. -/
theorem CountedDown.mem_flatten_of_transGen (h : CountedDown jobs levels w) {d j : Job}
    (hpre : Relation.TransGen (Precedes jobs) d j) (hj : j.name ∈ levels.flatten) :
    d.name ∈ levels.flatten ∧ levelOf levels d.name < levelOf levels j.name := by
  induction hpre with
  | single hpre => exact h.mem_flatten_of_precedes hpre hj
  | tail _ hpre ih =>
    obtain ⟨hk, hlt⟩ := h.mem_flatten_of_precedes hpre hj
    obtain ⟨hd, hlt'⟩ := ih hk
    exact ⟨hd, hlt'.trans hlt⟩

theorem CountedDown.not_mem_flatten (h : CountedDown jobs levels w) {j : Job} (hb : Blocked jobs j) : j.name ∉ levels.flatten := by
  obtain ⟨c, hcycle, hreach⟩ := hb
  intro hj
  have hc : c.name ∈ levels.flatten := by
    rcases Relation.reflTransGen_iff_eq_or_transGen.1 hreach with rfl | hpre
    · exact hj
    · exact (h.mem_flatten_of_transGen hpre hj).1
  exact lt_irrefl _ (h.mem_flatten_of_transGen hcycle hc).2

/-- A job that is not placed is blocked: it waits for another one that is not placed. -/
theorem CountedDown.blocked (h : CountedDown jobs levels w) {j : Job} (hj : j ∈ jobs) (hno : j.name ∉ levels.flatten) :
    Blocked jobs j := by
  refine exists_cycle (s := {k | k ∈ jobs ∧ k.name ∉ levels.flatten})
    ((jobs.finite_toSet).subset fun _ hk => hk.1) ?_ ⟨hj, hno⟩
  rintro k ⟨hk, hkno⟩
  have hbefore : ¬ beforeName jobs k.name ⊆ levels.flatten.toFinset := fun hs =>
    List.not_mem_nil ((h.placing.mem_level k.name).2
      ⟨List.mem_map.2 ⟨k, hk, rfl⟩, fun hm => hkno (List.mem_toFinset.1 hm), hs⟩)
  obtain ⟨n, hn, hnno⟩ := Finset.not_subset.1 hbefore
  obtain ⟨d, hpre, rfl⟩ := (mem_beforeName h.wellFormed hk).1 hn
  exact ⟨d, ⟨hpre.1, fun hm => hnno (List.mem_toFinset.2 hm)⟩, hpre⟩

/-- The names that are stuck are those of the blocked jobs. -/
theorem CountedDown.mem_stuck_iff_blocked (h : CountedDown jobs levels w) {n : String} :
    n ∈ stuck w ↔ ∃ j ∈ jobs, j.name = n ∧ Blocked jobs j := by
  rw [h.placing.mem_stuck h.wellFormed.names_nodup, List.mem_toFinset, List.mem_map]
  constructor
  · rintro ⟨⟨j, hj, rfl⟩, hno⟩; exact ⟨j, hj, rfl, h.blocked hj hno⟩
  · rintro ⟨j, hj, rfl, hb⟩; exact ⟨⟨j, hj, rfl⟩, h.not_mem_flatten hb⟩

/-- All jobs are placed exactly if none of them is on a cycle. -/
theorem CountedDown.length_eq_iff (h : CountedDown jobs levels w) :
    levels.flatten.length = (jobs.map (·.name)).length ↔ ∀ j, ¬ OnCycle jobs j := by
  have hsub : levels.flatten ⊆ jobs.map (·.name) := fun n hn => (h.layered.mem_flatten n hn).1
  constructor
  · intro hlen j hcycle
    have hj : j ∈ jobs := by
      obtain ⟨k, -, hpre⟩ := Relation.TransGen.tail'_iff.1 hcycle
      exact hpre.2.1
    have hperm := (List.subperm_of_subset h.layered.nodup_flatten hsub).perm_of_length_le hlen.ge
    exact h.not_mem_flatten hcycle.blocked (hperm.mem_iff.2 (List.mem_map.2 ⟨j, hj, rfl⟩))
  · intro hno
    refine le_antisymm (List.subperm_of_subset h.layered.nodup_flatten hsub).length_le
      (List.subperm_of_subset h.wellFormed.names_nodup fun n hn => ?_).length_le
    obtain ⟨j, hj, rfl⟩ := List.mem_map.1 hn
    by_contra hnj
    obtain ⟨c, hcycle, -⟩ := h.blocked hj hnj
    exact hno c hcycle

/-- Well-formed jobs have levels exactly if none of them is on a cycle. -/
theorem exists_levels_iff (h : WellFormed jobs) :
    (∃ levels, (ofEdges (edgesOf jobs)).levels = .ok levels) ↔ ∀ j, ¬ OnCycle jobs j := by
  obtain ⟨levels, w, hlay, hplacing, heq⟩ := levels_eq (represents_ofEdges h)
  have hdown : CountedDown jobs levels w := ⟨h, hlay, hplacing⟩
  rw [heq, ← hdown.length_eq_iff]
  split
  · exact iff_of_true ⟨levels, rfl⟩ ‹_›
  · exact iff_of_false nofun ‹_›

end

end Graph

end CiPipeline
