import CiPipeline.Proofs.Run.Solution

/-
How the results of a group come together. A result weighs the more, the more it says against the group:
what was skipped says nothing, a success little, and a failure most. A group comes to the heaviest of its
results (`weight_aggregate_le`), so aggregation is a join (`aggregate_join`): neither order nor repetition
matters, the group without members is neutral, and a group may be aggregated by way of subgroups. Jobs are
then decided about as before, whatever their gates are (`Groups.Splits.decide_eq`).
-/

namespace CiPipeline

namespace JobResult

/-! ## Weights -/

/-- How much a result weighs in a group. A word that names no ending weighs nothing. -/
def weight : JobResult → Nat
  | .failure => 3
  | .cancelled => 2
  | .success => 1
  | .skipped | .other _ => 0

/-- Endings of the same weight are the same. -/
theorem eq_of_weight_eq : ∀ r ∈ all, ∀ s ∈ all, r.weight = s.weight → r = s := by decide

theorem weight_le_three (r : JobResult) : r.weight ≤ 3 := by
  cases r <;> simp [weight]

theorem weight_le_two {r : JobResult} (hfailure : r ≠ .failure) : r.weight ≤ 2 := by
  cases r <;> simp_all [weight]

theorem weight_le_one {r : JobResult} (hfailure : r ≠ .failure) (hcancelled : r ≠ .cancelled) : r.weight ≤ 1 := by
  cases r <;> simp_all [weight]

theorem weight_eq_zero {r : JobResult} (hfailure : r ≠ .failure) (hcancelled : r ≠ .cancelled)
    (hsuccess : r ≠ .success) : r.weight = 0 := by
  cases r <;> simp_all [weight]

theorem aggregate_mem_all (rs : List JobResult) : aggregate rs ∈ all :=
  (isEnding_iff_mem_all _).1 (isEnding_aggregate rs)

/-- A group weighs no more than `n` exactly if none of its results does. -/
theorem weight_aggregate_le {rs : List JobResult} {n : Nat} :
    (aggregate rs).weight ≤ n ↔ ∀ r ∈ rs, r.weight ≤ n := by
  unfold aggregate
  simp only [List.contains_iff_mem]
  -- what is asked for first weighs most, and what was not found is not in the group
  split
  case isTrue hfailure => exact ⟨fun hn r _ => (weight_le_three r).trans hn, fun h => h _ hfailure⟩
  case isFalse hfailure =>
    have hno₁ : ∀ r ∈ rs, r ≠ .failure := fun r hr heq => hfailure (heq ▸ hr)
    split
    case isTrue hcancelled => exact ⟨fun hn r hr => (weight_le_two (hno₁ r hr)).trans hn, fun h => h _ hcancelled⟩
    case isFalse hcancelled =>
      have hno₂ : ∀ r ∈ rs, r ≠ .cancelled := fun r hr heq => hcancelled (heq ▸ hr)
      split
      case isTrue hsuccess =>
        exact ⟨fun hn r hr => (weight_le_one (hno₁ r hr) (hno₂ r hr)).trans hn, fun h => h _ hsuccess⟩
      case isFalse hsuccess =>
        have hno₃ : ∀ r ∈ rs, r ≠ .success := fun r hr heq => hsuccess (heq ▸ hr)
        refine ⟨fun _ r hr => ?_, fun _ => Nat.zero_le n⟩
        rw [weight_eq_zero (hno₁ r hr) (hno₂ r hr) (hno₃ r hr)]
        exact Nat.zero_le n

/-- Groups that the same weights bound come to the same. -/
theorem aggregate_eq_of_bounds {xs ys : List JobResult}
    (h : ∀ n, (∀ r ∈ xs, r.weight ≤ n) ↔ ∀ r ∈ ys, r.weight ≤ n) : aggregate xs = aggregate ys := by
  refine eq_of_weight_eq _ (aggregate_mem_all xs) _ (aggregate_mem_all ys) (eq_of_forall_ge_iff fun n => ?_)
  rw [weight_aggregate_le, weight_aggregate_le, h]

theorem aggregate_append (xs ys : List JobResult) :
    aggregate (xs ++ ys) = aggregate [aggregate xs, aggregate ys] := by
  refine aggregate_eq_of_bounds fun n => ?_
  rw [List.forall_mem_append, List.forall_mem_cons, List.forall_mem_singleton, weight_aggregate_le,
    weight_aggregate_le]

/-- A group comes to what its subgroups come to together. -/
theorem aggregate_flatten (xss : List (List JobResult)) :
    aggregate xss.flatten = aggregate (xss.map aggregate) := by
  refine aggregate_eq_of_bounds fun n => ?_
  simp only [List.forall_mem_flatten, List.forall_mem_map, weight_aggregate_le]

/-! ## The order of the results -/

/-- A result gives way to another if a group of these two comes to the other. -/
def GivesWay (r s : JobResult) : Prop := aggregate [r, s] = s

instance (r s : JobResult) : Decidable (r.GivesWay s) := inferInstanceAs (Decidable (_ = _))

/-- The endings, each of which gives way to those behind it. -/
def ascending : List JobResult := [.skipped, .success, .cancelled, .failure]

theorem weight_eq_idxOf : ∀ r ∈ all, r.weight = ascending.idxOf r := by decide

theorem givesWay_iff {r s : JobResult} (hs : s ∈ all) : r.GivesWay s ↔ r.weight ≤ s.weight := by
  have hbound : ∀ n, (aggregate [r, s]).weight ≤ n ↔ r.weight ≤ n ∧ s.weight ≤ n := fun n => by
    rw [weight_aggregate_le, List.forall_mem_cons, List.forall_mem_singleton]
  constructor
  · intro h
    refine ((hbound s.weight).1 ?_).1
    rw [h]
  · intro hle
    refine eq_of_weight_eq _ (aggregate_mem_all _) s hs (eq_of_forall_ge_iff fun n => ?_)
    rw [hbound]
    exact ⟨fun h => h.2, fun h => ⟨hle.trans h, h⟩⟩

/-- What a group comes to is the least ending that all of its results give way to. -/
theorem aggregate_givesWay_iff {rs : List JobResult} {u : JobResult} (hu : u ∈ all) :
    (aggregate rs).GivesWay u ↔ ∀ r ∈ rs, r.GivesWay u := by
  rw [givesWay_iff hu, weight_aggregate_le]
  exact forall₂_congr fun r _ => (givesWay_iff hu).symm

end JobResult

/-! ## Groups by way of subgroups -/

namespace Groups

/-- What the members of a group come to under some results. -/
def together (results : Dict JobResult) (members : List String) : JobResult :=
  JobResult.aggregate (members.map fun n => (results.get? n).getD .skipped)

/-- The results with those of some groups besides. -/
def besides (parts : Groups) (results : Dict JobResult) : Dict JobResult :=
  results.update (parts.map (together results))

/-- Subgroups that a group may be replaced with where a job is decided about: they have the members of the
group, all of which have their results, and names of their own that mean nothing to the job. -/
structure Splits (groups : Groups) (group : String) (parts : Groups) (results : Dict JobResult) (j : Job) : Prop where
  covered : ∃ members, groups.get? group = some members ∧ (∀ n, n ∈ members ↔ ∃ part ∈ parts.values, n ∈ part) ∧
    ∀ n ∈ members, (results.get? n).isSome
  no_job : results.get? group = none
  nodup : parts.keys.Nodup
  fresh : ∀ p ∈ parts.keys, p ∉ j.needs ∧ ∀ need ∈ j.needs, ∀ members, groups.get? need = some members → p ∉ members

section

variable {groups parts : Groups} {group : String} {results : Dict JobResult} {j : Job}

theorem get?_besides (hnd : parts.keys.Nodup) (results : Dict JobResult) (n : String) :
    (parts.besides results).get? n = ((parts.get? n).map (together results)).or (results.get? n) := by
  have hkeys : ((parts.map (together results)).entries.map (·.1)).Nodup := by
    rw [Dict.map, List.map_map]
    exact hnd
  rw [besides, Dict.get?_update n hkeys results, Dict.get?_map]

/-- A name that no subgroup has is looked up as before. -/
theorem get?_besides_of_not_mem (hnd : parts.keys.Nodup) (results : Dict JobResult) {n : String} (hn : n ∉ parts.keys) :
    (parts.besides results).get? n = results.get? n := by
  rw [get?_besides hnd, Dict.get?_eq_none.2 hn, Option.map_none, Option.none_or]

theorem resultOf_besides (hnd : parts.keys.Nodup) (results : Dict JobResult) {p : String} (hp : p ∈ parts.keys) :
    resultOf (parts.besides results) p = .ok (together results ((parts.get? p).getD [])) := by
  obtain ⟨members, hmembers⟩ := Option.isSome_iff_exists.1 (Dict.isSome_get?.2 hp)
  rw [resultOf, get?_besides hnd, hmembers]
  rfl

/-- Subgroups with the members of a group come together to what the group does. -/
theorem aggregate_together (hnd : parts.keys.Nodup) {members : List String}
    (hcovered : ∀ n, n ∈ members ↔ ∃ part ∈ parts.values, n ∈ part) :
    JobResult.aggregate (parts.keys.map fun p => together results ((parts.get? p).getD [])) =
      together results members := by
  refine JobResult.aggregate_eq_of_bounds fun k => ?_
  simp only [together, List.forall_mem_map, JobResult.weight_aggregate_le]
  constructor
  · intro hbound n hn
    obtain ⟨part, hpart, hn⟩ := (hcovered n).1 hn
    obtain ⟨p, hp⟩ := (Dict.mem_values hnd).1 hpart
    refine hbound p (Dict.isSome_get?.1 (by rw [hp]; rfl)) n ?_
    rw [hp]
    exact hn
  · intro hbound p hp n hn
    obtain ⟨part, hpart⟩ := Option.isSome_iff_exists.1 (Dict.isSome_get?.2 hp)
    rw [hpart] at hn
    exact hbound n ((hcovered n).2 ⟨part, (Dict.mem_values hnd).2 ⟨p, hpart⟩, hn⟩)

/-- A need has the same result whether a group is aggregated at once or by way of its subgroups. -/
theorem Splits.needResult_eq (h : groups.Splits group parts results j) {need : String} (hneed : need ∈ j.needs) :
    needResult (parts.besides results) (groups.set group parts.keys) need = needResult results groups need := by
  have hself := get?_besides_of_not_mem h.nodup results fun hp => (h.fresh need hp).1 hneed
  unfold needResult
  rw [Dict.get?_set, resultOf, hself, ← resultOf]
  by_cases hgroup : need = group
  · obtain ⟨members, hmembers, hcovered, hresults⟩ := h.covered
    have hwhole : members.mapM (resultOf results) = .ok (members.map fun n => (results.get? n).getD .skipped) :=
      mapM_ok fun n hn => by
        obtain ⟨r, hr⟩ := Option.isSome_iff_exists.1 (hresults n hn)
        rw [resultOf, hr]
        rfl
    have hparts := mapM_ok fun p (hp : p ∈ parts.keys) => resultOf_besides h.nodup results hp
    rw [if_pos hgroup, hgroup, hmembers, h.no_job]
    simp only [hwhole, hparts]
    exact congrArg Except.ok (aggregate_together h.nodup hcovered)
  · rw [if_neg hgroup]
    cases hmembers : groups.get? need with
    | none => rfl
    | some members =>
      have hsame : members.mapM (resultOf (parts.besides results)) = members.mapM (resultOf results) :=
        mapM_congr fun n hn => by
          have hfresh : n ∉ parts.keys := fun hp => (h.fresh n hp).2 need hneed members hmembers hn
          rw [resultOf, get?_besides_of_not_mem h.nodup results hfresh, ← resultOf]
      cases results.get? need with
      | none => simp only [hsame]
      | some r => rfl

/-- A job is decided about alike whether a group is aggregated at once or by way of its subgroups. -/
theorem Splits.decide_eq (h : groups.Splits group parts results j) (t : Trigger) (platform : String) (halted : Bool) :
    j.decide (parts.besides results) (groups.set group parts.keys) t platform halted =
      j.decide results groups t platform halted := by
  have hview : j.view (parts.besides results) (groups.set group parts.keys) = j.view results groups := by
    unfold Job.view
    rw [mapM_congr fun need hneed => by rw [h.needResult_eq hneed]]
  rw [Job.decide, hview, ← Job.decide]

end

end Groups

/-! ## Aggregation as a join -/

namespace JobResult

/-- Aggregation is the join of the order of the results. A group of two parts comes to what the parts come to
together; only what is in a group matters, not where or how often; a group without members is neutral. The
order is that of skipped, success, cancelled and failure, and a group comes to the least ending that all of its
results give way to. So a group may be split in subgroups in any way, and the jobs are decided about as before. -/
theorem aggregate_join :
    (∀ xs ys, aggregate (xs ++ ys) = aggregate [aggregate xs, aggregate ys]) ∧
    (∀ xs ys, (∀ r, r ∈ xs ↔ r ∈ ys) → aggregate xs = aggregate ys) ∧
    (∀ r ∈ all, aggregate [aggregate [], r] = r ∧ aggregate [r, aggregate []] = r) ∧
    (∀ r ∈ all, ∀ s ∈ all, r.GivesWay s ↔ ascending.idxOf r ≤ ascending.idxOf s) ∧
    (∀ xs, ∀ u ∈ all, (aggregate xs).GivesWay u ↔ ∀ r ∈ xs, r.GivesWay u) ∧
    (∀ xss : List (List JobResult), aggregate xss.flatten = aggregate (xss.map aggregate)) ∧
    ∀ (groups : Groups) (group : String) (parts : Groups) (results : Dict JobResult) (j : Job),
      groups.Splits group parts results j → ∀ (t : Trigger) (platform : String) (halted : Bool),
        j.decide (parts.besides results) (groups.set group parts.keys) t platform halted =
          j.decide results groups t platform halted := by
  refine ⟨aggregate_append, fun _ _ => aggregate_congr, fun r hr => ?_, fun r hr s hs => ?_,
    fun _ u hu => aggregate_givesWay_iff hu, aggregate_flatten, fun _ _ _ _ _ h => h.decide_eq⟩
  · -- the group without members comes to what weighs nothing
    have hleft : aggregate [aggregate [], r] = r := (givesWay_iff hr).2 (Nat.zero_le _)
    refine ⟨hleft, Eq.trans (aggregate_congr fun s => ?_) hleft⟩
    rw [List.mem_pair, List.mem_pair, or_comm]
  · rw [givesWay_iff hs, weight_eq_idxOf r hr, weight_eq_idxOf s hs]

end JobResult

namespace Sample

/-- A group of tests for three systems, one of which was not tested. -/
def systems : Groups := ⟨[("test", ["test-linux", "test-mac", "test-windows"])]⟩

def testResults : Dict JobResult :=
  ⟨[("test-linux", .success), ("test-mac", .success), ("test-windows", .skipped)]⟩

/-- The same tests by kinds of systems; one of them counts twice. -/
def kinds : Groups := ⟨[("desktop", ["test-windows", "test-mac"]), ("unix", ["test-mac", "test-linux"])]⟩

/-- A publication that needs the tests. -/
def publication : Job := { name := "publish", steps := [], needs := ["test"] }

theorem splits_kinds : systems.Splits "test" kinds testResults publication where
  covered := by
    refine ⟨["test-linux", "test-mac", "test-windows"], rfl, fun n => ?_, by decide⟩
    simp only [kinds, Dict.values, List.map_cons, List.map_nil, List.mem_cons, List.not_mem_nil, or_false,
      exists_eq_or_imp, exists_eq_left]
    tauto
  no_job := rfl
  nodup := by decide
  fresh := by
    intro p hp
    have hnew : ∀ q ∈ kinds.keys, q ∉ publication.needs ∧ q ∉ ["test-linux", "test-mac", "test-windows"] := by
      decide
    refine ⟨(hnew p hp).1, fun need hneed members hmembers => ?_⟩
    obtain rfl := List.mem_singleton.1 hneed
    cases hmembers
    exact (hnew p hp).2

end Sample

namespace JobResult

/-- A publication runs on two kinds of systems as on three systems, since a success outweighs what was skipped. -/
theorem aggregate_join_sample :
    Sample.publication.decide (Sample.kinds.besides Sample.testResults)
      (Sample.systems.set "test" Sample.kinds.keys) Sample.trigger "linux" false = .ok .run := by
  obtain ⟨-, -, -, -, -, -, hsplit⟩ := aggregate_join
  rw [hsplit _ _ _ _ _ Sample.splits_kinds]
  rfl

end JobResult

end CiPipeline
