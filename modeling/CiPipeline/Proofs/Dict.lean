import CiPipeline.Dict
import CiPipeline.Distinct
import Mathlib.Data.List.Nodup

/-
Tables seen through their look-ups: which keys a table has after it was written to, and when the
entries of a table are determined by what it answers. A table whose keys are all different answers
with exactly its entries, so two such tables with the same answers differ in order only.
-/

namespace CiPipeline.Dict

variable {α : Type}

/-! ## Keys -/

@[simp] theorem get?_empty (k : String) : ({} : Dict α).get? k = none := rfl

theorem map_fst_setIn (k : String) (v : α) :
    ∀ es : List (String × α),
      (setIn k v es).map (·.1) = if k ∈ es.map (·.1) then es.map (·.1) else es.map (·.1) ++ [k]
  | [] => by simp [setIn]
  | (k', v') :: es => by
    rw [setIn]
    by_cases h : k' = k
    · simp [h]
    · rw [if_neg h, List.map_cons, map_fst_setIn k v es, List.map_cons]
      by_cases hk : k ∈ es.map (·.1)
      · rw [if_pos hk, if_pos (List.mem_cons_of_mem _ hk)]
      · have hn : k ∉ k' :: es.map (·.1) := by
          rintro (_ | ⟨_, hm⟩)
          · exact h rfl
          · exact hk hm
        rw [if_neg hk, if_neg hn, List.cons_append]

theorem keys_set (d : Dict α) (k : String) (v : α) :
    (d.set k v).keys = if k ∈ d.keys then d.keys else d.keys ++ [k] :=
  map_fst_setIn k v d.entries

theorem nodup_keys_set {d : Dict α} (h : d.keys.Nodup) (k : String) (v : α) : (d.set k v).keys.Nodup := by
  rw [keys_set]
  split
  · exact h
  · rename_i hk
    exact List.nodup_append.2 ⟨h, List.nodup_singleton k, fun a ha b hb hab =>
      hk (List.mem_singleton.1 hb ▸ hab ▸ ha)⟩

/-! ## Look-ups and entries -/

theorem get?_cons (k k' : String) (v : α) (es : List (String × α)) :
    (⟨(k, v) :: es⟩ : Dict α).get? k' = if k' = k then some v else (⟨es⟩ : Dict α).get? k' :=
  lookup_cons_if k k' v es

theorem isSome_get?_iff (k : String) : ∀ es : List (String × α), ((⟨es⟩ : Dict α).get? k).isSome ↔ k ∈ es.map (·.1)
  | [] => by simp [get?]
  | (k', v) :: es => by
    rw [get?_cons, List.map_cons, List.mem_cons]
    by_cases h : k = k'
    · simp [h]
    · rw [if_neg h, isSome_get?_iff k es]
      exact ⟨.inr, fun hk => hk.resolve_left h⟩

theorem length_entries (d : Dict α) : d.entries.length = d.keys.length := by rw [keys, List.length_map]

theorem isSome_get? {d : Dict α} {k : String} : (d.get? k).isSome ↔ k ∈ d.keys := isSome_get?_iff k d.entries

theorem get?_eq_none {d : Dict α} {k : String} : d.get? k = none ↔ k ∉ d.keys := by
  rw [← isSome_get?, Option.not_isSome_iff_eq_none]

theorem get?_map {β : Type} (f : α → β) (k : String) :
    ∀ es : List (String × α), ((⟨es⟩ : Dict α).map f).get? k = ((⟨es⟩ : Dict α).get? k).map f
  | [] => rfl
  | (k', v) :: es => by
    rw [get?_cons, map, List.map_cons, get?_cons]
    by_cases h : k = k'
    · rw [if_pos h, if_pos h, Option.map_some]
    · rw [if_neg h, if_neg h]
      exact get?_map f k es

/-- A table of the values of a function at some keys answers with them, also if a key comes again. -/
theorem get?_mk_map (f : String → α) (k : String) :
    ∀ ks : List String, (⟨ks.map fun n => (n, f n)⟩ : Dict α).get? k = if k ∈ ks then some (f k) else none
  | [] => rfl
  | n :: ks => by
    rw [List.map_cons, get?_cons, get?_mk_map f k ks]
    by_cases hk : k = n
    · rw [if_pos hk, if_pos (hk ▸ List.mem_cons_self ..), hk]
    · rw [if_neg hk]
      simp only [List.mem_cons, hk, false_or]

theorem lookup_eq_some_iff {k : String} {v : α} :
    ∀ {es : List (String × α)}, (es.map (·.1)).Nodup → (es.lookup k = some v ↔ (k, v) ∈ es)
  | [], _ => by simp
  | (k', v') :: es, h => by
    rw [List.map_cons, List.nodup_cons] at h
    rw [lookup_cons_if, List.mem_cons]
    by_cases hk : k = k'
    · subst hk
      have hno : (k, v) ∉ es := fun hm => h.1 (List.mem_map.2 ⟨_, hm, rfl⟩)
      simp [hno, eq_comm]
    · rw [if_neg hk, lookup_eq_some_iff h.2]
      simp [hk]

/-- A table whose keys are all different answers with exactly its entries. -/
theorem get?_eq_some_iff {d : Dict α} (h : d.keys.Nodup) {k : String} {v : α} :
    d.get? k = some v ↔ (k, v) ∈ d.entries :=
  lookup_eq_some_iff h

theorem mem_values {d : Dict α} (h : d.keys.Nodup) {v : α} : v ∈ d.values ↔ ∃ k, d.get? k = some v := by
  rw [values, List.mem_map]
  constructor
  · rintro ⟨⟨k, w⟩, hm, rfl⟩
    exact ⟨k, (get?_eq_some_iff h).2 hm⟩
  · rintro ⟨k, hk⟩
    exact ⟨(k, v), (get?_eq_some_iff h).1 hk, rfl⟩

/-! ## Tables that answer alike -/

/-- Two tables, each with different keys, that answer alike. -/
structure Alike (d e : Dict α) : Prop where
  nodup : d.keys.Nodup
  nodup' : e.keys.Nodup
  get?_eq : ∀ k, d.get? k = e.get? k

namespace Alike

variable {d e : Dict α}

/-- Tables that answer alike differ in the order of their entries only. -/
theorem entries_perm (h : Alike d e) : d.entries.Perm e.entries := by
  refine (List.perm_ext_iff_of_nodup (List.Nodup.of_map _ h.nodup) (List.Nodup.of_map _ h.nodup')).2 fun ⟨k, v⟩ => ?_
  rw [← get?_eq_some_iff h.nodup, ← get?_eq_some_iff h.nodup', h.get?_eq]

theorem mem_values_iff (h : Alike d e) (v : α) : v ∈ d.values ↔ v ∈ e.values := (h.entries_perm.map _).mem_iff

/-- Tables that answer alike have the same entries in the order of the keys. -/
theorem mergeSort_entries_eq (h : Alike d e) :
    (d.entries.mergeSort fun a b => a.1 ≤ b.1) = e.entries.mergeSort fun a b => a.1 ≤ b.1 := by
  have hsorted : ∀ es : List (String × α), (es.mergeSort fun a b => a.1 ≤ b.1).Pairwise fun a b => a.1 ≤ b.1 := by
    intro es
    refine (List.pairwise_mergeSort (fun a b c hab hbc => ?_) (fun a b => ?_) es).imp fun hab => of_decide_eq_true hab
    · exact decide_eq_true (String.le_trans (of_decide_eq_true hab) (of_decide_eq_true hbc))
    · rw [Bool.or_eq_true, decide_eq_true_eq, decide_eq_true_eq]
      exact String.le_total a.1 b.1
  refine List.Perm.eq_of_pairwise (fun a b ha hb hab hba => ?_) (hsorted _) (hsorted _)
    ((List.mergeSort_perm _ _).trans (h.entries_perm.trans (List.mergeSort_perm _ _).symm))
  -- entries with one key are one entry
  have ha := (List.mergeSort_perm _ _).mem_iff.1 ha
  have hb := h.entries_perm.mem_iff.2 ((List.mergeSort_perm _ _).mem_iff.1 hb)
  exact List.inj_on_of_nodup_map h.nodup ha hb (String.le_antisymm hab hba)

theorem set (h : Alike d e) (k : String) (v : α) : Alike (d.set k v) (e.set k v) :=
  ⟨nodup_keys_set h.nodup k v, nodup_keys_set h.nodup' k v, fun n => by rw [get?_set, get?_set, h.get?_eq]⟩

end Alike

/-! ## Tables filled one key after another -/

theorem nodup_keys_update {d : Dict α} (h : d.keys.Nodup) (es : List (String × α)) : (d.update ⟨es⟩).keys.Nodup := by
  induction es generalizing d with
  | nil => exact h
  | cons e es ih => exact ih (nodup_keys_set h e.1 e.2)

theorem nodup_keys_ofList (es : List (String × α)) : (ofList es).keys.Nodup :=
  nodup_keys_update (d := empty) List.nodup_nil es

theorem keys_update (es : List (String × α)) : ∀ {d : Dict α}, d.keys.Nodup →
    (d.update ⟨es⟩).keys = distinct (d.keys ++ es.map (·.1)) := by
  induction es with
  | nil =>
    intro d hd
    rw [List.map_nil, List.append_nil, distinct_of_nodup hd]
    rfl
  | cons e es ih =>
    intro d hd
    refine (ih (nodup_keys_set hd e.1 e.2)).trans ?_
    rw [keys_set, List.map_cons]
    split
    · rename_i hmem
      exact (distinct_append_cons_of_mem hmem _).symm
    · rw [List.append_assoc]
      rfl

/-- A table whose keys are all different has the entries that its keys and answers give. -/
theorem entries_eq_map {d : Dict α} (hd : d.keys.Nodup) (default : α) :
    d.entries = d.keys.map fun k => (k, (d.get? k).getD default) := by
  refine (List.map_id d.entries).symm.trans ?_
  rw [keys, List.map_map]
  refine List.map_congr_left fun e he => ?_
  rw [Function.comp_apply, (get?_eq_some_iff hd).2 he]
  rfl

/-- What a table answers that was filled with the values of a function at some keys. -/
theorem get?_update_map (f : String → α) (k : String) :
    ∀ (ks : List String) (d : Dict α),
      (d.update ⟨ks.map fun n => (n, f n)⟩).get? k = if k ∈ ks then some (f k) else d.get? k
  | [], d => by simp [update]
  | n :: ks, d => by
    have ih := get?_update_map f k ks (d.set n (f n))
    rw [get?_set] at ih
    rw [show d.update ⟨(n :: ks).map fun n => (n, f n)⟩ = (d.set n (f n)).update ⟨ks.map fun n => (n, f n)⟩ from rfl,
      ih]
    by_cases hk : k ∈ ks
    · simp [hk]
    · by_cases hn : k = n <;> simp [hk, hn]

/-- An updated table answers as the second one does, and where that has no answer, as the first one. -/
theorem get?_update (k : String) : ∀ {es : List (String × α)}, (es.map (·.1)).Nodup → ∀ d : Dict α,
    (d.update ⟨es⟩).get? k = ((⟨es⟩ : Dict α).get? k).or (d.get? k)
  | [], _, d => rfl
  | (n, v) :: es, hes, d => by
    rw [List.map_cons, List.nodup_cons] at hes
    have ih := get?_update k hes.2 (d.set n v)
    rw [get?_set] at ih
    rw [show d.update ⟨(n, v) :: es⟩ = (d.set n v).update ⟨es⟩ from rfl, ih, get?_cons]
    by_cases hk : k = n
    · have hnone : (⟨es⟩ : Dict α).get? k = none := get?_eq_none.2 (by rw [hk]; exact hes.1)
      rw [if_pos hk, if_pos hk, hnone, Option.none_or, Option.some_or]
    · rw [if_neg hk, if_neg hk]

/-- A table that is updated with values under different names has them there, and all else as before. -/
theorem get?_update_named {β : Type} (name : β → String) (f : β → α) {l : List β} (hnd : (l.map name).Nodup)
    (d : Dict α) :
    (∀ b ∈ l, (d.update ⟨l.map fun b => (name b, f b)⟩).get? (name b) = some (f b)) ∧
      ∀ n, n ∉ l.map name → (d.update ⟨l.map fun b => (name b, f b)⟩).get? n = d.get? n := by
  have hkeys : (⟨l.map fun b => (name b, f b)⟩ : Dict α).keys = l.map name := by
    rw [keys, List.map_map]
    rfl
  have hnd' : (⟨l.map fun b => (name b, f b)⟩ : Dict α).keys.Nodup := hkeys ▸ hnd
  refine ⟨fun b hb => ?_, fun n hn => ?_⟩
  · rw [get?_update _ hnd', (get?_eq_some_iff hnd').2 (List.mem_map.2 ⟨b, hb, rfl⟩), Option.some_or]
  · rw [get?_update _ hnd', get?_eq_none.2 (hkeys ▸ hn), Option.none_or]

/-- The entries of an updated table: one for each key, in the order in which keys came first. -/
theorem entries_update {d e : Dict α} (hd : d.keys.Nodup) (he : e.keys.Nodup) (default : α) :
    (d.update e).entries =
      (distinct (d.keys ++ e.keys)).map fun k => (k, ((e.get? k).or (d.get? k)).getD default) := by
  rw [entries_eq_map (nodup_keys_update hd e.entries) default]
  have hkeys : (d.update e).keys = distinct (d.keys ++ e.keys) := keys_update e.entries hd
  rw [hkeys]
  refine List.map_congr_left fun k _ => ?_
  rw [get?_update k he]

/-- Of several values for a key a table answers with the last one. -/
theorem get?_update_reverse (k : String) : ∀ (es : List (String × α)) (d : Dict α),
    (d.update ⟨es⟩).get? k = (es.reverse.lookup k).or (d.get? k)
  | [], d => rfl
  | (n, v) :: es, d => by
    rw [show d.update ⟨(n, v) :: es⟩ = (d.set n v).update ⟨es⟩ from rfl, get?_update_reverse k es, get?_set,
      List.reverse_cons, List.lookup_append, Option.or_assoc, lookup_cons_if]
    by_cases hk : k = n
    · rw [if_pos hk, if_pos hk, Option.some_or]
    · rw [if_neg hk, if_neg hk, List.lookup_nil, Option.none_or]

theorem get?_ofList (es : List (String × α)) (k : String) : (ofList es).get? k = es.reverse.lookup k := by
  rw [ofList, get?_update_reverse, empty, get?_empty, Option.or_none]

theorem keys_ofList (es : List (String × α)) : (ofList es).keys = distinct (es.map (·.1)) :=
  keys_update es (d := empty) List.nodup_nil

theorem get?_ofList_map (f : String → α) (ks : List String) (k : String) :
    (ofList (ks.map fun n => (n, f n))).get? k = if k ∈ ks then some (f k) else none :=
  get?_update_map f k ks empty

theorem mem_values_ofList_map {f : String → α} {ks : List String} {v : α} :
    v ∈ (ofList (ks.map fun n => (n, f n))).values ↔ ∃ k ∈ ks, f k = v := by
  rw [mem_values (nodup_keys_ofList _)]
  refine exists_congr fun k => ?_
  rw [get?_ofList_map]
  by_cases hk : k ∈ ks <;> simp [hk]

end CiPipeline.Dict
