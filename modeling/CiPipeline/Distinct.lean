/-
The distinct elements of a list, each at its first place.
-/

namespace CiPipeline

/-- The list without the elements that stand earlier in it. -/
def distinct {α : Type} [DecidableEq α] : List α → List α
  | [] => []
  | x :: xs => x :: (distinct xs).filter (· ≠ x)

theorem mem_distinct {α : Type} [DecidableEq α] {x : α} : ∀ {xs : List α}, x ∈ distinct xs ↔ x ∈ xs
  | [] => Iff.rfl
  | y :: ys => by
    rw [distinct, List.mem_cons, List.mem_filter, mem_distinct, List.mem_cons]
    by_cases h : x = y <;> simp [h]

theorem nodup_distinct {α : Type} [DecidableEq α] : ∀ xs : List α, (distinct xs).Nodup
  | [] => List.nodup_nil
  | y :: ys => List.nodup_cons.2 ⟨by simp [List.mem_filter], (nodup_distinct ys).filter _⟩

theorem filter_distinct {α : Type} [DecidableEq α] (p : α → Bool) : ∀ xs : List α,
    (distinct xs).filter p = distinct (xs.filter p)
  | [] => rfl
  | x :: xs => by
    rw [distinct, List.filter_cons, List.filter_cons]
    cases hx : p x with
    | true => simp [distinct, ← filter_distinct p xs, Bool.and_comm]
    | false =>
      -- what is different from `x` need not be asked for, since `x` is not among what is kept
      have hsame : ((distinct xs).filter (· ≠ x)).filter p = (distinct xs).filter p := by
        rw [List.filter_filter]
        refine List.filter_congr fun y _ => ?_
        by_cases hyx : y = x <;> simp [hyx, hx]
      simp only [Bool.false_eq_true, if_false, hsame]
      exact filter_distinct p xs

theorem distinct_of_nodup {α : Type} [DecidableEq α] : ∀ {xs : List α}, xs.Nodup → distinct xs = xs
  | [], _ => rfl
  | x :: xs, h => by
    rw [List.nodup_cons] at h
    rw [distinct, distinct_of_nodup h.2, List.filter_eq_self.2]
    intro y hy
    simpa using fun hyx : y = x => h.1 (hyx ▸ hy)

/-- An element that stands earlier makes no difference. -/
theorem distinct_append_cons_of_mem {α : Type} [DecidableEq α] {x : α} : ∀ {xs : List α}, x ∈ xs → ∀ ys : List α,
    distinct (xs ++ x :: ys) = distinct (xs ++ ys)
  | y :: xs, hx, ys => by
    rw [List.cons_append, List.cons_append, distinct, distinct]
    by_cases hyx : x = y
    · rw [filter_distinct, filter_distinct, List.filter_append, List.filter_append,
        List.filter_cons_of_neg (by simp [hyx])]
    · rw [distinct_append_cons_of_mem ((List.mem_cons.1 hx).resolve_left hyx)]

end CiPipeline
