import CiPipeline.Gate
import CiPipeline.Proofs.Dict

/-
Gates look results up by name, and at all results at once only to ask whether every one of them is a
success. So a gate opens alike on two tables that answer alike, in whatever order they were filled;
and a gate that is open stays open when more of what it sees are successes, or when the run is forced
(`isOpen_mono`).
-/

namespace CiPipeline

/-- The trigger of the same run, forced or not. -/
def Trigger.forcing (t : Trigger) (force : Bool) : Trigger := { t with forceBuild := force }

namespace Gate

variable {needs needs' : Dict JobResult}

theorem allSucceeded_congr (h : needs.Alike needs') (names : List String) :
    allSucceeded needs names = allSucceeded needs' names := by
  unfold allSucceeded
  simp only [h.get?_eq]

theorem values_all_congr (h : needs.Alike needs') (p : JobResult → Bool) :
    needs.values.all p = needs'.values.all p := by
  rw [Bool.eq_iff_iff, List.all_eq_true, List.all_eq_true]
  simp only [h.mem_values_iff]

mutual

/-- A gate opens alike on tables that answer alike. -/
theorem isOpen_congr (h : needs.Alike needs') (t : Trigger) : ∀ g : Gate, g.isOpen needs t = g.isOpen needs' t
  | .needsSucceeded => values_all_congr h _
  | .always => rfl
  | .onPrimaryOrVersionTag => rfl
  | .onVersionTag => rfl
  | .succeeded names => allSucceeded_congr h names
  | .succeededOrForced names => by rw [isOpen, isOpen, allSucceeded_congr h]
  | .allOf gates => allOpen_congr h t gates
  | .anyOf gates => anyOpen_congr h t gates

theorem allOpen_congr (h : needs.Alike needs') (t : Trigger) :
    ∀ gs : List Gate, allOpen needs t gs = allOpen needs' t gs
  | [] => rfl
  | g :: gs => by rw [allOpen, allOpen, isOpen_congr h t g, allOpen_congr h t gs]

theorem anyOpen_congr (h : needs.Alike needs') (t : Trigger) :
    ∀ gs : List Gate, anyOpen needs t gs = anyOpen needs' t gs
  | [] => rfl
  | g :: gs => by rw [anyOpen, anyOpen, isOpen_congr h t g, anyOpen_congr h t gs]

end

/-! ## More successes -/

/-- What is a success in the first table is one in the second, and there is nothing else in the second
if there is nothing else in the first. -/
structure Exceeds (needs needs' : Dict JobResult) : Prop where
  get : ∀ n, needs.get? n = some .success → needs'.get? n = some .success
  all : (∀ r ∈ needs.values, r = .success) → ∀ r ∈ needs'.values, r = .success

theorem allSucceeded_iff {names : List String} :
    allSucceeded needs names = true ↔ ∀ n ∈ names, needs.get? n = some .success := by
  simp only [allSucceeded, List.all_eq_true, beq_iff_eq]

theorem needsSucceeded_iff {t : Trigger} :
    needsSucceeded.isOpen needs t = true ↔ ∀ r ∈ needs.values, r = .success := by
  simp only [isOpen, List.all_eq_true, beq_iff_eq]

theorem allSucceeded_mono (h : Exceeds needs needs') {names : List String} (hopen : allSucceeded needs names = true) :
    allSucceeded needs' names = true := by
  rw [allSucceeded_iff] at hopen ⊢
  intro n hn
  exact h.get n (hopen n hn)

mutual

/-- A gate that is open stays open when there are more successes, or when the run is forced. -/
theorem isOpen_mono (h : Exceeds needs needs') (t : Trigger) {b b' : Bool} (hb : b = true → b' = true) :
    ∀ g : Gate, g.isOpen needs (t.forcing b) = true → g.isOpen needs' (t.forcing b') = true
  | .needsSucceeded, hopen => needsSucceeded_iff.2 (h.all (needsSucceeded_iff.1 hopen))
  | .always, _ => rfl
  | .onPrimaryOrVersionTag, hopen => hopen
  | .onVersionTag, hopen => hopen
  | .succeeded _, hopen => allSucceeded_mono h hopen
  | .succeededOrForced _, hopen => by
    rw [isOpen, Bool.or_eq_true] at hopen ⊢
    rcases hopen with hforced | hopen
    · exact .inl (hb hforced)
    · exact .inr (allSucceeded_mono h hopen)
  | .allOf gates, hopen => allOpen_mono h t hb gates hopen
  | .anyOf gates, hopen => anyOpen_mono h t hb gates hopen

theorem allOpen_mono (h : Exceeds needs needs') (t : Trigger) {b b' : Bool} (hb : b = true → b' = true) :
    ∀ gs : List Gate, allOpen needs (t.forcing b) gs = true → allOpen needs' (t.forcing b') gs = true
  | [], _ => rfl
  | g :: gs, hopen => by
    rw [allOpen, Bool.and_eq_true] at hopen ⊢
    exact ⟨isOpen_mono h t hb g hopen.1, allOpen_mono h t hb gs hopen.2⟩

theorem anyOpen_mono (h : Exceeds needs needs') (t : Trigger) {b b' : Bool} (hb : b = true → b' = true) :
    ∀ gs : List Gate, anyOpen needs (t.forcing b) gs = true → anyOpen needs' (t.forcing b') gs = true
  | g :: gs, hopen => by
    rw [anyOpen, Bool.or_eq_true] at hopen ⊢
    rcases hopen with hopen | hopen
    · exact .inl (isOpen_mono h t hb g hopen)
    · exact .inr (anyOpen_mono h t hb gs hopen)

end

/-! ## Gates that cannot be forced -/

mutual

/-- Whether forcing a run is a part of the condition. -/
def isForcible : Gate → Bool
  | .succeededOrForced _ => true
  | .allOf gates => anyForcible gates
  | .anyOf gates => anyForcible gates
  | _ => false

/-- Whether forcing a run is a part of one of several conditions. -/
def anyForcible : List Gate → Bool
  | [] => false
  | g :: gs => g.isForcible || anyForcible gs

end

mutual

theorem isOpen_forcing (needs : Dict JobResult) (t : Trigger) (b b' : Bool) :
    ∀ g : Gate, g.isForcible = false → g.isOpen needs (t.forcing b) = g.isOpen needs (t.forcing b')
  | .needsSucceeded, _ => rfl
  | .always, _ => rfl
  | .onPrimaryOrVersionTag, _ => rfl
  | .onVersionTag, _ => rfl
  | .succeeded _, _ => rfl
  | .allOf gates, h => allOpen_forcing needs t b b' gates h
  | .anyOf gates, h => anyOpen_forcing needs t b b' gates h

theorem allOpen_forcing (needs : Dict JobResult) (t : Trigger) (b b' : Bool) :
    ∀ gs : List Gate, anyForcible gs = false → allOpen needs (t.forcing b) gs = allOpen needs (t.forcing b') gs
  | [], _ => rfl
  | g :: gs, h => by
    rw [anyForcible, Bool.or_eq_false_iff] at h
    rw [allOpen, allOpen, isOpen_forcing needs t b b' g h.1, allOpen_forcing needs t b b' gs h.2]

theorem anyOpen_forcing (needs : Dict JobResult) (t : Trigger) (b b' : Bool) :
    ∀ gs : List Gate, anyForcible gs = false → anyOpen needs (t.forcing b) gs = anyOpen needs (t.forcing b') gs
  | [], _ => rfl
  | g :: gs, h => by
    rw [anyForcible, Bool.or_eq_false_iff] at h
    rw [anyOpen, anyOpen, isOpen_forcing needs t b b' g h.1, anyOpen_forcing needs t b b' gs h.2]

end

end Gate

end CiPipeline
