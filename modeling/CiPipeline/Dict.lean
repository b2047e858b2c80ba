/-
Tables with text keys that keep the order in which keys came: a key that is set again keeps its
place and takes its new value. Looking a key up after setting it gives the value set, and every
other key is as before.
-/

namespace CiPipeline

/-- A table of values with text keys, in the order of the keys' first appearance. -/
structure Dict (α : Type) where
  entries : List (String × α) := []

namespace Dict

variable {α : Type}

/-- The table without entries. -/
def empty : Dict α := ⟨[]⟩

/-- The value at a key. -/
def get? (d : Dict α) (key : String) : Option α := d.entries.lookup key

/-- The keys in order. -/
def keys (d : Dict α) : List String := d.entries.map (·.1)

/-- The values in order. -/
def values (d : Dict α) : List α := d.entries.map (·.2)

/-- The entries with `key` set to `value`. -/
def setIn (key : String) (value : α) : List (String × α) → List (String × α)
  | [] => [(key, value)]
  | (k, v) :: rest => if k = key then (k, value) :: rest else (k, v) :: setIn key value rest

/-- Sets a key, at its old place or else at the end. -/
def set (d : Dict α) (key : String) (value : α) : Dict α := ⟨setIn key value d.entries⟩

/-- Sets every entry of the second table in the first. -/
def update (d e : Dict α) : Dict α := e.entries.foldl (fun d (k, v) => d.set k v) d

/-- The table of a list of entries in which a key may come again. -/
def ofList (entries : List (String × α)) : Dict α := update empty ⟨entries⟩

/-- The table with `f` applied to every value. -/
def map {β : Type} (f : α → β) (d : Dict α) : Dict β := ⟨d.entries.map fun (k, v) => (k, f v)⟩

theorem lookup_cons_if (key k : String) (value : α) (entries : List (String × α)) :
    ((key, value) :: entries).lookup k = if k = key then some value else entries.lookup k := by
  rw [List.lookup_cons]
  by_cases h : k = key
  · simp [h]
  · rw [beq_false_of_ne h, if_neg h]

theorem lookup_setIn (key k : String) (value : α) (entries : List (String × α)) :
    (setIn key value entries).lookup k = if k = key then some value else entries.lookup k := by
  induction entries with
  | nil => rw [setIn, lookup_cons_if]
  | cons e rest ih =>
    obtain ⟨k', v⟩ := e
    by_cases h : k' = key
    · rw [setIn, if_pos h, lookup_cons_if, lookup_cons_if, h]
      by_cases hk : k = key <;> simp [hk]
    · rw [setIn, if_neg h, lookup_cons_if, lookup_cons_if, ih]
      by_cases hk : k = k'
      · simp [hk, h]
      · simp [hk]

theorem get?_set (d : Dict α) (key k : String) (value : α) :
    (d.set key value).get? k = if k = key then some value else d.get? k :=
  lookup_setIn key k value d.entries

end Dict

end CiPipeline
