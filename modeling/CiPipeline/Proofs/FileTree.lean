import CiPipeline.FileTree
import Mathlib.Data.List.Basic

/-
Trees of files: what stands at a path once something was put there, and what a tree with more
directories has in common with the one that it was made from. Directories that are made bring no file
to light and hide none (`Widens.hasFile_eq`), as long as directories led to every file before.
-/

namespace CiPipeline.FileTree

variable {t u v : FileTree} {here place q : List String} {n : Node}

/-! ## What stands at a path -/

theorem lookup_replaced {place : List String} (n : Node) : ∀ nodes : List (List String × Node),
    nodes.any (·.1 == place) = true →
    (nodes.map fun e => if e.1 == place then (place, n) else e).lookup place = some n
  | [], h => by cases h
  | e :: nodes, h => by
    rw [List.map_cons]
    by_cases he : e.1 = place
    · simp [he]
    · have hrest : nodes.any (·.1 == place) = true := by simpa [he] using h
      have hother : (place == e.1) = false := by simpa using fun h => he h.symm
      rw [if_neg (by simpa using he), List.lookup_cons, hother]
      exact lookup_replaced n nodes hrest

theorem lookup_kept (hq : q ≠ place) (n : Node) : ∀ nodes : List (List String × Node),
    (nodes.map fun e => if e.1 == place then (place, n) else e).lookup q = nodes.lookup q
  | [] => rfl
  | e :: nodes => by
    have hother : (q == place) = false := by simpa using hq
    rw [List.map_cons, List.lookup_cons]
    by_cases he : e.1 = place
    · rw [if_pos (by simpa using he), List.lookup_cons, hother, lookup_kept hq n nodes, he, hother]
    · rw [if_neg (by simpa using he), List.lookup_cons, lookup_kept hq n nodes]

/-- What was put at a path stands there. -/
theorem node?_put {t : FileTree} {place : List String} (n : Node) (hplace : place ≠ []) :
    (t.put place n).node? place = some n := by
  rw [node?, if_neg (by simpa using hplace), put]
  split
  case isTrue hany => exact lookup_replaced n t.nodes hany
  case isFalse hany =>
    have hnone : t.nodes.lookup place = none := by
      rw [List.lookup_eq_none_iff]
      intro e he
      rw [List.any_eq_true, not_exists] at hany
      simpa using fun h => hany e ⟨he, by simp [h]⟩
    rw [List.lookup_append, hnone]
    simp

/-- What stands at the other paths stays. -/
theorem node?_put_of_ne (hq : q ≠ place) (n : Node) : (t.put place n).node? q = t.node? q := by
  unfold node? put
  split
  · rfl
  split
  · exact lookup_kept hq n t.nodes
  · have hother : (q == place) = false := by simpa using hq
    rw [List.lookup_append, List.lookup_cons, hother, List.lookup_nil, Option.or_none]

/-- A file is written where there is no directory, and in one. -/
theorem write_eq {t : FileTree} {place : List String} (hplace : t.node? place ≠ some .directory)
    (hparent : t.node? place.dropLast = some .directory) (content : String) :
    t.write place content = .ok (t.put place (.file content)) := by
  unfold write
  rw [hparent]
  cases hnode : t.node? place with
  | none => rfl
  | some n =>
    cases n with
    | directory => exact absurd hnode hplace
    | file old => rfl

/-! ## More directories -/

/-- The second tree has what the first has, and beyond that only directories. -/
def Widens (t u : FileTree) : Prop :=
  ∀ q, u.node? q = t.node? q ∨ t.node? q = none ∧ u.node? q = some .directory

theorem Widens.refl (t : FileTree) : Widens t t := fun _ => Or.inl rfl

theorem Widens.trans (h : Widens t u) (h' : Widens u v) : Widens t v := by
  intro q
  rcases h q with hq | ⟨hnone, hq⟩
  · rw [← hq]
    exact h' q
  · rcases h' q with hq' | ⟨hnone', -⟩
    · exact Or.inr ⟨hnone, hq'.trans hq⟩
    · rw [hq] at hnone'
      cases hnone'

theorem widens_put (hnone : t.node? place = none) : Widens t (t.put place .directory) := by
  intro q
  by_cases hq : q = place
  · subst hq
    refine Or.inr ⟨hnone, node?_put _ ?_⟩
    rintro rfl
    cases hnone
  · exact Or.inl (node?_put_of_ne hq _)

theorem widens_fillDirectories (t : FileTree) (place : List String) : Widens t (t.fillDirectories place) := by
  unfold fillDirectories
  generalize beginnings place = bs
  induction bs generalizing t with
  | nil => exact .refl t
  | cons b bs ih =>
    rw [List.foldl_cons]
    refine Widens.trans ?_ (ih _)
    split
    case isTrue hnone => exact widens_put (Option.isNone_iff_eq_none.1 hnone)
    case isFalse => exact .refl t

/-- Making a directory adds directories at most. -/
theorem widens_makeDirectory (hmade : t.makeDirectory place = .ok u) : Widens t u := by
  unfold makeDirectory at hmade
  extract_lets isFile at hmade
  split at hmade
  · cases hmade
  split at hmade
  · cases hmade
  cases hmade
  exact widens_fillDirectories t place

/-- Directories lead to every file. -/
def IsTree (t : FileTree) : Prop :=
  ∀ place content, t.node? place = some (.file content) → ∀ b, b <+: place → b ≠ place → t.node? b = some .directory

theorem node?_of_walk : ∀ {parts here : List String}, t.walk here parts = .ok (place, n) → t.node? place = some n
  | [], here, h => by
    rw [walk] at h
    split at h
    · cases h
      assumption
    · cases h
  | part :: parts, here, h => by
    rw [walk] at h
    split at h
    · cases h
    · cases h
    · split at h
      · exact node?_of_walk h
      split at h
      · exact node?_of_walk h
      · exact node?_of_walk h

/-- What was found in a tree is found in a wider one. -/
theorem Widens.walk (hw : Widens t u) : ∀ {parts here : List String} {r : List String × Node},
    t.walk here parts = .ok r → u.walk here parts = .ok r
  | [], here, r, h => by
    rw [FileTree.walk] at h ⊢
    rcases hw here with hhere | ⟨hnone, -⟩
    · rw [hhere]
      exact h
    · rw [hnone] at h
      cases h
  | part :: parts, here, r, h => by
    rw [FileTree.walk] at h ⊢
    rcases hw here with hhere | ⟨hnone, -⟩
    · rw [hhere]
      cases hnode : t.node? here with
      | none => rw [hnode] at h; cases h
      | some node =>
        rw [hnode] at h
        cases node with
        | file content => cases h
        | directory =>
          simp only at h ⊢
          split at h
          · rw [if_pos ‹_›]
            exact hw.walk h
          split at h
          · rw [if_neg ‹_›, if_pos ‹_›]
            exact hw.walk h
          · rw [if_neg ‹_›, if_neg ‹_›]
            exact hw.walk h
    · rw [hnone] at h
      cases h

/-- A file that is found in a wider tree was found before, if directories led to it then. The walk goes
down only, so all that it passes lies on the way to the file. -/
theorem Widens.walk_back (hw : Widens t u) (htree : t.IsTree) {content : String} :
    ∀ {parts here : List String}, ".." ∉ parts → u.walk here parts = .ok (place, .file content) →
      here <+: place ∧ t.walk here parts = .ok (place, .file content)
  | [], here, _, h => by
    have hnode := node?_of_walk h
    rw [FileTree.walk] at h
    split at h
    · cases h
      rcases hw place with hplace | ⟨-, hplace⟩
      · rw [hplace] at hnode
        exact ⟨List.prefix_refl _, by rw [FileTree.walk, hnode]⟩
      · rw [hplace] at hnode
        cases hnode
    · cases h
  | part :: parts, here, hup, h => by
    have hnode := node?_of_walk h
    have hfile : t.node? place = some (.file content) := by
      rcases hw place with hplace | ⟨-, hplace⟩
      · rw [← hplace]
        exact hnode
      · rw [hplace] at hnode
        cases hnode
    rw [FileTree.walk] at h ⊢
    cases hu : u.node? here with
    | none => rw [hu] at h; cases h
    | some node =>
      rw [hu] at h
      cases node with
      | file content' => cases h
      | directory =>
        simp only at h
        -- the walk stands above the file, so it stands in a directory also in the first tree
        have hdirectory : here <+: place → t.node? here = some .directory := by
          intro hpre
          refine htree place content hfile here hpre ?_
          rintro rfl
          rw [hu] at hnode
          cases hnode
        have hpart : part ≠ ".." := fun heq => hup (heq ▸ List.mem_cons_self ..)
        have hrest : ".." ∉ parts := fun hmem => hup (List.mem_cons_of_mem _ hmem)
        split at h
        case isTrue hskip =>
          obtain ⟨hpre, hwalk⟩ := hw.walk_back htree hrest h
          rw [hdirectory hpre]
          simp only
          rw [if_pos hskip]
          exact ⟨hpre, hwalk⟩
        case isFalse hskip =>
          obtain ⟨hpre, hwalk⟩ := hw.walk_back htree hrest h
          have habove : here <+: place := (List.prefix_append here [part]).trans hpre
          rw [hdirectory habove]
          simp only
          rw [if_neg hskip, if_neg hpart]
          exact ⟨habove, hwalk⟩

/-- More directories change nothing about whether a path that leads down names a file, if directories led
to every file before. -/
theorem Widens.hasFile_eq (hw : Widens t u) (htree : t.IsTree) (here p : Path) (hdown : ".." ∉ p.parts) :
    u.hasFile here p = t.hasFile here p := by
  rw [Bool.eq_iff_iff]
  unfold hasFile at?
  constructor
  · intro h
    rcases hwalk : u.walk (if p.root == 0 then here.parts else []) p.parts with e | ⟨place, n⟩
    · rw [hwalk] at h; cases h
    · rw [hwalk] at h
      cases n with
      | directory => cases h
      | file content => rw [(hw.walk_back htree hdown hwalk).2]
  · intro h
    rcases hwalk : t.walk (if p.root == 0 then here.parts else []) p.parts with e | r
    · rw [hwalk] at h; cases h
    · rw [hwalk] at h
      rw [hw.walk hwalk]
      exact h

end CiPipeline.FileTree
