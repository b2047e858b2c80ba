import CiPipeline.Path
import Mathlib.Data.List.Basic
import Mathlib.Data.List.Induction
import Mathlib.Data.List.TakeWhile

/-
The components of path texts, and the lexical normal form of a relative path. Two dots take back the
component before them, and stay where there is none. `resolve_join_of_inside`: a path in whose normal form no
two dots are left leads to nothing outside the directory that it is seen from, and its normal form says where.
Any path goes up some times and then down (`exists_normal_eq`), so that its normal form tells whether following
it twice leads further than following it once (`resolve_resolve_iff`).
-/

namespace CiPipeline

namespace Text

variable {sep : Char}

theorem pieces_cons_of_ne {c : Char} (hc : c ≠ sep) {cs p : List Char} {ps : List (List Char)}
    (hcs : pieces sep cs = p :: ps) : pieces sep (c :: cs) = (c :: p) :: ps := by
  rw [pieces, if_neg hc, hcs]

theorem pieces_append_sep (a b : List Char) : pieces sep (a ++ sep :: b) = pieces sep a ++ pieces sep b := by
  induction a with
  | nil => exact if_pos rfl
  | cons c a ih =>
    by_cases hc : c = sep
    · rw [List.cons_append, pieces, if_pos hc, ih, pieces, if_pos hc, List.cons_append]
    · obtain ⟨p, ps, ha⟩ := List.exists_cons_of_ne_nil (pieces_ne_nil sep a)
      rw [ha] at ih
      rw [List.cons_append, pieces_cons_of_ne hc ih, pieces_cons_of_ne hc ha]
      rfl

/-- A character at the end of a text goes to the end of its last piece. -/
theorem pieces_concat {c : Char} (hc : c ≠ sep) (cs : List Char) :
    ∃ ps p, pieces sep cs = ps ++ [p] ∧ pieces sep (cs ++ [c]) = ps ++ [p ++ [c]] := by
  induction cs with
  | nil => exact ⟨[], [], rfl, pieces_cons_of_ne hc rfl⟩
  | cons d cs ih =>
    obtain ⟨ps, p, hcs, hcat⟩ := ih
    by_cases hd : d = sep
    · refine ⟨[] :: ps, p, ?_, ?_⟩
      · rw [pieces, if_pos hd, hcs, List.cons_append]
      · rw [List.cons_append, pieces, if_pos hd, hcat, List.cons_append]
    · cases ps with
      | nil => exact ⟨[], d :: p, pieces_cons_of_ne hd hcs, pieces_cons_of_ne hd hcat⟩
      | cons q ps => exact ⟨(d :: q) :: ps, p, pieces_cons_of_ne hd hcs, pieces_cons_of_ne hd hcat⟩

theorem pieces_of_not_mem : ∀ {cs : List Char}, sep ∉ cs → pieces sep cs = [cs]
  | [], _ => rfl
  | c :: cs, h => by
    rw [List.mem_cons, not_or] at h
    exact pieces_cons_of_ne (Ne.symm h.1) (pieces_of_not_mem h.2)

theorem not_mem_of_mem_pieces : ∀ {cs p : List Char}, p ∈ pieces sep cs → sep ∉ p
  | [], p, hp => by
    rw [pieces, List.mem_singleton] at hp
    rw [hp]
    exact List.not_mem_nil
  | c :: cs, p, hp => by
    obtain ⟨q, qs, hcs⟩ := List.exists_cons_of_ne_nil (pieces_ne_nil sep cs)
    have hrest : ∀ r ∈ q :: qs, sep ∉ r := fun r hr => not_mem_of_mem_pieces (hcs ▸ hr)
    by_cases hc : c = sep
    · rw [pieces, if_pos hc, hcs] at hp
      rcases List.mem_cons.1 hp with rfl | hp
      · exact List.not_mem_nil
      · exact hrest p hp
    · rw [pieces_cons_of_ne hc hcs] at hp
      rcases List.mem_cons.1 hp with rfl | hp
      · rw [List.mem_cons, not_or]
        exact ⟨Ne.symm hc, hrest q (List.mem_cons_self ..)⟩
      · exact hrest p (List.mem_cons_of_mem _ hp)

end Text

namespace Path

/-! ## Components -/

/-- Whether a piece between slashes is a component. -/
def isComponent (piece : String) : Bool := piece != "" && piece != "."

/-- The components of a path text. -/
def componentsOf (cs : List Char) : List String := ((Text.pieces '/' cs).map String.ofList).filter isComponent

theorem parts_parse (s : String) : (parse s).parts = componentsOf s.toList := rfl

theorem ne_empty_of_mem_parse {s part : String} (hpart : part ∈ (parse s).parts) : part ≠ "" := by
  have hcomponent : isComponent part = true := (List.mem_filter.1 hpart).2
  rintro rfl
  cases hcomponent

theorem componentsOf_append (a b : List Char) : componentsOf (a ++ '/' :: b) = componentsOf a ++ componentsOf b := by
  unfold componentsOf
  rw [Text.pieces_append_sep, List.map_append, List.filter_append]

/-- A slash at the end of a path text says nothing. -/
theorem componentsOf_concat_slash (cs : List Char) : componentsOf (cs ++ ['/']) = componentsOf cs := by
  rw [componentsOf_append]
  exact List.append_nil _

/-! ## Texts of paths -/

/-- A component as it stands between slashes. -/
def IsName (part : String) : Prop := isComponent part = true ∧ '/' ∉ part.toList

/-- A path that can be read: it has up to two slashes at its root, and its components have none. -/
def Legible (p : Path) : Prop := p.root ≤ 2 ∧ ∀ part ∈ p.parts, IsName part

theorem rootOf_le_two (cs : List Char) : rootOf cs ≤ 2 := by
  unfold rootOf
  split <;> omega

theorem legible_parse (s : String) : (parse s).Legible := by
  refine ⟨rootOf_le_two _, fun part hpart => ?_⟩
  obtain ⟨hpiece, hcomponent⟩ := List.mem_filter.1 hpart
  obtain ⟨p, hp, rfl⟩ := List.mem_map.1 hpiece
  refine ⟨hcomponent, ?_⟩
  rw [String.toList_ofList]
  exact Text.not_mem_of_mem_pieces hp

/-- Only the slashes at the start of a text count for its root. -/
theorem rootOf_append {a b : List Char} (h : b.takeWhile (· == '/') = [] ∨ ∃ c ∈ a, c ≠ '/') :
    rootOf (a ++ b) = rootOf a := by
  have hsame : (a ++ b).takeWhile (· == '/') = a.takeWhile (· == '/') := by
    rw [List.takeWhile_append]
    split
    · rename_i hall
      rcases h with hb | ⟨c, hc, hne⟩
      · rw [hb, List.append_nil]
        exact ((List.takeWhile_prefix _).eq_of_length hall).symm
      · have hself := (List.takeWhile_prefix (l := a) (· == '/')).eq_of_length hall
        exact absurd (eq_of_beq (List.takeWhile_eq_self_iff.1 hself c hc)) hne
    · rfl
  rw [rootOf, rootOf, hsame]

theorem IsName.componentsOf {part : String} (hpart : IsName part) : componentsOf part.toList = [part] := by
  rw [Path.componentsOf, Text.pieces_of_not_mem hpart.2, List.map_singleton, String.ofList_toList]
  exact List.filter_eq_self.2 (by simpa using hpart.1)

theorem toList_join_cons (part : String) (parts : List String) : (Text.join "/" (part :: parts)).toList =
    part.toList ++ if parts = [] then [] else '/' :: (Text.join "/" parts).toList := by
  cases parts with
  | nil => rw [if_pos rfl, List.append_nil]; rfl
  | cons t rest =>
    rw [if_neg (List.cons_ne_nil _ _), Text.join_cons_cons, String.toList_append, String.toList_append,
      List.append_assoc]
    rfl

theorem componentsOf_join : ∀ {parts : List String}, (∀ part ∈ parts, IsName part) →
    componentsOf (Text.join "/" parts).toList = parts
  | [], _ => rfl
  | part :: parts, h => by
    have hpart := (h part (List.mem_cons_self ..)).componentsOf
    have hrest := componentsOf_join fun q hq => h q (List.mem_cons_of_mem part hq)
    rw [toList_join_cons]
    split
    · rename_i hnil
      rw [List.append_nil, hpart, hnil]
    · rw [componentsOf_append, hpart, hrest, List.singleton_append]

theorem takeWhile_join {parts : List String} (h : ∀ part ∈ parts, IsName part) :
    (Text.join "/" parts).toList.takeWhile (· == '/') = [] := by
  cases parts with
  | nil => rfl
  | cons part parts =>
    obtain ⟨hpart, hslash⟩ := h part (List.mem_cons_self ..)
    rw [toList_join_cons]
    cases hcs : part.toList with
    | nil =>
      rw [String.toList_eq_nil_iff.1 hcs] at hpart
      cases hpart
    | cons c cs =>
      have hc : c ≠ '/' := fun hc => hslash (by rw [hcs, hc]; exact List.mem_cons_self ..)
      exact List.takeWhile_cons_of_neg (by simpa using hc)

/-- A path that can be read is read from its text. -/
theorem parse_text {p : Path} (hp : p.Legible) : parse p.text = p := by
  obtain ⟨hroot, hparts⟩ := hp
  rcases p with ⟨root, parts⟩
  unfold text
  split
  · rename_i hempty
    rw [Bool.and_eq_true, List.isEmpty_iff] at hempty
    obtain ⟨hzero, hnil⟩ := hempty
    rw [show root = 0 from eq_of_beq hzero, show parts = [] from hnil]
    decide
  · have hslashes : rootOf (Text.times root "/").toList = root ∧ componentsOf ((Text.times root "/").toList ++
        (Text.join "/" parts).toList) = componentsOf (Text.join "/" parts).toList := by
      have hskip : ∀ cs : List Char, componentsOf ('/' :: cs) = componentsOf cs := componentsOf_append []
      obtain rfl | rfl | rfl : root = 0 ∨ root = 1 ∨ root = 2 := by simp only at hroot; omega
      · exact ⟨rfl, rfl⟩
      · exact ⟨rfl, hskip _⟩
      · exact ⟨rfl, (hskip _).trans (hskip _)⟩
    have hread : parse (Text.times root "/" ++ Text.join "/" parts) =
        ⟨rootOf ((Text.times root "/").toList ++ (Text.join "/" parts).toList),
          componentsOf ((Text.times root "/").toList ++ (Text.join "/" parts).toList)⟩ := by
      rw [← String.toList_append]
      rfl
    rw [hread, rootOf_append (.inl (takeWhile_join hparts)), hslashes.1, hslashes.2, componentsOf_join hparts]

theorem takeWhile_of_not_startsWith {s : String} (hs : Text.startsWith s "/" = false) :
    s.toList.takeWhile (· == '/') = [] := by
  rw [Text.startsWith] at hs
  cases hcs : s.toList with
  | nil => rfl
  | cons c cs =>
    rw [hcs] at hs
    refine List.takeWhile_cons_of_neg fun hc => ?_
    rw [eq_of_beq hc] at hs
    simp at hs

/-- A name appended to the text of a directory is one in the directory. -/
theorem parse_append {directory name : String} (hdirectory : directory ≠ "")
    (hname : Text.startsWith name "/" = false) :
    parse (append directory name) = (parse directory).join (parse name) := by
  have hhead := takeWhile_of_not_startsWith hname
  have hrelative : (parse name).root = 0 := by
    rw [parse, rootOf, hhead]
    rfl
  have hjoin : (parse directory).join (parse name) =
      ⟨rootOf directory.toList, componentsOf directory.toList ++ componentsOf name.toList⟩ := by
    rw [join, hrelative]
    rfl
  rw [hjoin, append, hname]
  simp only [Bool.false_eq_true, if_false, hdirectory, decide_false, Bool.false_or]
  have hread : ∀ {s : String} {cs : List Char}, s.toList = cs → parse s = ⟨rootOf cs, componentsOf cs⟩ :=
    fun h => h ▸ rfl
  split
  · -- a slash at the end of the directory is the one in front of the name
    rename_i hend
    obtain ⟨u, hu⟩ := List.isSuffixOf_iff_suffix.1 hend
    have hslash : u ++ ['/'] = directory.toList := hu
    have hparts : componentsOf (directory.toList ++ name.toList) =
        componentsOf directory.toList ++ componentsOf name.toList := by
      rw [← hslash, List.append_assoc, componentsOf_concat_slash]
      exact componentsOf_append u name.toList
    rw [hread (String.toList_append), rootOf_append (.inl hhead), hparts]
  · rename_i hend
    obtain ⟨u, c, hu⟩ := (List.eq_nil_or_concat' directory.toList).resolve_left
      (String.toList_eq_nil_iff.not.2 hdirectory)
    have hc : c ≠ '/' := fun hc => hend (List.isSuffixOf_iff_suffix.2 ⟨u, by rw [hu, hc]; rfl⟩)
    have hlast : ∃ c ∈ directory.toList, c ≠ '/' :=
      ⟨c, by rw [hu]; exact List.mem_append_right u (List.mem_singleton_self c), hc⟩
    have htext : (directory ++ "/" ++ name).toList = directory.toList ++ '/' :: name.toList := by
      rw [String.toList_append, String.toList_append, List.append_assoc]
      rfl
    rw [hread htext, rootOf_append (.inr hlast), componentsOf_append]

/-! ## Normal forms -/

/-- Goes one component on; two dots take back the component before them, unless there is none. -/
def ascend (done : List String) (part : String) : List String :=
  if part = ".." ∧ done ≠ [] ∧ done.getLast? ≠ some ".." then done.dropLast else done ++ [part]

/-- The lexical normal form of the components of a relative path. -/
def normal (parts : List String) : List String := parts.foldl ascend []

/-- A relative path that leads to nothing outside the directory that it is seen from. -/
def Inside (p : Path) : Prop := p.root = 0 ∧ ".." ∉ normal p.parts

instance (p : Path) : Decidable p.Inside := inferInstanceAs (Decidable (_ ∧ _))

theorem up_mem_ascend {done : List String} (hup : ".." ∈ done) (part : String) : ".." ∈ ascend done part := by
  unfold ascend
  split
  · rename_i hback
    obtain ⟨-, hne, hlast⟩ := hback
    rw [← List.dropLast_concat_getLast hne, List.mem_append, List.mem_singleton] at hup
    rw [List.getLast?_eq_some_getLast hne] at hlast
    exact hup.resolve_right fun heq => hlast (congrArg some heq.symm)
  · exact List.mem_append_left _ hup

/-- Two dots that could take nothing back stay. -/
theorem up_mem_foldl_ascend {done : List String} (hup : ".." ∈ done) :
    ∀ parts : List String, ".." ∈ parts.foldl ascend done
  | [] => hup
  | part :: parts => up_mem_foldl_ascend (up_mem_ascend hup part) parts

theorem up_not_mem_normal_of_append {a b : List String} (h : ".." ∉ normal (a ++ b)) : ".." ∉ normal a := by
  unfold normal at h
  rw [List.foldl_append] at h
  exact fun hup => h (up_mem_foldl_ascend hup b)

theorem ascend_of_ne {part : String} (hpart : part ≠ "..") (done : List String) : ascend done part = done ++ [part] :=
  if_neg fun hback => hpart hback.1

theorem normal_concat_of_ne {part : String} (hpart : part ≠ "..") (parts : List String) :
    normal (parts ++ [part]) = normal parts ++ [part] := by
  rw [normal, List.foldl_append]
  exact ascend_of_ne hpart _

/-- A path that leads to nothing outside is followed behind other components as its normal form says. -/
theorem foldl_follow_append (base : List String) : ∀ (parts done : List String), ".." ∉ parts.foldl ascend done →
    parts.foldl follow (base ++ done) = base ++ parts.foldl ascend done
  | [], _, _ => rfl
  | part :: parts, done, hinside => by
    rw [List.foldl_cons] at hinside
    have hdone : ".." ∉ ascend done part := fun hup => hinside (up_mem_foldl_ascend hup parts)
    -- two dots have something to take back, since otherwise they would stay
    have hstep : follow (base ++ done) part = base ++ ascend done part := by
      unfold follow ascend at *
      by_cases hpart : part = ".."
      · rw [if_pos hpart]
        by_cases hback : done ≠ [] ∧ done.getLast? ≠ some ".."
        · rw [if_pos ⟨hpart, hback⟩, List.dropLast_append_of_ne_nil hback.1]
        · rw [if_neg fun h => hback h.2, hpart] at hdone
          exact absurd (List.mem_append_right done (List.mem_singleton_self _)) hdone
      · rw [if_neg hpart, if_neg fun h => hpart h.1, List.append_assoc]
    rw [List.foldl_cons, List.foldl_cons, hstep, foldl_follow_append base parts _ hinside]

theorem foldl_follow_of_inside {p : Path} (hp : p.Inside) (base : List String) :
    p.parts.foldl follow base = base ++ normal p.parts := by
  have h := foldl_follow_append base p.parts [] hp.2
  rwa [List.append_nil] at h

/-- A path that leads to nothing outside names the components of its normal form, wherever it is seen from. -/
theorem resolve_join_of_inside (here p : Path) {q : Path} (hq : q.Inside) :
    here.resolve (p.join q) = ⟨1, (here.resolve p).parts ++ normal q.parts⟩ := by
  have hparts : (here.join (p.join q)).parts = (here.join p).parts ++ q.parts := by
    unfold join
    rw [hq.1]
    cases hroot : p.root == 0 <;> simp [hroot]
  unfold resolve
  rw [hparts, List.foldl_append, foldl_follow_of_inside hq]

theorem up_not_mem_foldl_follow : ∀ (parts : List String) {done : List String}, ".." ∉ done →
    ".." ∉ parts.foldl follow done
  | [], _, hdone => hdone
  | part :: parts, done, hdone => by
    rw [List.foldl_cons]
    refine up_not_mem_foldl_follow parts ?_
    unfold follow
    split
    · exact fun hup => hdone (List.dropLast_subset _ hup)
    · rename_i hpart
      rw [List.mem_append, List.mem_singleton, not_or]
      exact ⟨hdone, fun heq => hpart heq.symm⟩

/-- No two dots are left in a path from the root. -/
theorem up_not_mem_resolve (here p : Path) : ".." ∉ (here.resolve p).parts :=
  up_not_mem_foldl_follow _ List.not_mem_nil

/-! ## Going up and down -/

/-- A normal form goes up some times and then down; so does following the path, from wherever it is. -/
theorem exists_normal_eq (parts : List String) : ∃ k names, normal parts = List.replicate k ".." ++ names ∧
    ".." ∉ names ∧ ∀ base : List String, parts.foldl follow base = base.take (base.length - k) ++ names := by
  induction parts using List.reverseRecOn with
  | nil => exact ⟨0, [], rfl, List.not_mem_nil, fun base => by simp⟩
  | append_singleton parts part ih =>
    obtain ⟨k, names, hnormal, hnames, hfollow⟩ := ih
    have hstep : normal (parts ++ [part]) = ascend (normal parts) part := by rw [normal, List.foldl_append]; rfl
    have hgo : ∀ base : List String, (parts ++ [part]).foldl follow base = follow (parts.foldl follow base) part :=
      fun base => by rw [List.foldl_append]; rfl
    by_cases hup : part = ".."
    · rcases List.eq_nil_or_concat' names with rfl | ⟨names, last, rfl⟩
      · -- there is nothing to take back, so it goes up once more
        refine ⟨k + 1, [], ?_, List.not_mem_nil, fun base => ?_⟩
        · rw [hstep, hnormal, hup, List.append_nil, List.append_nil, ascend, if_neg, List.replicate_succ']
          rintro ⟨-, hne, hlast⟩
          have hk : k ≠ 0 := fun hk => hne (by rw [hk]; rfl)
          exact hlast (by rw [List.getLast?_replicate, if_neg hk])
        · rw [hgo, hfollow, hup, follow, if_pos rfl, List.append_nil, List.append_nil, List.dropLast_eq_take,
            List.take_take, List.length_take]
          congr 1
          omega
      · refine ⟨k, names, ?_, fun hm => hnames (List.mem_append_left _ hm), fun base => ?_⟩
        · have hlast : last ≠ ".." := fun h => hnames (List.mem_append_right names (List.mem_singleton.2 h.symm))
          rw [hstep, hnormal, hup, ascend, if_pos, ← List.append_assoc, List.dropLast_concat]
          rw [← List.append_assoc, List.getLast?_concat]
          exact ⟨rfl, List.append_ne_nil_of_right_ne_nil _ (List.cons_ne_nil _ _), fun h => hlast (Option.some.inj h)⟩
        · rw [hgo, hfollow, hup, follow, if_pos rfl, ← List.append_assoc, List.dropLast_concat]
    · refine ⟨k, names ++ [part], ?_, ?_, fun base => ?_⟩
      · rw [hstep, hnormal, ascend_of_ne hup, List.append_assoc]
      · rw [List.mem_append, List.mem_singleton, not_or]
        exact ⟨hnames, Ne.symm hup⟩
      · rw [hgo, hfollow, follow, if_neg hup, List.append_assoc]

/-- How often a path goes up before it goes down. -/
def ups (p : Path) : Nat := (normal p.parts).count ".."

/-- How often a path goes down in the end. -/
def downs (p : Path) : Nat := (normal p.parts).countP (· != "..")

/-- How far below the root a directory is. -/
def depth (here : Path) : Nat := (here.parts.foldl follow []).length

theorem exists_names (p : Path) : ∃ names : List String, ".." ∉ names ∧ names.length = p.downs ∧
    ∀ base : List String, p.parts.foldl follow base = base.take (base.length - p.ups) ++ names := by
  obtain ⟨k, names, hnormal, hnames, hfollow⟩ := exists_normal_eq p.parts
  have hups : p.ups = k := by
    rw [ups, hnormal, List.count_append, List.count_replicate_self, List.count_eq_zero.2 hnames, Nat.add_zero]
  have hdowns : p.downs = names.length := by
    have hzero : (List.replicate k "..").countP (· != "..") = 0 :=
      List.countP_eq_zero.2 fun part hpart => by simp [List.eq_of_mem_replicate hpart]
    rw [downs, hnormal, List.countP_append, hzero, Nat.zero_add, List.countP_eq_length]
    exact fun part hpart => bne_iff_ne.2 fun hup => hnames (hup ▸ hpart)
  exact ⟨names, hnames, hdowns.symm, by rw [hups]; exact hfollow⟩

/-- Components without dots lead down. -/
theorem foldl_follow_of_not_mem : ∀ {parts : List String}, ".." ∉ parts → ∀ done : List String,
    parts.foldl follow done = done ++ parts
  | [], _, done => (List.append_nil done).symm
  | part :: parts, h, done => by
    rw [List.mem_cons, not_or] at h
    rw [List.foldl_cons, follow, if_neg (Ne.symm h.1), foldl_follow_of_not_mem h.2, List.append_assoc,
      List.singleton_append]

/-- A path from the root names the same directory from everywhere. -/
theorem resolve_of_root {p : Path} (hp : p.root ≠ 0) (here : Path) : here.resolve p = ⟨1, p.parts.foldl follow []⟩ := by
  rw [resolve, join, beq_false_of_ne hp]
  rfl

theorem resolve_of_relative {p : Path} (hp : p.root = 0) (here : Path) :
    here.resolve p = ⟨1, p.parts.foldl follow (here.parts.foldl follow [])⟩ := by
  rw [resolve, join, hp, ← List.foldl_append]
  rfl

/-- Following a path once more from where it leads to leads there again if it starts at the root, if it goes down as
often as it goes up, or if it goes up to the root and less often down; and in no other case. -/
theorem resolve_resolve_iff (here p : Path) : (here.resolve p).resolve p = here.resolve p ↔
    p.root ≠ 0 ∨ p.downs = p.ups ∨ p.downs < p.ups ∧ here.depth ≤ p.ups := by
  by_cases hroot : p.root = 0
  · obtain ⟨names, hnames, hlength, hfollow⟩ := exists_names p
    have hparts := up_not_mem_resolve here p
    rw [resolve_of_relative hroot here] at hparts ⊢
    rw [resolve_of_relative hroot, foldl_follow_of_not_mem hparts, List.nil_append, mk.injEq]
    simp only [true_and, hroot, ne_eq, not_true_eq_false, false_or]
    rw [depth]
    generalize here.parts.foldl follow [] = base
    rw [hfollow base, hfollow, List.append_left_inj, ← hlength, List.length_append]
    -- what is left of the directory on the way up is what stood above the names before
    have habove : (base.take (base.length - p.ups)).length = base.length - p.ups := by
      rw [List.length_take]
      omega
    generalize base.take (base.length - p.ups) = above at habove ⊢
    constructor
    · intro hsame
      have hlen := congrArg List.length hsame
      rw [List.length_take, List.length_append] at hlen
      omega
    · intro hcount
      exact List.take_left' (by omega)
  · simp only [resolve_of_root hroot, hroot, ne_eq, not_false_eq_true, true_or]

end Path

end CiPipeline
