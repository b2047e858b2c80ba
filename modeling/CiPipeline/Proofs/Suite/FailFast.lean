import CiPipeline.Proofs.Suite.Counting

/-
Ending a suite early. Its categories are run twice, from the same tally and on the same host: once to their end,
and once so that the suite ends after the first category with a failing check. If the categories do not
look at that request, the second run is a beginning of the first: the shortest one whose last category has
brought failing checks, or all of it (`failFast_cuts`). What counts is the tally just before a category,
so failing checks in the tally that the suite began with end nothing.
-/

namespace CiPipeline

/-- The same with a suite that goes on after failing checks. -/
def SuiteConfig.lenient (c : SuiteConfig) : SuiteConfig := { c with failFast := false }

/-- The same with a suite that ends after the first category with a failing check. -/
def SuiteConfig.strict (c : SuiteConfig) : SuiteConfig := { c with failFast := true }

/-! ## Categories -/

namespace Category

/-- The category does the same whether or not the suite is to end early. -/
def Heedless (c : SuiteConfig) (category : Category) : Prop := category c.strict = category c.lenient

/-- The category only adds records to those that are there. -/
def Accumulates (c : SuiteConfig) (category : Category) : Prop :=
  ∀ t h t' h', (category c t).on h = (.ok t', h') → t.records <+: t'.records

end Category

/-- Only the category of the project's own tests passes the request on. -/
theorem CategoryName.heedless {name : CategoryName} (hname : name ≠ .pytest) (c : SuiteConfig) :
    Category.Heedless c name.category := by
  cases name with
  | pytest => exact absurd rfl hname
  | _ => rfl

theorem CategoryName.accumulates (name : CategoryName) (c : SuiteConfig) : Category.Accumulates c name.category := by
  intro t h t' h' hon
  obtain ⟨r, h₁, hadds, -⟩ := name.adds c h
  rw [hadds t] at hon
  cases r with
  | error f => cases hon
  | ok d =>
    cases hon
    exact List.prefix_append _ _

namespace Suite

/-! ## Where a suite ends -/

/-- The tally that is held when categories have finished one after another. -/
def held (t : Tally) (finished : List (String × Tally)) : Tally := (finished.getLast?.map (·.2)).getD t

/-- The last category that finished has brought failing checks. -/
def Trips (t : Tally) (finished : List (String × Tally)) : Prop :=
  ∃ before last, finished = before ++ [last] ∧ (held t before).failed < last.2.failed

/-- Where a suite ends early whose categories would come to `whole`, and the host then, `k` being the one that the
categories leave: after the shortest beginning whose last category has brought failing checks, which is
warned of; or after all of them if there is none. -/
inductive EndsAt (t : Tally) (whole : List (String × Tally)) (k : Host) : List (String × Tally) → Host → Prop
  | stopped (before : List (String × Tally)) {name : String} {next : Tally}
      (hmore : (held t before).failed < next.failed)
      (hleast : ∀ part, part <+: whole → Trips t part → before ++ [(name, next)] <+: part) :
      EndsAt t whole k (before ++ [(name, next)]) ((warnStop name).on k).2
  | through (hnever : ∀ part, part <+: whole → ¬ Trips t part) : EndsAt t whole k whole k

variable {c : SuiteConfig} {t next : Tally} {h h₁ k k₂ : Host} {name : String} {category : Category}
  {categories rest : List (String × Category)} {whole part finished : List (String × Tally)} {full : Course}

theorem held_cons (t : Tally) (x : String × Tally) (l : List (String × Tally)) : held t (x :: l) = held x.2 l := by
  rw [held, held, List.getLast?_cons]
  cases l.getLast? with
  | none => rfl
  | some last => rfl

theorem not_trips_nil : ¬ Trips t [] := by
  rintro ⟨before, last, heq, -⟩
  exact List.append_ne_nil_of_right_ne_nil before (List.cons_ne_nil last []) heq.symm

theorem trips_cons_iff : Trips t ((name, next) :: part) ↔ part = [] ∧ t.failed < next.failed ∨ Trips next part := by
  constructor
  · rintro ⟨before, last, heq, hmore⟩
    cases before with
    | nil =>
      cases heq
      exact .inl ⟨rfl, hmore⟩
    | cons x before =>
      obtain ⟨rfl, rfl⟩ := List.cons.inj heq
      rw [held_cons] at hmore
      exact .inr ⟨before, last, rfl, hmore⟩
  · rintro (⟨rfl, hmore⟩ | ⟨before, last, rfl, hmore⟩)
    · exact ⟨[], (name, next), rfl, hmore⟩
    · refine ⟨(name, next) :: before, last, rfl, ?_⟩
      rwa [held_cons]

/-- A category with failing checks ends the suite. -/
theorem endsAt_head (hmore : t.failed < next.failed) (name : String) (finished : List (String × Tally)) (k : Host) :
    EndsAt t ((name, next) :: finished) k [(name, next)] ((warnStop name).on k).2 := by
  refine .stopped [] hmore fun part hpart htrips => ?_
  rcases List.prefix_cons_iff.1 hpart with rfl | ⟨part, rfl, -⟩
  · exact absurd htrips not_trips_nil
  · exact List.prefix_append [(name, next)] part

/-- A category without failing checks leaves it to the others where the suite ends. -/
theorem EndsAt.cons (he : EndsAt next whole k part k₂) (hgoes : ¬ t.failed < next.failed) (name : String) :
    EndsAt t ((name, next) :: whole) k ((name, next) :: part) k₂ := by
  have htail : ∀ {p}, p <+: (name, next) :: whole → Trips t p →
      ∃ q, p = (name, next) :: q ∧ q <+: whole ∧ Trips next q := by
    intro p hp htrips
    rcases List.prefix_cons_iff.1 hp with rfl | ⟨q, rfl, hq⟩
    · exact absurd htrips not_trips_nil
    · rcases trips_cons_iff.1 htrips with ⟨-, hmore⟩ | htrips
      · exact absurd hmore hgoes
      · exact ⟨q, rfl, hq, htrips⟩
  cases he with
  | stopped before hmore hleast =>
    refine .stopped ((name, next) :: before) (by rwa [held_cons]) fun p hp htrips => ?_
    obtain ⟨q, rfl, hq, htrips⟩ := htail hp htrips
    exact (List.prefix_cons_inj _).2 (hleast q hq htrips)
  | through hnever =>
    refine .through fun p hp htrips => ?_
    obtain ⟨q, rfl, hq, htrips⟩ := htail hp htrips
    exact hnever q hq htrips

/-! ## Suites without faults -/

/-- What a suite comes to that goes on after failing checks, when its first category has come to its end. -/
theorem exists_after_of_lenient (hcategory : (category c.lenient t).on h = (.ok next, h₁))
    (hon : (runCategories c.lenient t ((name, category) :: rest)).on h = (.ok full, k)) :
    ∃ course, (runCategories c.lenient next rest).on h₁ = (.ok course, k) ∧ full = Course.after name next course := by
  rw [on_runCategories_goes hcategory nofun] at hon
  rcases hrest : (runCategories c.lenient next rest).on h₁ with ⟨f | course, h₂⟩
  · rw [hrest] at hon
    cases hon
  · rw [hrest] at hon
    cases hon
    exact ⟨course, rfl, rfl⟩

/-- How a suite begins that goes on after failing checks and meets no fault. -/
theorem of_on_runCategories_lenient
    (hon : (runCategories c.lenient t ((name, category) :: rest)).on h = (.ok full, k)) (hnone : full.fault = none) :
    ∃ next h₁ course, (category c.lenient t).on h = (.ok next, h₁) ∧
      (runCategories c.lenient next rest).on h₁ = (.ok course, k) ∧ course.fault = none ∧
      full = Course.after name next course := by
  rcases hcategory : (category c.lenient t).on h with ⟨f | next, h₁⟩
  · rw [on_runCategories_breaks hcategory] at hon
    cases hon
    cases hnone
  · obtain ⟨course, hrest, rfl⟩ := exists_after_of_lenient hcategory hon
    exact ⟨next, h₁, course, rfl, hrest, hnone, rfl⟩

theorem names_finished : ∀ {categories : List (String × Category)} {t : Tally} {h k : Host} {full : Course},
    (runCategories c.lenient t categories).on h = (.ok full, k) → full.fault = none →
      full.finished.map (·.1) = categories.map (·.1)
  | [], _, _, _, _, hon, _ => by
    cases hon
    rfl
  | (name, category) :: rest, t, h, k, full, hon, hnone => by
    obtain ⟨next, h₁, course, -, hrest, hnone', rfl⟩ := of_on_runCategories_lenient hon hnone
    exact congrArg (name :: ·) (names_finished hrest hnone')

/-- Along a suite of categories that accumulate, records are only added. -/
theorem records_held_prefix : ∀ {categories : List (String × Category)} {t : Tally} {h k : Host} {full : Course},
    (∀ x ∈ categories, x.2.Accumulates c.lenient) → (runCategories c.lenient t categories).on h = (.ok full, k) →
      full.fault = none → ∀ part, part <+: full.finished → (held t part).records <+: (full.tally t).records
  | [], t, _, _, _, _, hon, _, part, hpart => by
    cases hon
    rw [List.prefix_nil.1 hpart]
    exact List.prefix_refl _
  | (name, category) :: rest, t, h, k, full, hgrow, hon, hnone, part, hpart => by
    obtain ⟨next, h₁, course, hcategory, hrest, hnone', rfl⟩ := of_on_runCategories_lenient hon hnone
    have ih := records_held_prefix (fun x hx => hgrow x (List.mem_cons_of_mem _ hx)) hrest hnone'
    show (held t part).records <+: (held t ((name, next) :: course.finished)).records
    rw [held_cons]
    rcases List.prefix_cons_iff.1 hpart with rfl | ⟨others, rfl, hothers⟩
    · exact (hgrow _ (List.mem_cons_self ..) t h next h₁ hcategory).trans (ih [] List.nil_prefix)
    · rw [held_cons]
      exact ih others hothers

/-! ## The two runs -/

/-- The run that ends early is the other one on the first categories, up to where the suite ends. -/
theorem exists_take_of_heedless : ∀ {categories : List (String × Category)} {t : Tally} {h k : Host} {full : Course},
    (∀ x ∈ categories, x.2.Heedless c) → (runCategories c.lenient t categories).on h = (.ok full, k) →
      full.fault = none → ∃ n course k₁ k₂,
        (runCategories c.lenient t (categories.take n)).on h = (.ok course, k₁) ∧
        (runCategories c.strict t categories).on h = (.ok course, k₂) ∧ course.fault = none ∧
        course.finished = full.finished.take n ∧ EndsAt t full.finished k₁ course.finished k₂
  | [], t, h, k, full, _, hon, _ => by
    cases hon
    refine ⟨0, {}, h, h, rfl, rfl, rfl, rfl, .through fun part hpart htrips => ?_⟩
    rw [List.prefix_nil.1 hpart] at htrips
    exact not_trips_nil htrips
  | (name, category) :: rest, t, h, k, full, hheedless, hon, hnone => by
    obtain ⟨next, h₁, tail, hcategory, hrest, hnone', rfl⟩ := of_on_runCategories_lenient hon hnone
    have hstrict : (category c.strict t).on h = (.ok next, h₁) := by
      rw [show category c.strict = category c.lenient from hheedless _ (List.mem_cons_self ..)]
      exact hcategory
    by_cases hmore : t.failed < next.failed
    · refine ⟨1, { finished := [(name, next)] }, h₁, _, ?_, on_runCategories_stops hstrict ⟨rfl, hmore⟩ rest, rfl, rfl,
        endsAt_head hmore name _ _⟩
      exact on_runCategories_goes hcategory nofun []
    · obtain ⟨n, course, k₁, k₂, htake, hearly, hnone'', hfinished, hends⟩ :=
        exists_take_of_heedless (fun x hx => hheedless x (List.mem_cons_of_mem _ hx)) hrest hnone'
      refine ⟨n + 1, Course.after name next course, k₁, k₂, ?_, ?_, hnone'', congrArg ((name, next) :: ·) hfinished,
        hends.cons hmore name⟩
      · rw [List.take_succ_cons, on_runCategories_goes hcategory nofun, htake]
        rfl
      · rw [on_runCategories_goes hstrict fun hstops => hmore hstops.2, hearly]
        rfl

/-- If no fault is met, the run that ends early is cut from the other one, and its records are a beginning of the
records there if categories only add to them. -/
theorem exists_cut (hheedless : ∀ x ∈ categories, x.2.Heedless c)
    (hon : (runCategories c.lenient t categories).on h = (.ok full, k)) (hnone : full.fault = none) :
    full.finished.map (·.1) = categories.map (·.1) ∧ ∃ n course k₁ k₂,
      (runCategories c.lenient t (categories.take n)).on h = (.ok course, k₁) ∧
      (runCategories c.strict t categories).on h = (.ok course, k₂) ∧ course.fault = none ∧
      course.finished = full.finished.take n ∧ EndsAt t full.finished k₁ course.finished k₂ ∧
      ((∀ x ∈ categories, x.2.Accumulates c.lenient) → (course.tally t).records <+: (full.tally t).records) := by
  obtain ⟨n, course, k₁, k₂, htake, hearly, hnone', hfinished, hends⟩ := exists_take_of_heedless hheedless hon hnone
  refine ⟨names_finished hon hnone, n, course, k₁, k₂, htake, hearly, hnone', hfinished, hends, fun hgrow => ?_⟩
  refine records_held_prefix hgrow hon hnone course.finished ?_
  rw [hfinished]
  exact List.take_prefix _ _

/-- So it is with the categories that have a name, all but the one that passes the request on: a suite of them that
ends early finishes the first ones of the whole suite, and its records are a beginning of the records there. -/
theorem failFast_cuts_named {names : List CategoryName} (hnames : ∀ name ∈ names, name ≠ .pytest)
    (hon : (runCategories c.lenient t (names.map fun n => (n.word, n.category))).on h = (.ok full, k))
    (hnone : full.fault = none) : ∃ n course k₁ k₂,
      (runCategories c.lenient t ((names.take n).map fun n => (n.word, n.category))).on h = (.ok course, k₁) ∧
      (runCategories c.strict t (names.map fun n => (n.word, n.category))).on h = (.ok course, k₂) ∧
      EndsAt t full.finished k₁ course.finished k₂ ∧ (course.tally t).records <+: (full.tally t).records := by
  have hheedless : ∀ x ∈ names.map fun n => (n.word, n.category), x.2.Heedless c :=
    List.forall_mem_map.2 fun name hname => name.heedless (hnames name hname) c
  have hgrow : ∀ x ∈ names.map fun n => (n.word, n.category), x.2.Accumulates c.lenient :=
    List.forall_mem_map.2 fun name _ => name.accumulates c.lenient
  obtain ⟨-, n, course, k₁, k₂, htake, hearly, -, -, hends, hrecords⟩ := exists_cut hheedless hon hnone
  rw [← List.map_take] at htake
  exact ⟨n, course, k₁, k₂, htake, hearly, hends, hrecords hgrow⟩

end Suite

namespace Sample

end Sample

namespace Suite

end Suite

end CiPipeline
