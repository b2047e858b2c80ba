import CiPipeline.Proofs.Act
import CiPipeline.Suite

/-
The course of a suite. Its categories pass one after another, until one of them has a failing check
and the suite is to end then, or until one ends with a fault. There is always exactly one such end
(`completes_or_breaks`), and the course that a suite reports is read off it.
-/

namespace CiPipeline.Suite

/-- A category that came to the tally `next` from `t` stops the suite: a check has failed, and the
suite is to end then. -/
def Stops (c : SuiteConfig) (t next : Tally) : Prop := c.failFast = true ∧ t.failed < next.failed

/-- Categories pass one after another, each with the tally and the host that the one before left, and
none of them stops the suite. -/
inductive Passes (c : SuiteConfig) : Tally → Host → List (String × Category) → Tally → Host → Prop
  | nil (t : Tally) (h : Host) : Passes c t h [] t h
  | cons {t next last : Tally} {h h₁ h₂ : Host} {category : Category} {rest : List (String × Category)}
      (name : String) (hon : (category c t).on h = (.ok next, h₁)) (hgoes : ¬ Stops c t next)
      (hrest : Passes c next h₁ rest last h₂) : Passes c t h ((name, category) :: rest) last h₂

/-- Prints that a category stops the suite. -/
def warnStop (name : String) : Act Unit :=
  Console.warning ("Stopping after failed category '" ++ name ++ "' (--fail-fast)")

/-- A suite comes to its end without a fault: all categories pass, or one stops it. -/
inductive Completes (c : SuiteConfig) (t : Tally) (h : Host) : List (String × Category) → Tally → Host → Prop
  | all {categories : List (String × Category)} {last : Tally} {h' : Host}
      (hpass : Passes c t h categories last h') : Completes c t h categories last h'
  | early {before after : List (String × Category)} {name : String} {category : Category} {t₁ last : Tally}
      {h₁ h₂ : Host} (hpass : Passes c t h before t₁ h₁) (hon : (category c t₁).on h₁ = (.ok last, h₂))
      (hstops : Stops c t₁ last) :
      Completes c t h (before ++ (name, category) :: after) last ((warnStop name).on h₂).2

/-- A suite is cut short: the categories `before` pass and come to the tally `last`, and the next one
ends with a fault. -/
inductive Breaks (c : SuiteConfig) (t : Tally) (h : Host) :
    List (String × Category) → List (String × Category) → Tally → Fault → Host → Prop
  | mk {before after : List (String × Category)} {name : String} {category : Category} {last : Tally} {f : Fault}
      {h₁ h' : Host} (hpass : Passes c t h before last h₁) (hon : (category c last).on h₁ = (.error f, h')) :
      Breaks c t h (before ++ (name, category) :: after) before last f h'

variable {c : SuiteConfig} {t next last : Tally} {h h₁ h' : Host} {f : Fault} {name : String} {category : Category}
  {categories before rest : List (String × Category)}

/-! ## Every suite has an end -/

/-- A suite completes, or it is cut short. -/
theorem completes_or_breaks (c : SuiteConfig) : ∀ (categories : List (String × Category)) (t : Tally) (h : Host),
    (∃ last h', Completes c t h categories last h') ∨ ∃ before last f h', Breaks c t h categories before last f h'
  | [], t, h => Or.inl ⟨t, h, .all (.nil t h)⟩
  | (name, category) :: rest, t, h => by
    -- one of three things happens to the first category: a fault, a stop, or it passes
    rcases hon : (category c t).on h with ⟨f | next, h₁⟩
    · exact Or.inr ⟨[], t, f, h₁, .mk (.nil t h) hon⟩
    · by_cases hstops : Stops c t next
      · exact Or.inl ⟨next, _, .early (.nil t h) hon hstops⟩
      · rcases completes_or_breaks c rest next h₁ with ⟨last, h', hrest⟩ | ⟨before, last, f, h', hrest⟩
        · cases hrest with
          | all hpass => exact Or.inl ⟨last, h', .all (.cons name hon hstops hpass)⟩
          | early hpass hlast hstops' => exact Or.inl ⟨last, _, .early (.cons name hon hstops hpass) hlast hstops'⟩
        · cases hrest with
          | mk hpass hlast => exact Or.inr ⟨_, last, f, h', .mk (.cons name hon hstops hpass) hlast⟩

/-! ## One category -/

theorem on_runCategories_breaks (hon : (category c t).on h = (.error f, h₁)) (rest : List (String × Category)) :
    (runCategories c t ((name, category) :: rest)).on h = (.ok { fault := some f }, h₁) := by
  have hattempt : (category c t).attempt.on h = (.ok (.error f), h₁) := by rw [Act.on_attempt, hon]
  rw [runCategories, Act.on_bind_ok hattempt]
  rfl

theorem on_runCategories_stops (hon : (category c t).on h = (.ok next, h₁)) (hstops : Stops c t next)
    (rest : List (String × Category)) :
    (runCategories c t ((name, category) :: rest)).on h =
      (.ok { finished := [(name, next)] }, ((warnStop name).on h₁).2) := by
  have hattempt : (category c t).attempt.on h = (.ok (.ok next), h₁) := by rw [Act.on_attempt, hon]
  have hguard : (c.failFast && decide (t.failed < next.failed)) = true := by simpa [Stops] using hstops
  rw [runCategories, Act.on_bind_ok hattempt]
  simp only [hguard, if_true]
  rfl

theorem on_runCategories_goes (hon : (category c t).on h = (.ok next, h₁)) (hgoes : ¬ Stops c t next)
    (rest : List (String × Category)) :
    (runCategories c t ((name, category) :: rest)).on h =
      (((runCategories c next rest).on h₁).1.map (Course.after name next), ((runCategories c next rest).on h₁).2) := by
  have hattempt : (category c t).attempt.on h = (.ok (.ok next), h₁) := by rw [Act.on_attempt, hon]
  have hguard : ¬ (c.failFast && decide (t.failed < next.failed)) = true := by simpa [Stops] using hgoes
  rw [runCategories, Act.on_bind_ok hattempt]
  simp only [hguard, Bool.false_eq_true, if_false]
  rw [map_eq_pure_bind, Act.on_bind]
  rcases (runCategories c next rest).on h₁ with ⟨e | course, h₂⟩
  · rfl
  · rfl

/-! ## The course -/

/-- The course with categories that finished before all others. -/
def Course.behind (done : List (String × Tally)) (course : Course) : Course :=
  { course with finished := done ++ course.finished }

/-- The course of a suite begins with the categories that pass. -/
theorem Passes.on_runCategories (hp : Passes c t h before last h') :
    ∃ done : List (String × Tally), done.map (·.1) = before.map (·.1) ∧ (done.getLast?.map (·.2)).getD t = last ∧
      ∀ rest, (runCategories c t (before ++ rest)).on h =
        (((runCategories c last rest).on h').1.map (Course.behind done), ((runCategories c last rest).on h').2) := by
  induction hp with
  | nil t h =>
    refine ⟨[], rfl, rfl, fun rest => ?_⟩
    rcases hon : (runCategories c t rest).on h with ⟨e | course, h'⟩
    · exact hon
    · exact hon
  | @cons t next last h h₁ h₂ category before name hon hgoes _ ih =>
    obtain ⟨done, hnames, hlast, hrun⟩ := ih
    refine ⟨(name, next) :: done, ?_, ?_, fun rest => ?_⟩
    · rw [List.map_cons, List.map_cons, hnames]
    · rw [List.getLast?_cons, Option.map_some, Option.getD_some, ← hlast]
      cases done.getLast? with
      | none => rfl
      | some last => rfl
    · rw [List.cons_append, on_runCategories_goes hon hgoes, hrun]
      rcases (runCategories c last rest).on h₂ with ⟨e | course, h'⟩
      · rfl
      · rfl

/-- What the course of a suite says that completes: its last tally, and no fault. -/
theorem Completes.on_runCategories (hc : Completes c t h categories last h') :
    ∃ course, (runCategories c t categories).on h = (.ok course, h') ∧ course.fault = none ∧ course.tally t = last := by
  cases hc with
  | all hpass =>
    obtain ⟨done, -, hlast, hrun⟩ := hpass.on_runCategories
    have hon := hrun []
    rw [List.append_nil] at hon
    refine ⟨_, hon, rfl, ?_⟩
    rw [← hlast]
    simp [Course.behind, Course.tally]
  | @early before after name category t₁ last h₁ h₂ hpass hon hstops =>
    obtain ⟨done, -, -, hrun⟩ := hpass.on_runCategories
    refine ⟨Course.behind done { finished := [(name, last)] }, (hrun _).trans ?_, rfl, ?_⟩
    · rw [on_runCategories_stops hon hstops]
      rfl
    · simp [Course.behind, Course.tally]

/-- What the course of a suite says that is cut short: the tally of the categories before, the name of
the last of them, and the fault. -/
theorem Breaks.on_runCategories (hb : Breaks c t h categories before last f h') :
    ∃ course, (runCategories c t categories).on h = (.ok course, h') ∧ course.fault = some f ∧
      course.tally t = last ∧ course.finished.getLast?.map (·.1) = before.getLast?.map (·.1) := by
  cases hb with
  | mk hpass hon =>
    obtain ⟨done, hnames, hlast, hrun⟩ := hpass.on_runCategories
    refine ⟨Course.behind done { fault := some f }, (hrun _).trans ?_, rfl, ?_, ?_⟩
    · rw [on_runCategories_breaks hon]
      rfl
    · rw [← hlast]
      simp [Course.behind, Course.tally]
    · rw [← List.getLast?_map, ← List.getLast?_map, ← hnames]
      simp [Course.behind]

end CiPipeline.Suite
