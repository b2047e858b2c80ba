import CiPipeline.Proofs.Suite.Course

/-
What a test category does to the tally that it is given: it adds checks, and nothing else. From any
tally it does the same as from the empty one, with the new records behind those that were there and
each count grown by the new records of its outcome. So the counts of a suite that began with the empty
tally are those of its records.
-/

namespace CiPipeline

namespace Tally

/-! ## Tallies one after another -/

/-- The first tally with the checks of the second entered too. -/
def plus (t d : Tally) : Tally :=
  ⟨t.passed + d.passed, t.failed + d.failed, t.skipped + d.skipped, t.records ++ d.records⟩

/-- How many checks of a list came to an outcome. -/
def countOf (o : CheckOutcome) (records : List (CheckOutcome × String)) : Nat := (records.map (·.1)).count o

/-- The counts of a tally are those of its records. -/
structure Counted (t : Tally) : Prop where
  passed : t.passed = countOf .passed t.records
  failed : t.failed = countOf .failed t.records
  skipped : t.skipped = countOf .skipped t.records

variable {t d e : Tally}

@[simp] theorem plus_empty (t : Tally) : t.plus {} = t := by simp [plus]

@[simp] theorem empty_plus (t : Tally) : ({} : Tally).plus t = t := by simp [plus]

theorem plus_plus (t d e : Tally) : t.plus (d.plus e) = (t.plus d).plus e := by
  simp [plus, Nat.add_assoc]

theorem add_eq_plus (t : Tally) (o : CheckOutcome) (message : String) :
    t.add o message = t.plus (({} : Tally).add o message) := by
  cases o <;> rfl

theorem countOf_append (o : CheckOutcome) (rs qs : List (CheckOutcome × String)) :
    countOf o (rs ++ qs) = countOf o rs + countOf o qs := by
  simp [countOf]

theorem counted_empty : Counted {} := ⟨rfl, rfl, rfl⟩

theorem Counted.plus (ht : t.Counted) (hd : d.Counted) : (t.plus d).Counted := by
  constructor
  · show t.passed + d.passed = countOf .passed (t.records ++ d.records)
    rw [ht.passed, hd.passed, countOf_append]
  · show t.failed + d.failed = countOf .failed (t.records ++ d.records)
    rw [ht.failed, hd.failed, countOf_append]
  · show t.skipped + d.skipped = countOf .skipped (t.records ++ d.records)
    rw [ht.skipped, hd.skipped, countOf_append]

theorem counted_add (o : CheckOutcome) (message : String) : (({} : Tally).add o message).Counted := by
  cases o <;> exact ⟨rfl, rfl, rfl⟩

/-- Every check has come to one of the three outcomes. -/
theorem countOf_passed_failed_skipped (rs : List (CheckOutcome × String)) :
    countOf .passed rs + countOf .failed rs + countOf .skipped rs = rs.length := by
  unfold countOf
  induction rs with
  | nil => rfl
  | cons r rs ih =>
    obtain ⟨o, message⟩ := r
    cases o <;> simp <;> omega

theorem Counted.total (h : t.Counted) : t.total = t.records.length := by
  rw [← countOf_passed_failed_skipped, ← h.passed, ← h.failed, ← h.skipped]
  rfl

/-! ## Acts that enter checks -/

/-- What an act on a tally does on a host is the same for every tally: it ends with a fault, or it adds
the same tally to all. -/
def Enters (f : Tally → Act Tally) (h : Host) (r : Except Fault Tally) (h' : Host) : Prop :=
  ∀ t, (f t).on h = (r.map t.plus, h')

variable {α : Type} {f g : Tally → Act Tally} {F : α → Tally → Act Tally} {r : Except Fault Tally} {fault : Fault}
  {h h₁ h' : Host}

theorem enters_pure (h : Host) : Enters pure h (.ok {}) h := by
  intro t
  show ((Except.ok t : Except Fault Tally), h) = (.ok (t.plus {}), h)
  rw [plus_empty]

theorem enters_fail (fault : Fault) (h : Host) : Enters (fun _ => .fail fault) h (.error fault) h := fun _ => rfl

theorem prints_print (o : CheckOutcome) (message : String) : (print o message).Prints := by
  cases o with
  | passed => exact Act.prints_plain _
  | failed => exact Act.prints_error _ _ _ _
  | skipped => exact Act.prints_aside _

theorem enters_enter (o : CheckOutcome) (message : String) (h : Host) :
    Enters (fun t => t.enter o message) h (.ok (({} : Tally).add o message)) ((print o message).on h).2 := by
  intro t
  obtain ⟨events, -, hon⟩ := prints_print o message h
  simp only [enter]
  rw [Act.on_bind_ok hon, hon, Act.on_pure, add_eq_plus t]
  rfl

/-- What comes first does not look at the tally. -/
theorem Enters.after {x : Act α} {a : α} (hx : x.on h = (.ok a, h₁)) (hF : Enters (F a) h₁ r h') :
    Enters (fun t => x >>= fun a => F a t) h r h' :=
  fun t => (Act.on_bind_ok hx).trans (hF t)

theorem enters_after_fault {x : Act α} (hx : x.on h = (.error fault, h₁)) :
    Enters (fun t => x >>= fun a => F a t) h (.error fault) h₁ :=
  fun _ => Act.on_bind_error hx

theorem Enters.bind (hf : Enters f h (.ok d) h₁) (hg : Enters g h₁ r h') :
    Enters (fun t => f t >>= g) h (r.map d.plus) h' := by
  intro t
  refine (Act.on_bind_ok (hf t)).trans ((hg _).trans ?_)
  cases r with
  | error fault => rfl
  | ok e =>
    show (Except.ok ((t.plus d).plus e), h') = (.ok (t.plus (d.plus e)), h')
    rw [plus_plus]

theorem Enters.bind_fault (hf : Enters f h (.error fault) h₁) : Enters (fun t => f t >>= g) h (.error fault) h₁ :=
  fun t => Act.on_bind_error (hf t)

/-! ## Acts that count -/

/-- An act on a tally adds, on every host, a tally with counts that are those of its records, of which
there are at least `least`. -/
def Adds (least : Nat) (f : Tally → Act Tally) : Prop :=
  ∀ h, ∃ r h', Enters f h r h' ∧ ∀ d, r = .ok d → d.Counted ∧ least ≤ d.records.length

variable {m n : Nat}

theorem Adds.mono (hf : Adds n f) (hle : m ≤ n) : Adds m f := by
  intro h
  obtain ⟨r, h', hon, hr⟩ := hf h
  exact ⟨r, h', hon, fun d hd => ⟨(hr d hd).1, Nat.le_trans hle (hr d hd).2⟩⟩

theorem adds_pure : Adds 0 pure :=
  fun h => ⟨_, _, enters_pure h, by rintro d ⟨⟩; exact ⟨counted_empty, Nat.le_refl _⟩⟩

theorem adds_fail (n : Nat) (fault : Fault) : Adds n fun _ => .fail fault :=
  fun h => ⟨_, _, enters_fail fault h, nofun⟩

theorem adds_enter (o : CheckOutcome) (message : String) : Adds 1 fun t => t.enter o message := by
  intro h
  refine ⟨_, _, enters_enter o message h, ?_⟩
  rintro d ⟨⟩
  exact ⟨counted_add o message, by cases o <;> exact Nat.le_refl _⟩

theorem adds_pass (message : String) : Adds 1 fun t => t.pass message := adds_enter .passed message

theorem adds_reject (message : String) : Adds 1 fun t => t.reject message := adds_enter .failed message

theorem adds_skip (message : String) : Adds 1 fun t => t.skip message := adds_enter .skipped message

theorem Adds.after (x : Act α) (hF : ∀ a, Adds n (F a)) : Adds n fun t => x >>= fun a => F a t := by
  intro h
  rcases hx : x.on h with ⟨fault | a, h₁⟩
  · exact ⟨_, _, enters_after_fault hx, nofun⟩
  · obtain ⟨r, h', hon, hr⟩ := hF a h₁
    exact ⟨r, h', hon.after hx, hr⟩

/-- Two acts that add, one after the other, add what both add. -/
theorem Adds.bind (hf : Adds m f) (hg : Adds n g) : Adds (m + n) fun t => f t >>= g := by
  intro h
  obtain ⟨r, h₁, hon, hr⟩ := hf h
  cases r with
  | error fault => exact ⟨_, _, hon.bind_fault, nofun⟩
  | ok d =>
    obtain ⟨q, h₂, hon', hq⟩ := hg h₁
    refine ⟨_, _, hon.bind hon', fun s hs => ?_⟩
    cases q with
    | error fault => cases hs
    | ok e =>
      cases hs
      obtain ⟨hd, hdlength⟩ := hr d rfl
      obtain ⟨he, helength⟩ := hq e rfl
      refine ⟨hd.plus he, ?_⟩
      show m + n ≤ (d.records ++ e.records).length
      rw [List.length_append]
      omega

theorem Adds.ite {p : Prop} [Decidable p] (hf : Adds n f) (hg : Adds n g) :
    Adds n fun t => if p then f t else g t := by
  split
  · exact hf
  · exact hg

/-- A loop of steps that each enter a check enters at least as many as it has steps. -/
theorem adds_foldlM {F : Tally → α → Act Tally} (hF : ∀ a, Adds 1 fun t => F t a) :
    ∀ l : List α, Adds l.length fun t => l.foldlM F t
  | [] => adds_pure
  | a :: l => by
    have hl := (hF a).bind (adds_foldlM hF l)
    simp only [List.foldlM_cons, List.length_cons]
    exact hl.mono (by omega)

end Tally

/-! ## The categories -/

namespace Category

open Tally

variable (c : SuiteConfig)

theorem adds_checkModuleVersion : Adds 1 fun t => checkModuleVersion c t := by
  refine Adds.after (snippet c _) fun e => ?_
  cases (printed? e).filter fun v => v ≠ "" && v ≠ "unknown" with
  | none => exact adds_skip _
  | some version => exact adds_pass _

theorem adds_checkSourceVariable : Adds 1 checkSourceVariable := by
  refine Adds.after get fun h => ?_
  cases Settings.given? h.env Settings.sourceVariable with
  | none => exact adds_skip _
  | some source => exact .ite (adds_pass _) (adds_reject _)

theorem adds_imports : Adds 1 (imports c) := by
  refine Adds.after (Console.test _) fun _ => Adds.after (snippet c _) fun e => .ite (adds_reject _) ?_
  refine ((adds_pass _).bind (Adds.after (importable c) fun ok => Adds.ite (adds_reject _) ?_)).mono (by omega)
  have hlast := (adds_checkModuleVersion c).bind adds_checkSourceVariable
  exact ((adds_pass _).bind hlast).mono (by omega)

theorem adds_checkLeastVersion (name least line : String) : Adds 1 fun t => checkLeastVersion name least line t := by
  refine Adds.after (Act.ofExcept .digits (Version.parse line)) fun v => ?_
  cases v with
  | none => exact adds_reject _
  | some found =>
    refine Adds.after (Act.ofExcept id (Version.reaches found.parts least)) fun ok => ?_
    exact .ite (adds_pass _) (adds_reject _)

theorem adds_checkTool (tool : String × String) : Adds 1 fun t => checkTool t tool := by
  obtain ⟨name, program⟩ := tool
  refine Adds.after get fun h => .ite (adds_reject _) ?_
  refine Adds.after (Toolchain.versionLine program) fun line => ?_
  refine ((adds_pass _).bind (n := 0) ?_).mono (by omega)
  cases Toolchain.leastVersions.get? name with
  | none => exact adds_pure
  | some least => exact (adds_checkLeastVersion name least _).mono (by omega)

theorem adds_checkDriver : Adds 1 checkDriver := by
  refine Adds.after get fun h => .ite (adds_skip _) (Adds.after _ fun e => ?_)
  exact .ite (adds_pass _) (adds_skip _)

theorem adds_dependencies : Adds 1 (dependencies c) := by
  refine Adds.after (Console.test _) fun _ => ?_
  exact ((adds_foldlM adds_checkTool _).bind adds_checkDriver).mono (by omega)

theorem adds_libraries : Adds 1 (libraries c) := by
  refine Adds.after (Console.test _) fun _ => Adds.after get fun h => .ite (adds_skip _) ?_
  refine (adds_foldlM (fun library => ?_) Build.libraries).mono (by decide)
  refine Adds.after get fun h => ?_
  cases Build.findLibrary h c.build library.2 with
  | none => exact adds_skip _
  | some found => exact adds_pass _

theorem adds_runPytest : Adds 1 (runPytest c) := by
  refine Adds.ite (Adds.after (importable c) fun withCoverage => ?_) (Adds.after (pure false) fun withCoverage => ?_)
  all_goals
    refine Adds.after get fun h => Adds.after _ fun x => ?_
    cases x with
    | ok e => exact .ite (adds_pass _) (adds_reject _)
    | error fault => exact .ite (adds_reject _) (adds_fail 1 fault)

theorem adds_pytest : Adds 1 (pytest c) := by
  refine Adds.after (Console.test _) fun _ => Adds.after get fun h => .ite (adds_skip _) ?_
  refine Adds.after (snippet c _) fun e => .ite (adds_runPytest c) (Adds.after installPytest fun ok => ?_)
  exact .ite (adds_runPytest c) (adds_reject _)

theorem adds_performance : Adds 1 (performance c) := by
  refine Adds.after (Console.test _) fun _ => Adds.after (snippet c importTimer) fun e => ?_
  cases (printed? e).filter (· ≠ "") with
  | none => exact adds_reject _
  | some time => exact adds_pass _

end Category

/-- Every category enters at least one check, whatever tally it is given, and does the same with all. -/
theorem CategoryName.adds (name : CategoryName) (c : SuiteConfig) : Tally.Adds 1 (name.category c) := by
  cases name with
  | imports => exact Category.adds_imports c
  | dependencies => exact Category.adds_dependencies c
  | libraries => exact Category.adds_libraries c
  | pytest => exact Category.adds_pytest c
  | performance => exact Category.adds_performance c

/-! ## Suites -/

namespace Suite

open Tally

/-- Whatever the course of a suite of categories is, each tally on its way has the counts of its records. -/
theorem counted_course (c : SuiteConfig) : ∀ (l : List (String × CategoryName)) (t : Tally) (h : Host), t.Counted →
    ∃ course h', (runCategories c t (l.map fun x => (x.1, x.2.category))).on h = (.ok course, h') ∧
      ∀ x ∈ course.finished, x.2.Counted
  | [], t, h, _ => ⟨{}, h, rfl, nofun⟩
  | (label, name) :: l, t, h, ht => by
    rw [List.map_cons]
    obtain ⟨r, h₁, hadds, hr⟩ := name.adds c h
    have hon := hadds t
    cases r with
    | error f => exact ⟨{ fault := some f }, h₁, on_runCategories_breaks hon _, nofun⟩
    | ok d =>
      have hnext : (t.plus d).Counted := ht.plus (hr d rfl).1
      by_cases hstops : Stops c t (t.plus d)
      · refine ⟨{ finished := [(label, t.plus d)] }, _, on_runCategories_stops hon hstops _, fun x hx => ?_⟩
        rw [List.mem_singleton] at hx
        rw [hx]
        exact hnext
      · obtain ⟨course, h', hrest, hcounted⟩ := counted_course c l (t.plus d) h₁ hnext
        refine ⟨Course.after label (t.plus d) course, h', ?_, fun x hx => ?_⟩
        · rw [on_runCategories_goes hon hstops, hrest]
          rfl
        · rcases List.mem_cons.1 hx with rfl | hx
          · exact hnext
          · exact hcounted x hx

/-- The tally at the end of a course is that of its last category. -/
theorem tally_mem {course : Course} {t : Tally} :
    course.tally t = t ∨ ∃ x ∈ course.finished, x.2 = course.tally t := by
  unfold Course.tally
  cases hlast : course.finished.getLast? with
  | none => exact Or.inl rfl
  | some x => exact Or.inr ⟨x, List.mem_of_getLast? hlast, rfl⟩

/-- Categories share no counters. One that returns from a tally does on the host what it does from the
empty tally; it enters at least one check, puts the records of its checks behind those that were
there, and each count grows by the records of its outcome. So all tallies of a suite that begins with
the empty one have the counts of their records, and their number as total. -/
theorem categories_add (c : SuiteConfig) (h : Host) :
    (∀ (name : CategoryName) (t t' : Tally) (h' : Host), (name.category c t).on h = (.ok t', h') →
      ∃ d : Tally, (name.category c {}).on h = (.ok d, h') ∧ d.records ≠ [] ∧ t'.records = t.records ++ d.records ∧
        t'.passed = t.passed + countOf .passed d.records ∧ t'.failed = t.failed + countOf .failed d.records ∧
        t'.skipped = t.skipped + countOf .skipped d.records) ∧
    ∀ l : List (String × CategoryName), ∃ course h',
      (runCategories c {} (l.map fun x => (x.1, x.2.category))).on h = (.ok course, h') ∧
      (∀ x ∈ course.finished, x.2.Counted ∧ x.2.total = x.2.records.length) ∧
      (course.tally {}).Counted ∧ (course.tally {}).total = (course.tally {}).records.length := by
  constructor
  · intro name t t' h' hon
    obtain ⟨r, h₁, hadds, hr⟩ := name.adds c h
    rw [hadds t] at hon
    cases r with
    | error f => cases hon
    | ok d =>
      cases hon
      obtain ⟨hcounted, hlength⟩ := hr d rfl
      refine ⟨d, ?_, List.ne_nil_of_length_pos hlength, rfl, ?_, ?_, ?_⟩
      · rw [hadds]
        show (Except.ok (({} : Tally).plus d), h') = (.ok d, h')
        rw [empty_plus]
      · rw [← hcounted.passed]
        rfl
      · rw [← hcounted.failed]
        rfl
      · rw [← hcounted.skipped]
        rfl
  · intro l
    obtain ⟨course, h', hon, hcounted⟩ := counted_course c l {} h counted_empty
    have hlast : (course.tally {}).Counted := by
      rcases @tally_mem course {} with hempty | ⟨x, hx, hlast⟩
      · rw [hempty]
        exact counted_empty
      · rw [← hlast]
        exact hcounted x hx
    exact ⟨course, h', hon, fun x hx => ⟨hcounted x hx, (hcounted x hx).total⟩, hlast, hlast.total⟩

end Suite

namespace Sample

/-- A host on which the import of the module is timed. -/
def timed : Host where
  here := ⟨1, []⟩
  clock := ⟨2024, 1, 1, 0, 0, 0⟩
  settings := ⟨"", "", "", "main", 60⟩
  files := ⟨[(["src"], .directory)]⟩
  respond := fun _ _ => .ended 0 "0.123\n" "" []

end Sample

namespace Suite

open Tally

/-- The import of the module is timed after one check has failed. -/
theorem categories_add_sample : ∃ t' h' d,
    (Category.performance ⟨⟨1, ["src"]⟩, false, false, false⟩ ⟨0, 1, 0, [(.failed, "cmake is not available")]⟩).on
      Sample.timed = (.ok t', h') ∧
    (Category.performance ⟨⟨1, ["src"]⟩, false, false, false⟩ {}).on Sample.timed = (.ok d, h') ∧
    t'.records = (.failed, "cmake is not available") :: d.records ∧
    t'.passed = countOf .passed d.records ∧ t'.passed = 1 := by
  have hpassed : ((Category.performance ⟨⟨1, ["src"]⟩, false, false, false⟩
      ⟨0, 1, 0, [(.failed, "cmake is not available")]⟩).on Sample.timed).1.map Tally.passed = .ok 1 := by rfl
  rcases hon : (Category.performance ⟨⟨1, ["src"]⟩, false, false, false⟩
      ⟨0, 1, 0, [(.failed, "cmake is not available")]⟩).on Sample.timed with ⟨f | t', h'⟩
  · rw [hon] at hpassed
    cases hpassed
  · rw [hon] at hpassed
    obtain ⟨d, hempty, -, hrecords, hcount, -⟩ := (categories_add _ Sample.timed).1 .performance _ t' h' hon
    refine ⟨t', h', d, rfl, hempty, hrecords, ?_, Except.ok.inj hpassed⟩
    rw [hcount, Nat.zero_add]

end Suite

end CiPipeline
