import CiPipeline.Assume
import CiPipeline.Proofs.Plan
import Mathlib.Data.List.TakeWhile

/-
Assumptions are read back as they were typed. No result is written with an equals sign, so the last one in
an assumption parts the job from the result, whatever the name of the job is (`pair_append`). All typed
assumptions together give the table in which each job has its first place and its last result; anything else
is refused, and no plan refuses what was read (`assumptions_read_back`).
-/

namespace CiPipeline

/-! ## Words for results -/

namespace JobResult

theorem ofWord_word : ∀ r ∈ all, ofWord r.word = r := by decide

theorem equals_not_mem_word : ∀ r ∈ all, '=' ∉ r.word.toList := by decide

theorem isEnding_ofWord {w : String} : (ofWord w).isEnding = true ↔ ∃ r ∈ all, r.word = w := by
  constructor
  · intro hending
    rw [ofWord] at hending
    cases hfind : all.find? fun r => r.word = w with
    | none => rw [hfind] at hending; cases hending
    | some r =>
      have hword : r.word = w := by simpa using List.find?_some hfind
      exact ⟨r, List.mem_of_find?_eq_some hfind, hword⟩
  · rintro ⟨r, hr, rfl⟩
    rw [ofWord_word r hr]
    exact (isEnding_iff_mem_all r).2 hr

end JobResult

namespace Assume

/-! ## The last equals sign -/

theorem cutLast_eq_none {cs : List Char} (hcs : '=' ∉ cs) : cutLast cs = none := by
  have hdrop : cs.reverse.dropWhile (· != '=') = [] := by
    rw [List.dropWhile_eq_nil_iff]
    intro c hc
    exact bne_iff_ne.2 fun heq => hcs (heq ▸ List.mem_reverse.1 hc)
  rw [cutLast, hdrop]

/-- A text is cut at an equals sign that has none behind it. -/
theorem cutLast_append (before : List Char) {after : List Char} (hafter : '=' ∉ after) :
    cutLast (before ++ '=' :: after) = some (before, after) := by
  have hother : ∀ c ∈ after.reverse, (c != '=') = true := fun c hc =>
    bne_iff_ne.2 fun heq => hafter (heq ▸ List.mem_reverse.1 hc)
  have hreverse : (before ++ '=' :: after).reverse = after.reverse ++ '=' :: before.reverse := by
    rw [List.reverse_append, List.reverse_cons, List.append_assoc, List.singleton_append]
  rw [cutLast, hreverse, List.dropWhile_append_of_pos hother, List.takeWhile_append_of_pos hother]
  simp

/-- A text with an equals sign has a last one. -/
theorem exists_last {s : String} (hs : '=' ∈ s.toList) :
    ∃ before after : String, s = before ++ "=" ++ after ∧ '=' ∉ after.toList := by
  obtain ⟨after, before, hcut, hafter⟩ := List.eq_append_cons_of_mem (List.mem_reverse.2 hs)
  refine ⟨String.ofList before.reverse, String.ofList after.reverse, ?_, ?_⟩
  · have hreverse : s.toList = before.reverse ++ '=' :: after.reverse := by
      rw [← List.reverse_reverse s.toList, hcut]
      simp
    rw [← String.toList_inj, hreverse]
    simp
  · simpa using hafter

/-! ## One assumption -/

/-- An assumption as it is typed. -/
def typed (e : String × JobResult) : String := e.1 ++ "=" ++ e.2.word

/-- An assumption that can be made: about a job with a name, and of a result that jobs can end with. -/
def Possible (e : String × JobResult) : Prop := e.1 ≠ "" ∧ e.2 ∈ JobResult.all

instance (e : String × JobResult) : Decidable (Possible e) := inferInstanceAs (Decidable (_ ∧ _))

/-- A text that is no assumption: it has no equals sign, or nothing in front of the last one, or something
else than a result behind it. -/
def Unreadable (given : String) : Prop :=
  '=' ∉ given.toList ∨ ∃ before after : String, given = before ++ "=" ++ after ∧ '=' ∉ after.toList ∧
    (before = "" ∨ ∀ r ∈ JobResult.all, r.word ≠ after)

theorem pair_of_not_mem {given : String} (hgiven : '=' ∉ given.toList) : pair given = .error (.noPair given) := by
  rw [pair, cutLast_eq_none hgiven]

/-- What a text comes to that is cut at its last equals sign. -/
theorem pair_append (before : String) {after : String} (hafter : '=' ∉ after.toList) :
    pair (before ++ "=" ++ after) =
      if before = "" then .error (.noPair (before ++ "=" ++ after))
      else if (JobResult.ofWord after).isEnding then .ok (before, .ofWord after)
      else .error (.unknownResult after) := by
  have hchars : (before ++ "=" ++ after).toList = before.toList ++ '=' :: after.toList := by
    simp
  rw [pair, hchars, cutLast_append _ hafter]
  cases hbefore : before.toList with
  | nil => rw [if_pos (String.toList_eq_nil_iff.1 hbefore)]
  | cons c cs =>
    have hne : before ≠ "" := by
      rintro rfl
      cases hbefore
    rw [if_neg hne]
    simp only [← hbefore, String.ofList_toList]

theorem pair_typed {e : String × JobResult} (he : Possible e) : pair (typed e) = .ok e := by
  obtain ⟨hname, hresult⟩ := he
  rw [typed, pair_append _ (JobResult.equals_not_mem_word _ hresult), if_neg hname, JobResult.ofWord_word _ hresult,
    if_pos ((JobResult.isEnding_iff_mem_all _).2 hresult)]

theorem exists_pair_eq_error {given : String} : (∃ x, pair given = .error x) ↔ Unreadable given := by
  constructor
  · rintro ⟨x, hx⟩
    by_cases hgiven : '=' ∈ given.toList
    · obtain ⟨before, after, rfl, hafter⟩ := exists_last hgiven
      rw [pair_append before hafter] at hx
      refine .inr ⟨before, after, rfl, hafter, ?_⟩
      by_cases hbefore : before = ""
      · exact .inl hbefore
      · refine .inr fun r hr hword => ?_
        rw [if_neg hbefore, if_pos (JobResult.isEnding_ofWord.2 ⟨r, hr, hword⟩)] at hx
        cases hx
    · exact .inl hgiven
  · rintro (hgiven | ⟨before, after, rfl, hafter, hwrong⟩)
    · exact ⟨_, pair_of_not_mem hgiven⟩
    · rw [pair_append before hafter]
      by_cases hbefore : before = ""
      · exact ⟨_, if_pos hbefore⟩
      · have hword : ¬ (JobResult.ofWord after).isEnding = true := by
          rw [JobResult.isEnding_ofWord]
          rintro ⟨r, hr, hword⟩
          exact hwrong.elim hbefore fun hno => hno r hr hword
        rw [if_neg hbefore, if_neg hword]
        exact ⟨_, rfl⟩

/-- What is read is an assumption that can be made. -/
theorem possible_of_pair {given : String} {e : String × JobResult} (h : pair given = .ok e) : Possible e := by
  by_cases hgiven : '=' ∈ given.toList
  · obtain ⟨before, after, rfl, hafter⟩ := exists_last hgiven
    rw [pair_append before hafter] at h
    split at h
    · cases h
    split at h
    · rename_i hname hresult
      cases h
      exact ⟨hname, (JobResult.isEnding_iff_mem_all _).1 hresult⟩
    · cases h
  · rw [pair_of_not_mem hgiven] at h
    cases h

/-! ## Several assumptions -/

theorem parse_eq_ok {given : List String} {d : Plan.Assumptions} :
    parse given = .ok d ↔ ∃ es, given.mapM pair = .ok es ∧ Dict.ofList es = d := by
  unfold parse
  cases given.mapM pair with
  | error x => exact ⟨nofun, fun ⟨es, hes, _⟩ => by cases hes⟩
  | ok es => simp [Except.map]

theorem exists_parse_eq_error {given : List String} :
    (∃ x, parse given = .error x) ↔ ∃ s ∈ given, Unreadable s := by
  have hparse : (∃ x, parse given = .error x) ↔ ∃ x, given.mapM pair = .error x := by
    unfold parse
    cases given.mapM pair <;> simp [Except.map]
  rw [hparse, exists_mapM_eq_error]
  simp only [exists_pair_eq_error]

theorem parse_typed {es : List (String × JobResult)} (hes : ∀ e ∈ es, Possible e) :
    parse (es.map typed) = .ok (Dict.ofList es) := by
  refine parse_eq_ok.2 ⟨es, ?_, rfl⟩
  rw [mapM_eq_ok_iff, List.forall₂_map_left_iff, List.forall₂_same]
  exact fun e he => pair_typed (hes e he)

/-- All results that are read are endings. -/
theorem endings_of_parse {given : List String} {d : Plan.Assumptions} (h : parse given = .ok d) :
    ∀ e ∈ d.entries, e.2 ∈ JobResult.all := by
  obtain ⟨es, hes, rfl⟩ := parse_eq_ok.1 h
  have hpossible : ∀ e ∈ es, Possible e :=
    ((List.forall₂_and_left es given).1 ((mapM_eq_ok_iff.1 hes).flip.imp fun _ _ h => ⟨possible_of_pair h, h⟩)).1
  rintro ⟨n, r⟩ he
  have hlast : es.reverse.lookup n = some r := by
    rw [← Dict.get?_ofList]
    exact (Dict.get?_eq_some_iff (Dict.nodup_keys_ofList es)).2 he
  obtain ⟨later, earlier, hsplit, -⟩ := List.lookup_eq_some_iff.1 hlast
  have hmem : (n, r) ∈ es := by
    rw [← List.mem_reverse, hsplit]
    exact List.mem_append_right _ (List.mem_cons_self ..)
  exact (hpossible _ hmem).2

/-- Typed assumptions are read back, whatever the jobs are called: each job stands at its first place, with its
last result. Assumptions are refused exactly if one of them has no equals sign, or nothing in front of the last
one, or no result behind it. Whatever is read, the plan under it is the run that takes it for granted. -/
theorem assumptions_read_back :
    (∀ es : List (String × JobResult), (∀ e ∈ es, Possible e) → ∃ d, parse (es.map typed) = .ok d ∧
      d.keys = distinct (es.map (·.1)) ∧ ∀ n, d.get? n = es.reverse.lookup n) ∧
    (∀ given : List String, (∃ x, parse given = .error x) ↔ ∃ s ∈ given, Unreadable s) ∧
    ∀ (given : List String) (d : Plan.Assumptions), parse given = .ok d →
      ∀ (jobs : List Job) (t : Trigger) (platform : Option String) (printPlan : Bool),
        plan jobs t d platform printPlan = run jobs t (Plan.options platform printPlan) (Plan.pretend d) := by
  refine ⟨fun es hes => ⟨_, parse_typed hes, Dict.keys_ofList es, Dict.get?_ofList es⟩,
    fun _ => exists_parse_eq_error, fun given d hd jobs t platform printPlan => ?_⟩
  exact Plan.plan_eq_run (endings_of_parse hd) platform printPlan

/-- Names with equals signs, blanks and parentheses, one of them twice; and a text with nothing in front of its
equals sign. -/
theorem assumptions_read_back_sample :
    (∃ d, parse ["a=b=failure", "test (os=linux)=skipped", "a=b=success"] = .ok d ∧
      d.keys = ["a=b", "test (os=linux)"] ∧ d.get? "a=b" = some .success) ∧
    ∃ x, parse ["build=success", "=failure"] = .error x := by
  obtain ⟨hread, hrefused, -⟩ := assumptions_read_back
  constructor
  · obtain ⟨d, hd, hkeys, hget⟩ :=
      hread [("a=b", .failure), ("test (os=linux)", .skipped), ("a=b", .success)] (by decide)
    exact ⟨d, hd, hkeys, hget "a=b"⟩
  · exact (hrefused _).2 ⟨"=failure", by decide, .inr ⟨"", "failure", rfl, by decide, .inl rfl⟩⟩

end Assume

end CiPipeline
