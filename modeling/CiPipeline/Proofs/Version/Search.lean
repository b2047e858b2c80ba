import CiPipeline.Proofs.Version
import Mathlib.Data.List.TakeWhile
import Mathlib.Order.WellFounded

/-
Which version number a text shows. It begins at the leftmost run of digits that continues no other run and
has a dot and another digit behind it (`StandsFirst`); its second number is the run behind that dot, and its
third the run behind a second dot, or nought. A text without such a run shows none (`parse_leftmost`).

The search is followed character by character: what it has left to do depends on whether a digit stands in
front, since no version number begins inside a run (`scan_of_first`).
-/

namespace CiPipeline.Version

open Text (isDigit maxDigits readDigits digitsValue)

/-! ## Where a version number stands -/

/-- The list begins with a run of digits; behind it stand a dot and `rest`, whose first character is a digit. -/
structure Begins (cs run rest : List Char) : Prop where
  split : cs = run ++ '.' :: rest
  nonempty : run ≠ []
  digits : ∀ c ∈ run, isDigit c = true
  more : ∃ d, rest.head? = some d ∧ isDigit d = true

/-- Behind `before`, which does not end with a digit, begins a run of digits with a dot and a digit behind it. -/
def Stands (cs before run rest : List Char) : Prop :=
  ∃ here, cs = before ++ here ∧ (∀ c, before.getLast? = some c → isDigit c = false) ∧ Begins here run rest

/-- No such run stands farther to the left. -/
def StandsFirst (cs before run rest : List Char) : Prop :=
  Stands cs before run rest ∧
    ∀ before' run' rest', Stands cs before' run' rest' → before.length ≤ before'.length

/-- The run of digits behind a dot at the start; it is empty if there is no dot or no digit behind it. -/
def thirdRun : List Char → List Char
  | '.' :: cs => cs.takeWhile isDigit
  | _ => []

/-- The runs of digits of the version number that begins with `run` and goes on with `rest` behind a dot. -/
def runsAt (run rest : List Char) : List (List Char) :=
  [run, rest.takeWhile isDigit, thirdRun (rest.dropWhile isDigit)]

/-- The version number that begins with `run` and goes on with `rest` behind a dot; an empty run counts as nought. -/
def valueAt (run rest : List Char) : Version :=
  ⟨digitsValue run, digitsValue (rest.takeWhile isDigit), digitsValue (thirdRun (rest.dropWhile isDigit))⟩

variable {b : Bool} {c d : Char} {cs before run rest : List Char} {w : Written}

/-! ## Version numbers at the start -/

/-- What is written at the start of a list that begins with `run` and goes on with `rest` behind a dot. -/
def writtenAt (run rest : List Char) : Written :=
  ⟨run, rest.takeWhile isDigit, (dotDigits? (rest.dropWhile isDigit)).map (·.1)⟩

theorem digits?_of_head (hd : isDigit d = true) (hrest : rest.head? = some d) :
    digits? rest = some (rest.takeWhile isDigit, rest.dropWhile isDigit) := by
  cases rest with
  | nil => cases hrest
  | cons e rest =>
    obtain rfl := Option.some.inj hrest
    rw [digits?, List.takeWhile_cons_of_pos hd]

theorem of_digits? {ds : List Char} (h : digits? cs = some (ds, rest)) :
    cs = ds ++ rest ∧ ds ≠ [] ∧ ∀ c ∈ ds, isDigit c = true := by
  unfold digits? at h
  split at h
  · cases h
  · rename_i d ds' htake
    cases h
    refine ⟨?_, List.cons_ne_nil _ _, fun c hc => ?_⟩
    · rw [← htake, List.takeWhile_append_dropWhile]
    · exact List.mem_takeWhile_imp (htake ▸ hc)

theorem Begins.atStart? (h : Begins cs run rest) : atStart? cs = some (writtenAt run rest) := by
  obtain ⟨rfl, hne, hrun, d, hhead, hd⟩ := h
  have hmajor : digits? (run ++ '.' :: rest) = some (run, '.' :: rest) :=
    digits?_append hne hrun (by rintro c ⟨⟩; decide)
  have hminor : dotDigits? ('.' :: rest) = some (rest.takeWhile isDigit, rest.dropWhile isDigit) :=
    digits?_of_head hd hhead
  rw [Version.atStart?, hmajor]
  simp only [hminor]
  rfl

theorem begins_of_atStart? (h : atStart? cs = some w) : ∃ run rest, Begins cs run rest := by
  unfold atStart? at h
  split at h
  · cases h
  · rename_i run after hmajor
    obtain ⟨⟨minor, rest⟩, hminor, -⟩ := Option.map_eq_some_iff.1 h
    obtain ⟨rfl, hne, hrun⟩ := of_digits? hmajor
    unfold dotDigits? at hminor
    split at hminor
    · rename_i tail
      obtain ⟨rfl, hminorNe, hminorDigits⟩ := of_digits? hminor
      obtain ⟨d, ds, rfl⟩ := List.exists_cons_of_ne_nil hminorNe
      exact ⟨run, _, rfl, hne, hrun, d, rfl, hminorDigits d (List.mem_cons_self ..)⟩
    · cases hminor

/-- A list that begins with a version number begins with a digit. -/
theorem Begins.isDigit_head (h : Begins (c :: cs) run rest) : isDigit c = true := by
  obtain ⟨e, es, rfl⟩ := List.exists_cons_of_ne_nil h.nonempty
  obtain rfl : c = e := (List.cons.inj h.split).1
  exact h.digits c (List.mem_cons_self ..)

/-! ## Looking from a place within the text -/

/-- A version number stands in the list, but not right at its start if a digit stands in front of that. -/
def StandsBehind (digit : Bool) (cs before run rest : List Char) : Prop :=
  Stands cs before run rest ∧ (digit = true → before ≠ [])

/-- None such stands farther to the left. -/
def FirstBehind (digit : Bool) (cs before run rest : List Char) : Prop :=
  StandsBehind digit cs before run rest ∧
    ∀ before' run' rest', StandsBehind digit cs before' run' rest' → before.length ≤ before'.length

theorem standsBehind_false_iff : StandsBehind false cs before run rest ↔ Stands cs before run rest :=
  and_iff_left nofun

theorem firstBehind_false_iff : FirstBehind false cs before run rest ↔ StandsFirst cs before run rest := by
  simp only [FirstBehind, StandsFirst, standsBehind_false_iff]

theorem standsBehind_nil_iff : StandsBehind b cs [] run rest ↔ b = false ∧ Begins cs run rest := by
  constructor
  · rintro ⟨⟨here, rfl, -, hbegins⟩, hb⟩
    exact ⟨Bool.eq_false_iff.2 fun hdigit => hb hdigit rfl, hbegins⟩
  · rintro ⟨rfl, hbegins⟩
    exact ⟨⟨cs, rfl, nofun, hbegins⟩, nofun⟩

/-- Past the first character, that one is what stands in front. -/
theorem standsBehind_cons_iff :
    StandsBehind b (c :: cs) (d :: before) run rest ↔ c = d ∧ StandsBehind (isDigit c) cs before run rest := by
  have hlast : ∀ l : List Char, (∀ e, (d :: l).getLast? = some e → isDigit e = false) ↔
      (∀ e, l.getLast? = some e → isDigit e = false) ∧ (isDigit d = true → l ≠ []) := by
    intro l
    rw [List.getLast?_cons]
    cases hl : l.getLast? with
    | none => simp [List.getLast?_eq_none_iff.1 hl]
    | some e => simp [List.ne_nil_of_mem (List.mem_of_getLast? hl)]
  constructor
  · rintro ⟨⟨here, hsplit, hbefore, hbegins⟩, -⟩
    obtain ⟨rfl, rfl⟩ := List.cons.inj hsplit
    exact ⟨rfl, ⟨here, rfl, ((hlast _).1 hbefore).1, hbegins⟩, ((hlast _).1 hbefore).2⟩
  · rintro ⟨rfl, ⟨here, rfl, hbefore, hbegins⟩, hne⟩
    exact ⟨⟨here, rfl, (hlast _).2 ⟨hbefore, hne⟩, hbegins⟩, fun _ => List.cons_ne_nil _ _⟩

theorem not_standsBehind_nil : ¬ StandsBehind b [] before run rest := by
  rintro ⟨⟨here, hsplit, -, hbegins⟩, -⟩
  obtain ⟨-, rfl⟩ := List.append_eq_nil_iff.1 hsplit.symm
  exact List.cons_ne_nil _ _ (List.append_eq_nil_iff.1 hbegins.split.symm).2

theorem FirstBehind.of_cons (h : FirstBehind b (c :: cs) (d :: before) run rest) :
    FirstBehind (isDigit c) cs before run rest := by
  obtain ⟨rfl, hstands⟩ := standsBehind_cons_iff.1 h.1
  refine ⟨hstands, fun before' run' rest' hstands' => ?_⟩
  exact Nat.le_of_succ_le_succ (h.2 (c :: before') run' rest' (standsBehind_cons_iff.2 ⟨rfl, hstands'⟩))

/-- If a version number stands anywhere, one stands first. -/
theorem exists_firstBehind (h : ∃ before run rest, StandsBehind b cs before run rest) :
    ∃ before run rest, FirstBehind b cs before run rest := by
  obtain ⟨before₀, run₀, rest₀, h₀⟩ := h
  have hsome : {p : List Char × List Char × List Char | StandsBehind b cs p.1 p.2.1 p.2.2}.Nonempty :=
    ⟨(before₀, run₀, rest₀), h₀⟩
  obtain ⟨⟨before, run, rest⟩, hstands, hleast⟩ :=
    WellFounded.has_min (InvImage.wf (fun p : List Char × List Char × List Char => p.1.length) wellFounded_lt) _ hsome
  exact ⟨before, run, rest, hstands, fun before' run' rest' h' => Nat.le_of_not_lt (hleast (before', run', rest') h')⟩

theorem exists_standsFirst (h : ∃ before run rest, Stands cs before run rest) :
    ∃ before run rest, StandsFirst cs before run rest := by
  simp only [← standsBehind_false_iff, ← firstBehind_false_iff] at h ⊢
  exact exists_firstBehind h

/-! ## The search -/

/-- Where the search skips a character, it has been inside a run; otherwise it tries to begin there. -/
theorem scan_cons_skip (hb : b = true) (hc : isDigit c = true) (cs : List Char) : scan b (c :: cs) = scan true cs := by
  rw [scan, hb, hc]
  rfl

theorem scan_cons_try (h : ¬ (b = true ∧ isDigit c = true)) (cs : List Char) :
    scan b (c :: cs) = (atStart? (c :: cs)).or (scan (isDigit c) cs) := by
  rw [scan, if_neg (by simpa using h)]

/-- The search finds what stands first. -/
theorem scan_of_first : ∀ {cs before : List Char} {b : Bool}, FirstBehind b cs before run rest →
    scan b cs = some (writtenAt run rest)
  | [], _, _, h => absurd h.1 not_standsBehind_nil
  | c :: cs, [], b, h => by
    obtain ⟨rfl, hbegins⟩ := standsBehind_nil_iff.1 h.1
    rw [scan_cons_try (by simp), hbegins.atStart?, Option.some_or]
  | c :: cs, d :: before, b, h => by
    by_cases hskip : b = true ∧ isDigit c = true
    · rw [scan_cons_skip hskip.1 hskip.2, ← hskip.2]
      exact scan_of_first h.of_cons
    · -- nothing begins at this character, or it would stand farther to the left
      have hnone : atStart? (c :: cs) = none := by
        rw [Option.eq_none_iff_forall_ne_some]
        intro w hw
        obtain ⟨run', rest', hbegins⟩ := begins_of_atStart? hw
        have hb : b = false := Bool.eq_false_iff.2 fun hb => hskip ⟨hb, hbegins.isDigit_head⟩
        exact absurd (h.2 [] run' rest' (standsBehind_nil_iff.2 ⟨hb, hbegins⟩)) (by simp)
      rw [scan_cons_try hskip, hnone, Option.none_or]
      exact scan_of_first h.of_cons

theorem scan_eq_none : ∀ {cs : List Char} {b : Bool}, (∀ before run rest, ¬ StandsBehind b cs before run rest) →
    scan b cs = none
  | [], _, _ => rfl
  | c :: cs, b, h => by
    have hrest : ∀ before run rest, ¬ StandsBehind (isDigit c) cs before run rest := fun before run rest hstands =>
      h (c :: before) run rest (standsBehind_cons_iff.2 ⟨rfl, hstands⟩)
    by_cases hskip : b = true ∧ isDigit c = true
    · rw [scan_cons_skip hskip.1 hskip.2, ← hskip.2]
      exact scan_eq_none hrest
    · have hnone : atStart? (c :: cs) = none := by
        rw [Option.eq_none_iff_forall_ne_some]
        intro w hw
        obtain ⟨run, rest, hbegins⟩ := begins_of_atStart? hw
        have hb : b = false := Bool.eq_false_iff.2 fun hb => hskip ⟨hb, hbegins.isDigit_head⟩
        exact h [] run rest (standsBehind_nil_iff.2 ⟨hb, hbegins⟩)
      rw [scan_cons_try hskip, hnone, Option.none_or]
      exact scan_eq_none hrest

theorem find?_of_first (h : StandsFirst cs before run rest) : find? cs = some (writtenAt run rest) :=
  scan_of_first (firstBehind_false_iff.2 h)

theorem find?_eq_none_iff : find? cs = none ↔ ∀ before run rest, ¬ Stands cs before run rest := by
  constructor
  · intro h before run rest hstands
    obtain ⟨before', run', rest', hfirst⟩ := exists_standsFirst ⟨before, run, rest, hstands⟩
    rw [find?_of_first hfirst] at h
    cases h
  · exact fun h => scan_eq_none fun before run rest hstands => h before run rest (standsBehind_false_iff.1 hstands)

/-- What stands at a place is first if no version number begins at an earlier one. -/
theorem standsFirst_of_atStart? (h : Stands cs before run rest)
    (hnone : ∀ i < before.length, atStart? (cs.drop i) = none) : StandsFirst cs before run rest := by
  refine ⟨h, fun before' run' rest' h' => Nat.le_of_not_lt fun hlt => ?_⟩
  obtain ⟨here, hsplit, -, hbegins⟩ := h'
  have hstart := hnone _ hlt
  rw [hsplit, List.drop_left, hbegins.atStart?] at hstart
  cases hstart

/-- A version number at the start is first. -/
theorem standsFirst_head (h : Begins cs run rest) : StandsFirst cs [] run rest := by
  refine ⟨⟨cs, rfl, fun c hc => ?_, h⟩, fun _ _ _ _ => Nat.zero_le _⟩
  cases hc

/-! ## Reading what is found -/

theorem map_dotDigits? (after : List Char) :
    (dotDigits? after).map (·.1) = if thirdRun after = [] then none else some (thirdRun after) := by
  unfold dotDigits?
  split
  · rename_i cs
    rw [thirdRun, digits?]
    cases cs.takeWhile isDigit with
    | nil => rfl
    | cons d ds => rfl
  · rename_i hdot
    rw [thirdRun.eq_2 after hdot]
    rfl

/-- A missing third number is read as nought, and so is an empty run. -/
theorem patch_writtenAt (run rest : List Char) :
    (writtenAt run rest).patch.getD ['0'] = thirdRun (rest.dropWhile isDigit) ∨
      (writtenAt run rest).patch.getD ['0'] = ['0'] ∧ thirdRun (rest.dropWhile isDigit) = [] := by
  rw [writtenAt, map_dotDigits?]
  split
  · rename_i hnil
    exact .inr ⟨rfl, hnil⟩
  · exact .inl rfl

theorem digitsValue_patch (run rest : List Char) :
    digitsValue ((writtenAt run rest).patch.getD ['0']) = digitsValue (thirdRun (rest.dropWhile isDigit)) := by
  rcases patch_writtenAt run rest with h | ⟨h, hnil⟩
  · rw [h]
  · rw [h, hnil]
    decide

theorem length_patch_le_iff (run rest : List Char) :
    ((writtenAt run rest).patch.getD ['0']).length ≤ maxDigits ↔
      (thirdRun (rest.dropWhile isDigit)).length ≤ maxDigits := by
  rcases patch_writtenAt run rest with h | ⟨h, hnil⟩
  · rw [h]
  · rw [h, hnil]
    decide

theorem read_writtenAt (hshort : ∀ ds ∈ runsAt run rest, ds.length ≤ maxDigits) :
    (writtenAt run rest).read = .ok (valueAt run rest) := by
  rw [runsAt, List.forall_mem_cons, List.forall_mem_cons, List.forall_mem_singleton] at hshort
  obtain ⟨hmajor, hminor, hpatch⟩ := hshort
  have hread : (writtenAt run rest).read = .ok
      ⟨digitsValue run, digitsValue (rest.takeWhile isDigit), digitsValue ((writtenAt run rest).patch.getD ['0'])⟩ := by
    rw [Written.read, Text.readDigits_of_le ((length_patch_le_iff run rest).2 hpatch)]
    rw [show (writtenAt run rest).major = run from rfl, Text.readDigits_of_le hmajor]
    rw [show (writtenAt run rest).minor = rest.takeWhile isDigit from rfl, Text.readDigits_of_le hminor]
    rfl
  rw [hread, digitsValue_patch, valueAt]

/-- The first number with too many digits is the one that cannot be read. -/
theorem read_writtenAt_of_long {long : List Char}
    (hlong : (runsAt run rest).find? (fun ds => maxDigits < ds.length) = some long) :
    (writtenAt run rest).read = .error ⟨long.length⟩ := by
  unfold runsAt at hlong
  rw [Written.read, show (writtenAt run rest).major = run from rfl,
    show (writtenAt run rest).minor = rest.takeWhile isDigit from rfl]
  by_cases hmajor : run.length ≤ maxDigits
  · rw [List.find?_cons_of_neg (by simpa using hmajor)] at hlong
    rw [Text.readDigits_of_le hmajor]
    by_cases hminor : (rest.takeWhile isDigit).length ≤ maxDigits
    · rw [List.find?_cons_of_neg (by simpa using hminor)] at hlong
      obtain rfl := List.mem_singleton.1 (List.mem_of_find?_eq_some hlong)
      have hpatch : maxDigits < (thirdRun (rest.dropWhile isDigit)).length := by
        simpa using List.find?_some hlong
      have hsame : (writtenAt run rest).patch.getD ['0'] = thirdRun (rest.dropWhile isDigit) := by
        rcases patch_writtenAt run rest with h | ⟨-, hnil⟩
        · exact h
        · rw [hnil] at hpatch
          exact absurd hpatch (by decide)
      rw [Text.readDigits_of_le hminor, hsame, readDigits_of_lt hpatch]
      rfl
    · rw [List.find?_cons_of_pos (by simpa using hminor)] at hlong
      obtain rfl := Option.some.inj hlong
      rw [readDigits_of_lt (Nat.lt_of_not_le hminor)]
      rfl
  · rw [List.find?_cons_of_pos (by simpa using hmajor)] at hlong
    obtain rfl := Option.some.inj hlong
    rw [readDigits_of_lt (Nat.lt_of_not_le hmajor)]
    rfl

/-! ## The version number of a text -/

variable {s : String}

theorem parse_eq_none_iff : parse s = .ok none ↔ ¬ ∃ before run rest, Stands s.toList before run rest := by
  have hnone : find? s.toList = none ↔ ¬ ∃ before run rest, Stands s.toList before run rest := by
    rw [find?_eq_none_iff]
    push Not
    rfl
  rw [← hnone, parse]
  cases find? s.toList with
  | none => exact iff_of_true rfl rfl
  | some w =>
    refine iff_of_false (fun hread => ?_) (Option.some_ne_none w)
    replace hread : w.read.map some = .ok none := hread
    cases hw : w.read with
    | error e =>
      rw [hw] at hread
      cases hread
    | ok v =>
      rw [hw] at hread
      cases hread

theorem parse_of_first (h : StandsFirst s.toList before run rest) : parse s = (writtenAt run rest).read.map some := by
  rw [parse, find?_of_first h]

theorem parse_of_short (h : StandsFirst s.toList before run rest)
    (hshort : ∀ ds ∈ runsAt run rest, ds.length ≤ maxDigits) : parse s = .ok (some (valueAt run rest)) := by
  rw [parse_of_first h, read_writtenAt hshort]
  rfl

theorem parse_of_long (h : StandsFirst s.toList before run rest) {long : List Char}
    (hlong : (runsAt run rest).find? (fun ds => maxDigits < ds.length) = some long) :
    parse s = .error ⟨long.length⟩ := by
  rw [parse_of_first h, read_writtenAt_of_long hlong]
  rfl

/-- The first version number in a text is the given one. -/
def Shows (s : String) (v : Version) : Prop :=
  ∃ before run rest, StandsFirst s.toList before run rest ∧ valueAt run rest = v

/-- The first version number in a text has a number with too many digits. -/
def ShowsOverlong (s : String) : Prop :=
  ∃ before run rest, StandsFirst s.toList before run rest ∧ ∃ ds ∈ runsAt run rest, maxDigits < ds.length

theorem parse_of_showsOverlong (h : ShowsOverlong s) : ∃ e, parse s = .error e := by
  obtain ⟨before, run, rest, hfirst, ds, hds, hlong⟩ := h
  have hsome : ((runsAt run rest).find? fun ds => maxDigits < ds.length).isSome := by
    rw [List.find?_isSome]
    exact ⟨ds, hds, by simpa using hlong⟩
  obtain ⟨long, hfind⟩ := Option.isSome_iff_exists.1 hsome
  exact ⟨_, parse_of_long hfirst hfind⟩

theorem parse_of_shows {v : Version} (h : Shows s v) (hshort : ¬ ShowsOverlong s) : parse s = .ok (some v) := by
  obtain ⟨before, run, rest, hfirst, rfl⟩ := h
  refine parse_of_short hfirst fun ds hds => Nat.le_of_not_lt fun hlong => ?_
  exact hshort ⟨before, run, rest, hfirst, ds, hds, hlong⟩

/-- What a text comes to whose first version number can be read, or which has none. -/
theorem parse_of_not_showsOverlong (hshort : ¬ ShowsOverlong s) :
    parse s = .ok none ∧ (∀ v, ¬ Shows s v) ∨ ∃ v, parse s = .ok (some v) ∧ Shows s v := by
  by_cases hsome : ∃ before run rest, Stands s.toList before run rest
  · obtain ⟨before, run, rest, hfirst⟩ := exists_standsFirst hsome
    exact .inr ⟨_, parse_of_shows ⟨before, run, rest, hfirst, rfl⟩ hshort, before, run, rest, hfirst, rfl⟩
  · refine .inl ⟨parse_eq_none_iff.2 hsome, ?_⟩
    rintro v ⟨before, run, rest, hfirst, -⟩
    exact hsome ⟨before, run, rest, hfirst.1⟩

/-- A text shows no version number exactly if no run of digits in it that continues no other has a dot and
another digit behind it. Otherwise it shows the one that begins with the leftmost such run: the numbers that
this run, the run behind the dot, and the run behind a second dot write, the last being nought if there is
none. It cannot be read exactly if one of these runs has too many digits, and then the first of them counts. -/
theorem parse_leftmost (s : String) :
    (parse s = .ok none ↔ ¬ ∃ before run rest, Stands s.toList before run rest) ∧
    ∀ before run rest, StandsFirst s.toList before run rest →
      ((∀ ds ∈ runsAt run rest, ds.length ≤ maxDigits) → parse s = .ok (some (valueAt run rest))) ∧
      ∀ long, (runsAt run rest).find? (fun ds => maxDigits < ds.length) = some long → parse s = .error ⟨long.length⟩ :=
  ⟨parse_eq_none_iff, fun _ _ _ h => ⟨parse_of_short h, fun _ => parse_of_long h⟩⟩

/-- A number that stands alone is passed over, and so is what comes behind the first version number. -/
theorem parse_leftmost_sample :
    StandsFirst "gcc 12 build 13.2-5.6.7".toList "gcc 12 build ".toList ['1', '3'] "2-5.6.7".toList ∧
      parse "gcc 12 build 13.2-5.6.7" = .ok (some ⟨13, 2, 0⟩) := by
  have hbegins : Begins "13.2-5.6.7".toList ['1', '3'] "2-5.6.7".toList :=
    ⟨by decide, by decide, List.all_eq_true.1 (by decide), '2', by decide, by decide⟩
  have hstands : Stands "gcc 12 build 13.2-5.6.7".toList "gcc 12 build ".toList ['1', '3'] "2-5.6.7".toList :=
    ⟨_, by decide, by rintro c ⟨⟩; decide, hbegins⟩
  have hfirst := standsFirst_of_atStart? hstands (by decide)
  have hshort : ∀ ds ∈ runsAt ['1', '3'] "2-5.6.7".toList, ds.length ≤ maxDigits := by decide
  have hvalue : valueAt ['1', '3'] "2-5.6.7".toList = ⟨13, 2, 0⟩ := by decide
  refine ⟨hfirst, ?_⟩
  rw [← hvalue]
  exact ((parse_leftmost _).2 _ _ _ hfirst).1 hshort

end CiPipeline.Version

namespace CiPipeline.Sample

/-- A seven with so many zeros in front of it. -/
def seven (zeros : Nat) : List Char := List.replicate zeros '0' ++ ['7']

theorem isDigit_seven {zeros : Nat} {c : Char} (hc : c ∈ seven zeros) : Text.isDigit c = true := by
  rcases List.mem_append.1 hc with hc | hc
  · rw [List.eq_of_mem_replicate hc]
    decide
  · rw [List.mem_singleton.1 hc]
    decide

theorem length_seven (zeros : Nat) : (seven zeros).length = zeros + 1 := by simp [seven]

theorem digitsValue_seven (zeros : Nat) : Text.digitsValue (seven zeros) = 7 := by
  induction zeros with
  | zero => decide
  | succ zeros ih => exact ih

end CiPipeline.Sample

namespace CiPipeline.Version

open Text (maxDigits)

theorem begins_seven (zeros : Nat) : Begins (Sample.seven zeros ++ ['.', '1']) (Sample.seven zeros) ['1'] :=
  ⟨rfl, by simp [Sample.seven], fun _ hc => Sample.isDigit_seven hc, '1', rfl, by decide⟩

/-- A version number is not read if zeros in front make one of its numbers too long, though it is small. -/
theorem zeros_refused :
    StandsFirst (Sample.seven 4300 ++ ['.', '1']) [] (Sample.seven 4300) ['1'] ∧
      valueAt (Sample.seven 4300) ['1'] = ⟨7, 1, 0⟩ ∧
      parse (String.ofList (Sample.seven 4300 ++ ['.', '1'])) = .error ⟨4301⟩ := by
  have hlength : (Sample.seven 4300).length = 4301 := Sample.length_seven 4300
  have hfirst : StandsFirst (Sample.seven 4300 ++ ['.', '1']) [] (Sample.seven 4300) ['1'] :=
    standsFirst_head (begins_seven 4300)
  have hvalue : valueAt (Sample.seven 4300) ['1'] = ⟨7, 1, 0⟩ := by
    rw [valueAt, Sample.digitsValue_seven]
    decide
  refine ⟨hfirst, hvalue, ?_⟩
  rw [← hlength]
  rw [← String.toList_ofList (l := Sample.seven 4300 ++ ['.', '1'])] at hfirst
  exact parse_of_long hfirst (List.find?_cons_of_pos (by rw [hlength]; decide))

end CiPipeline.Version
