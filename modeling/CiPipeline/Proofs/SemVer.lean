import CiPipeline.Proofs.Act
import CiPipeline.SemVer
import Mathlib.Data.Char
import Mathlib.Data.List.TakeWhile

/-
What is a version, and what it says. A text is accepted exactly if it is written by the grammar of versions,
up to two liberties: digits behind the first of a number may be of any script, and a line feed may end the
text (`parse_by_grammar`, `liberties_accepted`). Without these the grammar is the strict one.
-/

namespace CiPipeline.SemVer

open Text (isDigit maxDigits readDigits digitsValue)

/-! ## The grammar -/

/-- A number as a version writes it: nought, or an ASCII digit that is not nought and then digits. -/
inductive Numeral (digit : Char → Bool) : List Char → Prop
  | zero : Numeral digit ['0']
  | positive {c : Char} {cs : List Char} (first : '1' ≤ c ∧ c ≤ '9') (others : ∀ d ∈ cs, digit d = true) :
    Numeral digit (c :: cs)

/-- A part that may be missing; if it is there, it is not empty and has letters, digits, dots and hyphens only. -/
def IsPart (part : Option String) : Prop := ∀ s, part = some s → s ≠ "" ∧ ∀ c ∈ s.toList, isPartChar c = true

/-- A part with its mark in front. -/
def tail (mark : Char) (part : Option String) : List Char := part.elim [] fun s => mark :: s.toList

/-- The parts of a text that is a version: whether a `v` stands first, the numbers, and the parts behind them. -/
structure Parts where
  marked : Bool
  major : List Char
  minor : List Char
  patch : List Char
  pre : Option String
  build : Option String

namespace Parts

/-- The characters of the numbers and the parts behind them. -/
def unmarked (p : Parts) : List Char :=
  p.major ++ '.' :: (p.minor ++ '.' :: (p.patch ++ (tail '-' p.pre ++ tail '+' p.build)))

/-- The characters of the whole text. -/
def chars (p : Parts) : List Char := (if p.marked then ['v'] else []) ++ p.unmarked

/-- The numbers and the parts are as the grammar has them, with the given digits. -/
structure Legal (digit : Char → Bool) (p : Parts) : Prop where
  major : Numeral digit p.major
  minor : Numeral digit p.minor
  patch : Numeral digit p.patch
  pre : IsPart p.pre
  build : IsPart p.build

/-- None of the numbers has too many digits to be read. -/
structure Short (p : Parts) : Prop where
  major : p.major.length ≤ maxDigits
  minor : p.minor.length ≤ maxDigits
  patch : p.patch.length ≤ maxDigits

/-- The parts without the `v` and the build part. -/
def written (p : Parts) : Written := ⟨p.major, p.minor, p.patch, p.pre⟩

/-- The version that the parts say, the numbers being read as given. -/
def value (p : Parts) (number : List Char → Nat) : SemVer := ⟨number p.major, number p.minor, number p.patch, p.pre⟩

end Parts

/-! ## Numbers -/

variable {ds cs rest : List Char} {digit : Char → Bool}

theorem digits?_append (h : Numeral isDigit ds) (hrest : ∀ c, rest.head? = some c → isDigit c = false) :
    digits? (ds ++ rest) = some (ds, rest) := by
  cases h with
  | zero => rfl
  | @positive c cs first others =>
    have hne : c ≠ '0' := by
      rintro rfl
      exact absurd first.1 (by decide)
    rw [List.cons_append, digits?.eq_2 _ _ hne, Text.takeWhile_append_eq others hrest,
      Text.dropWhile_append_eq others hrest, if_pos (by simp [first])]

theorem numeral_of_digits? (h : digits? cs = some (ds, rest)) : Numeral isDigit ds ∧ cs = ds ++ rest := by
  unfold digits? at h
  split at h
  · cases h
    exact ⟨.zero, rfl⟩
  · split at h
    · rename_i c cs _ hfirst
      cases h
      rw [Bool.and_eq_true, decide_eq_true_eq, decide_eq_true_eq] at hfirst
      refine ⟨.positive hfirst fun d hd => List.mem_takeWhile_imp hd, ?_⟩
      rw [List.cons_append, List.takeWhile_append_dropWhile]
    · cases h
  · cases h

theorem numeral_of_dotDigits? (h : dotDigits? cs = some (ds, rest)) : Numeral isDigit ds ∧ cs = '.' :: (ds ++ rest) := by
  unfold dotDigits? at h
  split at h
  · obtain ⟨hds, rfl⟩ := numeral_of_digits? h
    exact ⟨hds, rfl⟩
  · cases h

section

variable {major minor patch : List Char}

theorem core?_append (hmajor : Numeral isDigit major) (hminor : Numeral isDigit minor) (hpatch : Numeral isDigit patch)
    (hrest : ∀ c, rest.head? = some c → isDigit c = false) :
    core? (major ++ '.' :: (minor ++ '.' :: (patch ++ rest))) = some (major, minor, patch, rest) := by
  have hdot : ∀ l : List Char, ∀ c, ('.' :: l).head? = some c → isDigit c = false := by
    rintro l c ⟨⟩
    decide
  rw [core?, digits?_append hmajor (hdot _)]
  show (dotDigits? ('.' :: (minor ++ _))).bind _ = _
  rw [dotDigits?, digits?_append hminor (hdot _)]
  show (dotDigits? ('.' :: (patch ++ _))).bind _ = _
  rw [dotDigits?, digits?_append hpatch hrest]
  rfl

theorem numerals_of_core? (h : core? cs = some (major, minor, patch, rest)) :
    Numeral isDigit major ∧ Numeral isDigit minor ∧ Numeral isDigit patch ∧
      cs = major ++ '.' :: (minor ++ '.' :: (patch ++ rest)) := by
  obtain ⟨⟨ds₁, cs₁⟩, h₁, h⟩ := Option.bind_eq_some_iff.1 h
  obtain ⟨⟨ds₂, cs₂⟩, h₂, h⟩ := Option.bind_eq_some_iff.1 h
  obtain ⟨⟨ds₃, cs₃⟩, h₃, h⟩ := Option.bind_eq_some_iff.1 h
  cases h
  obtain ⟨hmajor, rfl⟩ := numeral_of_digits? h₁
  obtain ⟨hminor, rfl⟩ := numeral_of_dotDigits? h₂
  obtain ⟨hpatch, rfl⟩ := numeral_of_dotDigits? h₃
  exact ⟨hmajor, hminor, hpatch, rfl⟩

end

/-! ## Parts behind the numbers -/

theorem part_append {mark : Char} {o : Option String} (ho : IsPart o)
    (hrest : ∀ c, rest.head? = some c → c ≠ mark ∧ isPartChar c = false) : part mark (tail mark o ++ rest) = (o, rest) := by
  cases o with
  | none =>
    cases rest with
    | nil => rfl
    | cons c rest =>
      show part mark (c :: rest) = _
      rw [part, if_neg]
      simp [(hrest c rfl).1]
  | some s =>
    obtain ⟨hne, hs⟩ := ho s rfl
    have hstop : ∀ c, rest.head? = some c → isPartChar c = false := fun c hc => (hrest c hc).2
    show part mark (mark :: (s.toList ++ rest)) = _
    rw [part, Text.takeWhile_append_eq hs hstop, Text.dropWhile_append_eq hs hstop, if_pos (by simpa using hne),
      String.ofList_toList]

theorem isPart_of_part {mark : Char} {o : Option String} (h : part mark cs = (o, rest)) :
    IsPart o ∧ cs = tail mark o ++ rest := by
  unfold part at h
  split at h
  · split at h
    · rename_i c cs hmark
      cases h
      rw [Bool.and_eq_true, decide_eq_true_eq, Bool.not_eq_true', List.isEmpty_eq_false_iff] at hmark
      obtain ⟨rfl, hne⟩ := hmark
      constructor
      · rintro s ⟨⟩
        refine ⟨fun hempty => hne (String.ofList_eq_empty_iff.1 hempty), fun d hd => ?_⟩
        rw [String.toList_ofList] at hd
        exact List.mem_takeWhile_imp hd
      · simp [tail]
    · cases h
      exact ⟨nofun, rfl⟩
  · cases h
    exact ⟨nofun, rfl⟩

/-! ## The mark in front -/

theorem Numeral.exists_cons (h : Numeral digit ds) : ∃ c l, ds = c :: l ∧ c ≠ 'v' := by
  cases h with
  | zero => exact ⟨'0', [], rfl, by decide⟩
  | @positive c l first _ =>
    refine ⟨c, l, rfl, ?_⟩
    rintro rfl
    exact absurd first.2 (by decide)

theorem dropV_chars {p : Parts} (hmajor : Numeral digit p.major) (cs : List Char) :
    dropV (p.chars ++ cs) = p.unmarked ++ cs := by
  obtain ⟨c, l, hcons, hne⟩ := hmajor.exists_cons
  have hunmarked : dropV (p.unmarked ++ cs) = p.unmarked ++ cs := by
    rw [Parts.unmarked, hcons]
    unfold dropV
    split
    · rename_i heq
      exact absurd (List.cons.inj heq).1 hne
    · rfl
  rw [Parts.chars]
  cases p.marked with
  | false => exact hunmarked
  | true => rfl

theorem exists_dropV (cs : List Char) : ∃ marked : Bool, cs = (if marked then ['v'] else []) ++ dropV cs := by
  unfold dropV
  split
  · exact ⟨true, rfl⟩
  · exact ⟨false, rfl⟩

/-! ## Texts -/

/-- What is written is read, also if a line feed ends it. -/
theorem written?_chars {p : Parts} (hp : p.Legal isDigit) (hcs : cs = p.chars ∨ cs = p.chars ++ ['\n']) :
    written? cs = some p.written := by
  obtain ⟨last, rfl, hlast⟩ : ∃ last, cs = p.chars ++ last ∧ (last = [] ∨ last = ['\n']) := by
    rcases hcs with rfl | rfl
    · exact ⟨[], (List.append_nil _).symm, .inl rfl⟩
    · exact ⟨['\n'], rfl, .inr rfl⟩
  -- nothing that may follow a number or a part belongs to it
  have hend : ∀ c, last.head? = some c → c = '\n' := by
    rcases hlast with rfl | rfl
    · exact nofun
    · rintro c ⟨⟩
      rfl
  have hplus : ∀ c, (tail '+' p.build ++ last).head? = some c → c = '+' ∨ c = '\n' := by
    cases p.build with
    | none => exact fun c hc => .inr (hend c hc)
    | some s =>
      rintro c ⟨⟩
      exact .inl rfl
  have hminus : ∀ c, (tail '-' p.pre ++ (tail '+' p.build ++ last)).head? = some c → c = '-' ∨ c = '+' ∨ c = '\n' := by
    cases p.pre with
    | none => exact fun c hc => .inr (hplus c hc)
    | some s =>
      rintro c ⟨⟩
      exact .inl rfl
  have hcore : core? (p.unmarked ++ last) =
      some (p.major, p.minor, p.patch, tail '-' p.pre ++ (tail '+' p.build ++ last)) := by
    have hassoc : p.unmarked ++ last =
        p.major ++ '.' :: (p.minor ++ '.' :: (p.patch ++ (tail '-' p.pre ++ (tail '+' p.build ++ last)))) := by
      simp [Parts.unmarked]
    rw [hassoc]
    refine core?_append hp.major hp.minor hp.patch fun c hc => ?_
    rcases hminus c hc with rfl | rfl | rfl <;> decide
  have hpre : part '-' (tail '-' p.pre ++ (tail '+' p.build ++ last)) = (p.pre, tail '+' p.build ++ last) :=
    part_append hp.pre fun c hc => by rcases hplus c hc with rfl | rfl <;> decide
  have hbuild : part '+' (tail '+' p.build ++ last) = (p.build, last) :=
    part_append hp.build fun c hc => by rw [hend c hc]; decide
  rw [written?, dropV_chars hp.major, hcore]
  simp only [hpre, hbuild]
  exact if_pos (by simpa using hlast)

/-- What is read was written by the grammar, but for a line feed at its end. -/
theorem exists_parts {w : Written} (h : written? cs = some w) :
    ∃ p : Parts, p.Legal isDigit ∧ (cs = p.chars ∨ cs = p.chars ++ ['\n']) ∧ w = p.written := by
  unfold written? at h
  split at h
  · cases h
  · rename_i major minor patch rest hcore
    obtain ⟨hmajor, hminor, hpatch, hrest⟩ := numerals_of_core? hcore
    rcases hpre : part '-' rest with ⟨pre, rest'⟩
    rcases hbuild : part '+' rest' with ⟨build, last⟩
    simp only [hpre, hbuild] at h
    obtain ⟨hp, rfl⟩ := isPart_of_part hpre
    obtain ⟨hb, rfl⟩ := isPart_of_part hbuild
    obtain ⟨marked, hmarked⟩ := exists_dropV cs
    split at h
    · rename_i hlast
      cases Option.some.inj h
      have hchars : cs = (⟨marked, major, minor, patch, pre, build⟩ : Parts).chars ++ last := by
        rw [hmarked, hrest]
        simp [Parts.chars, Parts.unmarked]
      refine ⟨⟨marked, major, minor, patch, pre, build⟩, ⟨hmajor, hminor, hpatch, hp, hb⟩, ?_, rfl⟩
      rw [Bool.or_eq_true, decide_eq_true_eq, decide_eq_true_eq] at hlast
      rcases hlast with rfl | rfl
      · rw [List.append_nil] at hchars
        exact .inl hchars
      · exact .inr hchars
    · cases h

theorem read_written {p : Parts} {v : SemVer} : p.written.read = .ok v ↔ p.Short ∧ v = p.value digitsValue := by
  constructor
  · intro h
    obtain ⟨major, hmajor, h⟩ := exists_of_bind_eq_ok h
    obtain ⟨minor, hminor, h⟩ := exists_of_bind_eq_ok h
    obtain ⟨patch, hpatch, h⟩ := exists_of_bind_eq_ok h
    obtain ⟨hmajorShort, rfl⟩ := Text.readDigits_eq_ok_iff.1 hmajor
    obtain ⟨hminorShort, rfl⟩ := Text.readDigits_eq_ok_iff.1 hminor
    obtain ⟨hpatchShort, rfl⟩ := Text.readDigits_eq_ok_iff.1 hpatch
    cases h
    exact ⟨⟨hmajorShort, hminorShort, hpatchShort⟩, rfl⟩
  · rintro ⟨hshort, rfl⟩
    unfold Written.read Parts.written
    rw [Text.readDigits_of_le hshort.major, Text.readDigits_of_le hshort.minor, Text.readDigits_of_le hshort.patch]
    rfl

section

variable {s : String} {v : SemVer} {p : Parts}

theorem parse_eq_some_iff (hp : p.Legal isDigit) (hs : s.toList = p.chars ∨ s.toList = p.chars ++ ['\n']) :
    parse s = .ok (some v) ↔ p.Short ∧ v = p.value digitsValue := by
  rw [← read_written, parse, written?_chars hp hs]
  show p.written.read.map some = _ ↔ _
  cases p.written.read with
  | error e => exact iff_of_false nofun nofun
  | ok w => simp [Except.map]

theorem exists_parts_of_parse (h : parse s = .ok (some v)) :
    ∃ p : Parts, p.Legal isDigit ∧ (s.toList = p.chars ∨ s.toList = p.chars ++ ['\n']) ∧ p.Short ∧
      v = p.value digitsValue := by
  unfold parse at h
  cases hw : written? s.toList with
  | none => rw [hw] at h; cases h
  | some w =>
    obtain ⟨p, hp, hs, rfl⟩ := exists_parts hw
    rw [hw] at h
    simp only at h
    cases hread : p.written.read with
    | error e => rw [hread] at h; cases h
    | ok v' =>
      rw [hread] at h
      cases h
      exact ⟨p, hp, hs, read_written.1 hread⟩

theorem parse_ne_none_iff : parse s ≠ .ok none ↔
    ∃ p : Parts, p.Legal isDigit ∧ (s.toList = p.chars ∨ s.toList = p.chars ++ ['\n']) := by
  unfold parse
  constructor
  · intro h
    cases hw : written? s.toList with
    | none => rw [hw] at h; exact absurd rfl h
    | some w =>
      obtain ⟨p, hp, hs, -⟩ := exists_parts hw
      exact ⟨p, hp, hs⟩
  · rintro ⟨p, hp, hs⟩ h
    rw [written?_chars hp hs] at h
    simp only at h
    cases hread : p.written.read with
    | error e => rw [hread] at h; cases h
    | ok v => rw [hread] at h; cases h

/-! ## The characters of a version -/

theorem isDigit_of_first {c : Char} (h : '1' ≤ c ∧ c ≤ '9') : c.isDigit = true := by
  rw [Char.isDigit, Bool.and_eq_true, decide_eq_true_eq, decide_eq_true_eq]
  exact ⟨le_trans (by decide) h.1, h.2⟩

theorem Numeral.char {c : Char} (h : Numeral digit ds) (hc : c ∈ ds) : digit c = true ∨ c.isDigit = true := by
  cases h with
  | zero =>
    rw [List.mem_singleton] at hc
    subst hc
    exact .inr (by decide)
  | positive first others =>
    rcases List.mem_cons.1 hc with rfl | hc
    · exact .inr (isDigit_of_first first)
    · exact .inl (others c hc)

theorem Numeral.ascii {c : Char} (h : Numeral Char.isDigit ds) (hc : c ∈ ds) : c.isDigit = true :=
  (h.char hc).elim id id

theorem IsPart.char {c mark : Char} {o : Option String} (h : IsPart o) (hc : c ∈ tail mark o) :
    c = mark ∨ isPartChar c = true := by
  cases o with
  | none => cases hc
  | some s => exact (List.mem_cons.1 hc).imp_right ((h s rfl).2 c)

/-- A version has no characters but digits, those of parts, and a plus. -/
theorem Parts.Legal.char {c : Char} (hp : p.Legal digit) (hc : c ∈ p.chars) :
    digit c = true ∨ isPartChar c = true ∨ c = '+' := by
  have hnumeral : ∀ ds, Numeral digit ds → c ∈ ds → digit c = true ∨ isPartChar c = true ∨ c = '+' := fun ds h hc =>
    (h.char hc).imp_right fun hdigit => .inl (by simp [isPartChar, Char.isAlphanum, hdigit])
  have hdot : c = '.' → digit c = true ∨ isPartChar c = true ∨ c = '+' := by
    rintro rfl
    exact .inr (.inl (by decide))
  rw [Parts.chars, List.mem_append, Parts.unmarked, List.mem_append, List.mem_cons, List.mem_append, List.mem_cons,
    List.mem_append, List.mem_append] at hc
  rcases hc with hc | hc | hc | hc | hc | hc | hc | hc
  · split at hc
    · rw [List.mem_singleton.1 hc]
      exact .inr (.inl (by decide))
    · cases hc
  · exact hnumeral _ hp.major hc
  · exact hdot hc
  · exact hnumeral _ hp.minor hc
  · exact hdot hc
  · exact hnumeral _ hp.patch hc
  · rcases hp.pre.char hc with rfl | hc
    · exact .inr (.inl (by decide))
    · exact .inr (.inl hc)
  · rcases hp.build.char hc with rfl | hc
    · exact .inr (.inr rfl)
    · exact .inr (.inl hc)

theorem Numeral.mono {digit' : Char → Bool} (h : Numeral digit ds) (hmono : ∀ c ∈ ds, digit c = true → digit' c = true) :
    Numeral digit' ds := by
  cases h with
  | zero => exact .zero
  | positive first others => exact .positive first fun d hd => hmono d (List.mem_cons_of_mem _ hd) (others d hd)

/-- Parts are legal for other digits as well, if those that they have are such. -/
theorem Parts.Legal.mono {digit' : Char → Bool} (hp : p.Legal digit)
    (hmono : ∀ c ∈ p.chars, digit c = true → digit' c = true) : p.Legal digit' := by
  refine ⟨hp.major.mono fun c hc => hmono c ?_, hp.minor.mono fun c hc => hmono c ?_,
    hp.patch.mono fun c hc => hmono c ?_, hp.pre, hp.build⟩
  all_goals simp [Parts.chars, Parts.unmarked, hc]

end

/-- The value of parts with ASCII digits is the usual one. -/
theorem Parts.Legal.value_eq {p : Parts} (hp : p.Legal Char.isDigit) :
    p.value digitsValue = p.value (Nat.ofDigitChars 10 · 0) := by
  unfold Parts.value
  rw [Text.digitsValue_of_ascii fun c hc => hp.major.ascii hc, Text.digitsValue_of_ascii fun c hc => hp.minor.ascii hc,
    Text.digitsValue_of_ascii fun c hc => hp.patch.ascii hc]

/-! ## What is accepted -/

/-- A text is a version exactly if it is spelt in parts as it should, and then it is the version that they say, if
no number is too long. -/
structure ReadBy (s : String) (Spelt : Parts → Prop) (number : List Char → Nat) : Prop where
  refused : parse s = .ok none ↔ ¬ ∃ p, Spelt p
  accepted : ∀ p, Spelt p → ∀ v, parse s = .ok (some v) ↔ p.Short ∧ v = p.value number

/-- A text that takes no liberty: its digits are ASCII, and no line feed ends it. -/
structure Strict (s : String) : Prop where
  digits : ∀ c ∈ s.toList, isDigit c = true → c.isDigit = true
  ending : s.toList.getLast? ≠ some '\n'

theorem Strict.spelt_iff {s : String} (h : Strict s) {p : Parts} :
    (p.Legal isDigit ∧ (s.toList = p.chars ∨ s.toList = p.chars ++ ['\n'])) ↔
      p.Legal Char.isDigit ∧ s.toList = p.chars := by
  constructor
  · rintro ⟨hp, hs | hs⟩
    · exact ⟨hp.mono fun c hc => h.digits c (hs ▸ hc), hs⟩
    · refine absurd ?_ h.ending
      rw [hs, List.getLast?_append]
      rfl
  · rintro ⟨hp, hs⟩
    exact ⟨hp.mono fun c _ => Text.isDigit_of_ascii, .inl hs⟩

/-- Texts are read by the grammar of versions, in which digits may be of any script and a line feed may end the
text. A text without such digits and line feed is read by the strict grammar, as numbers usually are. -/
theorem parse_by_grammar (s : String) :
    ReadBy s (fun p => p.Legal isDigit ∧ (s.toList = p.chars ∨ s.toList = p.chars ++ ['\n'])) digitsValue ∧
    (Strict s → ReadBy s (fun p => p.Legal Char.isDigit ∧ s.toList = p.chars) (Nat.ofDigitChars 10 · 0)) := by
  have hread : ReadBy s (fun p => p.Legal isDigit ∧ (s.toList = p.chars ∨ s.toList = p.chars ++ ['\n'])) digitsValue :=
    ⟨by rw [← parse_ne_none_iff, ne_eq, not_not], fun p hp v => parse_eq_some_iff hp.1 hp.2⟩
  refine ⟨hread, fun hs => ⟨?_, fun p hp v => ?_⟩⟩
  · simp only [hread.refused, hs.spelt_iff]
  · rw [hread.accepted p (hs.spelt_iff.2 hp), hp.1.value_eq]

/-- A version with all parts is read as what they say. -/
theorem parse_by_grammar_sample : Strict "v1.20.3-rc.1+b-7" ∧ parse "v1.20.3-rc.1+b-7" = .ok (some ⟨1, 20, 3, "rc.1"⟩) := by
  have hs : Strict "v1.20.3-rc.1+b-7" := by
    refine ⟨fun c hc => ?_, by decide⟩
    have hall : "v1.20.3-rc.1+b-7".toList.all (fun c => !isDigit c || c.isDigit) = true := by decide +kernel
    simpa [or_iff_not_imp_left] using List.all_eq_true.1 hall c hc
  have hp : (⟨true, ['1'], ['2', '0'], ['3'], some "rc.1", some "b-7"⟩ : Parts).Legal Char.isDigit := by
    refine ⟨.positive (by decide) (List.forall_mem_nil _), .positive (by decide) (List.all_eq_true.1 (by decide)),
      .positive (by decide) (List.forall_mem_nil _), ?_, ?_⟩
    · rintro s ⟨⟩
      exact ⟨by decide, List.all_eq_true.1 (by decide)⟩
    · rintro s ⟨⟩
      exact ⟨by decide, List.all_eq_true.1 (by decide)⟩
  exact ⟨hs, (((parse_by_grammar _).2 hs).accepted _ ⟨hp, by decide⟩ _).2 ⟨⟨by decide, by decide, by decide⟩, by decide⟩⟩

/-- A line feed at the end and a digit of another script are accepted, which the strict grammar does not have. -/
theorem liberties_accepted : parse "1.2.3\n" = .ok (some ⟨1, 2, 3, none⟩) ∧ parse "1\u0662.0.0" = .ok (some ⟨12, 0, 0, none⟩) ∧
    ∀ s ∈ ["1.2.3\n", "1\u0662.0.0"], ¬ ∃ p : Parts, p.Legal Char.isDigit ∧ s.toList = p.chars := by
  refine ⟨by decide +kernel, by rfl, fun s hs => ?_⟩
  rintro ⟨p, hp, hchars⟩
  -- each of the texts has a character that no version has
  have hstray : s.toList.any (fun c => !(c.isDigit || isPartChar c || c == '+')) = true := by
    have hboth : ["1.2.3\n", "1\u0662.0.0"].all (fun s =>
      s.toList.any fun c => !(c.isDigit || isPartChar c || c == '+')) = true := by decide
    exact List.all_eq_true.1 hboth s hs
  obtain ⟨c, hc, hno⟩ := List.any_eq_true.1 hstray
  rcases hp.char (hchars ▸ hc) with h | h | rfl
  · simp [h] at hno
  · simp [h] at hno
  · simp at hno

end CiPipeline.SemVer
