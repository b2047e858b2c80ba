/-
Decimal digits of every script, and the numbers they write. A digit belongs to one of sixty-six
runs of ten consecutive characters, each from its script's zero to its nine. A number is read only
if it is written with no more digits than a fixed limit, leading zeros included.
-/

namespace CiPipeline.Text

/-- The zeros of the decimal digit runs. -/
def digitZeros : List Nat :=
  [0x30, 0x660, 0x6f0, 0x7c0, 0x966, 0x9e6, 0xa66, 0xae6, 0xb66, 0xbe6, 0xc66, 0xce6, 0xd66, 0xde6,
   0xe50, 0xed0, 0xf20, 0x1040, 0x1090, 0x17e0, 0x1810, 0x1946, 0x19d0, 0x1a80, 0x1a90, 0x1b50,
   0x1bb0, 0x1c40, 0x1c50, 0xa620, 0xa8d0, 0xa900, 0xa9d0, 0xa9f0, 0xaa50, 0xabf0, 0xff10, 0x104a0,
   0x10d30, 0x11066, 0x110f0, 0x11136, 0x111d0, 0x112f0, 0x11450, 0x114d0, 0x11650, 0x116c0,
   0x11730, 0x118e0, 0x11950, 0x11c50, 0x11d50, 0x11da0, 0x16a60, 0x16ac0, 0x16b50, 0x1d7ce,
   0x1d7d8, 0x1d7e2, 0x1d7ec, 0x1d7f6, 0x1e140, 0x1e2f0, 0x1e950, 0x1fbf0]

/-- The value of a decimal digit. -/
def digitValue? (c : Char) : Option Nat :=
  (digitZeros.find? fun z => z ≤ c.toNat && c.toNat ≤ z + 9).map (c.toNat - ·)

/-- Whether the character is a decimal digit of some script. -/
def isDigit (c : Char) : Bool := (digitValue? c).isSome

/-- The number that a run of digits writes. -/
def digitsValue (cs : List Char) : Nat :=
  cs.foldl (fun n c => 10 * n + (digitValue? c).getD 0) 0

/-- The most digits with which a number may be written. -/
def maxDigits : Nat := 4300

/-- A number that is written with too many digits, and with how many. -/
structure TooManyDigits where
  count : Nat
  deriving DecidableEq, Repr

/-- The wording of the error. -/
def TooManyDigits.message (e : TooManyDigits) : String :=
  "Exceeds the limit (" ++ toString maxDigits ++ " digits) for integer string conversion: value has " ++
    toString e.count ++ " digits; use sys.set_int_max_str_digits() to increase the limit"

/-- The number that a run of digits writes, if the run is not too long. -/
def readDigits (cs : List Char) : Except TooManyDigits Nat :=
  if cs.length ≤ maxDigits then .ok (digitsValue cs) else .error ⟨cs.length⟩

theorem readDigits_of_le {cs : List Char} (h : cs.length ≤ maxDigits) : readDigits cs = .ok (digitsValue cs) :=
  if_pos h

theorem readDigits_eq_ok_iff {cs : List Char} {n : Nat} :
    readDigits cs = .ok n ↔ cs.length ≤ maxDigits ∧ digitsValue cs = n := by
  unfold readDigits
  split
  · simp_all
  · constructor
    · intro h; cases h
    · intro h; exact absurd h.1 (by assumption)

theorem digitValue?_lt {c : Char} {n : Nat} (h : digitValue? c = some n) : n < 10 := by
  obtain ⟨z, hz, rfl⟩ := Option.map_eq_some_iff.1 h
  have := List.find?_some hz
  simp only [Bool.and_eq_true, decide_eq_true_eq] at this
  omega

theorem digitValue?_of_ascii {c : Char} (h : c.isDigit = true) : digitValue? c = some (c.toNat - '0'.toNat) := by
  rw [Char.isDigit, Bool.and_eq_true, decide_eq_true_eq, decide_eq_true_eq] at h
  have h1 : 0x30 ≤ c.toNat := h.1
  have h2 : c.toNat ≤ 0x39 := h.2
  simp [digitValue?, digitZeros, h1, h2]

theorem isDigit_of_ascii {c : Char} (h : c.isDigit = true) : isDigit c = true := by
  rw [isDigit, digitValue?_of_ascii h]
  rfl

theorem foldl_digits_of_ascii {cs : List Char} (h : ∀ c ∈ cs, c.isDigit = true) (n : Nat) :
    cs.foldl (fun n c => 10 * n + (digitValue? c).getD 0) n = Nat.ofDigitChars 10 cs n := by
  induction cs generalizing n with
  | nil => rfl
  | cons c cs ih =>
    rw [List.foldl_cons, digitValue?_of_ascii (h c (List.mem_cons_self ..)), Option.getD_some,
      ih fun d hd => h d (List.mem_cons_of_mem _ hd)]
    rfl

/-- ASCII digits write the number that they usually do. -/
theorem digitsValue_of_ascii {cs : List Char} (h : ∀ c ∈ cs, c.isDigit = true) :
    digitsValue cs = Nat.ofDigitChars 10 cs 0 :=
  foldl_digits_of_ascii h 0

end CiPipeline.Text
