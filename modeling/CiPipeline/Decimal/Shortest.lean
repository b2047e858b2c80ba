/-
The shortest decimal text of a binary floating-point number: the fewest digits that read back as
the same number, and of the decimals with that many digits the one nearest to it.

A positive number is `m · 2 ^ q`. The decimals that round to it fill an interval that reaches half
the gap to its two neighbours, ends included when `m` is even. For one, two, … seventeen digits the
two decimals next to the number are tried in exact arithmetic.
-/

namespace CiPipeline.Decimal

/-- A positive number `m · 2 ^ q`; at a power of two the gap below is `narrow`, half the gap above. -/
structure Binary where
  m : Nat
  q : Int
  narrow : Bool
  deriving DecidableEq, Repr

/-- The kinds of floating-point number, with the sign where there is one. -/
inductive Shape
  | nan
  | infinite (negative : Bool)
  | zero (negative : Bool)
  | finite (negative : Bool) (b : Binary)
  deriving DecidableEq, Repr

/-- The power `base ^ e`, or one if the exponent is negative. -/
def scale (base : Nat) (e : Int) : Nat := Nat.pow base e.toNat

/-- Reads sign, exponent and fraction off the sixty-four bits. -/
def shape (x : Float) : Shape :=
  let bits := x.toBits.toNat
  let negative := bits / Nat.pow 2 63 == 1
  let e : Nat := bits / Nat.pow 2 52 % 2048
  let f : Nat := bits % Nat.pow 2 52
  if e = 2047 then (if f = 0 then .infinite negative else .nan)
  else if e = 0 then (if f = 0 then .zero negative else .finite negative ⟨f, -1074, false⟩)
  else .finite negative ⟨Nat.pow 2 52 + f, Int.ofNat e - 1075, f == 0 && e != 1⟩

/-- Compares `a · 10 ^ p` with `b · 2 ^ q`. -/
def compareScaled (a : Nat) (p : Int) (b : Nat) (q : Int) : Ordering :=
  compare (a * scale 10 p * scale 2 (-q)) (b * scale 2 q * scale 10 (-p))

/-- Whether `d · 10 ^ p` rounds to the number. -/
def Binary.holds (b : Binary) (d : Nat) (p : Int) : Bool :=
  let low := compareScaled d p (4 * b.m - if b.narrow then 1 else 2) (b.q - 2)
  let high := compareScaled d p (4 * b.m + 2) (b.q - 2)
  if b.m % 2 == 0 then low != .lt && high != .gt else low == .gt && high == .lt

/-- The exponent of the leading decimal digit. -/
def Binary.exponent (b : Binary) : Int :=
  let num := b.m * scale 2 b.q
  let den := scale 2 (-b.q)
  let e := ((Nat.toDigits 10 num).length : Int) - (Nat.toDigits 10 den).length
  if den * scale 10 e ≤ num * scale 10 (-e) then e else e - 1

/-- The whole number of steps `10 ^ p` in the number. -/
def Binary.steps (b : Binary) (p : Int) : Nat :=
  b.m * scale 2 b.q * scale 10 (-p) / (scale 2 (-b.q) * scale 10 p)

/-- Of the two decimals on the grid `10 ^ p` next to the number, the one that rounds to it; of two
the nearer, and the even one when they are equally near. -/
def Binary.onGrid? (b : Binary) (p : Int) : Option Nat :=
  let d := b.steps p
  match b.holds d p, b.holds (d + 1) p with
  | false, false => none
  | true, false => some d
  | false, true => some (d + 1)
  | true, true =>
    match compareScaled (2 * d + 1) p (2 * b.m) b.q with
    | .gt => some d
    | .lt => some (d + 1)
    | .eq => some (if d % 2 == 0 then d else d + 1)

/-- Tries grids with one digit more each time. -/
def Binary.search (b : Binary) : Nat → Int → Nat × Int
  | 0, p => (b.steps p, p)
  | n + 1, p =>
    match b.onGrid? p with
    | some d => (d, p)
    | none => b.search n (p - 1)

/-- The shortest digits and the position of the decimal point, counted from their left. -/
def Binary.shortest (b : Binary) : List Char × Int :=
  let (d, p) := b.search 17 b.exponent
  let ds := Nat.toDigits 10 d
  ((ds.reverse.dropWhile (· == '0')).reverse, p + ds.length)

/-- Positional text while the decimal point lies at most three places left of the digits and at
most sixteen right of their start; otherwise a signed exponent of at least two digits. -/
def written (ds : List Char) (point : Int) : List Char :=
  if -4 < point && point ≤ 16 then
    if point ≤ 0 then '0' :: '.' :: (List.replicate (-point).toNat '0' ++ ds)
    else if point < ds.length then ds.take point.toNat ++ '.' :: ds.drop point.toNat
    else ds ++ List.replicate (point.toNat - ds.length) '0' ++ ['.', '0']
  else
    let e := Nat.toDigits 10 (point - 1).natAbs
    let fraction := if ds.length ≤ 1 then [] else '.' :: ds.drop 1
    ds.take 1 ++ fraction ++ ['e', if point < 1 then '-' else '+'] ++
      List.replicate (2 - e.length) '0' ++ e

/-- The text of a floating-point number. -/
def text (x : Float) : String :=
  let signed (negative : Bool) (cs : List Char) : String := String.ofList (if negative then '-' :: cs else cs)
  match shape x with
  | .nan => "nan"
  | .infinite negative => signed negative ['i', 'n', 'f']
  | .zero negative => signed negative ['0', '.', '0']
  | .finite negative b => let (ds, point) := b.shortest; signed negative (written ds point)

/-- The whole part of a number, toward zero; nothing for what is not finite. -/
def whole? (x : Float) : Option Int :=
  match shape x with
  | .nan | .infinite _ => none
  | .zero _ => some 0
  | .finite negative b =>
    let n := b.m * scale 2 b.q / scale 2 (-b.q)
    some (if negative then -(n : Int) else n)

/-- Whether a number is zero, whatever its sign. -/
def isZero (x : Float) : Bool :=
  match shape x with
  | .zero _ => true
  | _ => false

end CiPipeline.Decimal
