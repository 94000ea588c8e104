import ScriptShell.Decimal.Binary

/-! # Shortest decimals

A printed number is read back as the double nearest to it.  Among the decimals that read back as a
given double, `shortest` finds one with the fewest digits, and of those the nearest.  `rounded`
and `fixed` instead keep a given number of digits, ties going to the even neighbour.  All of it is
exact arithmetic on whole numbers. -/

namespace ScriptShell

/-- The number `digits · 10 ^ exponent`. -/
structure Decimal where
  /-- All digits, read as one whole number. -/
  digits : Nat
  /-- The place of the last digit. -/
  exponent : Int
  deriving DecidableEq, Repr

namespace Decimal

/-- The decimal digits of a number, first digit first. -/
def digitChars (n : Nat) : List Char := Nat.toDigits 10 n

/-- How many digits a number has. -/
def digitCount (n : Nat) : Nat := (digitChars n).length

/-- The place of the first digit of `num / den`: the greatest `p` with `10 ^ p ≤ num / den`. -/
def leadingPlace (num den : Nat) : Int :=
  let p : Int := (digitCount num : Int) - digitCount den
  let reached :=
    if 0 ≤ p then den * Nat.pow 10 p.toNat ≤ num else den ≤ num * Nat.pow 10 (-p).toNat
  if reached then p else p - 1

/-- `num / den` in units of `10 ^ place`, as a quotient of whole numbers. -/
def inUnits (num den : Nat) (place : Int) : Nat × Nat :=
  if 0 ≤ place then (num, den * Nat.pow 10 place.toNat) else (num * Nat.pow 10 (-place).toNat, den)

/-- The whole number nearest to `num / den`; a tie goes to the even one. -/
def roundEven (num den : Nat) : Nat :=
  let q := num / den
  let twice := 2 * (num % den)
  if twice < den then q else if twice > den then q + 1 else if q % 2 = 0 then q else q + 1

/-- Moves trailing zeros of the digits into the exponent, at most `fuel` of them. -/
def dropZeros : Nat → Decimal → Decimal
  | 0, d => d
  | n + 1, d =>
    if d.digits ≠ 0 && d.digits % 10 = 0 then dropZeros n ⟨d.digits / 10, d.exponent + 1⟩ else d

/-- A double and the interval of numbers that are read as it, as quotients with one
denominator. -/
structure Interval where
  /-- The lower end. -/
  low : Nat
  /-- The double itself. -/
  value : Nat
  /-- The upper end. -/
  high : Nat
  /-- The denominator of all three. -/
  den : Nat
  /-- Whether the ends are read as the double too. -/
  closed : Bool

/-- The interval of `mantissa · 2 ^ exponent`.  Its ends lie half way to the neighbours; the lower
neighbour of a power of two is only half as far.  A tie between two doubles is read as the even
one. -/
def Interval.of (mantissa : Nat) (exponent : Int) : Interval :=
  let scale (n : Nat) : Nat := if 0 ≤ exponent then n * Nat.pow 2 exponent.toNat else n
  let narrow := mantissa = 0x10000000000000 ∧ exponent > -1074
  { low := scale (if narrow then 4 * mantissa - 1 else 4 * mantissa - 2)
    value := scale (4 * mantissa)
    high := scale (4 * mantissa + 2)
    den := if 0 ≤ exponent then 4 else 4 * Nat.pow 2 (-exponent).toNat
    closed := mantissa % 2 == 0 }

/-- Whether `c` units of `10 ^ place` lie in the interval. -/
def Interval.holds (i : Interval) (c : Nat) (place : Int) : Bool :=
  let (low, den) := inUnits i.low i.den place
  let (high, _) := inUnits i.high i.den place
  if i.closed then low ≤ c * den && c * den ≤ high else low < c * den && c * den < high

/-- The nearer one of the two neighbours of the double on the grid of `10 ^ place` that lies in the
interval; a tie goes up. -/
def Interval.onGrid? (i : Interval) (place : Int) : Option Nat :=
  let (num, den) := inUnits i.value i.den place
  let below := num / den
  let above := if num % den = 0 then below else below + 1
  match i.holds below place, i.holds above place with
  | true, true => some (if 2 * (num % den) < den then below else above)
  | true, false => some below
  | false, true => some above
  | false, false => none

/-- Tries grids of more and more digits, at most `fuel` of them. -/
def Interval.search (i : Interval) (first : Int) : Nat → Nat → Decimal
  | 0, k => let place := first - k; ⟨(i.onGrid? place).getD 0, place⟩
  | n + 1, k =>
    let place := first - k
    match i.onGrid? place with
    | some c => ⟨c, place⟩
    | none => Interval.search i first n (k + 1)

/-- The shortest decimal that is read back as `mantissa · 2 ^ exponent`. -/
def shortest (mantissa : Nat) (exponent : Int) : Decimal :=
  if mantissa = 0 then ⟨0, 0⟩
  else
    let i := Interval.of mantissa exponent
    dropZeros 20 (i.search (leadingPlace i.value i.den) 17 0)

/-- `mantissa · 2 ^ exponent` as a quotient of whole numbers. -/
def quotient (mantissa : Nat) (exponent : Int) : Nat × Nat :=
  if 0 ≤ exponent then (mantissa * Nat.pow 2 exponent.toNat, 1)
  else (mantissa, Nat.pow 2 (-exponent).toNat)

/-- `mantissa · 2 ^ exponent` rounded to `places` places after the point. -/
def fixed (places : Nat) (mantissa : Nat) (exponent : Int) : Decimal :=
  let (num, den) := quotient mantissa exponent
  ⟨roundEven (num * Nat.pow 10 places) den, -places⟩

/-- `mantissa · 2 ^ exponent` rounded to `count` digits, `count` at least one. -/
def rounded (count : Nat) (mantissa : Nat) (exponent : Int) : Decimal :=
  if mantissa = 0 then ⟨0, 1 - count⟩
  else
    let (num, den) := quotient mantissa exponent
    let place := leadingPlace num den + 1 - count
    let (num, den) := inUnits num den place
    let c := roundEven num den
    if digitCount c > count then ⟨c / 10, place + 1⟩ else ⟨c, place⟩

/-- The place of the first digit. -/
def firstPlace (d : Decimal) : Int := d.exponent + digitCount d.digits - 1

/-! ## Written forms -/

/-- The digits before and after the point, at least one before it. -/
def split (d : Decimal) : List Char × List Char :=
  let cs := digitChars d.digits
  if 0 ≤ d.exponent then
    (if d.digits = 0 then ['0'] else cs ++ List.replicate d.exponent.toNat '0', [])
  else
    let places := (-d.exponent).toNat
    let cs := List.replicate (places + 1 - cs.length) '0' ++ cs
    (cs.take (cs.length - places), cs.drop (cs.length - places))

/-- The decimal written out in full; `.0` is added to a whole number if `point` asks for it. -/
def positional (d : Decimal) (point : Bool) : String :=
  let (whole, fraction) := d.split
  if fraction.isEmpty then String.ofList whole ++ (if point then ".0" else "")
  else String.ofList whole ++ "." ++ String.ofList fraction

/-- One digit, the point and the other digits, and the exponent after `e`. -/
def scientific (d : Decimal) : String :=
  let cs := digitChars d.digits
  let fraction := cs.drop 1
  String.ofList (cs.take 1) ++ (if fraction.isEmpty then "" else "." ++ String.ofList fraction)
    ++ "e" ++ toString d.firstPlace

end Decimal

/-! ## The host's two number formats -/

/-- A sign in front of a number. -/
def signed (negative : Bool) (s : String) : String := if negative then "-" ++ s else s

/-- A number in full: the shortest digits that read back, never an exponent, and `.0` only where
`point` asks for it. -/
def plainNumber (x : Float) (point : Bool) : String :=
  match Binary.of x with
  | .nan => "NaN"
  | .infinite negative => signed negative "inf"
  | .finite negative m e => signed negative ((Decimal.shortest m e).positional point)

/-- A number for diagnostics: the shortest digits that read back, in full from `1e-4` up to `1e16`
with a point always, and with an exponent elsewhere. -/
def exactNumber (x : Float) : String :=
  match Binary.of x with
  | .nan => "NaN"
  | .infinite negative => signed negative "inf"
  | .finite negative m e =>
    let d := Decimal.shortest m e
    let place := d.firstPlace
    if m = 0 || (-4 ≤ place && place < 16) then signed negative (d.positional true)
    else signed negative d.scientific

/-- A number as the guest's streams write it: whole numbers below `1e16` with `.0`, all others in
full. -/
def streamedNumber (x : Float) : String :=
  match Binary.of x with
  | .finite _ m e =>
    plainNumber x (Binary.isWhole m e && Binary.wholePart m e < 10000000000000000)
  | _ => plainNumber x false

end ScriptShell
