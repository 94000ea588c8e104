import ScriptShell.Decimal.Shortest

/-! # Reading numbers

`readInt?` reads a whole number with an optional sign and refuses one outside the given range;
`readFloat?` reads a decimal number, with the words for infinity and not-a-number in any case. -/

namespace ScriptShell

/-- The number that a list of decimal digits writes. -/
def digitsValue (cs : List Char) : Nat := cs.foldl (fun n c => n * 10 + (c.toNat - '0'.toNat)) 0

/-- Splits an optional sign off; the flag tells a minus. -/
def splitSign : List Char → Bool × List Char
  | '-' :: r => (true, r)
  | '+' :: r => (false, r)
  | r => (false, r)

/-- A whole number between `low` and `high`, with an optional sign and nothing around it. -/
def readInt? (low high : Int) (cs : List Char) : Option Int :=
  let (negative, ds) := splitSign cs
  if ds.isEmpty || !ds.all Char.isDigit then none
  else
    let n : Int := digitsValue ds
    let n := if negative then -n else n
    if low ≤ n && n ≤ high then some n else none

/-- A 64-bit integer. -/
def readInt64? (cs : List Char) : Option Int64 :=
  (readInt? Int64.minValue.toInt Int64.maxValue.toInt cs).map Int64.ofInt

/-- A 32-bit integer. -/
def readInt32? (cs : List Char) : Option Int := readInt? (-0x80000000) 0x7FFFFFFF cs

/-- Positive infinity. -/
def floatInfinity : Float := 1.0 / 0.0

/-- Not a number. -/
def floatNaN : Float := 0.0 / 0.0

/-- The double nearest to `digits · 10 ^ exponent`. -/
def nearestFloat (digits : Nat) (exponent : Int) : Float :=
  let place : Int := exponent + Decimal.digitCount digits
  if digits = 0 then 0.0
  else if place > 310 then floatInfinity
  else if place < -330 then 0.0
  else Float.ofScientific digits (exponent < 0) exponent.natAbs

/-- The exponent part of a number: nothing, or `e` and a whole number. -/
def readExponent? : List Char → Option Int
  | [] => some 0
  | c :: r =>
    if c = 'e' || c = 'E' then
      let (negative, ds) := splitSign r
      if ds.isEmpty || !ds.all Char.isDigit then none
      else
        let n : Int := digitsValue ds
        some (if negative then -n else n)
    else none

/-- A decimal number without sign: digits, a point among them, and an exponent. -/
def readDecimal? (cs : List Char) : Option Float :=
  let whole := cs.takeWhile Char.isDigit
  let rest := cs.dropWhile Char.isDigit
  let (fraction, rest) :=
    match rest with
    | '.' :: r => (r.takeWhile Char.isDigit, r.dropWhile Char.isDigit)
    | r => ([], r)
  if whole.isEmpty && fraction.isEmpty then none
  else (readExponent? rest).map fun e =>
    nearestFloat (digitsValue (whole ++ fraction)) (e - fraction.length)

/-- A number: a sign, and a decimal number or one of the words `inf`, `infinity` and `nan`. -/
def readFloat? (cs : List Char) : Option Float :=
  let (negative, r) := splitSign cs
  let magnitude :=
    match String.ofList (r.map Char.toLower) with
    | "inf" | "infinity" => some floatInfinity
    | "nan" => some floatNaN
    | _ => readDecimal? r
  magnitude.map fun x => if negative then -x else x

end ScriptShell
