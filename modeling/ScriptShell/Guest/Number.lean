import ScriptShell.Decimal.Reading
import ScriptShell.Guest.Value

/-! # Guest numbers

How the guest reads and writes numbers.  A numeral without point and exponent is an integer if it
fits 64 bits, and a float otherwise; hexadecimal integers wrap around instead.  Floats are written
with at most fourteen digits, and those that look like integers get `.0`. -/

namespace ScriptShell.Guest

namespace Numeral

/-- The blanks that may stand around a numeral. -/
def isSpace (c : Char) : Bool := c == ' ' || (9 ≤ c.toNat && c.toNat ≤ 13)

/-- The value of a hexadecimal digit. -/
def hexDigit? (c : Char) : Option Nat :=
  if c.isDigit then some (c.toNat - '0'.toNat)
  else if 'a' ≤ c && c ≤ 'f' then some (c.toNat - 'a'.toNat + 10)
  else if 'A' ≤ c && c ≤ 'F' then some (c.toNat - 'A'.toNat + 10)
  else none

/-- Whether a character is a hexadecimal digit. -/
def isHexDigit (c : Char) : Bool := (hexDigit? c).isSome

/-- The number that hexadecimal digits write. -/
def hexValue (cs : List Char) : Nat := cs.foldl (fun n c => n * 16 + (hexDigit? c).getD 0) 0

/-- The double nearest to `m · 2 ^ e`; a tie goes to the even mantissa. -/
def scaled (m : Nat) (e : Int) : Float :=
  if m = 0 then 0.0
  else
    let bits : Int := Nat.log2 m + 1
    let low : Int := max (e + bits - 53) (-1074)
    let m' :=
      if low ≤ e then m * Nat.pow 2 (e - low).toNat
      else Decimal.roundEven m (Nat.pow 2 (low - e).toNat)
    if low > 1000 then floatInfinity else Float.scaleB (Float.ofNat m') low

/-- An unsigned hexadecimal numeral after its `0x`, as a float. -/
def hexFloat? (cs : List Char) : Option Float :=
  let whole := cs.takeWhile isHexDigit
  let rest := cs.dropWhile isHexDigit
  let (fraction, rest) :=
    match rest with
    | '.' :: r => (r.takeWhile isHexDigit, r.dropWhile isHexDigit)
    | r => ([], r)
  if whole.isEmpty && fraction.isEmpty then none
  else
    let exponent? : Option Int :=
      match rest with
      | [] => some 0
      | c :: r =>
        if c = 'p' || c = 'P' then
          let (negative, ds) := splitSign r
          if ds.isEmpty || !ds.all Char.isDigit then none
          else some (if negative then -(digitsValue ds : Int) else digitsValue ds)
        else none
    exponent?.map fun e =>
      scaled (hexValue (whole ++ fraction)) (e - 4 * fraction.length)

/-- An unsigned numeral. -/
def unsigned? (cs : List Char) : Option Value :=
  match cs with
  | '0' :: x :: rest =>
    if x = 'x' || x = 'X' then
      if !rest.isEmpty && rest.all isHexDigit then
        some (.int (UInt64.ofNat (hexValue rest % 0x10000000000000000)).toInt64)
      else (hexFloat? rest).map .num
    else decimal cs
  | cs => decimal cs
where
  /-- An unsigned decimal numeral. -/
  decimal (cs : List Char) : Option Value :=
    if !cs.isEmpty && cs.all Char.isDigit && digitsValue cs < 0x8000000000000000 then
      some (.int (Int64.ofNat (digitsValue cs)))
    else (readDecimal? cs).map .num

/-- The number with its sign turned. -/
def negate : Value → Value
  | .int i => .int (-i)
  | .num x => .num (-x)
  | v => v

/-- The number that a text writes, blanks around it aside. -/
def ofChars? (cs : List Char) : Option Value :=
  let cs := cs.dropWhile isSpace
  let cs := (cs.reverse.dropWhile isSpace).reverse
  let (negative, magnitude) := splitSign cs
  if negative && magnitude == "9223372036854775808".toList then some (.int Int64.minValue)
  else (unsigned? magnitude).map fun v => if negative then negate v else v

/-- The number that a guest string writes. -/
def ofBytes? (s : Bytes) : Option Value := ofChars? (s.map fun b => Char.ofNat b.toNat)

/-! ## Written forms -/

/-- Drops the zeros at the end of a fraction. -/
def trimZeros (cs : List Char) : List Char := (cs.reverse.dropWhile (· == '0')).reverse

/-- At least two digits. -/
def twoDigits (n : Nat) : String := if n < 10 then s!"0{n}" else toString n

/-- A finite number with at most `digits` digits: in full if the first digit's place lies between
`-4` and `digits`, else with an exponent.  Zeros at the end of the fraction go unless `keep` asks
for them. -/
def general (digits : Nat) (keep : Bool) (m : Nat) (e : Int) : String :=
  let digits := max digits 1
  let d := Decimal.rounded digits m e
  let place : Int := if m = 0 then 0 else d.firstPlace
  let trim := fun cs : List Char => if keep then cs else trimZeros cs
  if -4 ≤ place && place < digits then
    let (whole, fraction) :=
      if m = 0 then (['0'], List.replicate (digits - 1) '0') else d.split
    let fraction := trim fraction
    String.ofList whole ++ (if fraction.isEmpty then "" else "." ++ String.ofList fraction)
  else
    let cs := Decimal.digitChars d.digits
    let fraction := trim (cs.drop 1)
    String.ofList (cs.take 1) ++ (if fraction.isEmpty then "" else "." ++ String.ofList fraction)
      ++ "e" ++ (if place < 0 then "-" else "+") ++ twoDigits place.natAbs

/-- A float with fourteen digits, and with `.0` if it would look like an integer. -/
def floatText (x : Float) : String :=
  match Binary.of x with
  | .nan => "-nan"
  | .infinite negative => signed negative "inf"
  | .finite negative m e =>
    let s := general 14 false m e
    signed negative (if s.toList.all Char.isDigit then s ++ ".0" else s)

end Numeral
end ScriptShell.Guest
