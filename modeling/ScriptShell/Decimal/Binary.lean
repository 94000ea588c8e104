/-! # The exact value of a floating-point number

A finite double is `± mantissa · 2 ^ exponent` for a whole `mantissa` below `2 ^ 53`.  `Binary.of`
reads these numbers off the bits, so that all conversions to and from decimals are exact
arithmetic on whole numbers.  `truncate` drops the fraction and stops at the ends of the 64-bit
range. -/

namespace ScriptShell

/-- The exact content of a double. -/
inductive Binary where
  /-- Not a number. -/
  | nan
  /-- Beyond all finite numbers. -/
  | infinite (negative : Bool)
  /-- The number `± mantissa · 2 ^ exponent`. -/
  | finite (negative : Bool) (mantissa : Nat) (exponent : Int)
  deriving DecidableEq, Repr

namespace Binary

/-- The content of the 64 bits of a double: one bit of sign, 11 of exponent, 52 of mantissa. -/
def ofBits (bits : Nat) : Binary :=
  let negative := bits / 0x8000000000000000 % 2 == 1
  let exponent : Nat := bits / 0x10000000000000 % 0x800
  let mantissa : Nat := bits % 0x10000000000000
  if exponent = 2047 then
    if mantissa = 0 then .infinite negative else .nan
  else if exponent = 0 then .finite negative mantissa (-1074)
  else .finite negative (mantissa + 0x10000000000000) ((exponent : Int) - 1075)

/-- The content of a double. -/
def of (x : Float) : Binary := ofBits x.toBits.toNat

/-- The whole part of `mantissa · 2 ^ exponent`. -/
def wholePart (mantissa : Nat) (exponent : Int) : Nat :=
  if 0 ≤ exponent then mantissa * Nat.pow 2 exponent.toNat
  else mantissa / Nat.pow 2 (-exponent).toNat

/-- Whether `mantissa · 2 ^ exponent` has no fraction. -/
def isWhole (mantissa : Nat) (exponent : Int) : Bool :=
  0 ≤ exponent || mantissa % Nat.pow 2 (-exponent).toNat == 0

end Binary

/-- The number nearest to `n` in the 64-bit range. -/
def clampInt64 (n : Int) : Int64 :=
  if n < Int64.minValue.toInt then Int64.minValue
  else if n > Int64.maxValue.toInt then Int64.maxValue
  else Int64.ofInt n

/-- The whole part of a number; the ends of the 64-bit range stand for all numbers beyond them, and
zero for what is not a number. -/
def truncate (x : Float) : Int64 :=
  match Binary.of x with
  | .nan => 0
  | .infinite negative => if negative then Int64.minValue else Int64.maxValue
  | .finite negative m e =>
    let n : Int := Binary.wholePart m e
    clampInt64 (if negative then -n else n)

/-- The integer equal to a number, if there is one in the 64-bit range. -/
def exactInt64? (x : Float) : Option Int64 :=
  match Binary.of x with
  | .finite negative m e =>
    if Binary.isWhole m e then
      let n : Int := Binary.wholePart m e
      let n := if negative then -n else n
      if Int64.minValue.toInt ≤ n && n ≤ Int64.maxValue.toInt then some (Int64.ofInt n) else none
    else none
  | _ => none

end ScriptShell
