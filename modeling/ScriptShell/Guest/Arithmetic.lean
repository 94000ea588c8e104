import ScriptShell.Guest.Number
import ScriptShell.Guest.Syntax

/-! # Arithmetic of the guest

Integers wrap around at 64 bits, and an operation with a float is done on floats.  Division and
power always give floats.  The remainder has the sign of the divisor, and the quotient of `//` is
rounded down.  Integers and floats are compared by their exact values. -/

namespace ScriptShell.Guest.Arithmetic

/-- The float nearest to a number. -/
def toFloat : Value → Option Float
  | .int i => some (Float.ofInt i.toInt)
  | .num x => some x
  | _ => none

/-- The integer that a number is. -/
def toInteger? : Value → Option Int64
  | .int i => some i
  | .num x => exactInt64? x
  | _ => none

/-- The integer that a number is, or that a string writes. -/
def coerceInteger? : Value → Option Int64
  | .str s => (Numeral.ofBytes? s).bind toInteger?
  | v => toInteger? v

/-- The number that a value is, or that a string writes. -/
def coerceNumber? : Value → Option Value
  | .int i => some (.int i)
  | .num x => some (.num x)
  | .str s => Numeral.ofBytes? s
  | _ => none

/-- A 64-bit integer from any integer, wrapping around. -/
def wrap (n : Int) : Int64 := Int64.ofInt n

/-- The remainder of the quotient that is rounded toward zero. -/
def truncatedRemainder (x y : Float) : Float :=
  match Binary.of x, Binary.of y with
  | .finite negative m e, .finite _ m' e' =>
    if m' = 0 then floatNaN
    else
      let low := min e e'
      let r := m * Nat.pow 2 (e - low).toNat % (m' * Nat.pow 2 (e' - low).toNat)
      let r := Numeral.scaled r low
      if negative then -r else r
  | .finite .., .infinite _ => x
  | _, _ => floatNaN

/-- The remainder with the sign of the divisor. -/
def floatRemainder (x y : Float) : Float :=
  let m := truncatedRemainder x y
  if (if m > 0.0 then y < 0.0 else m < 0.0 && !(y < 0.0) && y != m) then m + y else m

/-- A shift to the left by a signed amount; bits that leave the word are lost. -/
def shiftLeft (a n : Int64) : Int64 :=
  let bits := a.toUInt64
  let n := n.toInt
  if n ≤ -64 || 64 ≤ n then 0
  else if 0 ≤ n then (bits <<< UInt64.ofNat n.toNat).toInt64
  else (bits >>> UInt64.ofNat (-n).toNat).toInt64

/-- What an operation on numbers can give. -/
inductive Outcome where
  /-- A number. -/
  | value (v : Value)
  /-- A fault. -/
  | fault (message : String)
  /-- An operand is of the wrong type. -/
  | mismatch

/-- An operation on integers if both are, else on floats. -/
def mixed (a b : Value) (ints : Int64 → Int64 → Outcome) (floats : Float → Float → Float) :
    Outcome :=
  match a, b with
  | .int i, .int j => ints i j
  | _, _ =>
    match toFloat a, toFloat b with
    | some x, some y => .value (.num (floats x y))
    | _, _ => .mismatch

/-- An operation on floats. -/
def floating (a b : Value) (floats : Float → Float → Float) : Outcome :=
  match toFloat a, toFloat b with
  | some x, some y => .value (.num (floats x y))
  | _, _ => .mismatch

/-- An operation on the bits of integers. -/
def bitwise (a b : Value) (ints : Int64 → Int64 → Int64) : Outcome :=
  match toInteger? a, toInteger? b with
  | some i, some j => .value (.int (ints i j))
  | _, _ => .mismatch

/-- An arithmetic operation on numbers; comparisons and concatenation are none. -/
def compute (op : BinaryOp) (a b : Value) : Outcome :=
  match op with
  | .add => mixed a b (fun i j => .value (.int (i + j))) (· + ·)
  | .sub => mixed a b (fun i j => .value (.int (i - j))) (· - ·)
  | .mul => mixed a b (fun i j => .value (.int (i * j))) (· * ·)
  | .div => floating a b (· / ·)
  | .pow => floating a b Float.pow
  | .mod =>
    mixed a b
      (fun i j =>
        if j = 0 then .fault "attempt to perform 'n%%0'"
        else .value (.int (wrap (Int.fmod i.toInt j.toInt))))
      floatRemainder
  | .floorDiv =>
    mixed a b
      (fun i j =>
        if j = 0 then .fault "attempt to perform 'n//0'"
        else .value (.int (wrap (Int.fdiv i.toInt j.toInt))))
      (fun x y => (x / y).floor)
  | .bitAnd => bitwise a b (· &&& ·)
  | .bitOr => bitwise a b (· ||| ·)
  | .bitXor => bitwise a b (· ^^^ ·)
  | .shiftLeft => bitwise a b shiftLeft
  | .shiftRight => bitwise a b fun i n => shiftLeft i (if n = Int64.minValue then n else -n)
  | .concat | .eq | .ne | .lt | .le | .gt | .ge => .mismatch

/-- Whether an operation works on bits. -/
def isBitwise : BinaryOp → Bool
  | .bitAnd | .bitOr | .bitXor | .shiftLeft | .shiftRight => true
  | _ => false

/-- The name of an operation, as its metamethod is named. -/
def eventName : BinaryOp → String
  | .add => "add"
  | .sub => "sub"
  | .mul => "mul"
  | .div => "div"
  | .mod => "mod"
  | .pow => "pow"
  | .floorDiv => "idiv"
  | .bitAnd => "band"
  | .bitOr => "bor"
  | .bitXor => "bxor"
  | .shiftLeft => "shl"
  | .shiftRight => "shr"
  | .concat => "concat"
  | .eq | .ne => "eq"
  | .lt | .gt => "lt"
  | .le | .ge => "le"

/-! ## Order -/

/-- Where an integer stands in relation to `± m · 2 ^ e`. -/
def compareWithBinary (i : Int) (negative : Bool) (m : Nat) (e : Int) : Ordering :=
  let m : Int := if negative then -m else m
  if 0 ≤ e then compare i (m * Nat.pow 2 e.toNat) else compare (i * Nat.pow 2 (-e).toNat) m

/-- Where an integer stands in relation to a float. -/
def compareIntFloat (i : Int64) (x : Float) : Option Ordering :=
  match Binary.of x with
  | .nan => none
  | .infinite negative => some (if negative then .gt else .lt)
  | .finite negative m e => some (compareWithBinary i.toInt negative m e)

/-- The order of two numbers; what is not a number has none. -/
def order (a b : Value) : Option Ordering :=
  match a, b with
  | .int i, .int j => some (compare i.toInt j.toInt)
  | .int i, .num y => compareIntFloat i y
  | .num x, .int j => (compareIntFloat j x).map Ordering.swap
  | .num x, .num y =>
    if x < y then some .lt else if x == y then some .eq else if y < x then some .gt else none
  | _, _ => none

/-- The order of two byte strings. -/
def orderBytes : Bytes → Bytes → Ordering
  | [], [] => .eq
  | [], _ :: _ => .lt
  | _ :: _, [] => .gt
  | a :: as, b :: bs => if a < b then .lt else if b < a then .gt else orderBytes as bs

end ScriptShell.Guest.Arithmetic
