import ScriptShell.Guest.Library.Arguments

/-! # The mathematical functions

Integers stay integers where the result is one.  The transcendental functions and the random numbers
are missing. -/

namespace ScriptShell.Guest.LibraryCall

/-- The integer that a float without fraction is, if it is in range, else the float itself. -/
def floatToInteger (x : Float) : Value :=
  match exactInt64? x with
  | some i => .int i
  | none => .num x

/-- `math.type`. -/
def mathType (c : LibraryCall) : Program (List Value) := do
  match ← c.any 1 with
  | .int _ => return [.text "integer"]
  | .num _ => return [.text "float"]
  | _ => return [.nil]

/-- `math.tointeger`. -/
def mathTointeger (c : LibraryCall) : Program (List Value) := do
  match Arithmetic.coerceInteger? (c.arg 1) with
  | some i => return [.int i]
  | none =>
    let _ ← c.any 1
    return [.nil]

/-- `math.floor`. -/
def mathFloor (c : LibraryCall) : Program (List Value) := do
  match ← c.number 1 with
  | .num x => return [floatToInteger x.floor]
  | v => return [v]

/-- `math.ceil`. -/
def mathCeil (c : LibraryCall) : Program (List Value) := do
  match ← c.number 1 with
  | .num x => return [floatToInteger x.ceil]
  | v => return [v]

/-- `math.abs`. -/
def mathAbs (c : LibraryCall) : Program (List Value) := do
  match ← c.number 1 with
  | .int i => return [.int (if i < 0 then -i else i)]
  | .num x => return [.num x.abs]
  | v => return [v]

/-- `math.sqrt`. -/
def mathSqrt (c : LibraryCall) : Program (List Value) := do
  return [.num (← c.float 1).sqrt]

/-- `math.fmod`. -/
def mathFmod (c : LibraryCall) : Program (List Value) := do
  match ← c.number 1, ← c.number 2 with
  | .int i, .int j =>
    if j = 0 then c.failArgument 2 "zero"
    return [.int (Int64.ofInt (Int.tmod i.toInt j.toInt))]
  | a, b =>
    return [.num (Arithmetic.truncatedRemainder ((Arithmetic.toFloat a).getD 0.0)
      ((Arithmetic.toFloat b).getD 0.0))]

/-- The best of the arguments from position `n` on. -/
def bestFrom (c : LibraryCall) (better : Ordering) : Nat → Nat → Value → Program Value
  | 0, _, best => return best
  | count + 1, n, best => do
    let v ← c.number n
    bestFrom c better count (n + 1) (if Arithmetic.order v best = some better then v else best)

/-- `math.max`. -/
def mathMax (c : LibraryCall) : Program (List Value) := do
  return [← c.bestFrom .gt (c.args.length - 1) 2 (← c.number 1)]

/-- `math.min`. -/
def mathMin (c : LibraryCall) : Program (List Value) := do
  return [← c.bestFrom .lt (c.args.length - 1) 2 (← c.number 1)]

end ScriptShell.Guest.LibraryCall
