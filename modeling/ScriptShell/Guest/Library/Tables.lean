import ScriptShell.Guest.Library.Arguments

/-! # The table functions

They work on anything that has the metamethods of a table, and read and write through those.
`table.move` is missing. -/

namespace ScriptShell.Guest.LibraryCall

/-- Checks that an argument is a table, or has the metamethods of one. -/
def tableLike (c : LibraryCall) (n : Nat) (events : List String) : Program Value := do
  match c.arg n with
  | .table t => return .table t
  | v =>
    match ← metatable? c.runtime v with
    | none => c.failType n "table"
    | some m =>
      let m ← Program.ask (.table m)
      if events.all fun e => !(m.get (.text ("__" ++ e))).isNil then return v
      else c.failType n "table"

/-- The length of an argument as an integer. -/
def lengthOf (c : LibraryCall) (v : Value) : Program Int := do
  match Arithmetic.toInteger? (← c.here.length v none) with
  | some i => return i.toInt
  | none => c.fail "object length is not an integer"

/-- Reads a position. -/
def getAt (c : LibraryCall) (t : Value) (i : Int) : Program Value :=
  c.here.index none t (.int (Int64.ofInt i))

/-- Writes a position. -/
def setAt (c : LibraryCall) (t : Value) (i : Int) (v : Value) : Program Unit :=
  c.here.setIndex none t (.int (Int64.ofInt i)) v

/-- The items of a concatenation from position `i` on, `count` of them. -/
def concatItems (c : LibraryCall) (t : Value) (separator : Bytes) :
    Nat → Int → Program Bytes
  | 0, _ => return []
  | count + 1, i => do
    let v ← c.getAt t i
    match Here.piece? v with
    | none => c.fail ("invalid value (at index " ++ toString i ++ ") in table for 'concat'")
    | some s =>
      let rest ← concatItems c t separator count (i + 1)
      return s ++ (if count = 0 then [] else separator) ++ rest

/-- `table.concat`. -/
def tableConcat (c : LibraryCall) : Program (List Value) := do
  let t ← c.tableLike 1 ["index", "len"]
  let length ← c.lengthOf t
  let separator ← if (c.arg 2).isNil then pure [] else c.string 2
  let i ← c.integerOr 3 1
  let j ← c.integerOr 4 length
  return [.str (← c.concatItems t separator (j - i + 1).toNat i)]

/-- The most values that one call returns. -/
def resultLimit : Nat := 1000000

/-- The values at `count` positions from `i` on. -/
def valuesFrom (c : LibraryCall) (t : Value) : Nat → Int → Program (List Value)
  | 0, _ => return []
  | count + 1, i => do
    let v ← c.getAt t i
    return v :: (← valuesFrom c t count (i + 1))

/-- `table.unpack`. -/
def tableUnpack (c : LibraryCall) : Program (List Value) := do
  let i ← c.integerOr 2 1
  let j ← if (c.arg 3).isNil then c.lengthOf (c.arg 1) else c.integer 3
  if j < i then return []
  if (resultLimit : Int) ≤ j - i then c.fail "too many results to unpack"
  c.valuesFrom (c.arg 1) (j - i + 1).toNat i

/-- `table.pack`. -/
def tablePack (c : LibraryCall) : Program (List Value) := do
  let t ← Program.ask (.newTable (Table.withRoom c.args.length 1))
  let _ ← Program.forAll (fun (v, i) =>
    Program.ask (.setSlot t (.int (Int64.ofNat (i + 1))) v)) c.args.zipIdx
  Program.ask (.setSlot t (.text "n") (.int (Int64.ofNat c.args.length)))
  return [.table t]

/-- Moves `count` values up by one position, the one at `i` first. -/
def shiftUp (c : LibraryCall) (t : Value) : Nat → Int → Program Unit
  | 0, _ => return ()
  | count + 1, i => do
    c.setAt t (i + 1) (← c.getAt t i)
    shiftUp c t count (i - 1)

/-- Moves `count` values down by one position, the one after `i` first. -/
def shiftDown (c : LibraryCall) (t : Value) : Nat → Int → Program Unit
  | 0, _ => return ()
  | count + 1, i => do
    c.setAt t i (← c.getAt t (i + 1))
    shiftDown c t count (i + 1)

/-- `table.insert`. -/
def tableInsert (c : LibraryCall) : Program (List Value) := do
  let t ← c.tableLike 1 ["index", "newindex", "len"]
  let e := (← c.lengthOf t) + 1
  match c.args.length with
  | 2 =>
    c.setAt t e (c.arg 2)
    return []
  | 3 =>
    let p ← c.integer 2
    if p < 1 || e < p then c.failArgument 2 "position out of bounds"
    c.shiftUp t (e - p).toNat (e - 1)
    c.setAt t p (c.arg 3)
    return []
  | _ => c.fail "wrong number of arguments to 'insert'"

/-- `table.remove`. -/
def tableRemove (c : LibraryCall) : Program (List Value) := do
  let t ← c.tableLike 1 ["index", "newindex", "len"]
  let size ← c.lengthOf t
  let p ← c.integerOr 2 size
  if p ≠ size && !(1 ≤ p && p ≤ size + 1) then
    c.failArgument 2 "position out of bounds"
  let v ← c.getAt t p
  c.shiftDown t (size - p).toNat p
  c.setAt t (max p size) .nil
  return [v]

/-- Puts a value into a sorted list, after those that are not greater. -/
def insertSorted (less : Value → Value → Program Bool) (v : Value) :
    List Value → Program (List Value)
  | [] => return [v]
  | w :: rest => do
    if ← less v w then return v :: w :: rest
    else return w :: (← insertSorted less v rest)

/-- Sorts values. -/
def sortValues (less : Value → Value → Program Bool) : List Value → Program (List Value)
  | [] => return []
  | v :: rest => do insertSorted less v (← sortValues less rest)

/-- `table.sort`. -/
def tableSort (c : LibraryCall) : Program (List Value) := do
  let t ← c.tableLike 1 ["index", "newindex", "len"]
  let size ← c.lengthOf t
  let less : Value → Value → Program Bool ←
    match c.arg 2 with
    | .nil => pure fun a b => c.here.ordered true a b
    | .func f => pure fun a b => do return (← c.here.callFirst "lt" (.func f) [a, b]).truthy
    | _ => c.failType 2 "function"
  let vs ← sortValues less (← c.valuesFrom t size.toNat 1)
  let _ ← Program.forAll (fun (v, i) => c.setAt t (Int.ofNat (i + 1)) v) vs.zipIdx
  return []

end ScriptShell.Guest.LibraryCall
