import ScriptShell.Guest.Library.Format
import ScriptShell.Guest.Library.Pattern

/-! # The string functions

Positions count from one; negative ones count from the end.  Numbers count as the strings that they
are written as.  There is no `string.dump`, so functions have no binary form, and no `string.pack`
or `string.unpack`. -/

namespace ScriptShell.Guest.LibraryCall

open Pattern (Search)

/-- A start position, at least one. -/
def startPosition (length : Nat) (i : Int) : Nat :=
  if 0 < i then i.toNat
  else if i = 0 then 1
  else if i < -(length : Int) then 1
  else (length + i + 1).toNat

/-- An end position, at most the length. -/
def endPosition (length : Nat) (i : Int) : Nat :=
  if (length : Int) < i then length
  else if 0 ≤ i then i.toNat
  else if i < -(length : Int) then 0
  else (length + i + 1).toNat

/-- The bytes between two positions. -/
def between (s : Bytes) (first last : Nat) : Bytes := (s.take last).drop (first - 1)

/-- `string.len`. -/
def stringLen (c : LibraryCall) : Program (List Value) := do
  return [.int (Int64.ofNat (← c.string 1).length)]

/-- `string.sub`. -/
def stringSub (c : LibraryCall) : Program (List Value) := do
  let s ← c.string 1
  let i := startPosition s.length (← c.integer 2)
  let j := endPosition s.length (← c.integerOr 3 (-1))
  return [.str (between s i j)]

/-- `string.byte`. -/
def stringByte (c : LibraryCall) : Program (List Value) := do
  let s ← c.string 1
  let i ← c.integerOr 2 1
  let first := startPosition s.length i
  let last := endPosition s.length (← c.integerOr 3 first)
  return (between s first last).map fun b => .int (Int64.ofNat b.toNat)

/-- The bytes that arguments name, from a position on. -/
def bytesFrom (c : LibraryCall) : Nat → Nat → Program Bytes
  | 0, _ => return []
  | count + 1, n => do
    let i ← c.integer n
    if i < 0 || 255 < i then c.failArgument n "value out of range"
    return UInt8.ofNat i.toNat :: (← bytesFrom c count (n + 1))

/-- `string.char`. -/
def stringChar (c : LibraryCall) : Program (List Value) := do
  return [.str (← c.bytesFrom c.args.length 1)]

/-- A byte with its ASCII letter in upper case. -/
def upperByte (b : UInt8) : UInt8 := if 97 ≤ b && b ≤ 122 then b - 32 else b

/-- A byte with its ASCII letter in lower case. -/
def lowerByte (b : UInt8) : UInt8 := if 65 ≤ b && b ≤ 90 then b + 32 else b

/-- `string.upper`. -/
def stringUpper (c : LibraryCall) : Program (List Value) := do
  return [.str ((← c.string 1).map upperByte)]

/-- `string.lower`. -/
def stringLower (c : LibraryCall) : Program (List Value) := do
  return [.str ((← c.string 1).map lowerByte)]

/-- `string.reverse`. -/
def stringReverse (c : LibraryCall) : Program (List Value) := do
  return [.str (← c.string 1).reverse]

/-- The most bytes of a string that is built. -/
def stringLimit : Nat := 0x80000000

/-- A string repeated with a separator, before what is already there. -/
def repeated (s separator : Bytes) : Nat → Bytes → Bytes
  | 0, acc => acc
  | 1, acc => s ++ acc
  | n + 2, acc => repeated s separator (n + 1) (separator ++ (s ++ acc))

/-- `string.rep`. -/
def stringRep (c : LibraryCall) : Program (List Value) := do
  let s ← c.string 1
  let n ← c.integer 2
  let separator ← if (c.arg 3).isNil then pure [] else c.string 3
  if n ≤ 0 then return [.str []]
  if stringLimit < n.toNat * (s.length + separator.length) then
    c.fail "resulting string too large"
  if s.isEmpty && separator.isEmpty then return [.str []]
  return [.str (repeated s separator n.toNat [])]

/-- Arithmetic on strings that are numerals. -/
def stringArithmetic (c : LibraryCall) (op : BinaryOp) : Program (List Value) := do
  let a := c.arg 1
  let b := c.arg 2
  match Arithmetic.coerceNumber? a, Arithmetic.coerceNumber? b with
  | some x, some y => return [← c.here.arithmetic op x y none none]
  | _, _ =>
    let event := Arithmetic.eventName op
    let handler ←
      match b with
      | .str _ => pure .nil
      | b => metamethod c.runtime b event
    if handler.isNil then
      c.fail ("attempt to " ++ event ++ " a '" ++ a.typeName ++ "' with a '" ++ b.typeName ++ "'")
    else return [← c.here.callFirst event handler [a, b]]

/-- Negation of strings that are numerals. -/
def stringNegate (c : LibraryCall) : Program (List Value) := do
  let a := c.arg 1
  match Arithmetic.coerceNumber? a with
  | some x => return [Numeral.negate x]
  | none =>
    c.fail ("attempt to unm a '" ++ a.typeName ++ "' with a '" ++ (c.arg 2).typeName ++ "'")

/-! ## Patterns -/

/-- Raises the error of a faulty pattern. -/
def orFail {α : Type} (c : LibraryCall) (result : Except String α) : Program α :=
  match result with
  | .ok a => return a
  | .error e => c.fail e

/-- The bytes with a meaning of their own in patterns. -/
def isSpecial (b : UInt8) : Bool := (Utf8.encode "^$*+?.([%-").contains b

/-- Where a string first occurs in another one from a position on. -/
def plainFind? (needle : Bytes) : Bytes → Nat → Option Nat
  | [], n => if needle.isEmpty then some n else none
  | b :: rest, n =>
    if needle.isPrefixOf (b :: rest) then some n else plainFind? needle rest (n + 1)

/-- `string.find`. -/
def stringFind (c : LibraryCall) : Program (List Value) := do
  let s ← c.string 1
  let p ← c.string 2
  let start := startPosition s.length (← c.integerOr 3 1)
  if s.length + 1 < start then return [.nil]
  if (c.arg 4).truthy || !p.any isSpecial then
    match plainFind? p (s.drop (start - 1)) start with
    | some i => return [.int (Int64.ofNat i), .int (Int64.ofNat (i + p.length - 1))]
    | none => return [.nil]
  let (m, anchored) := Search.unanchored ⟨s.toArray, p.toArray⟩
  match ← c.orFail (m.find anchored (s.length + 2) (start - 1)) with
  | none => return [.nil]
  | some found =>
    let captures ← c.orFail (found.captures.mapM m.captureValue)
    return .int (Int64.ofNat (found.start + 1)) :: .int (Int64.ofNat found.stop) :: captures

/-- `string.match`. -/
def stringMatch (c : LibraryCall) : Program (List Value) := do
  let s ← c.string 1
  let p ← c.string 2
  let start := startPosition s.length (← c.integerOr 3 1)
  if s.length + 1 < start then return [.nil]
  let (m, anchored) := Search.unanchored ⟨s.toArray, p.toArray⟩
  match ← c.orFail (m.find anchored (s.length + 2) (start - 1)) with
  | none => return [.nil]
  | some found => c.orFail (m.captureValues found)

/-- `string.gmatch`. -/
def stringGmatch (c : LibraryCall) : Program (List Value) := do
  let s ← c.string 1
  let p ← c.string 2
  let start := startPosition s.length (← c.integerOr 3 1)
  let position ← Program.ask (.newCell (.int (Int64.ofNat (min start (s.length + 2)))))
  return [.func (← Program.ask (.newFunction ⟨c.runtime, .gmatch s p position⟩))]

/-- The next match of `string.gmatch`.  The variable holds the position to go on from; a negative
one tells that no empty match may stand right there. -/
def gmatchStep (c : LibraryCall) (s p : Bytes) (position : CellRef) : Program (List Value) := do
  let at_ : Int :=
    match ← Program.ask (.cell position) with
    | .int i => i.toInt
    | _ => 0
  let m : Search := ⟨s.toArray, p.toArray⟩
  let start := at_.natAbs - 1
  if s.length < start then return [.nil]
  let found? ← c.orFail (m.find false (s.length + 2) start)
  let found? ←
    match found? with
    | some f =>
      if at_ < 0 && f.stop = start then
        if start < s.length then c.orFail (m.find false (s.length + 2) (start + 1)) else pure none
      else pure found?
    | none => pure none
  match found? with
  | none =>
    Program.ask (.setCell position (.int (Int64.ofNat (s.length + 2))))
    return [.nil]
  | some f =>
    Program.ask (.setCell position (.int (-(Int64.ofNat (f.stop + 1)))))
    c.orFail (m.captureValues f)

/-- A replacement text for one match. -/
def expand (m : Search) (found : Pattern.Search.Found) (whole : Bytes) :
    Bytes → Except String Bytes
  | [] => .ok []
  | [37] => .error "invalid use of '%' in replacement string"
  | 37 :: b :: rest => do
    let more ← expand m found whole rest
    if b = 37 then return 37 :: more
    else if b = 48 then return whole ++ more
    else if 49 ≤ b && b ≤ 57 then
      let n := b.toNat - 49
      let values ← m.captureValues found
      match values[n]? with
      | some v => return (Here.piece? v).getD [] ++ more
      | none => throw s!"invalid capture index %{n + 1} in replacement string"
    else throw "invalid use of '%' in replacement string"
  | b :: rest => do return b :: (← expand m found whole rest)

/-- What stands in for one match. -/
def replacement (c : LibraryCall) (m : Search) (found : Pattern.Search.Found) : Program Bytes := do
  let whole := m.slice found.start (found.stop - found.start)
  let key := fun () => c.orFail (m.captureValues found)
  let value ←
    match c.arg 3 with
    | .table _ => c.here.index none (c.arg 3) (first (← key ()))
    | .func _ => pure (first (← Program.callValue (c.arg 3) (← key ()) c.here.sites))
    | v => pure (.str (← c.orFail (expand m found whole ((Here.piece? v).getD []))))
  match value with
  | .nil | .bool false => return whole
  | v =>
    match Here.piece? v with
    | some s => return s
    | none => c.fail ("invalid replacement value (a " ++ v.typeName ++ ")")

/-- Replaces at most `limit` matches from `s` on; gives the rest of the text and their number.  No
match may end where the one before it ended, at `last`. -/
def replaceFrom (c : LibraryCall) (m : Search) (anchored : Bool) :
    Nat → Nat → Nat → Option Nat → Program (Bytes × Nat)
  | 0, _, s, _ => return (m.slice s (m.subject.size - s), 0)
  | _, 0, s, _ => return (m.slice s (m.subject.size - s), 0)
  | fuel + 1, limit + 1, s, last => do
    let found? ← c.orFail (m.matchFrom m.fuel s 0 [])
    match found?.filter fun f => some f.1 ≠ last with
    | some (stop, captures) =>
      let text ← c.replacement m ⟨s, stop, captures⟩
      let (rest, count) ←
        if anchored then pure (m.slice stop (m.subject.size - stop), 0)
        else replaceFrom c m anchored fuel limit stop (some stop)
      return (text ++ rest, count + 1)
    | none =>
      if anchored || m.subject.size ≤ s then return (m.slice s (m.subject.size - s), 0)
      else
        let (rest, count) ← replaceFrom c m anchored fuel (limit + 1) (s + 1) last
        return (m.slice s 1 ++ rest, count)

/-- `string.gsub`. -/
def stringGsub (c : LibraryCall) : Program (List Value) := do
  let s ← c.string 1
  let p ← c.string 2
  match c.arg 3 with
  | .str _ | .int _ | .num _ | .table _ | .func _ => pure ()
  | _ => c.failType 3 "string/function/table"
  let limit ← c.integerOr 4 (s.length + 1)
  let (m, anchored) := Search.unanchored ⟨s.toArray, p.toArray⟩
  let (text, count) ← c.replaceFrom m anchored (2 * s.length + 4) limit.toNat 0 none
  return [.str text, .int (Int64.ofNat count)]

end ScriptShell.Guest.LibraryCall
