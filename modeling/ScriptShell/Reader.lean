import ScriptShell.Decimal.Reading
import ScriptShell.Text.Blank

/-! # Reading input

A reader is the bytes that have not been read yet.  Each format takes a prefix of them, which
depends on nothing else, and gives one item. -/

namespace ScriptShell

/-- What a guest asks of an input. -/
inductive ReadFormat where
  /-- At most this many bytes. -/
  | count (n : Int64)
  /-- A line, with its line break or without. -/
  | line (keepBreak : Bool)
  /-- All that is left. -/
  | all
  /-- A number. -/
  | number
  deriving DecidableEq, Repr, Inhabited

/-- What one format gave. -/
inductive ReadItem where
  /-- Nothing: the input has ended, or no number stands there. -/
  | absent
  /-- Bytes. -/
  | bytes (b : Bytes)
  /-- A whole number. -/
  | int (i : Int64)
  /-- A number that is not whole, or too large. -/
  | num (x : Float)
  deriving Inhabited

namespace Reader

/-- Splits after the first line break, or at the end if there is none. -/
def splitLine : Bytes → Bytes × Bytes
  | [] => ([], [])
  | b :: rest =>
    if b = 10 then ([b], rest)
    else
      let (line, rest) := splitLine rest
      (b :: line, rest)

/-- A line without its line break. -/
def chomp (line : Bytes) : Bytes := if line.getLast? = some 10 then line.dropLast else line

/-- The bytes that may belong to a number. -/
def isNumberByte (b : UInt8) : Bool :=
  (48 ≤ b && b ≤ 57) || (65 ≤ b && b ≤ 90) || (97 ≤ b && b ≤ 122) || b == 43 || b == 45 || b == 46

/-- The number that a run of number bytes writes. -/
def numberOf (token : Bytes) : ReadItem :=
  let cs := token.map fun b => Char.ofNat b.toNat
  match readInt64? cs with
  | some i => .int i
  | none =>
    match readFloat? cs with
    | some x => .num x
    | none => .absent

/-- One item and the bytes that are left. -/
def read (format : ReadFormat) (input : Bytes) : ReadItem × Bytes :=
  match format with
  | .count n =>
    let k := if 0 < n.toInt then n.toInt.toNat else 0
    if input.isEmpty then (.absent, input) else (.bytes (input.take k), input.drop k)
  | .line keepBreak =>
    if input.isEmpty then (.absent, input)
    else
      let (line, rest) := splitLine input
      (.bytes (if keepBreak then line else chomp line), rest)
  | .all => (.bytes input, [])
  | .number =>
    let input := input.dropWhile isAsciiBlank
    if input.isEmpty then (.absent, input)
    else (numberOf (input.takeWhile isNumberByte), input.dropWhile isNumberByte)

/-- The items of several formats in order, up to the first one that gives nothing. -/
def readAll : List ReadFormat → Bytes → List ReadItem × Bytes
  | [], input => ([], input)
  | f :: fs, input =>
    match read f input with
    | (.absent, rest) => ([.absent], rest)
    | (item, rest) =>
      let (items, rest) := readAll fs rest
      (item :: items, rest)

end Reader
end ScriptShell
