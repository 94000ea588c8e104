import ScriptShell.Text.Utf8
import ScriptShell.Guest.Number

/-! # Backslash escapes of programs

The programs that write text read backslash escapes in it: letters for control characters, octal and
hexadecimal numbers for bytes, and `\c`, which ends all output. -/

namespace ScriptShell.Escape

/-- Which escapes are read. -/
structure Dialect where
  /-- Whether a number may start with a zero that does not count as one of its three digits. -/
  leadingZero : Bool := false
  /-- Whether a number must start with a zero. -/
  onlyZero : Bool := false
  /-- Whether hexadecimal numbers are read. -/
  hexadecimal : Bool := true
  deriving DecidableEq, Repr

/-- The control character of a letter. -/
def control? (b : UInt8) : Option UInt8 :=
  match Char.ofNat b.toNat with
  | 'a' => some 7
  | 'b' => some 8
  | 'e' => some 27
  | 'f' => some 12
  | 'n' => some 10
  | 'r' => some 13
  | 't' => some 9
  | 'v' => some 11
  | '\\' => some 92
  | _ => none

/-- Whether a byte is an octal digit. -/
def isOctal (b : UInt8) : Bool := 48 ≤ b && b ≤ 55

/-- The byte that octal digits write. -/
def octal (ds : Bytes) : UInt8 := UInt8.ofNat (ds.foldl (fun n d => n * 8 + (d.toNat - 48)) 0)

/-- The digits of an octal number and what stands after it. -/
def octalDigits (d : Dialect) (bs : Bytes) : Bytes × Bytes :=
  match bs with
  | 48 :: rest =>
    if d.leadingZero then
      let ds := (rest.take 3).takeWhile isOctal
      (48 :: ds, rest.drop ds.length)
    else
      let ds := (bs.take 3).takeWhile isOctal
      (ds, bs.drop ds.length)
  | bs =>
    if d.onlyZero then ([], bs)
    else
      let ds := (bs.take 3).takeWhile isOctal
      (ds, bs.drop ds.length)

/-- What one escape gives, after its backslash: its bytes and what stands after it, or nothing if it
ends all output. -/
def read (d : Dialect) (bs : Bytes) : Option (Bytes × Bytes) :=
  match bs with
  | [] => some ([92], [])
  | 99 :: _ => none
  | b :: rest =>
    match control? b with
    | some c => some ([c], rest)
    | none =>
      let (ds, after) := octalDigits d bs
      if !ds.isEmpty then some ([octal ds], after)
      else if b = 120 && d.hexadecimal then
        let ds := (rest.take 2).takeWhile fun x => Guest.Numeral.isHexDigit (Char.ofNat x.toNat)
        if ds.isEmpty then some ([92, b], rest)
        else
          let n := Guest.Numeral.hexValue (ds.map fun x => Char.ofNat x.toNat)
          some ([UInt8.ofNat n], rest.drop ds.length)
      else some ([92, b], rest)

/-- A text with its escapes replaced, and whether output goes on after it; `n` bounds the number of
pieces. -/
def expandWithin (d : Dialect) : Nat → Bytes → Bytes × Bool
  | 0, _ => ([], true)
  | _, [] => ([], true)
  | n + 1, 92 :: rest =>
    match read d rest with
    | none => ([], false)
    | some (out, rest) =>
      let (more, goesOn) := expandWithin d n rest
      (out ++ more, goesOn)
  | n + 1, b :: rest =>
    let (more, goesOn) := expandWithin d n rest
    (b :: more, goesOn)

/-- A text with its escapes replaced, and whether output goes on after it. -/
def expand (d : Dialect) (bs : Bytes) : Bytes × Bool := expandWithin d bs.length bs

end ScriptShell.Escape
