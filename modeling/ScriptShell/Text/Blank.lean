import ScriptShell.Text.Utf8

/-! # Blank characters

A character is blank if Unicode gives it the property White_Space.  Blank characters separate the
words of a command line and are trimmed from its ends. -/

namespace ScriptShell

/-- Unicode's White_Space property, all 25 characters of it. -/
def isBlank (c : Char) : Bool :=
  let n := c.toNat
  (9 ≤ n && n ≤ 13) || n == 0x20 || n == 0x85 || n == 0xA0 || n == 0x1680 ||
    (0x2000 ≤ n && n ≤ 0x200A) || n == 0x2028 || n == 0x2029 || n == 0x202F || n == 0x205F ||
    n == 0x3000

/-- Drops the characters at the end that satisfy `p`. -/
def dropEnd (p : Char → Bool) (cs : List Char) : List Char := (cs.reverse.dropWhile p).reverse

/-- The text without the blank characters at its two ends. -/
def trimBlank (s : String) : String :=
  String.ofList (dropEnd isBlank (s.toList.dropWhile isBlank))

/-- A carriage return or a line feed. -/
def isLineBreak (c : Char) : Bool := c == '\r' || c == '\n'

/-- The text without the line breaks at its end. -/
def trimLineBreaks (s : String) : String := String.ofList (dropEnd isLineBreak s.toList)

/-- Splits a text at its first blank character, which is dropped. -/
def splitAtBlank? (s : String) : Option (String × String) :=
  match s.toList.dropWhile (!isBlank ·) with
  | [] => none
  | _ :: rest => some (String.ofList (s.toList.takeWhile (!isBlank ·)), String.ofList rest)

/-- ASCII white space of a byte string: tab, line feed, form feed, carriage return and space. -/
def isAsciiBlank (b : UInt8) : Bool := b == 9 || b == 10 || b == 12 || b == 13 || b == 32

end ScriptShell
