import ScriptShell.Text.Utf8

/-! # Marker lines

A script may double as a batch file of another shell: lines that start with `@` are for the other
shell.  `elide` empties them and keeps every line break, so that the guest counts the same
lines as the file. -/

namespace ScriptShell.MarkerLines

/-- The byte that ends a line. -/
def newline : UInt8 := 10

/-- The byte that marks a line. -/
def marker : UInt8 := 64

mutual

/-- Copies from the start of a line. -/
def elide : Bytes → Bytes
  | [] => []
  | b :: rest =>
    if b = marker then elideLine rest
    else if b = newline then b :: elide rest
    else b :: copyLine rest

/-- Copies from inside a line that is kept. -/
def copyLine : Bytes → Bytes
  | [] => []
  | b :: rest => if b = newline then b :: elide rest else b :: copyLine rest

/-- Drops the rest of a marked line, up to its line break. -/
def elideLine : Bytes → Bytes
  | [] => []
  | b :: rest => if b = newline then b :: elide rest else elideLine rest

end

/-- The lines of a byte string: the pieces between its line breaks. -/
def lines (s : Bytes) : List Bytes := s.splitOn newline

/-- One line with its marker applied. -/
def elideOne (line : Bytes) : Bytes := if line.head? = some marker then [] else line

end ScriptShell.MarkerLines
