import ScriptShell.Text.Blank

/-! # The words of a command line

Blank characters separate words; double quotes group characters, blank ones too, and are removed.
`words` splits a line and `quote` writes one word so that it is read back whole.  A quote that is
never closed groups everything up to the end of the line. -/

namespace ScriptShell.Words

/-- What has been read so far of the word at hand. -/
structure Partial where
  /-- The characters of the word, last one first. -/
  chars : List Char := []
  /-- Whether a word has begun; an empty pair of quotes begins one. -/
  begun : Bool := false
  /-- Whether a double quote is open. -/
  quoted : Bool := false
  deriving DecidableEq, Repr

/-- The word at hand, if one has begun. -/
def Partial.finish (p : Partial) : List (List Char) := if p.begun then [p.chars.reverse] else []

/-- Splits the rest of a line, given what has been read of the word at hand. -/
def splitFrom (p : Partial) : List Char → List (List Char)
  | [] => p.finish
  | c :: rest =>
    if c = '"' then splitFrom { p with quoted := !p.quoted, begun := true } rest
    else if isBlank c && !p.quoted then p.finish ++ splitFrom {} rest
    else splitFrom { p with chars := c :: p.chars, begun := true } rest

/-- The words of a line, as lists of characters. -/
def splitChars (line : List Char) : List (List Char) := splitFrom {} line

/-- The words of a line. -/
def split (line : String) : List String := (splitChars line.toList).map String.ofList

/-- A word in double quotes. -/
def quote (w : List Char) : List Char := '"' :: (w ++ ['"'])

/-- A word that may stand without quotes: not empty, with neither blanks nor quotes. -/
def isPlain (w : List Char) : Bool := !w.isEmpty && w.all fun c => !isBlank c && c != '"'

@[simp] theorem splitFrom_nil (p : Partial) : splitFrom p [] = p.finish := rfl

theorem splitFrom_quote (p : Partial) (rest : List Char) :
    splitFrom p ('"' :: rest) = splitFrom { p with quoted := !p.quoted, begun := true } rest := by
  simp [splitFrom]

theorem splitFrom_blank {p : Partial} {c : Char} (hc : isBlank c = true) (hp : p.quoted = false)
    (rest : List Char) : splitFrom p (c :: rest) = p.finish ++ splitFrom {} rest := by
  have hq : c ≠ '"' := by
    rintro rfl
    exact absurd hc (by decide)
  simp [splitFrom, hq, hc, hp]

end ScriptShell.Words
