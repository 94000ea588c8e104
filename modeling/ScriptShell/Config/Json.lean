import ScriptShell.Text.Utf8

/-! # JSON

A strict reader for JSON texts: no comments, no trailing commas, no leading zeros, nothing after
the value but blanks.  Numbers keep their spelling, because only some spellings name the whole
numbers that a configuration may hold, and a string with half of a surrogate pair is well formed
but has no text. -/

namespace ScriptShell

/-- A JSON value. -/
inductive Json where
  /-- The value `null`. -/
  | null
  /-- A truth value. -/
  | bool (b : Bool)
  /-- A number, as it is spelled. -/
  | number (spelling : List Char)
  /-- A string; `none` if its escapes name no text. -/
  | string (text? : Option String)
  /-- An array. -/
  | array (items : List Json)
  /-- The members of an object, in order; a name is `none` if its escapes name no text. -/
  | object (members : List (Option String × Json))
  deriving Inhabited

namespace Json

/-- The blanks between tokens. -/
def isSpace (c : Char) : Bool := c == ' ' || c == '\n' || c == '\t' || c == '\r'

/-- Skips blanks. -/
def skipSpace (cs : List Char) : List Char := cs.dropWhile isSpace

/-- The value of a hexadecimal digit. -/
def hexValue? (c : Char) : Option Nat :=
  if c.isDigit then some (c.toNat - '0'.toNat)
  else if 'a' ≤ c && c ≤ 'f' then some (c.toNat - 'a'.toNat + 10)
  else if 'A' ≤ c && c ≤ 'F' then some (c.toNat - 'A'.toNat + 10)
  else none

/-- The number that four hexadecimal digits write. -/
def hexUnit? (a b c d : Char) : Option Nat := do
  return (((← hexValue? a) * 16 + (← hexValue? b)) * 16 + (← hexValue? c)) * 16 + (← hexValue? d)

/-- The character of a one-letter escape. -/
def simpleEscape? (c : Char) : Option Char :=
  match c with
  | '"' => some '"'
  | '\\' => some '\\'
  | '/' => some '/'
  | 'b' => some '\x08'
  | 'f' => some '\x0c'
  | 'n' => some '\n'
  | 'r' => some '\r'
  | 't' => some '\t'
  | _ => none

/-- The first half of a surrogate pair. -/
def isHighSurrogate (n : Nat) : Bool := 0xD800 ≤ n && n ≤ 0xDBFF

/-- The second half of a surrogate pair. -/
def isLowSurrogate (n : Nat) : Bool := 0xDC00 ≤ n && n ≤ 0xDFFF

/-- Adds a character in front of a text that may be missing. -/
def addChar (c : Char) (r : Option (List Char) × List Char) : Option (List Char) × List Char :=
  (r.1.map (c :: ·), r.2)

/-- The rest of a string after its opening quote, within `fuel` steps: its characters, if the
escapes name any, and what follows the closing quote. -/
def stringBody : Nat → List Char → Option (Option (List Char) × List Char)
  | 0, _ => none
  | n + 1, cs =>
    match cs with
    | [] => none
    | '"' :: rest => some (some [], rest)
    | '\\' :: 'u' :: a :: b :: c :: d :: rest =>
      match hexUnit? a b c d with
      | none => none
      | some u =>
        if isHighSurrogate u then
          match rest with
          | '\\' :: 'u' :: a' :: b' :: c' :: d' :: rest' =>
            match hexUnit? a' b' c' d' with
            | none => none
            | some v =>
              if isLowSurrogate v then
                (stringBody n rest').map
                  (addChar (Char.ofNat (0x10000 + (u - 0xD800) * 0x400 + (v - 0xDC00))))
              else (stringBody n rest).map fun r => (none, r.2)
          | _ => (stringBody n rest).map fun r => (none, r.2)
        -- half a pair: the text is lost, and the rest has to be well formed all the same
        else if isLowSurrogate u then (stringBody n rest).map fun r => (none, r.2)
        else (stringBody n rest).map (addChar (Char.ofNat u))
    | '\\' :: c :: rest =>
      match simpleEscape? c with
      | some c => (stringBody n rest).map (addChar c)
      | none => none
    | c :: rest => if c.toNat < 0x20 then none else (stringBody n rest).map (addChar c)

/-- Splits the digits off the front. -/
def digits (cs : List Char) : List Char × List Char :=
  (cs.takeWhile Char.isDigit, cs.dropWhile Char.isDigit)

/-- The fraction of a number, if there is one. -/
def fraction? (cs : List Char) : Option (List Char × List Char) :=
  match cs with
  | '.' :: rest =>
    let (ds, rest) := digits rest
    if ds.isEmpty then none else some ('.' :: ds, rest)
  | cs => some ([], cs)

/-- The exponent of a number, if there is one. -/
def exponent? (cs : List Char) : Option (List Char × List Char) :=
  match cs with
  | c :: rest =>
    if c = 'e' || c = 'E' then
      let (sign, rest) :=
        match rest with
        | '+' :: r => (['+'], r)
        | '-' :: r => (['-'], r)
        | r => ([], r)
      let (ds, rest) := digits rest
      if ds.isEmpty then none else some (c :: sign ++ ds, rest)
    else some ([], cs)
  | [] => some ([], [])

/-- The spelling of a number at the front. -/
def number? (cs : List Char) : Option (List Char × List Char) := do
  let (sign, cs) :=
    match cs with
    | '-' :: r => (['-'], r)
    | r => ([], r)
  let (ds, cs) := digits cs
  -- no zero in front of other digits
  guard (!ds.isEmpty && (ds.length = 1 || ds.head? != some '0'))
  let (fraction, cs) ← fraction? cs
  let (exponent, cs) ← exponent? cs
  return (sign ++ ds ++ fraction ++ exponent, cs)

mutual

/-- The value at the front, within `fuel` steps. -/
def value? : Nat → List Char → Option (Json × List Char)
  | 0, _ => none
  | n + 1, cs =>
    match skipSpace cs with
    | 'n' :: 'u' :: 'l' :: 'l' :: rest => some (.null, rest)
    | 't' :: 'r' :: 'u' :: 'e' :: rest => some (.bool true, rest)
    | 'f' :: 'a' :: 'l' :: 's' :: 'e' :: rest => some (.bool false, rest)
    | '"' :: rest => (stringBody (n + 1) rest).map fun r => (.string (r.1.map String.ofList), r.2)
    | '[' :: rest =>
      match skipSpace rest with
      | ']' :: rest => some (.array [], rest)
      | rest => (items? n rest).map fun r => (.array r.1, r.2)
    | '{' :: rest =>
      match skipSpace rest with
      | '}' :: rest => some (.object [], rest)
      | rest => (members? n rest).map fun r => (.object r.1, r.2)
    | cs => (number? cs).map fun r => (.number r.1, r.2)

/-- The items of an array from a first one on, and what follows the closing bracket. -/
def items? : Nat → List Char → Option (List Json × List Char)
  | 0, _ => none
  | n + 1, cs =>
    match value? n cs with
    | none => none
    | some (v, rest) =>
      match skipSpace rest with
      | ',' :: rest => (items? n rest).map fun r => (v :: r.1, r.2)
      | ']' :: rest => some ([v], rest)
      | _ => none

/-- The members of an object from a first one on, and what follows the closing brace. -/
def members? : Nat → List Char → Option (List (Option String × Json) × List Char)
  | 0, _ => none
  | n + 1, cs =>
    match skipSpace cs with
    | '"' :: rest =>
      match stringBody (n + 1) rest with
      | none => none
      | some (name?, rest) =>
        let name? := name?.map String.ofList
        match skipSpace rest with
        | ':' :: rest =>
          match value? n rest with
          | none => none
          | some (v, rest) =>
            match skipSpace rest with
            | ',' :: rest => (members? n rest).map fun r => ((name?, v) :: r.1, r.2)
            | '}' :: rest => some ([(name?, v)], rest)
            | _ => none
        | _ => none
    | _ => none

end

/-- Reads a JSON text. -/
def parse? (s : String) : Option Json :=
  let cs := s.toList
  match value? (2 * cs.length + 2) cs with
  | some (v, rest) => if (skipSpace rest).isEmpty then some v else none
  | none => none

/-! ## Printing -/

/-- A character inside a string. -/
def escapeChar (c : Char) : List Char :=
  match c with
  | '"' => ['\\', '"']
  | '\\' => ['\\', '\\']
  | '\x08' => ['\\', 'b']
  | '\x0c' => ['\\', 'f']
  | '\n' => ['\\', 'n']
  | '\r' => ['\\', 'r']
  | '\t' => ['\\', 't']
  | c =>
    if c.toNat < 0x20 then
      ['\\', 'u', '0', '0', Nat.digitChar (c.toNat / 16), Nat.digitChar (c.toNat % 16)]
    else [c]

/-- A string with its quotes. -/
def quote (s : String) : String := String.ofList ('"' :: s.toList.flatMap escapeChar ++ ['"'])

end Json
end ScriptShell
