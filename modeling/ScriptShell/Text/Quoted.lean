import ScriptShell.Text.Printable

/-! # Quoted text

Diagnostics show a text between double quotes, with the quote and the backslash escaped, the usual
letters for tab, line feed, carriage return and the null character, and the number of any other
character that is not printable. -/

namespace ScriptShell.Quoted

/-- A number in lower-case hexadecimal digits. -/
def hex (n : Nat) : String := String.ofList (Nat.toDigits 16 n)

/-- One character as it stands between the quotes. -/
def escapeChar (c : Char) : String :=
  if c = '"' then "\\\""
  else if c = '\\' then "\\\\"
  else if c = '\n' then "\\n"
  else if c = '\r' then "\\r"
  else if c = '\t' then "\\t"
  else if c = '\x00' then "\\0"
  else if isPrintable c then c.toString
  else "\\u\x7b" ++ hex c.toNat ++ "\x7d"

/-- A text between double quotes. -/
def ofText (s : String) : String := "\"" ++ String.join (s.toList.map escapeChar) ++ "\""

/-- Items between brackets. -/
def list (items : List String) : String := "[" ++ ", ".intercalate items ++ "]"

/-- A byte string as the list of its numbers. -/
def ofBytes (b : Bytes) : String := list (b.map fun x => toString x.toNat)

/-- A named value with its parts in parentheses. -/
def call (name : String) (parts : List String) : String :=
  name ++ "(" ++ ", ".intercalate parts ++ ")"

/-- A text that may be missing. -/
def ofOption : Option String → String
  | some s => call "Some" [s]
  | none => "None"

/-- A named value with named parts, `more` telling that some are not shown. -/
def record (name : String) (fields : List (String × String)) (more : Bool) : String :=
  let shown := fields.map (fun f => f.1 ++ ": " ++ f.2) ++ (if more then [".."] else [])
  if shown.isEmpty then name else name ++ " \x7b " ++ ", ".intercalate shown ++ " \x7d"

/-- Key and value pairs between braces. -/
def table (entries : List (String × String)) : String :=
  "\x7b" ++ ", ".intercalate (entries.map fun e => e.1 ++ ": " ++ e.2) ++ "\x7d"

end ScriptShell.Quoted
