import ScriptShell.Text.Utf8

/-! # The text of system commands

A command text, as `sh` reads it: words made of parts, some of which are quoted or name variables,
redirections, and the operators between commands.  `tokens` reads a text and `commands` groups the
tokens into pipelines. -/

namespace ScriptShell.CommandText

/-- A part of a word. -/
inductive Part where
  /-- Text that stands for itself. -/
  | text (s : String) (quoted : Bool)
  /-- The value of a variable. -/
  | value (name : String) (quoted : Bool)
  deriving DecidableEq, Repr, Inhabited

/-- A word. -/
abbrev Word := List Part

/-- What stands between two pipelines. -/
inductive Connector where
  /-- The second one runs in any case. -/
  | always
  /-- The second one runs if the first one succeeds. -/
  | onSuccess
  /-- The second one runs if the first one fails. -/
  | onFailure
  deriving DecidableEq, Repr, Inhabited

/-- Where a redirection leads. -/
inductive Target where
  /-- To a file. -/
  | file (w : Word)
  /-- To where another number leads. -/
  | same (n : Nat)
  deriving DecidableEq, Repr, Inhabited

/-- What a command text is made of. -/
inductive Token where
  /-- A word. -/
  | word (w : Word)
  /-- A redirection of an output. -/
  | redirect (output : Nat) (target : Target)
  /-- A redirection of the input, from a file. -/
  | source (w : Word)
  /-- What joins the commands of a pipeline. -/
  | pipe
  /-- What joins pipelines. -/
  | connector (c : Connector)
  deriving DecidableEq, Repr, Inhabited

/-- Whether a character separates words. -/
def isGap (c : Char) : Bool := c == ' ' || c == '\t'

/-- Whether a character ends a word. -/
def endsWord (c : Char) : Bool := isGap c || "\n;&|<>()".toList.contains c

/-- Whether a character can stand in the name of a variable. -/
def inName (c : Char) : Bool := c.isAlphanum || c == '_'

/-- The variable that is named after a dollar sign, and what stands after it. -/
def namedAfterDollar? (cs : List Char) : Option (String × List Char) :=
  match cs with
  | '\x7b' :: rest =>
    let name := rest.takeWhile inName
    match rest.drop name.length with
    | '\x7d' :: rest => some (String.ofList name, rest)
    | _ => none
  | c :: rest =>
    if c.isDigit || "?$#@*".toList.contains c then some (c.toString, rest)
    else
      let name := cs.takeWhile inName
      if name.isEmpty then none else some (String.ofList name, cs.drop name.length)
  | [] => none

/-- Reads the inside of double quotes; fails if they are never closed. -/
def doubleQuoted : Nat → List Char → Option (Word × List Char)
  | 0, _ => none
  | _, [] => none
  | n + 1, c :: rest =>
    let keep := fun (p : Part) (r : Option (Word × List Char)) => r.map fun x => (p :: x.1, x.2)
    match c, rest with
    | '"', rest => some ([.text "" true], rest)
    | '\\', d :: rest =>
      if "$\x60\"\\".toList.contains d then keep (.text d.toString true) (doubleQuoted n rest)
      else keep (.text (String.ofList ['\\', d]) true) (doubleQuoted n rest)
    | '$', rest =>
      match namedAfterDollar? rest with
      | some (name, rest) => keep (.value name true) (doubleQuoted n rest)
      | none => keep (.text "$" true) (doubleQuoted n rest)
    | c, rest => keep (.text c.toString true) (doubleQuoted n rest)

/-- Reads a word; fails if a quote is never closed. -/
def word? : Nat → List Char → Option (Word × List Char)
  | 0, _ => none
  | _, [] => some ([], [])
  | n + 1, c :: rest =>
    let keep := fun (p : Part) (r : Option (Word × List Char)) => r.map fun x => (p :: x.1, x.2)
    if endsWord c then some ([], c :: rest)
    else
      match c, rest with
      | '\'', rest =>
        let inner := rest.takeWhile (· != '\'')
        match rest.drop inner.length with
        | _ :: rest => keep (.text (String.ofList inner) true) (word? n rest)
        | [] => none
      | '"', rest =>
        match doubleQuoted (rest.length + 1) rest with
        | some (parts, rest) => (word? n rest).map fun x => (parts ++ x.1, x.2)
        | none => none
      | '\\', d :: rest => keep (.text d.toString true) (word? n rest)
      | '$', rest =>
        match namedAfterDollar? rest with
        | some (name, rest) => keep (.value name false) (word? n rest)
        | none => keep (.text "$" false) (word? n rest)
      | c, rest => keep (.text c.toString false) (word? n rest)

/-- Reads the target of a redirection. -/
def redirect? (output : Nat) (cs : List Char) : Option (Token × List Char) :=
  match cs with
  | '&' :: rest =>
    let digits := rest.takeWhile Char.isDigit
    if digits.isEmpty then none
    else some (.redirect output (.same (digits.foldl (fun n c => n * 10 + (c.toNat - 48)) 0)),
      rest.drop digits.length)
  | cs =>
    let cs := if cs.head? = some '>' then cs.drop 1 else cs
    let cs := cs.dropWhile isGap
    match word? (cs.length + 1) cs with
    | some (w, rest) => if w.isEmpty then none else some (.redirect output (.file w), rest)
    | none => none

/-- Reads the tokens of a text; fails where it is not well formed. -/
def tokensWithin : Nat → List Char → Option (List Token)
  | 0, _ => none
  | _, [] => some []
  | n + 1, c :: rest =>
    let keep := fun (t : Token) (r : Option (List Token)) => r.map (t :: ·)
    let go := tokensWithin n
    match c, rest with
    | ' ', rest | '\t', rest => go rest
    | '#', rest => go (rest.dropWhile (· != '\n'))
    | '\n', rest | ';', rest => keep (.connector .always) (go rest)
    | '&', '&' :: rest => keep (.connector .onSuccess) (go rest)
    | '|', '|' :: rest => keep (.connector .onFailure) (go rest)
    | '&', rest => keep (.connector .always) (go rest)
    | '|', rest => keep .pipe (go rest)
    | '(', _ | ')', _ => none
    | '>', rest =>
      match redirect? 1 rest with
      | some (t, rest) => keep t (go rest)
      | none => none
    | '<', rest =>
      let rest := rest.dropWhile isGap
      match word? (rest.length + 1) rest with
      | some (w, rest) => keep (.source w) (go rest)
      | none => none
    | c, rest =>
      match c.isDigit, rest with
      | true, '>' :: rest =>
        match redirect? (c.toNat - 48) rest with
        | some (t, rest) => keep t (go rest)
        | none => none
      | _, rest =>
        match word? (rest.length + 2) (c :: rest) with
        | some (w, rest) => keep (.word w) (go rest)
        | none => none

/-- The tokens of a text. -/
def tokens (text : String) : Option (List Token) :=
  tokensWithin (2 * text.length + 1) text.toList

/-- A command: its words and redirections, in their order. -/
abbrev Command := List Token

/-- Commands that are joined by pipes, and what stands before them. -/
structure Pipeline where
  /-- What stands between this pipeline and the one before it. -/
  after : Connector
  /-- The commands. -/
  commands : List Command
  deriving Inhabited

/-- Groups tokens into pipelines. -/
def group (after : Connector) (commands : List Command) (current : Command) :
    List Token → List Pipeline
  | [] => [⟨after, commands ++ [current]⟩]
  | .pipe :: rest => group after (commands ++ [current]) [] rest
  | .connector c :: rest => ⟨after, commands ++ [current]⟩ :: group c [] [] rest
  | t :: rest => group after commands (current ++ [t]) rest

/-- The pipelines of a text; fails where it is not well formed. -/
def pipelines (text : String) : Option (List Pipeline) :=
  (tokens text).map fun ts =>
    (group .always [] [] ts).filter fun p => p.commands.any fun c => !c.isEmpty

end ScriptShell.CommandText
