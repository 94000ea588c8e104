import ScriptShell.Guest.Library.Format
import ScriptShell.Tool.Basic
import ScriptShell.Tool.Escape

/-! # Writing words

The programs `echo`, which writes its words with blanks between them, and `printf`, which writes
them in a format that is used again and again until no words are left. -/

namespace ScriptShell

open Guest (Directive)

/-! ## `echo` -/

namespace Echo

/-- What the options ask for. -/
structure Options where
  /-- Whether a line break ends the output. -/
  lineBreak : Bool := true
  /-- Whether escapes are read. -/
  escapes : Bool := false

/-- The options of one word. -/
def option? (o : Options) (word : String) : Option Options :=
  match word.toList with
  | '-' :: c :: cs =>
    (c :: cs).foldlM (fun (o : Options) c =>
      match c with
      | 'n' => some { o with lineBreak := false }
      | 'e' => some { o with escapes := true }
      | 'E' => some { o with escapes := false }
      | _ => none) o
  | _ => none

/-- The options at the start of the words, and the other words. -/
def options (o : Options) : List String → Options × List String
  | [] => (o, [])
  | w :: rest =>
    match option? o w with
    | some o => options o rest
    | none => (o, w :: rest)

/-- The words as they are written. -/
def text (o : Options) (d : Escape.Dialect) (words : List String) : Bytes :=
  let line := Utf8.encode (" ".intercalate words)
  let (line, goesOn) := if o.escapes then Escape.expand d line else (line, true)
  line ++ (if o.lineBreak && goesOn then [10] else [])

/-- The program `echo`. -/
def run (c : ToolCall) : ToolResult :=
  let (o, words) := options {} c.args
  { stdout := text o { leadingZero := true } words }

end Echo

/-! ## `printf` -/

namespace Printf

/-- What has been written, and the words that are left. -/
structure State where
  /-- The words that are left. -/
  words : List String
  /-- Whether a word has been used. -/
  used : Bool := false
  /-- What has been written. -/
  result : ToolResult := {}
  deriving Inhabited

namespace State

/-- Writes bytes. -/
def write (s : State) (b : Bytes) : State :=
  { s with result := { s.result with stdout := s.result.stdout ++ b } }

/-- Complains about a word. -/
def complain (s : State) (complaint : String) : State :=
  { s with
    result := { s.result with
      status? := some 1
      stderr := s.result.stderr ++ Utf8.encode ("printf: " ++ complaint ++ "\n") } }

/-- The next word, if there is one. -/
def next (s : State) : Option String × State :=
  match s.words with
  | [] => (none, s)
  | w :: rest => (some w, { s with words := rest, used := true })

end State

/-- The number that a word writes, and what is wrong with it. -/
def numberOf (word : String) : Guest.Value × Option String :=
  match word.toList with
  | ['\''] | ['"'] => (.int 0, some ("'" ++ word ++ "': expected a numeric value"))
  | '\'' :: c :: _ | '"' :: c :: _ => (.int (Int64.ofNat c.toNat), none)
  | cs =>
    match Guest.Numeral.ofChars? cs with
    | some v => (v, none)
    | none =>
      let digits := cs.takeWhile fun c => c.isDigit || c == '-' || c == '+'
      match Guest.Numeral.ofChars? digits with
      | some v => (v, some ("'" ++ word ++ "': value not completely converted"))
      | none => (.int 0, some ("'" ++ word ++ "': expected a numeric value"))

/-- Writes the next word as a number. -/
def number (s : State) (show? : Guest.Value → String) : State :=
  match s.next with
  | (none, s) => s.write (Utf8.encode (show? (.int 0)))
  | (some w, s) =>
    let (v, complaint?) := numberOf w
    let s := s.write (Utf8.encode (show? v))
    match complaint? with
    | some m => s.complain m
    | none => s

/-- The integer of a number. -/
def integer : Guest.Value → Int64
  | .int i => i
  | .num x => truncate x
  | _ => 0

/-- The float of a number. -/
def float : Guest.Value → Float
  | .int i => i.toFloat
  | .num x => x
  | _ => 0.0

/-- Writes one directive; the answer tells whether output goes on. -/
def directive (d : Directive) (conversion : Char) (s : State) : State × Bool :=
  let word := fun s : State =>
    let (w, s) := s.next
    (Utf8.encode (w.getD ""), s)
  match conversion with
  | '%' => (s.write [37], true)
  | 's' =>
    let (w, s) := word s
    (s.write (d.stringText w), true)
  | 'c' =>
    let (w, s) := word s
    (s.write (d.stringText (w.take 1)), true)
  | 'b' =>
    let (w, s) := word s
    let (b, goesOn) := Escape.expand { leadingZero := true } w
    (s.write (d.stringText b), goesOn)
  | 'd' | 'i' => (number s fun v => d.integerText (integer v).toInt, true)
  | 'u' => (number s fun v => d.integerText (integer v).toUInt64.toNat, true)
  | 'o' => (number s fun v => d.bitsText 8 false "0" (integer v), true)
  | 'x' => (number s fun v => d.bitsText 16 false "0x" (integer v), true)
  | 'X' => (number s fun v => d.bitsText 16 true "0X" (integer v), true)
  | 'e' | 'E' | 'f' | 'F' | 'g' | 'G' => (number s fun v => d.floatText conversion (float v), true)
  | c => (s.complain ("%" ++ c.toString ++ ": invalid conversion specification"), false)

/-- Writes a format once; `n` bounds the number of pieces.  The answer tells whether output goes
on. -/
def once : Nat → Bytes → State → State × Bool
  | 0, _, s => (s, true)
  | _, [], s => (s, true)
  | n + 1, 92 :: rest, s =>
    let quote : Option (Bytes × Bytes) :=
      match rest with
      | 34 :: more => some ([34], more)
      | rest => Escape.read {} rest
    match quote with
    | none => (s, false)
    | some (b, rest) => once n rest (s.write b)
  | n + 1, 37 :: rest, s =>
    let (d, after) := Directive.parse (rest.map fun b => Char.ofNat b.toNat)
    match after with
    | [] => (s.complain "%: invalid conversion specification", false)
    | c :: _ =>
      match directive d c s with
      | (s, true) => once n (rest.drop (rest.length - after.length + 1)) s
      | (s, false) => (s, false)
  | n + 1, b :: rest, s => once n rest (s.write [b])

/-- Writes a format until no words are left, at most `n` times. -/
def again (format : Bytes) : Nat → State → State
  | 0, s => s
  | n + 1, s =>
    let before := s.words.length
    match once format.length format s with
    | (s, false) => s
    | (s, true) =>
      match s.words with
      | [] => s
      | w :: _ =>
        if s.words.length < before then again format n s
        else
          { s with
            result := { s.result with
              stderr := s.result.stderr ++ Utf8.encode
                ("printf: warning: ignoring excess arguments, starting with '" ++ w ++ "'\n") } }

/-- The program `printf`. -/
def run (c : ToolCall) : ToolResult :=
  let args := if c.args.head? = some "--" then c.args.drop 1 else c.args
  match args with
  | [] =>
    .fail 1 "printf: missing operand\nTry 'printf --help' for more information."
  | format :: words => (again (Utf8.encode format) (words.length + 1) { words := words }).result

end Printf
end ScriptShell
