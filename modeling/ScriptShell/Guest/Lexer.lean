import ScriptShell.Guest.Number
import ScriptShell.Guest.Syntax

/-! # Guest tokens

Splits the source of a guest program into tokens with their lines.  Names are ASCII; strings are
bytes; comments and blanks separate tokens.  Every step takes at least one byte, so reading the
source takes at most as many steps as it has bytes. -/

namespace ScriptShell.Guest

/-- A token. -/
inductive Token where
  /-- A name. -/
  | name (s : String)
  /-- A reserved word or a mark. -/
  | mark (s : String)
  /-- A string. -/
  | str (s : Bytes)
  /-- An integer. -/
  | int (i : Int64)
  /-- A float. -/
  | num (x : Float)
  /-- The end of the source. -/
  | done
  deriving Inhabited

/-- A token and the line where it ends. -/
structure Located where
  /-- The token. -/
  token : Token
  /-- Its line. -/
  line : Nat
  deriving Inhabited

/-- Why a source is no program. -/
structure SyntaxFault where
  /-- The line where that was found out. -/
  line : Nat
  /-- What is wrong. -/
  message : String
  deriving DecidableEq, Repr, Inhabited

namespace Lexer

/-- A byte as the character of the same number. -/
def char (b : UInt8) : Char := Char.ofNat b.toNat

/-- Bytes as the characters of the same numbers. -/
def chars (s : Bytes) : List Char := s.map char

/-- A byte that may start a name. -/
def startsName (b : UInt8) : Bool := (char b).isAlpha || b == 95

/-- A byte that may continue a name. -/
def continuesName (b : UInt8) : Bool := (char b).isAlphanum || b == 95

/-- A blank between tokens that ends no line. -/
def isSpace (b : UInt8) : Bool := b == 32 || b == 9 || b == 11 || b == 12

/-- A byte of a line break. -/
def isBreak (b : UInt8) : Bool := b == 10 || b == 13

/-- Drops one line break; two different bytes of a break in a row are one break. -/
def dropBreak : Bytes → Bytes
  | [] => []
  | b :: rest =>
    match rest with
    | c :: more => if isBreak c && c != b then more else rest
    | [] => []

/-- What follows an opening long bracket of some level, with the level. -/
def longOpen? (s : Bytes) : Option (Nat × Bytes) :=
  match s with
  | 91 :: rest =>
    let level := (rest.takeWhile (· == 61)).length
    match rest.drop level with
    | 91 :: body => some (level, body)
    | _ => none
  | _ => none

/-- What follows a closing long bracket of a level. -/
def longClose? (level : Nat) (s : Bytes) : Option Bytes :=
  match s with
  | 93 :: rest =>
    if (rest.takeWhile (· == 61)).length = level then
      match rest.drop level with
      | 93 :: after => some after
      | _ => none
    else none
  | _ => none

/-- The text up to the closing long bracket, last byte first, with the line and the rest;
`fuel` bounds the steps. -/
def longBody (level : Nat) : Nat → Nat → Bytes → Bytes → Option (Bytes × Nat × Bytes)
  | 0, _, _, _ => none
  | fuel + 1, line, acc, s =>
    match longClose? level s with
    | some after => some (acc, line, after)
    | none =>
      match s with
      | [] => none
      | b :: rest =>
        if isBreak b then longBody level fuel (line + 1) (10 :: acc) (dropBreak s)
        else longBody level fuel line (b :: acc) rest

/-- A long string, with the line and the rest.  A line break at its start is dropped. -/
def longText? (level line : Nat) (body : Bytes) : Option (Bytes × Nat × Bytes) :=
  let (line, body) :=
    match body with
    | b :: _ => if isBreak b then (line + 1, dropBreak body) else (line, body)
    | [] => (line, body)
  (longBody level (body.length + 1) line [] body).map fun (acc, line, rest) =>
    (acc.reverse, line, rest)

/-- The UTF-8 form of a number of up to 31 bits. -/
def utf8Escape (n : Nat) : Bytes :=
  let tail (count : Nat) : Bytes :=
    (List.range count).reverse.map fun k => UInt8.ofNat (0x80 + n / Nat.pow 64 k % 64)
  if n < 0x80 then [UInt8.ofNat n]
  else if n < 0x800 then UInt8.ofNat (0xC0 + n / 64) :: tail 1
  else if n < 0x10000 then UInt8.ofNat (0xE0 + n / 0x1000) :: tail 2
  else if n < 0x200000 then UInt8.ofNat (0xF0 + n / 0x40000) :: tail 3
  else if n < 0x4000000 then UInt8.ofNat (0xF8 + n / 0x1000000) :: tail 4
  else UInt8.ofNat (0xFC + n / 0x40000000) :: tail 5

/-- The byte that a one-letter escape stands for. -/
def letterEscape? (b : UInt8) : Option UInt8 :=
  match char b with
  | 'a' => some 7
  | 'b' => some 8
  | 't' => some 9
  | 'n' => some 10
  | 'v' => some 11
  | 'f' => some 12
  | 'r' => some 13
  | '\\' => some 92
  | '"' => some 34
  | '\'' => some 39
  | _ => none

/-- An escape after its backslash: its bytes, how many lines it goes on, and the rest. -/
def escape? (s : Bytes) : Except String (Bytes × Nat × Bytes) :=
  match s with
  | [] => .error "unfinished string"
  | b :: rest =>
    match letterEscape? b with
    | some e => .ok ([e], 0, rest)
    | none =>
      if isBreak b then .ok ([10], 1, dropBreak s)
      -- `\x` and two digits
      else if b = 120 then
        match rest with
        | h :: l :: after =>
          match Numeral.hexDigit? (char h), Numeral.hexDigit? (char l) with
          | some h, some l => .ok ([UInt8.ofNat (h * 16 + l)], 0, after)
          | _, _ => .error "hexadecimal digit expected"
        | _ => .error "hexadecimal digit expected"
      -- `\z`, which skips blanks
      else if b = 122 then
        let blanks := rest.takeWhile fun b => isSpace b || isBreak b
        .ok ([], countBreaks blanks.length blanks, rest.drop blanks.length)
      -- `\u` and digits in braces
      else if b = 117 then
        match rest with
        | 123 :: rest =>
          let digits := rest.takeWhile fun b => Numeral.isHexDigit (char b)
          let n := Numeral.hexValue (chars digits)
          match rest.drop digits.length with
          | 125 :: after =>
            if digits.isEmpty then .error "hexadecimal digit expected"
            else if n < 0x80000000 then .ok (utf8Escape n, 0, after)
            else .error "UTF-8 value too large"
          | _ => .error "missing closing brace in \\u escape"
        | _ => .error "missing opening brace in \\u escape"
      -- up to three decimal digits
      else if (char b).isDigit then
        let digits := (s.take 3).takeWhile fun b => (char b).isDigit
        let n := digitsValue (chars digits)
        if n < 256 then .ok ([UInt8.ofNat n], 0, s.drop digits.length)
        else .error "decimal escape too large"
      else .error "invalid escape sequence"
where
  /-- The number of line breaks in a run of blanks. -/
  countBreaks : Nat → Bytes → Nat
    | 0, _ => 0
    | _, [] => 0
    | n + 1, b :: rest =>
      if isBreak b then 1 + countBreaks n (dropBreak (b :: rest)) else countBreaks n rest

/-- A quoted string after its opening quote: its bytes, the line and the rest. -/
def quoted (quote : UInt8) : Nat → Nat → Bytes → Bytes → Except SyntaxFault (Bytes × Nat × Bytes)
  | 0, line, _, _ => .error ⟨line, "unfinished string"⟩
  | fuel + 1, line, acc, s =>
    match s with
    | [] => .error ⟨line, "unfinished string near <eof>"⟩
    | b :: rest =>
      if b = quote then .ok (acc.reverse, line, rest)
      else if isBreak b then
        .error ⟨line, "unfinished string near '" ++
          Utf8.decodeLossy (quote :: acc.reverse) ++ "'"⟩
      else if b = 92 then
        match escape? rest with
        | .error e => .error ⟨line, e⟩
        | .ok (bytes, lines, rest) => quoted quote fuel (line + lines) (bytes.reverse ++ acc) rest
      else quoted quote fuel line (b :: acc) rest

/-- The letter before the exponent of a numeral. -/
def isExponentMark (hex : Bool) (b : UInt8) : Bool :=
  if hex then b = 112 || b = 80 else b = 101 || b = 69

/-- The bytes of a numeral: digits, letters, points, and a sign right after an exponent's
letter. -/
def numeralBytes (hex : Bool) : Bytes → Bytes
  | [] => []
  | [b] => if continuesName b || b = 46 then [b] else []
  | b :: s :: rest =>
    if isExponentMark hex b && (s = 43 || s = 45) then b :: s :: numeralBytes hex rest
    else if continuesName b || b = 46 then b :: numeralBytes hex (s :: rest)
    else []

/-- The marks, longest first. -/
def marks : List String :=
  ["...", "..", "==", "~=", "<=", ">=", "//", "::", "<<", ">>", "+", "-", "*", "/", "%", "^", "#",
    "&", "~", "|", "<", ">", "=", "(", ")", "\x7b", "\x7d", "[", "]", ";", ":", ",", "."]

/-- The mark at the head of the source. -/
def mark? (s : Bytes) : Option String := marks.find? fun m => (Utf8.encode m).isPrefixOf s

/-- The tokens of a source, within `fuel` steps. -/
def scan : Nat → Nat → Bytes → Except SyntaxFault (List Located)
  | 0, line, _ => .ok [⟨.done, line⟩]
  | fuel + 1, line, s =>
    match s with
    | [] => .ok [⟨.done, line⟩]
    | b :: rest =>
      if isSpace b then scan fuel line rest
      else if isBreak b then scan fuel (line + 1) (dropBreak s)
      -- two hyphens: a comment, in long brackets or up to the end of the line
      else if b = 45 && rest.head? = some 45 then
        let body := rest.drop 1
        match longOpen? body with
        | some (level, body) =>
          match longText? level line body with
          | some (_, line, rest) => scan fuel line rest
          | none => .error ⟨line, "unfinished long comment near <eof>"⟩
        | none => scan fuel line (body.dropWhile (!isBreak ·))
      else if startsName b then
        let name := String.ofList (chars (s.takeWhile continuesName))
        let token := if reservedWords.contains name then Token.mark name else .name name
        (scan fuel line (s.dropWhile continuesName)).map (⟨token, line⟩ :: ·)
      -- a quote of either kind
      else if b = 34 || b = 39 then
        match quoted b (rest.length + 1) line [] rest with
        | .error e => .error e
        | .ok (text, line, rest) => (scan fuel line rest).map (⟨.str text, line⟩ :: ·)
      -- a digit, or a point in front of one
      else if (char b).isDigit ||
          (b = 46 && (rest.head?.map fun c => (char c).isDigit) == some true) then
        let hex := b = 48 && (rest.head? = some 120 || rest.head? = some 88)
        let digits := numeralBytes hex s
        match Numeral.ofBytes? digits with
        | some (.int i) => (scan fuel line (s.drop digits.length)).map (⟨.int i, line⟩ :: ·)
        | some (.num x) => (scan fuel line (s.drop digits.length)).map (⟨.num x, line⟩ :: ·)
        | _ => .error ⟨line, "malformed number near '" ++ String.ofList (chars digits) ++ "'"⟩
      else
        -- long brackets come before the marks, as a single bracket is one of these
        match longOpen? s with
        | some (level, body) =>
          match longText? level line body with
          | some (text, line, rest) => (scan fuel line rest).map (⟨.str text, line⟩ :: ·)
          | none => .error ⟨line, "unfinished long string near <eof>"⟩
        | none =>
          match mark? s with
          | some m => (scan fuel line (s.drop m.utf8ByteSize)).map (⟨.mark m, line⟩ :: ·)
          | none =>
            .error ⟨line, "unexpected symbol near '" ++ Utf8.decodeLossy [b] ++ "'"⟩

/-- The tokens of a source. -/
def tokens (source : Bytes) : Except SyntaxFault (List Located) :=
  scan (source.length + 1) 1 source

end Lexer
end ScriptShell.Guest
