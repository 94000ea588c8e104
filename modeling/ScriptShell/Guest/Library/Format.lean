import ScriptShell.Guest.Library.Arguments

/-! # Formatted text

`string.format`: directives with flags, a width and a precision.  `Directive.parse` reads one, and
`integerText`, `floatText` and `pad` write what it asks for.  The guest allows each conversion its
own flags only, and `Directive.ofChars?` refuses all others. -/

namespace ScriptShell.Guest

/-- A directive of a format, without its conversion. -/
structure Directive where
  /-- Whether the text stands at the left of its width. -/
  left : Bool := false
  /-- Whether numbers that are not negative get a plus sign. -/
  plus : Bool := false
  /-- Whether numbers that are not negative get a blank. -/
  blank : Bool := false
  /-- Whether the base is shown, or the point kept. -/
  alternative : Bool := false
  /-- Whether numbers are filled up with zeros. -/
  zeros : Bool := false
  /-- The least width. -/
  width : Nat := 0
  /-- The precision, if it is given. -/
  precision? : Option Nat := none
  deriving Repr, Inhabited

namespace Directive

/-- Reads the flags. -/
def flags (d : Directive) : List Char → Directive × List Char
  | [] => (d, [])
  | c :: rest =>
    match c with
    | '-' => flags { d with left := true } rest
    | '+' => flags { d with plus := true } rest
    | ' ' => flags { d with blank := true } rest
    | '#' => flags { d with alternative := true } rest
    | '0' => flags { d with zeros := true } rest
    | _ => (d, c :: rest)

/-- Reads flags, width and precision after the percent sign. -/
def parse (cs : List Char) : Directive × List Char :=
  let (d, rest) := flags {} cs
  let digits := (rest.take 2).takeWhile Char.isDigit
  let d := { d with width := digitsValue digits }
  let rest := rest.drop digits.length
  match rest with
  | '.' :: rest =>
    let digits := (rest.take 2).takeWhile Char.isDigit
    ({ d with precision? := some (digitsValue digits) }, rest.drop digits.length)
  | rest => (d, rest)

/-- Reads the characters between the percent sign and a conversion that allows some flags only, and
perhaps no precision. -/
def ofChars? (allowed : List Char) (precision : Bool) (cs : List Char) : Option Directive :=
  let (d, _) := flags {} (cs.takeWhile allowed.contains)
  let rest := cs.dropWhile allowed.contains
  if (flags {} rest).2.length < rest.length then none
  else
    match parse rest with
    | (e, []) =>
      if precision || e.precision?.isNone then
        some { d with width := e.width, precision? := e.precision? }
      else none
    | _ => none

/-- Fills a text up to the width.  Zeros go between the sign and the digits. -/
def pad (d : Directive) (zeros : Bool) (sign body : String) : String :=
  let missing := d.width - (sign.length + body.length)
  if d.left then sign ++ body ++ String.ofList (List.replicate missing ' ')
  else if zeros then sign ++ String.ofList (List.replicate missing '0') ++ body
  else String.ofList (List.replicate missing ' ') ++ sign ++ body

/-- The sign of a number. -/
def sign (d : Directive) (negative : Bool) : String :=
  if negative then "-" else if d.plus then "+" else if d.blank then " " else ""

/-- At least as many digits as the precision asks for. -/
def digits (d : Directive) (cs : List Char) : String :=
  match d.precision? with
  | some 0 => if cs = ['0'] then "" else String.ofList cs
  | some n => String.ofList (List.replicate (n - cs.length) '0' ++ cs)
  | none => String.ofList cs

/-- An integer in decimal. -/
def integerText (d : Directive) (i : Int) : String :=
  d.pad (d.zeros && d.precision?.isNone) (d.sign (i < 0)) (d.digits (Nat.toDigits 10 i.natAbs))

/-- The bits of an integer in another base, with a mark of the base. -/
def bitsText (d : Directive) (base : Nat) (upper : Bool) (mark : String) (i : Int64) : String :=
  let cs := Nat.toDigits base i.toUInt64.toNat
  let cs := if upper then cs.map Char.toUpper else cs
  let body := d.digits cs
  let marked := d.alternative && i ≠ 0 && !body.startsWith mark
  d.pad (d.zeros && d.precision?.isNone) (if marked then mark else "") body

/-- A finite float with an exponent. -/
def scientificText (places : Nat) (m : Nat) (e : Int) : String :=
  let x := Decimal.rounded (places + 1) m e
  let place : Int := if m = 0 then 0 else x.firstPlace
  let cs := if m = 0 then List.replicate (places + 1) '0' else Decimal.digitChars x.digits
  String.ofList (cs.take 1) ++ (if places = 0 then "" else "." ++ String.ofList (cs.drop 1)) ++
    "e" ++ (if place < 0 then "-" else "+") ++ Numeral.twoDigits place.natAbs

/-- A finite float in full. -/
def fixedText (places : Nat) (m : Nat) (e : Int) : String :=
  (Decimal.fixed places m e).positional false

/-- The digits of a fraction of 52 bits in base sixteen, without zeros at the end. -/
def fractionDigits (bits : Nat) : List Char :=
  let cs := Nat.toDigits 16 bits
  let cs := List.replicate (13 - cs.length) '0' ++ cs
  (cs.reverse.dropWhile (· = '0')).reverse

/-- A finite float in base sixteen with a binary exponent.  Without a precision all of its digits
are written. -/
def hexText (places? : Option Nat) (m : Nat) (e : Int) : String :=
  let exponent : Int := if m = 0 then 0 else e + 52
  let (whole, fraction) :=
    match places? with
    | none => (m / 0x10000000000000, fractionDigits (m % 0x10000000000000))
    | some places =>
      let kept := min places 13
      let n := Decimal.roundEven m (Nat.pow 16 (13 - kept))
      let cs := if kept = 0 then [] else Nat.toDigits 16 (n % Nat.pow 16 kept)
      (n / Nat.pow 16 kept,
        List.replicate (kept - cs.length) '0' ++ cs ++ List.replicate (places - kept) '0')
  "0x" ++ toString whole ++ (if fraction.isEmpty then "" else "." ++ String.ofList fraction) ++
    "p" ++ (if exponent < 0 then "-" else "+") ++ toString exponent.natAbs

/-- A float by its conversion: `a`, `e`, `f` or `g`. -/
def floatText (d : Directive) (conversion : Char) (x : Float) : String :=
  let upper := conversion.isUpper
  let case := fun s : String => if upper then String.ofList (s.toList.map Char.toUpper) else s
  match Binary.of x with
  | .nan => d.pad false "-" (case "nan")
  | .infinite negative => d.pad false (d.sign negative) (case "inf")
  | .finite negative m e =>
    let places := d.precision?.getD 6
    let body :=
      match conversion.toLower with
      | 'a' => hexText d.precision? m e
      | 'e' => scientificText places m e
      | 'f' => fixedText places m e
      | _ => Numeral.general places d.alternative m e
    d.pad d.zeros (d.sign negative) (case body)

/-- A string, cut to the precision. -/
def stringText (d : Directive) (s : Bytes) : Bytes :=
  let s :=
    match d.precision? with
    | some n => s.take n
    | none => s
  let fill := List.replicate (d.width - s.length) 32
  if d.left then s ++ fill else fill ++ s

end Directive

/-- A string as it can stand in a program. -/
def quotedText : Bytes → Bytes
  | [] => [34]
  | b :: rest =>
    if b = 34 || b = 92 then 92 :: b :: quotedText rest
    else if b = 10 then 92 :: 10 :: quotedText rest
    else if b < 32 || b = 127 then
      let next := rest.head?.map fun c => 48 ≤ c && c ≤ 57
      let cs := Nat.toDigits 10 b.toNat
      let cs := if next == some true then List.replicate (3 - cs.length) '0' ++ cs else cs
      92 :: (cs.map fun c => UInt8.ofNat c.toNat) ++ quotedText rest
    else b :: quotedText rest

/-- A float as it can stand in a program. -/
def quotedFloat (x : Float) : String :=
  match Binary.of x with
  | .nan => "(0/0)"
  | .infinite negative => signed negative "1e9999"
  | .finite negative m e => signed negative (Directive.hexText none m e)

/-- The flags that a conversion allows, and whether it allows a precision. -/
def allowedFlags? (conversion : Char) : Option (List Char × Bool) :=
  match conversion with
  | 'c' | 'p' => some (['-'], false)
  | 's' => some (['-'], true)
  | 'd' | 'i' => some (['-', '+', ' ', '0'], true)
  | 'u' => some (['-', '0'], true)
  | 'o' | 'x' | 'X' => some (['-', '#', '0'], true)
  | 'a' | 'A' | 'e' | 'E' | 'f' | 'g' | 'G' => some (['-', '+', ' ', '#', '0'], true)
  | _ => none

/-- The longest text of a directive without its conversion. -/
def maxDirective : Nat := 20

namespace LibraryCall

/-- The directive that stands before a conversion. -/
def directive (c : LibraryCall) (cs : List Char) (conversion : Char) : Program Directive :=
  match (allowedFlags? conversion).bind fun (allowed, p) => Directive.ofChars? allowed p cs with
  | some d => return d
  | none =>
    c.fail ("invalid conversion '%" ++ String.ofList (cs ++ [conversion]) ++ "' to 'format'")

/-- A value as it can stand in a program. -/
def quoted (c : LibraryCall) (n : Nat) : Program Bytes := do
  match c.arg n with
  | .str s => return 34 :: quotedText s
  | .num x => return Utf8.encode (quotedFloat x)
  | .int i =>
    if i = Int64.minValue then return Utf8.encode "0x8000000000000000" else c.here.toText (.int i)
  | .nil | .bool _ => c.here.toText (c.arg n)
  | _ => c.failArgument n "value has no literal form"

/-- One directive with the argument at position `n`. -/
def formatOne (c : LibraryCall) (cs : List Char) (conversion : Char) (n : Nat) :
    Program Bytes := do
  match conversion with
  | 'd' | 'i' =>
    let i ← c.integer n
    return Utf8.encode ((← c.directive cs conversion).integerText i)
  | 'u' | 'x' | 'X' | 'o' =>
    let i := Int64.ofInt (← c.integer n)
    let d ← c.directive cs conversion
    return Utf8.encode (match conversion with
      | 'u' => d.bitsText 10 false "" i
      | 'x' => d.bitsText 16 false "0x" i
      | 'X' => d.bitsText 16 true "0X" i
      | _ => d.bitsText 8 false "0" i)
  | 'c' =>
    let d ← c.directive cs conversion
    return d.stringText [UInt8.ofNat ((← c.integer n) % 256).toNat]
  | 'e' | 'E' | 'f' | 'g' | 'G' | 'a' | 'A' =>
    let x ← c.float n
    return Utf8.encode ((← c.directive cs conversion).floatText conversion x)
  | 'p' =>
    let d ← c.directive cs conversion
    return d.stringText (Utf8.encode (match c.arg n with
      | .nil | .bool _ | .int _ | .num _ => "(null)"
      | v => Here.addressText (Here.placeOf v)))
  | 'q' =>
    if cs.isEmpty then c.quoted n else c.fail "specifier '%q' cannot have modifiers"
  | 's' =>
    let s ← c.here.toText (c.arg n)
    if cs.isEmpty then return s
    if s.contains 0 then c.failArgument n "string contains zeros"
    return (← c.directive cs conversion).stringText s
  | _ =>
    let _ ← c.directive cs conversion
    return []

/-- The rest of a format, whose next argument is at position `n`. -/
def formatFrom (c : LibraryCall) : Nat → Nat → Bytes → Program Bytes
  | 0, _, _ => return []
  | _, _, [] => return []
  | fuel + 1, n, b :: rest => do
    if b ≠ 37 then return b :: (← formatFrom c fuel n rest)
    match rest with
    | 37 :: rest => return 37 :: (← formatFrom c fuel n rest)
    | _ =>
      if !c.given n then c.failArgument n "no value"
      let spans := fun b : UInt8 => "-+ #0123456789.".toList.contains (Char.ofNat b.toNat)
      let cs := (rest.takeWhile spans).map fun b => Char.ofNat b.toNat
      if maxDirective < cs.length then c.fail "invalid format string to 'format'"
      match rest.drop cs.length with
      | [] => c.fail ("invalid conversion '%" ++ String.ofList cs ++ "' to 'format'")
      | conversion :: more =>
        let s ← c.formatOne cs (Char.ofNat conversion.toNat) n
        return s ++ (← formatFrom c fuel (n + 1) more)

/-- `string.format`. -/
def stringFormat (c : LibraryCall) : Program (List Value) := do
  let format ← c.string 1
  return [.str (← c.formatFrom (format.length + 1) 2 format)]

end LibraryCall
end ScriptShell.Guest
