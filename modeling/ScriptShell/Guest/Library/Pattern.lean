import ScriptShell.Guest.Value

/-! # Patterns

The patterns of the guest's string functions: classes of bytes, repetitions, captures, balanced
pairs and frontiers.  Matching backtracks; every step either moves on in the pattern or in the
subject, so the number of nested steps is bounded by the lengths of both. -/

namespace ScriptShell.Guest.Pattern

/-- What is known of a capture. -/
inductive Extent where
  /-- It has been opened. -/
  | opened
  /-- It is a position. -/
  | position
  /-- It is so many bytes long. -/
  | length (n : Nat)
  deriving DecidableEq, Repr

/-- A capture: where it starts and what is known of it. -/
structure Capture where
  /-- Where it starts. -/
  start : Nat
  /-- What is known of it. -/
  extent : Extent
  deriving DecidableEq, Repr

/-- A subject and a pattern. -/
structure Search where
  /-- The subject. -/
  subject : Array UInt8
  /-- The pattern. -/
  pattern : Array UInt8

/-- The byte that starts a class or an escape. -/
def escape : UInt8 := 37

/-- A byte as the character of the same number. -/
def char (b : UInt8) : Char := Char.ofNat b.toNat

/-- Whether a byte can be seen and is neither letter nor digit. -/
def isPunctuation (b : UInt8) : Bool := 33 ≤ b && b ≤ 126 && !(char b).isAlphanum

/-- Whether a byte is a blank. -/
def isSpace (b : UInt8) : Bool := b == 32 || (9 ≤ b && b ≤ 13)

/-- Whether a byte is in the class of a letter, if there is one. -/
def inClass? (b cl : UInt8) : Option Bool :=
  let c := char b
  let isHex := c.isDigit || (97 ≤ b && b ≤ 102) || (65 ≤ b && b ≤ 70)
  let member? :=
    match (char cl).toLower with
    | 'a' => some c.isAlpha
    | 'c' => some (b < 32 || b == 127)
    | 'd' => some c.isDigit
    | 'g' => some (33 ≤ b && b ≤ 126)
    | 'l' => some c.isLower
    | 'p' => some (isPunctuation b)
    | 's' => some (isSpace b)
    | 'u' => some c.isUpper
    | 'w' => some c.isAlphanum
    | 'x' => some isHex
    | _ => none
  if (char cl).isUpper then member?.map (!·) else member?

/-- Whether a byte is in a class, or is the byte that the escape stands for. -/
def inClass (b cl : UInt8) : Bool := (inClass? b cl).getD (b == cl)

namespace Search

/-- A byte of the pattern. -/
def pat? (m : Search) (p : Nat) : Option UInt8 := m.pattern[p]?

/-- The end of a set that goes on at `p`, within `fuel` bytes. -/
def setEnd (m : Search) : Nat → Nat → Except String Nat
  | 0, _ => .error "malformed pattern (missing ']')"
  | fuel + 1, p =>
    match m.pat? p with
    | none => .error "malformed pattern (missing ']')"
    | some b =>
      let p := if b = escape then p + 2 else p + 1
      match m.pat? p with
      | some 93 => .ok (p + 1)
      | _ => setEnd m fuel p

/-- The end of the single class that starts at `p`. -/
def classEnd (m : Search) (p : Nat) : Except String Nat :=
  match m.pat? p with
  | none => .ok p
  | some b =>
    if b = escape then
      if p + 1 < m.pattern.size then .ok (p + 2)
      else .error "malformed pattern (ends with '%')"
    else if b = 91 then
      setEnd m (m.pattern.size + 1) (if m.pat? (p + 1) = some 94 then p + 2 else p + 1)
    else .ok (p + 1)

/-- Whether a byte is one of the members of a set between `p` and `last`. -/
def setMember (m : Search) (b : UInt8) : Nat → Nat → Nat → Bool
  | 0, _, _ => false
  | fuel + 1, p, last =>
    if last ≤ p then false
    else
      match m.pat? p with
      | none => false
      | some c =>
        if c = escape then
          match m.pat? (p + 1) with
          | some cl => inClass b cl || setMember m b fuel (p + 2) last
          | none => false
        else if m.pat? (p + 1) = some 45 && p + 2 < last then
          match m.pat? (p + 2) with
          | some d => (c ≤ b && b ≤ d) || setMember m b fuel (p + 3) last
          | none => false
        else c == b || setMember m b fuel (p + 1) last

/-- Whether a byte is in the set that starts at `p` and whose closing bracket is at `last`. -/
def inSet (m : Search) (b : UInt8) (p last : Nat) : Bool :=
  if m.pat? (p + 1) = some 94 then !setMember m b m.pattern.size (p + 2) last
  else setMember m b m.pattern.size (p + 1) last

/-- Whether the byte at `s` matches the single class from `p` to `after`. -/
def single (m : Search) (s p after : Nat) : Bool :=
  match m.subject[s]?, m.pat? p with
  | some b, some c =>
    if c = 46 then true
    else if c = escape then inClass b ((m.pat? (p + 1)).getD 0)
    else if c = 91 then inSet m b p (after - 1)
    else c == b
  | _, _ => false

/-- Where a balanced pair ends, within `fuel` bytes and at depth `depth`. -/
def balanced (m : Search) (opening closing : UInt8) : Nat → Nat → Nat → Option Nat
  | 0, _, _ => none
  | fuel + 1, s, depth =>
    match m.subject[s]? with
    | none => none
    | some b =>
      if b = closing then
        if depth = 1 then some (s + 1) else balanced m opening closing fuel (s + 1) (depth - 1)
      else if b = opening then balanced m opening closing fuel (s + 1) (depth + 1)
      else balanced m opening closing fuel (s + 1) depth

/-- How many bytes from `s` on match a single class. -/
def runLength (m : Search) (p after : Nat) : Nat → Nat → Nat
  | 0, _ => 0
  | fuel + 1, s => if m.single s p after then runLength m p after fuel (s + 1) + 1 else 0

/-- The place of the innermost capture that is still open. -/
def openCapture? (caps : List Capture) : Option Nat :=
  let n := (caps.reverse.findIdx? (·.extent == .opened))
  n.map fun i => caps.length - 1 - i

/-- The bytes of the subject in a range. -/
def slice (m : Search) (start length : Nat) : Bytes :=
  (m.subject.extract start (start + length)).toList

/-- The most captures of a pattern. -/
def captureLimit : Nat := 32

/-- A step of matching: tries the rest of the pattern at a place. -/
abbrev Attempt := Nat → Except String (Option (Nat × List Capture))

/-- Tries a place after `n` bytes, then after fewer and fewer, down to `low`. -/
def longest (attempt : Attempt) (s low : Nat) : Nat → Except String (Option (Nat × List Capture))
  | 0 => attempt s
  | n + 1 => do
    match ← attempt (s + n + 1) with
    | some r => return some r
    | none => if n + 1 ≤ low then return none else longest attempt s low n

/-- Tries ever later places, as long as the bytes before them match the class from `p` on. -/
def shortest (m : Search) (attempt : Attempt) (p after : Nat) :
    Nat → Nat → Except String (Option (Nat × List Capture))
  | 0, _ => return none
  | n + 1, s => do
    match ← attempt s with
    | some r => return some r
    | none => if m.single s p after then shortest m attempt p after n (s + 1) else return none

/-- Matches the pattern from `p` on at `s`: where the match ends, with the captures. -/
def matchFrom (m : Search) : Nat → Nat → Nat → List Capture →
    Except String (Option (Nat × List Capture))
  | 0, _, _, _ => .error "pattern too complex"
  | fuel + 1, s, p, caps => do
    match m.pat? p with
    | none => return some (s, caps)
    | some c =>
      if c = 40 then
        if captureLimit ≤ caps.length then throw "too many captures"
        if m.pat? (p + 1) = some 41 then
          matchFrom m fuel s (p + 2) (caps ++ [⟨s, .position⟩])
        else matchFrom m fuel s (p + 1) (caps ++ [⟨s, .opened⟩])
      else if c = 41 then
        match openCapture? caps with
        | none => throw "invalid pattern capture"
        | some i =>
          let start := (caps[i]?.map Capture.start).getD 0
          matchFrom m fuel s (p + 1) (caps.set i ⟨start, .length (s - start)⟩)
      else if c = 36 && p + 1 = m.pattern.size then
        return if s = m.subject.size then some (s, caps) else none
      else if c = escape && m.pat? (p + 1) = some 98 then
        match m.pat? (p + 2), m.pat? (p + 3) with
        | some opening, some closing =>
          if m.subject[s]? = some opening then
            match m.balanced opening closing m.subject.size (s + 1) 1 with
            | some s => matchFrom m fuel s (p + 4) caps
            | none => return none
          else return none
        | _, _ => throw "malformed pattern (missing arguments to '%b')"
      else if c = escape && m.pat? (p + 1) = some 102 then
        if m.pat? (p + 2) ≠ some 91 then throw "missing '[' after '%f' in pattern"
        let after ← m.classEnd (p + 2)
        let before := if s = 0 then 0 else m.subject[s - 1]?.getD 0
        let here := m.subject[s]?.getD 0
        if !m.inSet before (p + 2) (after - 1) && m.inSet here (p + 2) (after - 1) then
          matchFrom m fuel s after caps
        else return none
      else if c = escape && ((m.pat? (p + 1)).map fun d => (char d).isDigit) == some true then
        let n := ((m.pat? (p + 1)).getD 48).toNat - 48
        match if n = 0 then none else caps[n - 1]? with
        | some ⟨start, .length length⟩ =>
          let text := m.slice start length
          if m.slice s length = text && s + length ≤ m.subject.size then
            matchFrom m fuel (s + length) (p + 2) caps
          else return none
        | _ => throw s!"invalid capture index %{n}"
      else
        let after ← m.classEnd p
        match m.pat? after with
        | some 63 =>
          if m.single s p after then
            match ← matchFrom m fuel (s + 1) (after + 1) caps with
            | some r => return some r
            | none => matchFrom m fuel s (after + 1) caps
          else matchFrom m fuel s (after + 1) caps
        | some 43 =>
          let n := m.runLength p after (m.subject.size + 1) s
          if n = 0 then return none
          else longest (fun s => matchFrom m fuel s (after + 1) caps) s 1 n
        | some 42 =>
          let n := m.runLength p after (m.subject.size + 1) s
          longest (fun s => matchFrom m fuel s (after + 1) caps) s 0 n
        | some 45 => 
          m.shortest (fun s => matchFrom m fuel s (after + 1) caps) p after (m.subject.size + 1) s
        | _ =>
          if m.single s p after then matchFrom m fuel (s + 1) after caps else return none

/-- Steps of one match, at most. -/
def fuel (m : Search) : Nat := 2 * (m.subject.size + m.pattern.size) + 16

/-- What a match found: where it starts and ends, and the captures. -/
structure Found where
  /-- Where it starts. -/
  start : Nat
  /-- Where it ends. -/
  stop : Nat
  /-- The captures. -/
  captures : List Capture

/-- The pattern without the mark that ties it to the start, and whether it has that mark. -/
def unanchored (m : Search) : Search × Bool :=
  if m.pat? 0 = some 94 then ({ m with pattern := m.pattern.extract 1 m.pattern.size }, true)
  else (m, false)

/-- The first match at `s` or, unless `anchored`, after it. -/
def find (m : Search) (anchored : Bool) : Nat → Nat → Except String (Option Found)
  | 0, _ => return none
  | n + 1, s => do
    match ← m.matchFrom m.fuel s 0 [] with
    | some (stop, caps) => return some ⟨s, stop, caps⟩
    | none => if anchored || m.subject.size ≤ s then return none else find m anchored n (s + 1)

/-- A capture as a value. -/
def captureValue (m : Search) (c : Capture) : Except String Value :=
  match c.extent with
  | .opened => .error "unfinished capture"
  | .position => .ok (.int (Int64.ofNat (c.start + 1)))
  | .length n => .ok (.str (m.slice c.start n))

/-- The captures of a match; the whole match stands in if there are none. -/
def captureValues (m : Search) (f : Found) : Except String (List Value) :=
  if f.captures.isEmpty then .ok [.str (m.slice f.start (f.stop - f.start))]
  else f.captures.mapM m.captureValue

end Search
end ScriptShell.Guest.Pattern
