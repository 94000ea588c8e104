import ScriptShell.Guest.Library.Arguments
import ScriptShell.Guest.Parser

/-! # The basic functions

The functions of the guest's library that are not in a table: protected calls and errors, access to
tables without metamethods, conversions, and loading chunks.  Of the coroutine library there is what
makes a coroutine and tells its status; as none can be run, the status is that of one that has not
started.  There is no `require`, and `collectgarbage` finds nothing to collect. -/

namespace ScriptShell.Guest.LibraryCall

/-- `error`: a string message starts with the place at the given level. -/
def raiseError (c : LibraryCall) (message : Value) (level : Int) : Program (List Value) :=
  match message with
  | .str s =>
    if 0 < level then
      .raise (.str (Utf8.encode (siteText c.sites[level.toNat - 1]?) ++ s))
    else .raise message
  | v => .raise v

/-- `error`. -/
def error (c : LibraryCall) : Program (List Value) := do
  c.raiseError (c.arg 1) (← c.integerOr 2 1)

/-- `assert`. -/
def assert (c : LibraryCall) : Program (List Value) := do
  if (c.arg 1).truthy then return c.args
  let _ ← c.any 1
  c.raiseError (if c.given 2 then c.arg 2 else .text "assertion failed!") 1

/-- `pcall`. -/
def pcall (c : LibraryCall) : Program (List Value) := do
  let f ← c.any 1
  .call f (c.args.drop 1) c.here.sites fun
    | .ok vs => .done (.bool true :: vs)
    | .error e => .done [.bool false, e]

/-- `xpcall`. -/
def xpcall (c : LibraryCall) : Program (List Value) := do
  match c.arg 2 with
  | .func _ => pure ()
  | _ => c.failType 2 "function"
  .call (c.arg 1) (c.args.drop 2) c.here.sites fun
    | .ok vs => .done (.bool true :: vs)
    | .error e => .call (c.arg 2) [e] c.here.sites fun
      | .ok vs => .done [.bool false, first vs]
      | .error e => .done [.bool false, e]

/-- `select`. -/
def select (c : LibraryCall) : Program (List Value) := do
  let rest := c.args.drop 1
  if (match c.arg 1 with
    | .str s => s == Utf8.encode "#"
    | _ => false) then return [.int (Int64.ofNat rest.length)]
  let n ← c.integer 1
  if n < 0 then
    if (rest.length : Int) < -n then c.failArgument 1 "index out of range"
    return rest.drop (rest.length + n).toNat
  else if n = 0 then c.failArgument 1 "index out of range"
  else return rest.drop (n.toNat - 1)

/-- `type`. -/
def type (c : LibraryCall) : Program (List Value) := do
  return [.text (← c.any 1).typeName]

/-- `tostring`. -/
def tostring (c : LibraryCall) : Program (List Value) := do
  return [.str (← c.here.toText (← c.any 1))]

/-- The value of a digit in a base of up to 36. -/
def baseDigit? (ch : Char) : Option Nat :=
  if ch.isDigit then some (ch.toNat - '0'.toNat)
  else if ch.isAlpha then some (ch.toUpper.toNat - 'A'.toNat + 10)
  else none

/-- The integer that a text writes in a base, blanks around it aside. -/
def inBase? (base : Nat) (cs : List Char) : Option Value :=
  let cs := cs.dropWhile Numeral.isSpace
  let cs := (cs.reverse.dropWhile Numeral.isSpace).reverse
  let (negative, ds) :=
    match cs with
    | '-' :: r => (true, r)
    | r => (false, r)
  if ds.isEmpty then none
  else
    match ds.mapM baseDigit? with
    | some vs =>
      if vs.all (· < base) then
        let n : Int := (vs.foldl (fun n v => n * base + v) 0 : Nat)
        some (.int (Int64.ofInt (if negative then -n else n)))
      else none
    | none => none

/-- `tonumber`. -/
def tonumber (c : LibraryCall) : Program (List Value) := do
  if (c.arg 2).isNil then
    match Arithmetic.coerceNumber? (c.arg 1) with
    | some v => return [v]
    | none =>
      let _ ← c.any 1
      return [.nil]
  else
    let base ← c.integer 2
    match c.arg 1 with
    | .str s =>
      if base < 2 || 36 < base then c.failArgument 2 "base out of range"
      return [(inBase? base.toNat (s.map fun b => Char.ofNat b.toNat)).getD .nil]
    | _ => c.failType 1 "string"

/-- `rawget`. -/
def rawget (c : LibraryCall) : Program (List Value) := do
  let t ← c.table 1
  let k ← c.any 2
  match Key.ofValue k with
  | .ok k => return [(← Program.ask (.table t)).get k]
  | .error _ => return [.nil]

/-- `rawset`. -/
def rawset (c : LibraryCall) : Program (List Value) := do
  let t ← c.table 1
  let k ← c.any 2
  let v ← c.any 3
  c.here.rawSet t k v
  return [.table t]

/-- `rawlen`. -/
def rawlen (c : LibraryCall) : Program (List Value) := do
  match c.arg 1 with
  | .table t => return [.int (Int64.ofNat (← Program.ask (.table t)).border)]
  | .str s => return [.int (Int64.ofNat s.length)]
  | _ => c.failType 1 "table or string"

/-- `rawequal`. -/
def rawequal (c : LibraryCall) : Program (List Value) := do
  let a ← c.any 1
  let b ← c.any 2
  return [.bool (Value.rawEq a b)]

/-- `setmetatable`. -/
def setmetatable (c : LibraryCall) : Program (List Value) := do
  let t ← c.table 1
  let m? : Option TableRef ←
    match c.arg 2 with
    | .table m => pure (some m)
    | .nil => if c.given 2 then pure none else c.failType 2 "nil or table"
    | _ => c.failType 2 "nil or table"
  if !(← metamethod c.runtime (.table t) "metatable").isNil then
    c.fail "cannot change a protected metatable"
  Program.ask (.setMetatable t m?)
  return [.table t]

/-- `getmetatable`. -/
def getmetatable (c : LibraryCall) : Program (List Value) := do
  let v ← c.any 1
  match ← metatable? c.runtime v with
  | none => return [.nil]
  | some m =>
    let shown := (← Program.ask (.table m)).get (.text "__metatable")
    return [if shown.isNil then .table m else shown]

/-- A function of the library as a value. -/
def libraryValue (c : LibraryCall) (f : LibraryFunction) : Program Value := do
  return .func (← Program.ask (.newFunction ⟨c.runtime, .library f⟩))

/-- `ipairs`. -/
def ipairs (c : LibraryCall) : Program (List Value) := do
  let v ← c.any 1
  return [← c.libraryValue .ipairsStep, v, .int 0]

/-- The iterator of `ipairs`. -/
def ipairsStep (c : LibraryCall) : Program (List Value) := do
  let n := Int64.ofInt (← c.integer 2) + 1
  let v ← c.here.index none (c.arg 1) (.int n)
  if v.isNil then return [.nil] else return [.int n, v]

/-- `next`. -/
def next (c : LibraryCall) : Program (List Value) := do
  let t ← Program.ask (.table (← c.table 1))
  let found :=
    match c.arg 2 with
    | .nil => t.next? none
    | k =>
      match Key.ofValue k with
      | .ok k => t.next? (some k)
      | .error _ => none
  match found with
  | none => c.here.fail "invalid key to 'next'"
  | some none => return [.nil]
  | some (some (k, v)) => return [k.toValue, v]

/-- `pairs`. -/
def pairs (c : LibraryCall) : Program (List Value) := do
  let v ← c.any 1
  let handler ← metamethod c.runtime v "pairs"
  if handler.isNil then
    return [← c.libraryValue .next, v, .nil]
  else
    let vs ← Program.callValue handler [v] c.here.sites
    return vs.take 3 ++ List.replicate (3 - vs.length) .nil

/-- `collectgarbage`: there is nothing to collect. -/
def collectgarbage (_ : LibraryCall) : Program (List Value) := return [.int 0]

/-! ## Chunks -/

/-- A chunk as a function, with the value of its `_ENV`. -/
def loadChunk (r : RuntimeRef) (p : Proto) (environment : Value) : Program Value := do
  let cell ← Program.ask (.newCell environment)
  return .func (← Program.ask (.newFunction ⟨r, .closure p [cell]⟩))

/-- The value of `_ENV` for a chunk that is loaded: the argument if it is given. -/
def environment (c : LibraryCall) (n : Nat) : Program Value := do
  if c.given n then return c.arg n
  return .table (← Program.ask (.runtime c.runtime)).globals

/-- Compiles a chunk, which must be allowed by the mode, that is `b`, `t` or both. -/
def compileIn (mode : Value) (name : String) (source : Bytes) : Except String Proto :=
  match mode with
  | .str m =>
    if m.contains 116 then compileNamed name source
    else .error (chunkDisplay name ++ ": attempt to load a text chunk (mode is '" ++
      Utf8.decodeLossy m ++ "')")
  | _ => compileNamed name source

/-- What loading a chunk gives: a function, or `nil` and what is wrong. -/
def loaded (c : LibraryCall) (environmentAt : Nat) (result : Except String Proto) :
    Program (List Value) := do
  match result with
  | .ok p => return [← loadChunk c.runtime p (← c.environment environmentAt)]
  | .error e => return [.nil, .text e]

/-- The pieces that a reader gives, until it gives none. -/
def pieces (c : LibraryCall) (f : Value) : Nat → Program (Except String Bytes)
  | 0 => .exhausted
  | n + 1 => do
    match first (← Program.callValue f [] c.here.sites) with
    | .nil => return .ok []
    | .str [] => return .ok []
    | .str s =>
      match ← pieces c f n with
      | .ok more => return .ok (s ++ more)
      | .error e => return .error e
    | _ => return .error "reader function must return a string"

/-- `load`. -/
def load (c : LibraryCall) : Program (List Value) := do
  match Here.piece? (c.arg 1) with
  | some source =>
    let name ← if (c.arg 2).isNil then pure source else c.string 2
    c.loaded 4 (compileIn (c.arg 3) (Utf8.decodeLossy name) source)
  | none =>
    match c.arg 1 with
    | .func _ =>
      let name ← if (c.arg 2).isNil then pure (Utf8.encode "=(load)") else c.string 2
      match ← c.pieces (c.arg 1) 100000 with
      | .ok source => c.loaded 4 (compileIn (c.arg 3) (Utf8.decodeLossy name) source)
      | .error e => return [.nil, .text e]
    | _ => c.failType 1 "function"

/-- The source in a file: a mark of UTF-8 at its start is dropped, and a first line that starts with
`#` is left empty. -/
def fileSource (content : Bytes) : Bytes :=
  let content :=
    match content with
    | 0xEF :: 0xBB :: 0xBF :: rest => rest
    | s => s
  if content.head? = some 35 then content.dropWhile (· != 10) else content

/-- Compiles a file. -/
def compileFile (c : LibraryCall) (mode : Value) : Program (Except String Proto) := do
  let path := Utf8.decodeLossy (← c.string 1)
  match (← Program.ask .files).read path with
  | .ok content => return compileIn mode ("@" ++ path) (fileSource content)
  | .error e =>
    let verb := if e = .isDirectory then "read" else "open"
    return .error ("cannot " ++ verb ++ " " ++ path ++ ": " ++ e.reason)

/-- `loadfile`. -/
def loadfile (c : LibraryCall) : Program (List Value) := do
  c.loaded 3 (← c.compileFile (c.arg 2))

/-- `dofile`. -/
def dofile (c : LibraryCall) : Program (List Value) := do
  match ← c.compileFile .nil with
  | .error e => .raise (.text e)
  | .ok p =>
    let globals := (← Program.ask (.runtime c.runtime)).globals
    Program.callValue (← loadChunk c.runtime p (.table globals)) [] c.here.sites

/-! ## Coroutines -/

/-- `coroutine.create`. -/
def coroutineCreate (c : LibraryCall) : Program (List Value) := do
  match c.arg 1 with
  | .func _ => return [.thread (← Program.ask (.newThread (c.arg 1)))]
  | _ => c.failType 1 "function"

/-- `coroutine.status`: coroutines are never started. -/
def coroutineStatus (c : LibraryCall) : Program (List Value) := do
  match c.arg 1 with
  | .thread _ => return [.text "suspended"]
  | _ => c.failType 1 "coroutine"

end ScriptShell.Guest.LibraryCall
