import ScriptShell.Guest.Arithmetic
import ScriptShell.Program

/-! # Operations with metamethods

Reading and writing fields, arithmetic, comparison, length and concatenation, as the guest sees
them: where an operation is not defined on its operands, a metamethod of one of them takes over.
`Here` is the place where the operation happens; an error starts with that place if it is guest
code. -/

namespace ScriptShell.Guest

/-- The place where an operation happens: the runtime and the lines that led there. -/
structure Here where
  /-- The runtime. -/
  runtime : RuntimeRef
  /-- The place itself and the places from which the running functions were called. -/
  sites : CallSites
  deriving Inhabited

/-- The start of an error that is blamed on a place. -/
def siteText : Option CallSite → String
  | some (.guest chunk line _ _) => chunk ++ s!":{line}: "
  | some .host | none => ""

/-- Raises an error with the place at its start. -/
def Here.fail {α : Type} (here : Here) (message : String) : Program α :=
  .raise (.text (siteText here.sites.head? ++ message))

/-- How an operand is called in an error, if it has a name. -/
def operandName : Option (String × String) → String
  | some (kind, name) => " (" ++ kind ++ " '" ++ name ++ "')"
  | none => ""

/-- How often an operation is passed on from one metamethod to the next, at most. -/
def chainLimit : Nat := 2000

/-- The first of several values. -/
def first : List Value → Value
  | [] => .nil
  | v :: _ => v

/-- The metatable of a value. -/
def metatable? (r : RuntimeRef) (v : Value) : Program (Option TableRef) :=
  match v with
  | .table t => do return (← Program.ask (.table t)).metatable?
  | .str _ => do return some (← Program.ask (.runtime r)).strings
  | .user u => do
    let runtime ← Program.ask (.runtime r)
    match ← Program.ask (.user u) with
    | .handle _ => return some runtime.handles
    | .stream _ => return some runtime.streams
    | .failure _ => return some runtime.failures
    | .file _ => return some runtime.files
    | .foreign => return none
  | _ => return none

/-- A metamethod of a value, by its name without the underscores. -/
def metamethod (r : RuntimeRef) (v : Value) (event : String) : Program Value := do
  match ← metatable? r v with
  | some m => return (← Program.ask (.table m)).get (.text ("__" ++ event))
  | none => return .nil

/-- The name of a value's type in errors; a metatable can give another one. -/
def objectTypeName (r : RuntimeRef) (v : Value) : Program String := do
  match v with
  | .table _ | .user _ =>
    match ← metamethod r v "name" with
    | .str s => return Utf8.decodeLossy s
    | _ => return v.typeName
  | _ => return v.typeName

namespace Here

/-- Raises the error of an operation on a value of a wrong type. -/
def failType {α : Type} (here : Here) (what : String) (v : Value)
    (name? : Option (String × String)) : Program α := do
  let type ← objectTypeName here.runtime v
  here.fail ("attempt to " ++ what ++ " a " ++ type ++ " value" ++ operandName name?)

/-- The places from which a metamethod is called: guest code names it by its event. -/
def calling (here : Here) (event : String) : CallSites :=
  match here.sites with
  | .guest chunk line _ _ :: rest => .guest chunk line (some ("metamethod", event)) false :: rest
  | sites => sites

/-- Calls a metamethod for its first result. -/
def callFirst (here : Here) (event : String) (f : Value) (args : List Value) : Program Value := do
  return first (← Program.callValue f args (here.calling event))

/-! ## Fields -/

/-- Reads a field through at most `n` metamethods. -/
def indexWithin (here : Here) (name? : Option (String × String)) :
    Nat → Value → Value → Program Value
  | 0, _, _ => here.fail "'__index' chain too long; possibly a loop"
  | n + 1, v, k => do
    let handler ←
      match v with
      | .table t => do
        let table ← Program.ask (.table t)
        let found :=
          match Key.ofValue k with
          | .ok key => table.get key
          | .error _ => .nil
        if !found.isNil then return found
        match table.metatable? with
        | none => return .nil
        | some m =>
          let handler := (← Program.ask (.table m)).get (.text "__index")
          if handler.isNil then return .nil
          pure handler
      | v => do
        let handler ← metamethod here.runtime v "index"
        if handler.isNil then here.failType "index" v name?
        pure handler
    match handler with
    | .func _ => here.callFirst "index" handler [v, k]
    -- what is no function is read in turn
    | _ => here.indexWithin none n handler k

/-- Reads a field. -/
def index (here : Here) (name? : Option (String × String)) (v k : Value) : Program Value :=
  here.indexWithin name? chainLimit v k

/-- Puts a value into a table, without metamethods. -/
def rawSet (here : Here) (t : TableRef) (k v : Value) : Program Unit :=
  match Key.ofValue k with
  | .ok key => Program.ask (.setSlot t key v)
  | .error e => here.fail ("table " ++ e.message)

/-- Writes a field through at most `n` metamethods. -/
def setIndexWithin (here : Here) (name? : Option (String × String)) :
    Nat → Value → Value → Value → Program Unit
  | 0, _, _, _ => here.fail "'__newindex' chain too long; possibly a loop"
  | n + 1, o, k, v => do
    let handler ←
      match o with
      | .table t => do
        let table ← Program.ask (.table t)
        let present :=
          match Key.ofValue k with
          | .ok key => !(table.get key).isNil
          | .error _ => false
        if present then
          here.rawSet t k v
          return ()
        match table.metatable? with
        | none =>
          here.rawSet t k v
          return ()
        | some m =>
          let handler := (← Program.ask (.table m)).get (.text "__newindex")
          if handler.isNil then
            here.rawSet t k v
            return ()
          pure handler
      | o => do
        let handler ← metamethod here.runtime o "newindex"
        if handler.isNil then here.failType "index" o name?
        pure handler
    match handler with
    | .func _ =>
      let _ ← here.callFirst "newindex" handler [o, k, v]
      return ()
    | _ => here.setIndexWithin none n handler k v

/-- Writes a field. -/
def setIndex (here : Here) (name? : Option (String × String)) (o k v : Value) : Program Unit :=
  here.setIndexWithin name? chainLimit o k v

/-! ## Arithmetic -/

/-- The metamethod of the first operand that has one. -/
def binaryHandler (here : Here) (a b : Value) (event : String) : Program Value := do
  let handler ← metamethod here.runtime a event
  if handler.isNil then metamethod here.runtime b event else return handler

/-- An arithmetic operation. -/
def arithmetic (here : Here) (op : BinaryOp) (a b : Value)
    (aName? bName? : Option (String × String)) : Program Value :=
  match Arithmetic.compute op a b with
  | .value v => return v
  | .fault message => here.fail message
  | .mismatch => do
    let handler ← here.binaryHandler a b (Arithmetic.eventName op)
    if !handler.isNil then here.callFirst (Arithmetic.eventName op) handler [a, b]
    else
      let isNumber := fun v : Value => (Arithmetic.toFloat v).isSome
      -- the first operand that is no number is to blame
      let (culprit, name?) := if isNumber a then (b, bName?) else (a, aName?)
      if Arithmetic.isBitwise op then
        if isNumber a && isNumber b then
          let name? := if (Arithmetic.toInteger? a).isNone then aName? else bName?
          here.fail ("number" ++ operandName name? ++ " has no integer representation")
        else here.failType "perform bitwise operation on" culprit name?
      else here.failType "perform arithmetic on" culprit name?

/-- Negation. -/
def negate (here : Here) (a : Value) (name? : Option (String × String)) : Program Value :=
  match a with
  | .int i => return .int (-i)
  | .num x => return .num (-x)
  | a => do
    let handler ← metamethod here.runtime a "unm"
    if handler.isNil then here.failType "perform arithmetic on" a name?
    else here.callFirst "unm" handler [a, a]

/-- Bitwise complement. -/
def complement (here : Here) (a : Value) (name? : Option (String × String)) : Program Value :=
  match Arithmetic.toInteger? a with
  | some i => return .int (~~~i)
  | none => do
    let handler ← metamethod here.runtime a "bnot"
    if !handler.isNil then here.callFirst "bnot" handler [a, a]
    else
      match a with
      | .num _ => here.fail ("number" ++ operandName name? ++ " has no integer representation")
      | a => here.failType "perform bitwise operation on" a name?

/-- The length. -/
def length (here : Here) (a : Value) (name? : Option (String × String)) : Program Value :=
  match a with
  | .str s => return .int (Int64.ofNat s.length)
  | .table t => do
    let handler ← metamethod here.runtime a "len"
    if handler.isNil then return .int (Int64.ofNat (← Program.ask (.table t)).border)
    else here.callFirst "len" handler [a, a]
  | a => do
    let handler ← metamethod here.runtime a "len"
    if handler.isNil then here.failType "get length of" a name?
    else here.callFirst "len" handler [a, a]

/-- A value as a piece of a concatenation. -/
def piece? : Value → Option Bytes
  | .str s => some s
  | .int i => some (Utf8.encode (toString i))
  | .num x => some (Utf8.encode (Numeral.floatText x))
  | _ => none

/-- Concatenation. -/
def concat (here : Here) (a b : Value) (aName? bName? : Option (String × String)) :
    Program Value :=
  match piece? a, piece? b with
  | some s, some t => return .str (s ++ t)
  | pa, _ => do
    let handler ← here.binaryHandler a b "concat"
    if !handler.isNil then here.callFirst "concat" handler [a, b]
    else if pa.isSome then here.failType "concatenate" b bName?
    else here.failType "concatenate" a aName?

/-! ## Comparison -/

/-- Equality. -/
def equal (here : Here) (a b : Value) : Program Bool :=
  if Value.rawEq a b then return true
  else
    match a, b with
    | .table _, .table _ | .user _, .user _ => do
      -- only two tables or two objects are asked whether they are equal
      let handler ← here.binaryHandler a b "eq"
      if handler.isNil then return false
      else return (← here.callFirst "eq" handler [a, b]).truthy
    | _, _ => return false

/-- Order; `strict` excludes equality. -/
def ordered (here : Here) (strict : Bool) (a b : Value) : Program Bool :=
  let decide := fun o : Option Ordering => o == some .lt || (!strict && o == some .eq)
  match a, b with
  | .str s, .str t => return decide (some (Arithmetic.orderBytes s t))
  | a, b =>
    if (Arithmetic.toFloat a).isSome && (Arithmetic.toFloat b).isSome then
      return decide (Arithmetic.order a b)
    else do
      let event := if strict then "lt" else "le"
      let handler ← here.binaryHandler a b event
      if !handler.isNil then return (← here.callFirst event handler [a, b]).truthy
      let s ← objectTypeName here.runtime a
      let t ← objectTypeName here.runtime b
      if s = t then here.fail ("attempt to compare two " ++ s ++ " values")
      else here.fail ("attempt to compare " ++ s ++ " with " ++ t)

/-- An operator on two operands. -/
def binary (here : Here) (op : BinaryOp) (a b : Value) (aName? bName? : Option (String × String)) :
    Program Value :=
  match op with
  | .eq => do return .bool (← here.equal a b)
  | .ne => do return .bool !(← here.equal a b)
  | .lt => do return .bool (← here.ordered true a b)
  | .le => do return .bool (← here.ordered false a b)
  | .gt => do return .bool (← here.ordered true b a)
  | .ge => do return .bool (← here.ordered false b a)
  | .concat => here.concat a b aName? bName?
  | op => here.arithmetic op a b aName? bName?

/-- An operator on one operand. -/
def unary (here : Here) (op : UnaryOp) (a : Value) (name? : Option (String × String)) :
    Program Value :=
  match op with
  | .negate => here.negate a name?
  | .bitNot => here.complement a name?
  | .length => here.length a name?
  | .logicalNot => return .bool !a.truthy

/-! ## Text -/

/-- The text of an address that stands for a place of the heap. -/
def addressText (n : Nat) : String :=
  let digits := Nat.toDigits 16 (0x55550000 + 64 * n)
  "0x" ++ String.ofList (List.replicate (14 - digits.length) '0' ++ digits)

/-- The place of a value that is a reference. -/
def placeOf : Value → Nat
  | .table t => 8 * t.id
  | .func f => 8 * f.id + 1
  | .user u => 8 * u.id + 2
  | .thread t => 8 * t.id + 3
  | .light n => 8 * n + 4
  | _ => 0

/-- A value as text.  A metamethod that gives no string is blamed on the caller of the function that
asks for the text. -/
def toText (here : Here) (v : Value) : Program Bytes := do
  let handler ← metamethod here.runtime v "tostring"
  if !handler.isNil then
    match ← here.callFirst "tostring" handler [v] with
    | .str s => return s
    | .int i => return Utf8.encode (toString i)
    | .num x => return Utf8.encode (Numeral.floatText x)
    | _ => (Here.mk here.runtime (here.sites.drop 1)).fail "'__tostring' must return a string"
  else
    match v with
    | .nil => return Utf8.encode "nil"
    | .bool b => return Utf8.encode (toString b)
    | .int i => return Utf8.encode (toString i)
    | .num x => return Utf8.encode (Numeral.floatText x)
    | .str s => return s
    | v => return Utf8.encode ((← objectTypeName here.runtime v) ++ ": " ++ addressText (placeOf v))

end Here
end ScriptShell.Guest
