import ScriptShell.Guest.Library.Streams

/-! # Functions that reach the shell

The metamethods of property tables and the functions of the capability table that work on the
shell's collections and keys.  What the shell refuses is raised as a failure by the metamethods and
returned as a message by the functions. -/

namespace ScriptShell.Guest.LibraryCall

/-- The host form of a value; a value without one is a failure. -/
def hostValue (v : Value) : Program HostValue := do
  match Marshal.toHost (← Program.ask .heap) v with
  | .ok x => return x
  | .error e => raiseFailure (.marshal e)

/-- The guest form of a host value. -/
def guestValue (c : LibraryCall) (x : HostValue) : Program Value := do
  match ← Program.ask (.toGuest c.runtime x) with
  | .ok v => return v
  | .error e => raiseFailure (.marshal e)

/-- A table argument of a host function. -/
def hostTable (c : LibraryCall) : Program TableRef := do
  match c.arg 1 with
  | .table t => return t
  | v => raiseFailure (.argument none 1 none (← conversionOf v "table" none))

/-- Reads a property. -/
def propertyGet (c : LibraryCall) (t : PropertyTable) : Program (List Value) := do
  let _ ← c.hostTable
  let key ← hostValue (c.arg 2)
  match t.get (← Program.ask .host) key with
  | some x => return [← c.guestValue x]
  | none => return [.nil]

/-- Writes a property that the shell claims, or the table's own field. -/
def propertySet (c : LibraryCall) (t : PropertyTable) : Program (List Value) := do
  let table ← c.hostTable
  let own := do
    viaHost c.here (c.here.rawSet table (c.arg 2) (c.arg 3))
    return []
  match Marshal.toHost (← Program.ask .heap) (c.arg 2) with
  | .ok key =>
    if t.claims key then
      let x ← hostValue (c.arg 3)
      match ← Program.ask (.setProperty t key x) with
      | .ok () => return []
      | .error e => raiseFailure (.property e)
    else own
  | .error _ => own

/-- The length of a property table. -/
def propertyLength (c : LibraryCall) (t : PropertyTable) : Program (List Value) := do
  let _ ← c.hostTable
  return [.int (Int64.ofNat ((t.length? (← Program.ask .host)).getD 0))]

/-- What a function returns for a write that may be refused. -/
def written : Except PropertyError Unit → List Value
  | .ok () => [.bool true, .nil]
  | .error e => [.nil, .text e.message]

/-- The name of a key, as a text. -/
def keyName (c : LibraryCall) : Program String := do
  match c.arg 1 with
  | .str s =>
    match Utf8.decode? s with
    | some text => return text
    | none =>
      let detail := (Utf8.firstFault? s).map Utf8.Fault.message
      raiseFailure (.argument none 1 none (.conversion "string" "String" detail))
  | v =>
    match Here.piece? v with
    | some s => return Utf8.decodeLossy s
    | none =>
      let cause ← conversionOf v "String" (some "expected string or number")
      raiseFailure (.argument none 1 none cause)

/-- `bindkey`: the call form of the key table. -/
def bindKey (c : LibraryCall) (hooks : RegistryRef) : Program (List Value) := do
  let key ← c.keyName
  let x ← hostValue (c.arg 2)
  return written (← Program.ask (.bindKey hooks key x))

/-- `getalias`: the call form of reading the alias table. -/
def getAlias (c : LibraryCall) : Program (List Value) := do
  let name ← hostValue (c.arg 1)
  match (PropertyTable.collection .aliases).get (← Program.ask .host) name with
  | some x => return [← c.guestValue x]
  | none => return [.nil]

/-- `setalias`: the call form of writing the alias table. -/
def setAlias (c : LibraryCall) : Program (List Value) := do
  let name ← hostValue (c.arg 1)
  let body ← hostValue (c.arg 2)
  return written (← Program.ask (.setProperty (.collection .aliases) name body))

end ScriptShell.Guest.LibraryCall
