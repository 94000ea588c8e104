import ScriptShell.Guest.Operations

/-! # Arguments of library functions

How the functions of the guest's library read their arguments, and how they and the host's functions
fail.  A library function blames an argument by its position and calls itself by the name that the
caller used; a host function raises a `Failure`, an object that passes through the guest
unchanged. -/

namespace ScriptShell.Guest

/-- A call of a library function. -/
structure LibraryCall where
  /-- The runtime. -/
  runtime : RuntimeRef
  /-- The places from which it was called. -/
  sites : CallSites
  /-- The name under which the library holds the function. -/
  name : String
  /-- The arguments. -/
  args : List Value
  deriving Inhabited

namespace LibraryCall

/-- The call's own place, inside the host. -/
def here (c : LibraryCall) : Here := ⟨c.runtime, .host :: c.sites⟩

/-- The place that errors of the call are blamed on. -/
def blame (c : LibraryCall) : Here := ⟨c.runtime, c.sites⟩

/-- Raises an error that is blamed on the caller. -/
def fail {α : Type} (c : LibraryCall) (message : String) : Program α := c.blame.fail message

/-- An argument by position from one on; `nil` if it is missing. -/
def arg (c : LibraryCall) (n : Nat) : Value := c.args[n - 1]?.getD .nil

/-- Whether there is an argument at a position. -/
def given (c : LibraryCall) (n : Nat) : Bool := n ≤ c.args.length

/-- Raises an error about an argument. -/
def failArgument {α : Type} (c : LibraryCall) (n : Nat) (message : String) : Program α :=
  let complaint := fun (n : Nat) (name : String) =>
    s!"bad argument #{n} to '" ++ name ++ "' (" ++ message ++ ")"
  match c.sites.head? with
  | some (.guest _ _ (some ("method", name)) _) =>
    if n = 1 then c.fail ("calling '" ++ name ++ "' on bad self (" ++ message ++ ")")
    else c.fail (complaint (n - 1) name)
  | some (.guest _ _ (some (_, name)) _) => c.fail (complaint n name)
  | _ => c.fail (complaint n c.name)

/-- Raises an error about the type of an argument. -/
def failType {α : Type} (c : LibraryCall) (n : Nat) (expected : String) : Program α := do
  let found ←
    if !c.given n then pure "no value"
    else
      match c.arg n with
      | .light _ => pure "light userdata"
      | v => objectTypeName c.runtime v
  c.failArgument n (expected ++ " expected, got " ++ found)

/-- Checks that there is an argument at a position. -/
def any (c : LibraryCall) (n : Nat) : Program Value :=
  if c.given n then return c.arg n else c.failArgument n "value expected"

/-- A string argument; numbers count as the strings that they are written as. -/
def string (c : LibraryCall) (n : Nat) : Program Bytes :=
  match Here.piece? (c.arg n) with
  | some s => return s
  | none => c.failType n "string"

/-- An integer argument; floats and strings count if they have an integer's value. -/
def integer (c : LibraryCall) (n : Nat) : Program Int :=
  match Arithmetic.coerceInteger? (c.arg n) with
  | some i => return i.toInt
  | none =>
    match Arithmetic.coerceNumber? (c.arg n) with
    | some _ => c.failArgument n "number has no integer representation"
    | none => c.failType n "number"

/-- An integer argument, or a default if there is none. -/
def integerOr (c : LibraryCall) (n : Nat) (default : Int) : Program Int :=
  if (c.arg n).isNil then return default else c.integer n

/-- A number argument; strings count if they write a number. -/
def number (c : LibraryCall) (n : Nat) : Program Value :=
  match Arithmetic.coerceNumber? (c.arg n) with
  | some v => return v
  | none => c.failType n "number"

/-- A number argument as a float. -/
def float (c : LibraryCall) (n : Nat) : Program Float := do
  return (Arithmetic.toFloat (← c.number n)).getD 0.0

/-- A table argument. -/
def table (c : LibraryCall) (n : Nat) : Program TableRef :=
  match c.arg n with
  | .table t => return t
  | _ => c.failType n "table"

end LibraryCall

/-! ## Failures -/

/-- Raises an error of the host's side. -/
def raiseFailure {α : Type} (f : Failure) : Program α := do
  let u ← Program.ask (.newUser (.failure (.callback f)))
  .raise (.user u)

/-- An error of the guest as the host sees it: failures as they are, and all else as text.  Where
the text cannot be had, the error that stands in its way takes its place, at most `n` times. -/
def failureWithin (here : Here) : Nat → Value → Program Failure
  | 0, _ => return .runtime "C stack overflow"
  | n + 1, e => do
    let asText := fun s : Bytes => Failure.runtime (Utf8.decodeLossy s ++ "\n" ++ traceback)
    match e with
    | .str s => return asText s
    | .user u =>
      match ← Program.ask (.user u) with
      | .failure f => return f
      | _ =>
        match ← (here.toText e).attempt with
        | .ok s => return asText s
        | .error e => failureWithin here n e
    | e =>
      match ← (here.toText e).attempt with
      | .ok s => return asText s
      | .error e => failureWithin here n e

/-- An error of the guest as the host sees it. -/
def failureOf (here : Here) (e : Value) : Program Failure := failureWithin here 20 e

/-- Runs a step of a host function; an error of the guest in it becomes a failure of the host
function. -/
def viaHost {α : Type} (here : Here) (p : Program α) : Program α := do
  match ← p.attempt with
  | .ok a => return a
  | .error e => raiseFailure (← failureOf here e)

end ScriptShell.Guest
