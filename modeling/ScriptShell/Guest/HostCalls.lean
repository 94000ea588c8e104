import ScriptShell.Guest.Library
import ScriptShell.World

/-! # Calls between guest and host

A function of the host gets its arguments as host values and its results go back as guest values;
what cannot cross is a failure in the guest.  The other way round, the host calls a guest function
inside a stream scope: `StreamScope.enter` puts three new streams into the guest's `io` table and
`StreamScope.leave` closes them and puts back what was there before, however the call ended. -/

namespace ScriptShell.Guest

/-- The pipes that go with a context: those of its shell, as long as that exists, or the process's
own. -/
def ioOf (context? : Option Context) : Program CommandIo := do
  match context?.bind (·.shell?) with
  | none => Program.ask .processIo
  | some s =>
    let shell ← Program.ask (.shell s)
    if shell.alive then return shell.io else Program.ask .processIo

/-- What calling a function of the host does. -/
def hostBody (code : HostCall → Program (List HostValue)) (c : LibraryCall) :
    Program (List Value) := do
  match Marshal.listToHost (← Program.ask .heap) c.args with
  | .error e => raiseFailure (.marshal e)
  | .ok args =>
    let context? ← Program.ask (.context c.runtime)
    let io ← ioOf context?
    let results ← code { args := args, io := io, context? := context? }
    Program.forAll c.guestValue results

/-- What calling a value does in a given state. -/
def bodyOf (w : World) (r : RuntimeRef) (f : Value) (args : List Value) (sites : CallSites) :
    RuntimeRef × Program (List Value) :=
  match f with
  | .func g =>
    match w.heap.function? g with
    | some ⟨r, .host f⟩ => (r, hostBody (w.bodyOfHost f) ⟨r, sites, "?", args⟩)
    | some ⟨r, _⟩ => (r, callBody w.heap r (.func g) args sites)
    | none => (r, return [])
  | f => (r, callBody w.heap r f args sites)

/-- The place from which the host calls guests. -/
def hostSide (r : RuntimeRef) : Here := ⟨r, [.host]⟩

/-- Calls a method of a value for the host. -/
def callMethod (here : Here) (object : Value) (name : String) (args : List Value) :
    Program (List Value) := do
  match ← here.index none object (.text name) with
  | .func f => Program.callValue (.func f) (object :: args) [.host]
  | v => here.fail ("attempt to call a " ++ v.typeName ++ " value (function '" ++ name ++ "')")

/-- The guest's `io` table. -/
def ioTable (r : RuntimeRef) : Program TableRef := do
  let here := hostSide r
  let globals := (← Program.ask (.runtime r)).globals
  match ← viaHost here (here.index none (.table globals) (.text "io")) with
  | .table t => return t
  | v => raiseFailure (← conversionOf v "table" none)

/-! ## Stream scopes -/

/-- The streams of one invocation. -/
structure StreamScope where
  /-- The `io` table of the guest. -/
  io : TableRef
  /-- The streams in it, by field, and what the fields held before. -/
  streams : List (StreamName × UserRef × Value)
  deriving Inhabited

namespace StreamScope

/-- Puts one new stream into the `io` table. -/
def enterStream (table : TableRef) (io : CommandIo) (cancel? : Option Signal)
    (name : StreamName) : Program (StreamName × UserRef × Value) := do
  let u ← Program.ask (.newUser (.stream (Stream.ofIo io cancel? name)))
  -- past any metamethods, so that the very value goes back in the end
  let prior := (← Program.ask (.table table)).get (.text name.field)
  Program.ask (.setSlot table (.text name.field) (.user u))
  return (name, u, prior)

/-- Puts three new streams over the given pipes into the guest's `io` table. -/
def enter (r : RuntimeRef) (io : CommandIo) (cancel? : Option Signal) : Program StreamScope := do
  let t ← ioTable r
  return ⟨t, ← Program.forAll (enterStream t io cancel?) StreamName.all⟩

/-- Closes the streams. -/
def closeStreams : List (StreamName × UserRef × Value) → Program Unit
  | [] => return ()
  | (_, u, _) :: rest => do
    Program.ask (.closeUser u)
    closeStreams rest

/-- Puts back what the fields held before. -/
def restoreFields (io : TableRef) : List (StreamName × UserRef × Value) → Program Unit
  | [] => return ()
  | (name, _, prior) :: rest => do
    Program.ask (.setSlot io (.text name.field) prior)
    restoreFields io rest

/-- Closes the streams and puts back what was there before.  The scope that is left has no streams,
so leaving it again does nothing. -/
def leave (scope : StreamScope) : Program StreamScope := do
  closeStreams scope.streams
  restoreFields scope.io scope.streams
  return { scope with streams := [] }

end StreamScope

/-- The guest forms of several host values, up to the first one that has none. -/
def guestValues (r : RuntimeRef) : List HostValue → Program (Except MarshalError (List Value))
  | [] => return .ok []
  | x :: rest => do
    match ← Program.ask (.toGuest r x) with
    | .error e => return .error e
    | .ok v =>
      match ← guestValues r rest with
      | .error e => return .error e
      | .ok vs => return .ok (v :: vs)

/-- Calls a guest function for the host.  An error in the guest is the caller's, or a cancellation
if the signal was cancelled meanwhile. -/
def callForHost (r : RuntimeRef) (signal : Signal) (f : GuestFunction) (args : List HostValue) :
    Program (Except BridgeError (List Value)) := do
  match ← guestValues r args with
  | .error e => return .error (.marshal e)
  | .ok vs =>
    match ← (Program.callValue (.func f) vs [.host]).attempt with
    | .ok results => return .ok results
    | .error e =>
      let failure ← failureOf (hostSide r) e
      if ← Program.ask (.isCancelled signal) then return .error .cancelled
      return .error (.ofFailure failure)

/-- Calls a guest function for the host, inside a stream scope. -/
def callInScope (r : RuntimeRef) (io : CommandIo) (signal : Signal) (f : GuestFunction)
    (args : List HostValue) : Program (Except BridgeError (List HostValue)) := do
  match ← (StreamScope.enter r io (some signal)).attempt with
  | .error e => return .error (.ofFailure (← failureOf (hostSide r) e))
  | .ok scope =>
    let result ← callForHost r signal f args
    let _ ← scope.leave
    -- the results are read when the streams are gone
    match result with
    | .error e => return .error e
    | .ok vs =>
      match Marshal.listToHost (← Program.ask .heap) vs with
      | .ok results => return .ok results
      | .error e => return .error (.marshal e)

end ScriptShell.Guest
