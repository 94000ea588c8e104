import ScriptShell.Context
import ScriptShell.Files

/-! # Programs

What guest code and host functions do, as trees.  A `Program` ends with a value or an error, or it
asks for one thing and goes on with the answer: an `Operation` on the state of the process, a call
of a guest function, or an invocation of a session.  It says nothing about how these are answered,
so a property of the answers holds for everything that any program can do. -/

namespace ScriptShell

open Guest (Value Key Table TableRef CellRef UserRef ThreadRef Heap Runtime RuntimeRef User)

/-- One operation on the state of the process. -/
inductive Operation where
  /-- Nothing; loops stop here between two rounds. -/
  | tick
  /-- A look at the whole heap. -/
  | heap
  /-- Adds a table. -/
  | newTable (t : Table)
  /-- A look at a table. -/
  | table (t : TableRef)
  /-- Puts a value into a table, without metamethods. -/
  | setSlot (t : TableRef) (k : Key) (v : Value)
  /-- Changes the metatable of a table. -/
  | setMetatable (t : TableRef) (m : Option TableRef)
  /-- Gives a table room for integers from one on. -/
  | growArray (t : TableRef) (size : Nat)
  /-- Adds a variable. -/
  | newCell (v : Value)
  /-- The value of a variable. -/
  | cell (c : CellRef)
  /-- Changes a variable. -/
  | setCell (c : CellRef) (v : Value)
  /-- Adds a function. -/
  | newFunction (f : Guest.Function)
  /-- A look at a function. -/
  | function (f : GuestFunction)
  /-- Adds an object of the host. -/
  | newUser (u : User)
  /-- A look at an object of the host. -/
  | user (u : UserRef)
  /-- Closes a stream or an open file. -/
  | closeUser (u : UserRef)
  /-- Leaves fewer bytes in an open file. -/
  | setFileRest (u : UserRef) (rest : Bytes)
  /-- Adds a coroutine. -/
  | newThread (f : Value)
  /-- Builds the guest form of a host value. -/
  | toGuest (r : RuntimeRef) (v : HostValue)
  /-- The parts of a runtime. -/
  | runtime (r : RuntimeRef)
  /-- The context of the invocation that runs in a runtime. -/
  | context (r : RuntimeRef)
  /-- A context of its own. -/
  | newContext (signal : Signal) (shell? : Option ShellRef)
  /-- Writes to an output. -/
  | write (o : OutputRef) (data : Bytes)
  /-- Reads from an input. -/
  | read (i : InputRef) (format : ReadFormat)
  /-- A look at an input. -/
  | input (i : InputRef)
  /-- New pipes with a given input. -/
  | newIo (input : Bytes) (limit? : Option Nat)
  /-- The pipes of the process itself. -/
  | processIo
  /-- A new signal. -/
  | newSignal
  /-- Whether a signal is cancelled. -/
  | isCancelled (s : Signal)
  /-- Cancels a signal. -/
  | cancel (s : Signal)
  /-- The signal of the command that runs. -/
  | interrupt (i : InterruptRef)
  /-- A new signal for the next command. -/
  | beginCommand (i : InterruptRef)
  /-- A look at the shell's properties. -/
  | host
  /-- Writes a property. -/
  | setProperty (t : PropertyTable) (key v : HostValue)
  /-- Adds a line to the history. -/
  | pushHistory (line : String)
  /-- Binds a key. -/
  | bindKey (hooks : RegistryRef) (key : String) (v : HostValue)
  /-- A look at a session. -/
  | session (s : SessionRef)
  /-- Closes a session. -/
  | closeSession (s : SessionRef)
  /-- A look at a shell. -/
  | shell (s : ShellRef)
  /-- Gives a shell other pipes. -/
  | setShellIo (s : ShellRef) (io : CommandIo)
  /-- Adds a host function with values of its own. -/
  | newHostFunction (code : Nat) (values : List HostValue) (withCall : Bool)
  /-- A look at all files. -/
  | files
  /-- Makes another directory the working directory. -/
  | changeDirectory (path : String)
  deriving Inhabited

/-- What an operation answers. -/
@[reducible]
def Operation.Answer : Operation → Type
  | .tick | .setSlot .. | .setMetatable .. | .growArray .. | .setCell .. | .closeUser _
  | .setFileRest .. | .write .. | .cancel _ | .pushHistory _ | .closeSession _
  | .setShellIo .. => Unit
  | .heap => Heap
  | .newTable _ => TableRef
  | .table _ => Table
  | .newCell _ => CellRef
  | .cell _ => Value
  | .newFunction _ => GuestFunction
  | .function _ => Option Guest.Function
  | .newUser _ => UserRef
  | .user _ => User
  | .newThread _ => ThreadRef
  | .toGuest .. => Except MarshalError Value
  | .runtime _ => Runtime
  | .context _ => Option Context
  | .newContext .. => Context
  | .read .. => ReadItem
  | .input _ => Input
  | .newIo .. => CommandIo
  | .processIo => CommandIo
  | .newSignal => Signal
  | .isCancelled _ => Bool
  | .interrupt _ | .beginCommand _ => Signal
  | .host => HostState
  | .setProperty .. => Except PropertyError Unit
  | .bindKey .. => Except PropertyError Unit
  | .session _ => SessionState
  | .shell _ => ShellState
  | .newHostFunction .. => HostFunction
  | .files => Files
  | .changeDirectory _ => Except IoError Unit

/-- A place from which a function was called: a line of guest code, or the host. -/
inductive CallSite where
  /-- A line of a chunk.  The callee is known by a kind of name and a name; `tail` tells that the
  caller is gone by the time the callee runs. -/
  | guest (chunk : String) (line : Nat) (callee? : Option (String × String)) (tail : Bool)
  /-- Code of the host. -/
  | host
  deriving DecidableEq, Repr, Inhabited

/-- The places from which the running functions were called, innermost first. -/
abbrev CallSites := List CallSite

/-- A request to run a guest function in a session. -/
structure Invocation where
  /-- The session. -/
  session : SessionRef
  /-- The context. -/
  context : Context
  /-- The function. -/
  function : GuestFunction
  /-- Its arguments. -/
  args : List HostValue

/-- What guest code or a host function does. -/
inductive Program (α : Type) where
  /-- Ends with a value. -/
  | done (a : α)
  /-- Ends with an error. -/
  | raise (v : Value)
  /-- Gives up after too many rounds of a loop. -/
  | exhausted
  /-- Asks for an operation. -/
  | perform (o : Operation) (k : o.Answer → Program α)
  /-- Calls a guest function. -/
  | call (f : Value) (args : List Value) (sites : CallSites)
      (k : Except Value (List Value) → Program α)
  /-- Runs a guest function in a session. -/
  | invoke (i : Invocation) (k : Except BridgeError (List HostValue) → Program α)

namespace Program

variable {α β : Type}

instance : Inhabited (Program α) := ⟨.exhausted⟩

/-- Goes on with the value of another program. -/
def bind : Program α → (α → Program β) → Program β
  | done a, f => f a
  | raise v, _ => raise v
  | exhausted, _ => exhausted
  | perform o k, f => perform o fun x => (k x).bind f
  | call g args sites k, f => call g args sites fun x => (k x).bind f
  | invoke i k, f => invoke i fun x => (k x).bind f

instance : Monad Program where
  pure := done
  bind := bind

/-- Catches the error of a program. -/
def attempt : Program α → Program (Except Value α)
  | done a => done (.ok a)
  | raise v => done (.error v)
  | exhausted => exhausted
  | perform o k => perform o fun x => (k x).attempt
  | call g args sites k => call g args sites fun x => (k x).attempt
  | invoke i k => invoke i fun x => (k x).attempt

/-- Asks for one operation. -/
def ask (o : Operation) : Program o.Answer := perform o done

/-- Calls a guest function; its error goes on to the caller. -/
def callValue (f : Value) (args : List Value) (sites : CallSites) : Program (List Value) :=
  call f args sites fun
    | .ok vs => done vs
    | .error v => raise v

/-- Runs a step for every item of a list. -/
def forAll (f : α → Program β) : List α → Program (List β)
  | [] => done []
  | a :: rest => do
    let b ← f a
    let bs ← forAll f rest
    return b :: bs

/-! ## Laws -/

@[simp] theorem pure_bind (a : α) (f : α → Program β) : (done a).bind f = f a := rfl

theorem bind_assoc {γ : Type} (p : Program α) (f : α → Program β) (g : β → Program γ) :
    (p.bind f).bind g = p.bind fun a => (f a).bind g := by
  induction p with
  | done a => rfl
  | raise v => rfl
  | exhausted => rfl
  | perform o k ih => simp only [bind, ih]
  | call h args sites k ih => simp only [bind, ih]
  | invoke i k ih => simp only [bind, ih]

end Program
end ScriptShell
