import ScriptShell.Marshal
import ScriptShell.Program
import ScriptShell.Reader.Buffered

/-! # The state of the process

`World` is everything that programs act on: the guest heap and the runtimes in it, the inputs and
outputs, the signals, the shells and sessions, the shell's properties, and the files.
`World.answer` says what each operation does to it. -/

namespace ScriptShell

open Guest (Heap Runtime RuntimeRef Value TableRef)

/-- A guest runtime and the context of the invocation that runs in it. -/
structure RuntimeState where
  /-- Its parts. -/
  runtime : Runtime
  /-- The context of the innermost invocation. -/
  context? : Option Context := none
  deriving Inhabited

/-- What a host function does, given the values it was made with. -/
abbrev HostCode := List HostValue → HostCall → Program (List HostValue)

/-- The state of the process. -/
structure World where
  /-- What guest values refer to. -/
  heap : Heap := {}
  /-- The guest runtimes. -/
  runtimes : Array RuntimeState := #[]
  /-- All inputs. -/
  inputs : Array Input := #[]
  /-- All outputs. -/
  outputs : Array Pipe := #[]
  /-- The pipes of the process itself. -/
  processIo : CommandIo := default
  /-- All signals. -/
  signals : Signals := {}
  /-- The signals of the commands that run. -/
  interrupts : Array Signal := #[]
  /-- All shells. -/
  shells : Array ShellState := #[]
  /-- All sessions. -/
  sessions : Array SessionState := #[]
  /-- The shell's properties. -/
  host : HostState := {}
  /-- What host functions do. -/
  hostCode : Array HostCode := #[]
  /-- Each host function's code and the values it was made with. -/
  hostFunctions : Array (Nat × List HostValue) := #[]
  /-- How the objects that convert themselves do so. -/
  natives : Array Marshal.NativeForm := #[]
  /-- The files. -/
  files : Files := {}
  /-- The path of the program that runs, if the system tells it. -/
  executable? : Option String := none
  /-- How many contexts there are. -/
  contextCount : Nat := 0
  deriving Inhabited

namespace World

/-- A runtime. -/
def runtime (w : World) (r : RuntimeRef) : RuntimeState := w.runtimes[r.id]?.getD default

/-- A shell. -/
def shell (w : World) (s : ShellRef) : ShellState := w.shells[s.id]?.getD default

/-- A session. -/
def session (w : World) (s : SessionRef) : SessionState := w.sessions[s.id]?.getD default

/-- What an output holds. -/
def output (w : World) (o : OutputRef) : Pipe := w.outputs[o.id]?.getD {}

/-- What an input still has. -/
def input (w : World) (i : InputRef) : Input := w.inputs[i.id]?.getD {}

/-- Writes to an output. -/
def write (w : World) (o : OutputRef) (data : Bytes) : World :=
  { w with outputs := w.outputs.modify o.id (·.write data) }

/-- Makes the context of a runtime another one, or none. -/
def setContext (w : World) (r : RuntimeRef) (context? : Option Context) : World :=
  { w with runtimes := w.runtimes.modify r.id fun s => { s with context? := context? } }

/-- Cancels a signal. -/
def cancel (w : World) (s : Signal) : World := { w with signals := w.signals.cancel s }

/-- Leaves other bytes in an input; an interrupt character among those taken fires. -/
def consume (w : World) (i : InputRef) (rest : Bytes) : World :=
  let input := w.input i
  -- reading takes from the front, so what is left tells what is gone
  let taken := input.rest.take (input.rest.length - rest.length)
  let w := { w with inputs := w.inputs.setIfInBounds i.id { input with rest := rest } }
  match input.interrupt? with
  | none => w
  | some r =>
    if taken.contains interruptByte then
      match w.interrupts[r.id]? with
      | some s => w.cancel s
      | none => w
    else w

/-- Reads one item from an input. -/
def read (w : World) (i : InputRef) (format : ReadFormat) : ReadItem × World :=
  let (item, rest) := BufferedReader.inMemory.readItem format (w.input i).rest
  (item, w.consume i rest)

/-- Adds pipes with a given input and outputs of a given limit. -/
def addIo (w : World) (input : Input) (limit? : Option Nat) : CommandIo × World :=
  (⟨⟨w.inputs.size⟩, ⟨w.outputs.size⟩, ⟨w.outputs.size + 1⟩⟩,
    { w with
      inputs := w.inputs.push input
      outputs := (w.outputs.push { limit? := limit? }).push {} })

/-- Adds a signal. -/
def addSignal (w : World) : Signal × World :=
  let (s, signals) := w.signals.create
  (s, { w with signals := signals })

/-- Adds a signal that follows another one. -/
def addChildSignal (w : World) (parent : Signal) : Signal × World :=
  let (s, signals) := w.signals.child parent
  (s, { w with signals := signals })

/-- Adds a place for the signals of commands. -/
def addInterrupt (w : World) : InterruptRef × World :=
  let (s, w) := w.addSignal
  (⟨w.interrupts.size⟩, { w with interrupts := w.interrupts.push s })

/-- Makes a new signal the one of the command that runs. -/
def beginCommand (w : World) (i : InterruptRef) : Signal × World :=
  let (s, w) := w.addSignal
  (s, { w with interrupts := w.interrupts.setIfInBounds i.id s })

/-- Adds a context. -/
def addContext (w : World) (signal : Signal) (shell? : Option ShellRef) : Context × World :=
  (⟨w.contextCount, signal, shell?⟩, { w with contextCount := w.contextCount + 1 })

/-- Adds a scalar cell. -/
def addScalar (w : World) (cell : ScalarCell) : ScalarRef × World :=
  let (c, host) := w.host.addScalar cell
  (c, { w with host := host })

/-- Adds a hook registry without registrations. -/
def addRegistry (w : World) : RegistryRef × World :=
  let (r, host) := w.host.addRegistry
  (r, { w with host := host })

/-- Changes a hook registry. -/
def setRegistry (w : World) (r : RegistryRef) (hooks : HookRegistry) : World :=
  { w with host := w.host.setRegistry r hooks }

/-- The hooks of a session. -/
def hooks (w : World) (s : SessionRef) : HookRegistry := w.host.registry (w.session s).hooks

/-- Registers a function for a point of a session; tells whether the point had one before. -/
def registerHook (w : World) (s : SessionRef) (p : HookPoint) (f : GuestFunction) : Bool × World :=
  ((w.hooks s).contains p, w.setRegistry (w.session s).hooks ((w.hooks s).register p f))

/-- Removes the function of a point of a session; tells whether there was one. -/
def unregisterHook (w : World) (s : SessionRef) (p : HookPoint) : Bool × World :=
  ((w.hooks s).contains p, w.setRegistry (w.session s).hooks ((w.hooks s).unregister p))

/-- Closes a session and drops its hooks.  It keeps its place, and closing it again does
nothing. -/
def closeSession (w : World) (s : SessionRef) : World :=
  let state := w.session s
  if state.closed then w
  else
    { w with sessions := w.sessions.setIfInBounds s.id { state with closed := true } }.setRegistry
      state.hooks {}

/-- Gives a shell other pipes. -/
def setShellIo (w : World) (s : ShellRef) (io : CommandIo) : World :=
  { w with shells := w.shells.modify s.id fun st => { st with io := io } }

/-- Binds a session to a shell, or none. -/
def setTag (w : World) (s : ShellRef) (tag? : Option SessionRef) : World :=
  { w with shells := w.shells.modify s.id fun st => { st with tag? := tag? } }

/-- Ends a shell.  It keeps its place, but nothing goes to its pipes any more. -/
def endShell (w : World) (s : ShellRef) : World :=
  { w with shells := w.shells.modify s.id fun st => { st with alive := false } }

/-- Adds a host function. -/
def addHostFunction (w : World) (code : Nat) (values : List HostValue) (withCall : Bool) :
    HostFunction × World :=
  (⟨w.hostFunctions.size, withCall⟩,
    { w with hostFunctions := w.hostFunctions.push (code, values) })

/-- What a host function does. -/
def bodyOfHost (w : World) (f : HostFunction) (call : HostCall) : Program (List HostValue) :=
  match w.hostFunctions[f.id]? with
  | none => .done []
  | some (code, values) =>
    match w.hostCode[code]? with
    | none => .done []
    | some body => body values call

/-- Changes the heap. -/
def withHeap {α : Type} (w : World) (f : Heap → α × Heap) : α × World :=
  let heap := w.heap
  -- the state lets go of the heap, which is then changed in place
  let w := { w with heap := {} }
  let (a, heap) := f heap
  (a, { w with heap := heap })

/-- Changes the heap without an answer. -/
def modifyHeap (w : World) (f : Heap → Heap) : Unit × World :=
  w.withHeap fun h => ((), f h)

/-- The host state after a write that may be refused. -/
def updateHost (w : World) (result : Except PropertyError HostState) :
    Except PropertyError Unit × World :=
  match result with
  | .ok host => (.ok (), { w with host := host })
  | .error e => (.error e, w)

/-- What an operation answers, and the state after it. -/
def answer (w : World) : (o : Operation) → o.Answer × World
  | .tick => ((), w)
  | .heap => (w.heap, w)
  | .newTable t => w.withHeap (·.addTable t)
  | .table t => (w.heap.table t, w)
  | .setSlot t k v => w.modifyHeap (·.setSlot t k v)
  | .setMetatable t m => w.modifyHeap (·.setMetatable t m)
  | .growArray t n => w.modifyHeap (·.modifyTable t (·.growArray n))
  | .newCell v => w.withHeap (·.addCell v)
  | .cell c => (w.heap.cell c, w)
  | .setCell c v => w.modifyHeap (·.setCell c v)
  | .newFunction f => w.withHeap (·.addFunction f)
  | .function f => (w.heap.function? f, w)
  | .newUser u => w.withHeap (·.addUser u)
  | .user u => (w.heap.user u, w)
  | .closeUser u => w.modifyHeap (·.closeUser u)
  | .setFileRest u rest => w.modifyHeap (·.setFileRest u rest)
  | .newThread f => w.withHeap (·.addThread f)
  | .toGuest r v => w.withHeap (Marshal.toGuest w.natives r v)
  | .runtime r => ((w.runtime r).runtime, w)
  | .context r => ((w.runtime r).context?, w)
  | .newContext signal shell? => w.addContext signal shell?
  | .write o data => ((), w.write o data)
  | .read i format => w.read i format
  | .input i => (w.input i, w)
  | .newIo input limit? => w.addIo { rest := input } limit?
  | .processIo => (w.processIo, w)
  | .newSignal => w.addSignal
  | .isCancelled s => (w.signals.isCancelled s, w)
  | .cancel s => ((), w.cancel s)
  | .interrupt i => (w.interrupts[i.id]?.getD default, w)
  | .beginCommand i => w.beginCommand i
  | .host => (w.host, w)
  | .setProperty t key v => w.updateHost (t.set w.host key v)
  | .pushHistory line => ((), { w with host := w.host.pushHistory line })
  | .bindKey hooks key v => w.updateHost (w.host.bindKey hooks key v)
  | .session s => (w.session s, w)
  | .closeSession s => ((), w.closeSession s)
  | .shell s => (w.shell s, w)
  | .setShellIo s io => ((), w.setShellIo s io)
  | .newHostFunction code values withCall => w.addHostFunction code values withCall
  | .files => (w.files, w)
  | .changeDirectory path =>
    match w.files.changeDirectory path with
    | .ok files => (.ok (), { w with files := files })
    | .error e => (.error e, w)

end World
end ScriptShell
