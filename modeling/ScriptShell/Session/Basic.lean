import ScriptShell.Execution

/-! # Sessions

A session is a guest runtime of its own with the capability table as a global.  `addSession` builds
it: the table's fields are the shell's functions and collections and a few of the library's, and
all other fields go to the shell through the table's metatable. -/

namespace ScriptShell

open Guest (Heap Runtime RuntimeRef TableRef Code Value)

/-- Adds a function to the heap. -/
def addCode (r : RuntimeRef) (code : Code) (h : Heap) : Value × Heap :=
  let (f, h) := h.addFunction ⟨r, code⟩
  (.func f, h)

/-- Adds a function to the heap and puts it into a table. -/
def putCode (r : RuntimeRef) (t : TableRef) (name : String) (code : Code) (h : Heap) : Heap :=
  let (v, h) := addCode r code h
  h.setField t name v

/-- Adds a guest table through which guests reach a property table. -/
def addPropertyTable (r : RuntimeRef) (table : PropertyTable) (h : Heap) : TableRef × Heap :=
  let (t, h) := h.addTable {}
  let (m, h) := h.addTable {}
  let h := putCode r m "__index" (.propertyGet table) h
  let h := putCode r m "__newindex" (.propertySet table) h
  let h := if table.answersLength then putCode r m "__len" (.propertyLength table) h else h
  (t, h.setMetatable t (some m))

namespace Session

/-- The version that scripts see. -/
def version : String := "0.1.0"

/-- What scripts see as the program file: its path, or nothing where that is not known. -/
def executable (path? : Option String) : Value := path?.elim .nil fun path => .text path

/-- Puts the host functions into the capability table.  One that is called `print` replaces the
guest's own. -/
def putFunctions (r : RuntimeRef) (globals t : TableRef) (functions : TextMap HostFunction)
    (h : Heap) : Heap :=
  functions.entries.foldl (fun h e =>
    let (v, h) := addCode r (.host e.2) h
    let h := if e.1 = "print" then h.setField globals "print" v else h
    h.setField t e.1 v) h

/-- Puts the collections into the capability table. -/
def putCollections (r : RuntimeRef) (t : TableRef) (kinds : List CollectionKind) (h : Heap) :
    Heap :=
  kinds.foldl (fun h kind =>
    let (c, h) := addPropertyTable r (.collection kind) h
    let h := h.setField t kind.field (.table c)
    if kind = .aliases then putCode r t "setalias" .setAlias (putCode r t "getalias" .getAlias h)
    else h) h

/-- Puts the key table into the capability table. -/
def putKeys (r : RuntimeRef) (t : TableRef) (hooks : RegistryRef) (h : Heap) : Heap :=
  let (k, h) := addPropertyTable r (.keys hooks) h
  putCode r t "bindkey" (.bindKey hooks) (h.setField t "key" (.table k))

/-- Puts fields of the guest's library into the capability table. -/
def putLibrary (globals t : TableRef) (h : Heap) : Heap :=
  let h :=
    match h.field globals "io" with
    | .table io =>
      (h.setField t "lines" (h.field io "lines")).setField t "open" (h.field io "open")
    | _ => h
  h.setField t "loadfile" (h.field globals "loadfile")

/-- Adds the capability table. -/
def addCapabilities (r : RuntimeRef) (runtime : Runtime) (capabilities : Capabilities)
    (hooks : RegistryRef) (path? : Option String) (h : Heap) : TableRef × Heap :=
  let globals := runtime.globals
  let (t, h) := addPropertyTable r (.capabilities capabilities.scalars hooks) h
  let h := putFunctions r globals t capabilities.functions h
  let h := putLibrary globals t h
  let h := putCollections r t capabilities.collections h
  let h := if capabilities.keys then putKeys r t hooks h else h
  let h := h.setField t "version" (.text version)
  (t, h.setField t "exe" (executable path?))

/-- Puts the capability table and an empty `share` table into the globals of a new runtime. -/
def install (r : RuntimeRef) (runtime : Runtime) (config : Config) (capabilities : Capabilities)
    (hooks : RegistryRef) (path? : Option String) (h : Heap) : Heap :=
  let (t, h) := addCapabilities r runtime capabilities hooks path? h
  let h := h.setField runtime.globals config.namespaceName (.table t)
  let (share, h) := h.addTable {}
  h.setField runtime.globals "share" (.table share)

end Session

namespace World

/-- Adds a guest runtime. -/
def addRuntime (w : World) : RuntimeRef × World :=
  let r : RuntimeRef := ⟨w.runtimes.size⟩
  let (runtime, w) := w.withHeap (Guest.addRuntime r)
  (r, { w with runtimes := w.runtimes.push { runtime := runtime } })

/-- Adds a session with a runtime and hooks of its own. -/
def placeSession (w : World) (shell : ShellRef) (capabilities : Capabilities) (config : Config) :
    SessionRef × World :=
  let (hooks, w) := w.addRegistry
  let (r, w) := w.addRuntime
  let runtime := (w.runtime r).runtime
  let ((), w) := w.modifyHeap (Session.install r runtime config capabilities hooks w.executable?)
  let state : SessionState :=
    { runtime := r, hooks := hooks, capabilities := capabilities, shell := shell,
      config := config }
  (⟨w.sessions.size⟩, { w with sessions := w.sessions.push state })

/-- Adds a session for a shell. -/
def addSession (w : World) (shell : ShellRef) (capabilities : Capabilities) (config : Config) :
    Except BridgeError (SessionRef × World) :=
  match capabilities.validate with
  | .error e => .error e
  | .ok () => .ok (w.placeSession shell capabilities config)

/-- Adds a shell. -/
def addShell (w : World) (io : CommandIo) : ShellRef × World :=
  (⟨w.shells.size⟩, { w with shells := w.shells.push { io := io } })

end World
end ScriptShell
