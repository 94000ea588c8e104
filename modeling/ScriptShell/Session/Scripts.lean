import ScriptShell.Session.Basic
import ScriptShell.Files.Scripts

/-! # Running scripts in a session

What the shell does with a session: it runs source and script files, loads the startup scripts, and
reads and writes global variables.  Each is a program that ends with a value or with a
`BridgeError`. -/

namespace ScriptShell

open Guest (Value RuntimeRef hostSide)

/-- A program that ends with a value or with what a caller of a session sees as an error. -/
abbrev SessionProgram := ExceptT BridgeError Program

/-- Asks for one operation. -/
def SessionProgram.ask (o : Operation) : SessionProgram o.Answer := ExceptT.lift (Program.ask o)

/-- Runs a step of the guest; its error is the caller's. -/
def SessionProgram.ofGuest {α : Type} (r : RuntimeRef) (p : Program α) : SessionProgram α :=
  ExceptT.mk do
    match ← p.attempt with
    | .ok a => return .ok a
    | .error e => return .error (.ofFailure (← Guest.failureOf (hostSide r) e))

namespace SessionRef

open SessionProgram

/-- The runtime of a session, which must be open. -/
def runtime (s : SessionRef) : SessionProgram RuntimeRef := do
  let state ← ask (.session s)
  if state.closed then throw .closed
  return state.runtime

/-- The pipes of the session's shell, or of the process if the shell is gone. -/
def pipes (s : SessionRef) : Program CommandIo := do
  let shell ← Program.ask (.shell (← Program.ask (.session s)).shell)
  if shell.alive then return shell.io else Program.ask .processIo

/-- Writes a line to the shell's error output. -/
def report (s : SessionRef) (message : String) : Program Unit := do
  Program.ask (.write (← s.pipes).stderr (Utf8.encode (message ++ "\n")))

/-- Runs a guest function in the session. -/
def call (s : SessionRef) (context : Context) (f : GuestFunction) (args : List HostValue) :
    SessionProgram (List HostValue) :=
  ExceptT.mk (.invoke ⟨s, context, f, args⟩ .done)

/-! ## Source -/

/-- Compiles source that is known to the guest by a name. -/
def compile (s : SessionRef) (name : String) (source : Bytes) : SessionProgram GuestFunction := do
  let r ← s.runtime
  match Guest.compileNamed name source with
  | .error e => throw (.ofFailure (.malformed e))
  | .ok p =>
    let globals := (← ask (.runtime r)).globals
    -- the one variable that a chunk captures
    let cell ← ask (.newCell (.table globals))
    ask (.newFunction ⟨r, .closure p [cell]⟩)

/-- Runs source. -/
def runString (s : SessionRef) (context : Context) (source : String) :
    SessionProgram (List HostValue) := do
  let f ← s.compile "=(command line)" (Utf8.encode source)
  s.call context f []

/-- Runs a script file. -/
def runFile (s : SessionRef) (context : Context) (path : String) :
    SessionProgram (List HostValue) := do
  match Scripts.read (← ask .files) path with
  | .error e => throw e
  | .ok source =>
    let f ← s.compile ("@" ++ path) source
    s.call context f []

/-! ## Startup -/

/-- What came of the startup scripts. -/
structure StartupReport where
  /-- The scripts that ran to their ends. -/
  loaded : List String := []
  /-- The scripts that failed, each with the error. -/
  failed : List (String × String) := []
  deriving Inhabited

/-- The startup scripts of a configuration: those in the directories, then the single files that
exist. -/
def startupScripts (config : Config) (files : Files) : Except BridgeError (List String) := do
  let inside ← config.scriptDirs.mapM (Scripts.list files)
  return inside.flatten ++ config.startupFiles.filter files.isFile

/-- Runs scripts one after the other.  A failure is reported and does not stop the others, a
cancellation does. -/
def runAll (s : SessionRef) (context : Context) (report : StartupReport) :
    List String → SessionProgram StartupReport
  | [] => return report
  | path :: rest => do
    match ← ExceptT.lift (s.runFile context path).run with
    | .ok _ => runAll s context { report with loaded := report.loaded ++ [path] } rest
    | .error .cancelled => throw .cancelled
    | .error e =>
      ExceptT.lift (s.report (path ++ ": " ++ e.message))
      runAll s context { report with failed := report.failed ++ [(path, e.message)] } rest

/-- Runs the startup scripts, if the configuration asks for it. -/
def loadStartupScripts (s : SessionRef) (context : Context) : SessionProgram StartupReport := do
  let config := (← ask (.session s)).config
  if !config.loadStartup then return {}
  match startupScripts config (← ask .files) with
  | .error e => throw e
  | .ok scripts => s.runAll context {} scripts

/-! ## Global variables -/

/-- The guest value of a global variable. -/
def globalValue (s : SessionRef) (name : String) : SessionProgram Value := do
  let r ← s.runtime
  let globals := (← ask (.runtime r)).globals
  ofGuest r ((hostSide r).index none (.table globals) (.text name))

/-- Ends with a marshalling error or a value. -/
def crossing {α : Type} : Except MarshalError α → SessionProgram α
  | .ok a => return a
  | .error e => throw (.marshal e)

/-- Reads a global variable. -/
def global (s : SessionRef) (name : String) : SessionProgram HostValue := do
  let v ← s.globalValue name
  crossing (Marshal.toHost (← ask .heap) v)

/-- Reads a global variable as a declared type. -/
def globalAs (s : SessionRef) (name : String) (declared : Declared) :
    SessionProgram HostValue := do
  let v ← s.globalValue name
  crossing (Marshal.toHostAs (← ask .heap) declared v)

/-- Writes a global variable. -/
def setGlobal (s : SessionRef) (name : String) (x : HostValue) : SessionProgram Unit := do
  let r ← s.runtime
  let v ← crossing (← ask (.toGuest r x))
  let globals := (← ask (.runtime r)).globals
  ofGuest r ((hostSide r).setIndex none (.table globals) (.text name) v)

/-- Puts texts into a table from a position on. -/
def fillTexts (t : Guest.TableRef) : Nat → List String → Program Unit
  | _, [] => return ()
  | n, s :: rest => do
    Program.ask (.setSlot t (.int (Int64.ofNat n)) (.text s))
    fillTexts t (n + 1) rest

/-- Makes the name of a script and its arguments the global `arg`, counted from zero. -/
def setArgs (s : SessionRef) (script : String) (args : List String) : SessionProgram Unit := do
  let r ← s.runtime
  let t ← ask (.newTable {})
  ExceptT.lift (fillTexts t 0 (script :: args))
  let globals := (← ask (.runtime r)).globals
  -- past any metamethod of the globals
  ask (.setSlot globals (.text "arg") (.table t))

end SessionRef
end ScriptShell
