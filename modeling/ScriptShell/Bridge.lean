import ScriptShell.Session.Copy
import ScriptShell.Session.Hooks

/-! # The bridge

The bridge makes the sessions of a process.  The first session that it makes also connects the
shell's events to the hooks, once, however many sessions follow.  `EventDispatcher` forwards an
event to the session that the shell is tagged with; if there is none, or if the hook fails, the
event takes its default. -/

namespace ScriptShell

/-- Forwards events of the shell to hooks. -/
structure EventDispatcher where
  deriving DecidableEq, Repr, Inhabited

/-- The events of a shell. -/
structure ShellEvents where
  /-- What has been installed to forward events to, in order. -/
  installed : List EventDispatcher := []
  deriving DecidableEq, Repr, Inhabited

namespace ShellEvents

/-- Installs a dispatcher. -/
def install (e : ShellEvents) (d : EventDispatcher) : ShellEvents :=
  { e with installed := e.installed ++ [d] }

/-- What events are forwarded to, once they are connected.  The first dispatcher stays. -/
def dispatcher? (e : ShellEvents) : Option EventDispatcher := e.installed.head?

end ShellEvents

/-- What makes the sessions of a process. -/
structure Bridge where
  /-- The configuration of all sessions. -/
  config : Config
  /-- The events that are connected with the first session. -/
  events? : Option ShellEvents := none
  /-- Whether the first session has been made. -/
  wired : Bool := false
  deriving Inhabited

namespace Bridge

/-- A bridge with a valid configuration. -/
def ofConfig (config : Config) : Except BridgeError Bridge :=
  match config.validate with
  | .ok () => .ok { config := config }
  | .error e => .error e

/-- The bridge after a session has been made.  The events are connected the first time. -/
def connect (b : Bridge) : Bridge :=
  if b.wired then b
  else { b with wired := true, events? := b.events?.map (·.install {}) }

/-- Makes a session for a shell, tags the shell with it and connects the events.  The bridge and the
process are the state, also where the attempt fails. -/
def newSession (shell : ShellRef) (capabilities : Capabilities) :
    ExceptT BridgeError (StateM (Bridge × World)) SessionRef := do
  let (b, w) ← get
  let (s, w) ← MonadExcept.ofExcept (w.addSession shell capabilities b.config)
  set (b, w.setTag shell (some s))
  modify fun (b, w) => (b.connect, w)
  return s

/-- The bridge for diagnostics. -/
def debugText (b : Bridge) : String :=
  Quoted.record "Bridge"
    [("config", b.config.debugText), ("has_events", toString b.events?.isSome),
      ("wired", toString b.wired)] false

end Bridge

/-- The session that a shell is tagged with. -/
def ShellState.session (shell : ShellState) : Except BridgeError SessionRef :=
  match shell.tag? with
  | some s => .ok s
  | none => .error (.notSupported "no script session is bound to this shell")

namespace EventDispatcher

/-- Changes the words of a command. -/
def onArgs (_ : EventDispatcher) (shell : ShellRef) (context : Context) (words : List String) :
    Program (List String) := do
  match (← Program.ask (.shell shell)).session with
  | .error _ => return words
  | .ok s =>
    match ← (s.filterArgs context words).run with
    | .ok filtered => return filtered.getD words
    | .error e =>
      s.report ("argsfilter: " ++ e.message)
      return words

/-- Offers a command that was not found; tells whether it was handled. -/
def onCommandNotFound (_ : EventDispatcher) (shell : ShellRef) (context : Context)
    (words : List String) : Program Bool := do
  match (← Program.ask (.shell shell)).session with
  | .error _ => return false
  | .ok s =>
    match ← (s.commandNotFound context words).run with
    | .ok handled => return handled.getD false
    | .error e =>
      s.report ("on_command_not_found: " ++ e.message)
      return false

end EventDispatcher
end ScriptShell
