import ScriptShell.Capabilities
import ScriptShell.Config.Basic
import ScriptShell.Guest.Heap

/-! # Contexts, shells and sessions

A context goes with every invocation: the signal that cancels it and the shell that it runs for.
Contexts are told apart by their number, so that two of them with equal parts are still different.
A shell has the pipes of its current command and may be tagged with a session; a session is a guest
runtime with its hooks. -/

namespace ScriptShell

/-- A shell, by its place. -/
structure ShellRef where
  /-- Its place. -/
  id : Nat
  deriving DecidableEq, Repr, Inhabited

/-- A session, by its place. -/
@[ext]
structure SessionRef where
  /-- Its place. -/
  id : Nat
  deriving DecidableEq, Repr, Inhabited

/-- What goes with one invocation. -/
structure Context where
  /-- Tells contexts apart. -/
  number : Nat
  /-- The signal that cancels the invocation. -/
  signal : Signal
  /-- The shell that the invocation runs for. -/
  shell? : Option ShellRef
  deriving DecidableEq, Repr, Inhabited

/-- A shell. -/
structure ShellState where
  /-- The pipes of the current command. -/
  io : CommandIo
  /-- The session bound to the shell. -/
  tag? : Option SessionRef := none
  /-- Whether the shell still exists. -/
  alive : Bool := true
  deriving Inhabited

/-- The shell for diagnostics. -/
def ShellState.debugText (s : ShellState) : String :=
  Quoted.record "BasicShell" [("tagged", toString s.tag?.isSome)] true

/-- A session. -/
structure SessionState where
  /-- The guest runtime. -/
  runtime : Guest.RuntimeRef
  /-- Whether the session still has its runtime. -/
  closed : Bool := false
  /-- The hooks. -/
  hooks : RegistryRef
  /-- What scripts can reach. -/
  capabilities : Capabilities
  /-- The shell that the session was made for. -/
  shell : ShellRef
  /-- The configuration. -/
  config : Config
  deriving Inhabited

/-- What a host function gets besides its arguments. -/
structure HostCall where
  /-- The converted arguments. -/
  args : List HostValue
  /-- The pipes of the command that runs. -/
  io : CommandIo
  /-- The context of the invocation that runs. -/
  context? : Option Context
  deriving Inhabited

namespace HostCall

/-- An argument by position from zero on; there is `nil` beyond the last one. -/
def arg (c : HostCall) (n : Nat) : HostValue := c.args[n]?.getD .nil

/-- The call for diagnostics. -/
def debugText (c : HostCall) (cancelled : Bool) : String :=
  let context :=
    match c.context? with
    | none => "None"
    | some x =>
      Quoted.call "Some"
        [Quoted.record "ExecutionContext"
          [("id", toString x.number), ("cancelled", toString cancelled),
            ("has_shell", toString x.shell?.isSome)] false]
  Quoted.record "CallParam"
    [("args", Quoted.list (c.args.map HostValue.debugText)), ("context", context)] true

end HostCall
end ScriptShell
