import ScriptShell.Host.Value
import ScriptShell.Text.UpperCase

/-! # Hooks

A hook point is an event of the shell that a guest function can take over.  Five points are fields
of the capability table; the others are keys, by name.  The registry holds at most one function
for each point. -/

namespace ScriptShell

/-- The one spelling of a key's name: upper case, with `_` for `-`. -/
def normalizeKey (name : String) : String :=
  String.ofList ((upperCase name).toList.map fun c => if c = '-' then '_' else c)

/-- An event of the shell that a guest function can take over. -/
inductive HookPoint where
  /-- Changes the arguments of a command. -/
  | argsFilter
  /-- Handles a command that was not found. -/
  | commandNotFound
  /-- Renders the prompt. -/
  | prompt
  /-- Runs when a key is pressed; the name is in its one spelling. -/
  | key (name : String)
  /-- Gives candidates for a completion. -/
  | completion
  /-- Changes a line before it is parsed. -/
  | lineFilter
  deriving DecidableEq, Repr, Inhabited

namespace HookPoint

/-- The points that are fields of the capability table. -/
def fields : List HookPoint := [argsFilter, commandNotFound, prompt, completion, lineFilter]

/-- The field of a point. -/
def field? : HookPoint → Option String
  | argsFilter => some "argsfilter"
  | commandNotFound => some "on_command_not_found"
  | prompt => some "prompt"
  | completion => some "completion_hook"
  | lineFilter => some "filter"
  | key _ => none

/-- The point of a field. -/
def ofField? (name : String) : Option HookPoint := fields.find? (·.field? == some name)

/-- The point of a key, in any spelling. -/
def ofKey (name : String) : HookPoint := .key (normalizeKey name)

/-- The name of a point in messages. -/
def display : HookPoint → String
  | key name => "key " ++ name
  | p => p.field?.getD "hook"

/-- The point for diagnostics. -/
def debugText : HookPoint → String
  | argsFilter => "ArgsFilter"
  | commandNotFound => "CommandNotFound"
  | prompt => "Prompt"
  | key name => Quoted.call "Key" [Quoted.ofText name]
  | completion => "Completion"
  | lineFilter => "LineFilter"

end HookPoint

/-- The functions registered for hook points, at most one for each. -/
structure HookRegistry where
  /-- The registrations, oldest first. -/
  entries : List (HookPoint × GuestFunction) := []
  deriving Inhabited

namespace HookRegistry

/-- The function registered for a point. -/
def get? (r : HookRegistry) (p : HookPoint) : Option GuestFunction := r.entries.lookup p

/-- Whether a function is registered for a point. -/
def contains (r : HookRegistry) (p : HookPoint) : Bool := (r.get? p).isSome

/-- Registers a function in place of the one before it. -/
def register (r : HookRegistry) (p : HookPoint) (f : GuestFunction) : HookRegistry :=
  ⟨r.entries.filter (·.1 != p) ++ [(p, f)]⟩

/-- Removes the function of a point. -/
def unregister (r : HookRegistry) (p : HookPoint) : HookRegistry :=
  ⟨r.entries.filter (·.1 != p)⟩

/-- Removes every function. -/
def clear (_ : HookRegistry) : HookRegistry := {}

/-- The points that have a function. -/
def points (r : HookRegistry) : List HookPoint := r.entries.map (·.1)

/-- The registry for diagnostics. -/
def debugText (r : HookRegistry) : String :=
  Quoted.record "HookRegistry" [("points", Quoted.list (r.points.map HookPoint.debugText))] false

end HookRegistry
end ScriptShell
