import ScriptShell.Session.Scripts

/-! # Calling hooks

How each event of the shell calls the function that is registered for it, and how the results are
read.  Without a registered function an event has no answer, and the shell does what it does by
default. -/

namespace ScriptShell.SessionRef

open SessionProgram

/-- Calls the function registered for a point, if there is one. -/
def invokeHook (s : SessionRef) (context : Context) (point : HookPoint) (args : List HostValue) :
    SessionProgram (Option (List HostValue)) := do
  let hooks := (← ask (.host)).registry (← ask (.session s)).hooks
  match hooks.get? point with
  | none => return none
  | some f => return some (← s.call context f args)

/-- The first result as a text. -/
def firstText? (results : List HostValue) : Option String :=
  match results with
  | [] => none
  | v :: _ =>
    match v.toText with
    | .ok s => some s
    | .error _ => none

/-- The prompt that the hook makes of a template; a result that is no text is an empty prompt. -/
def renderPrompt (s : SessionRef) (context : Context) (template : String) :
    SessionProgram (Option String) := do
  let results ← s.invokeHook context .prompt [.text template]
  return results.map fun r => (firstText? r).getD ""

/-- What the hook makes of a line; a result that is no text keeps the line. -/
def filterLine (s : SessionRef) (context : Context) (line : String) :
    SessionProgram (Option String) := do
  let results ← s.invokeHook context .lineFilter [.text line]
  return results.bind firstText?

/-- Texts as a host sequence. -/
def ofTexts (texts : List String) : HostValue := .seq (texts.map .text)

/-- The texts of a sequence. -/
def textsOf (complaint : String) (v : HostValue) : SessionProgram (List String) :=
  match v.sequence? with
  | none => throw (.runtime complaint)
  | some items => crossing (items.mapM HostValue.toText)

/-- What the hook makes of the words of a command; `nil` keeps them. -/
def filterArgs (s : SessionRef) (context : Context) (words : List String) :
    SessionProgram (Option (List String)) := do
  match ← s.invokeHook context .argsFilter [ofTexts words] with
  | none | some [] | some (.nil :: _) => return none
  | some (v :: _) => return some (← textsOf "argsfilter must return a sequence of strings" v)

/-- Whether the hook handled a command that was not found. -/
def commandNotFound (s : SessionRef) (context : Context) (words : List String) :
    SessionProgram (Option Bool) := do
  let results ← s.invokeHook context .commandNotFound [ofTexts words]
  return results.map fun r => (r.head?.map HostValue.truthy).getD false

/-- What the function bound to a key gives for the current line. -/
def runKey (s : SessionRef) (context : Context) (key line : String) :
    SessionProgram (Option HostValue) := do
  let results ← s.invokeHook context (.ofKey key) [.text line]
  return results.map fun r => r.headD .nil

/-- The candidates that the hook makes of those of the shell; `nil` keeps them. -/
def complete (s : SessionRef) (context : Context) (text word : String)
    (candidates : List String) : SessionProgram (Option (List String)) := do
  let request : HostMap :=
    [(.text "text", .text text), (.text "word", .text word), (.text "list", ofTexts candidates)]
  match ← s.invokeHook context .completion [.map request] with
  | none => return none
  | some [] | some (.nil :: _) => return some candidates
  | some (v :: _) => return some (← textsOf "completion_hook must return a sequence" v)

end ScriptShell.SessionRef
