import ScriptShell.Collection.TextMap
import ScriptShell.Hook
import ScriptShell.Host.Fault

/-! # Key bindings

The keymap binds keys to named actions; the action `script` means that pressing the key runs the
function that the hook registry holds for it.  `bindKey` keeps the two in step: a refused binding
changes neither. -/

namespace ScriptShell

/-- The action of keys that run a guest function. -/
def scriptAction : String := "script"

/-- The actions of keys, by the one spelling of the key. -/
structure Keymap where
  /-- The actions. -/
  bindings : TextMap String := {}
  deriving Inhabited

namespace Keymap

/-- The action of a key. -/
def action? (m : Keymap) (key : String) : Option String := m.bindings.get? key

/-- Binds a key to an action. -/
def bindAction (m : Keymap) (key action : String) : Except PropertyError Keymap :=
  if action.isEmpty then .error ⟨key, "empty action name"⟩
  else .ok ⟨m.bindings.insert key action⟩

/-- Binds a key to the function in the registry. -/
def bindScript (m : Keymap) (key : String) : Keymap := ⟨m.bindings.insert key scriptAction⟩

/-- Removes the binding of a key. -/
def unbind (m : Keymap) (key : String) : Keymap := ⟨m.bindings.erase key⟩

end Keymap

/-- Binds a key, in any spelling, to a guest function, to a named action, or to nothing. -/
def bindKey (keymap : Keymap) (hooks : HookRegistry) (key : String) (value : HostValue) :
    Except PropertyError (Keymap × HookRegistry) :=
  let name := normalizeKey key
  match value with
  | .callable f => .ok (keymap.bindScript name, hooks.register (.key name) f)
  | .text action =>
    match keymap.bindAction name action with
    | .ok keymap => .ok (keymap, hooks.unregister (.key name))
    | .error e => .error e
  | .nil => .ok (keymap.unbind name, hooks.unregister (.key name))
  | v => .error ⟨name, "expected function or action name, got " ++ v.kindName⟩

/-- What is bound to a key: the function in the registry, else the action. -/
def boundTo? (keymap : Keymap) (hooks : HookRegistry) (key : String) : Option HostValue :=
  let name := normalizeKey key
  match hooks.get? (.key name) with
  | some f => some (.callable f)
  | none => (keymap.action? name).map .text

end ScriptShell
