import ScriptShell.World

/-! # Writes in steps

A write to a property table checks the key and the value and changes the shell's state, in up to two
places, one after the other.  `PropertyTable.write` is such a write step by step: a step takes effect
at once, and a refusal takes back nothing.  That a refused write has changed nothing is therefore a
matter of the order of checks and changes. -/

namespace ScriptShell

/-- Changes of the shell's state, one after the other, until one is refused. -/
abbrev HostChange := EStateM PropertyError HostState

namespace HostState

/-- Changes the variables. -/
def modifyVariables (f : TextMap String → TextMap String) (h : HostState) : HostState :=
  { h with collections := { h.collections with env := ⟨f h.collections.env.vars⟩ } }

/-- Changes the aliases. -/
def modifyAliases (f : TextMap String → TextMap String) (h : HostState) : HostState :=
  { h with collections := { h.collections with aliases := ⟨f h.collections.aliases.table⟩ } }

/-- Changes the flags. -/
def modifyFlags (f : TextMap Bool → TextMap Bool) (h : HostState) : HostState :=
  { h with collections := { h.collections with options := ⟨f h.collections.options.flags⟩ } }

/-- Changes the keymap. -/
def modifyKeymap (f : Keymap → Keymap) (h : HostState) : HostState :=
  { h with keymap := f h.keymap }

/-- Changes a hook registry. -/
def modifyRegistry (r : RegistryRef) (f : HookRegistry → HookRegistry) (h : HostState) :
    HostState :=
  h.setRegistry r (f (h.registry r))

end HostState

open HostState

/-- Stores a value in the cell of a property. -/
def ScalarRef.write (cell : ScalarRef) (name : String) (v : HostValue) : HostChange Unit := do
  match (← get).scalar cell, v with
  | .text _, .text s => modify (·.setScalar cell (.text s))
  | .flag _, .bool b => modify (·.setScalar cell (.flag b))
  | .text _, v => throw ⟨name, "expected string, got " ++ v.kindName⟩
  | .flag _, v => throw ⟨name, "expected boolean, got " ++ v.kindName⟩

/-- Sets or removes a hook. -/
def HookPoint.write (point : HookPoint) (hooks : RegistryRef) (name : String) (v : HostValue) :
    HostChange Unit :=
  match v with
  | .callable f => modify (modifyRegistry hooks (·.register point f))
  | .nil => modify (modifyRegistry hooks (·.unregister point))
  | v => throw ⟨name, "expected function, got " ++ v.kindName⟩

/-- Stores a value as text under a name, or removes the name with `nil`. -/
def writeText (store : (TextMap String → TextMap String) → HostState → HostState) (name : String)
    (v : HostValue) : HostChange Unit := do
  if v.isNil then
    modify (store (·.erase name))
  else
    let text ← ofExcept (textValue name v)
    modify (store (·.insert name text))

/-- Writes a key of a collection. -/
def CollectionKind.write (kind : CollectionKind) (key v : HostValue) : HostChange Unit := do
  match kind with
  | .env =>
    let name ← ofExcept (textKey key)
    if name.isEmpty || name.toList.contains '=' then throw ⟨name, "invalid variable name"⟩
    writeText modifyVariables name v
  | .aliases =>
    let name ← ofExcept (textKey key)
    writeText modifyAliases name v
  | .option =>
    let name ← ofExcept (textKey key)
    if !(← get).collections.options.flags.contains name then throw ⟨name, "no such option"⟩
    match v.toBool with
    | .ok b => modify (modifyFlags (·.insert name b))
    | .error e => throw ⟨name, e.message⟩
  | .history => throw ⟨key.debugText, "history is read-only"⟩

/-- Binds a key, in any spelling, in the keymap and then in a hook registry. -/
def RegistryRef.writeKey (hooks : RegistryRef) (key : String) (v : HostValue) :
    HostChange Unit := do
  let name := normalizeKey key
  match v with
  | .callable f =>
    modify (modifyKeymap (·.bindScript name))
    modify (modifyRegistry hooks (·.register (.key name) f))
  | .text action =>
    if action.isEmpty then throw ⟨name, "empty action name"⟩
    modify (modifyKeymap fun m => ⟨m.bindings.insert name action⟩)
    modify (modifyRegistry hooks (·.unregister (.key name)))
  | .nil =>
    modify (modifyKeymap (·.unbind name))
    modify (modifyRegistry hooks (·.unregister (.key name)))
  | v => throw ⟨name, "expected function or action name, got " ++ v.kindName⟩

/-- Writes a key of a table. -/
def PropertyTable.write (t : PropertyTable) (key v : HostValue) : HostChange Unit := do
  match t with
  | capabilities scalars hooks =>
    let name := key.asText?.getD ""
    match TextMap.get? scalars name with
    | some cell => cell.write name v
    | none =>
      match HookPoint.ofField? name with
      | some point => point.write hooks name v
      | none => throw ⟨name, "not a host property"⟩
  | collection kind => kind.write key v
  | keys hooks =>
    match key.asText? with
    | some name => hooks.writeKey name v
    | none => throw ⟨key.debugText, "key names must be strings"⟩

/-- The state of the process after changes of the shell's state. -/
def World.perform (w : World) (change : HostChange Unit) : Except PropertyError Unit × World :=
  match change.run w.host with
  | .ok () host => (.ok (), { w with host := host })
  | .error e host => (.error e, { w with host := host })

end ScriptShell
