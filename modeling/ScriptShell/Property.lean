import ScriptShell.Collection.Keymap
import ScriptShell.Collection.Basic

/-! # Property tables

What guests reach through the capability table belongs to the shell: scalar cells, the four
collections, the keymap and the hook registries.  `HostState` is all of that, and a `PropertyTable`
is one way into it: the capability table itself (scalar cells, then hook fields), a collection, or
the key bindings.  A table that does not claim a key leaves it to the guest. -/

namespace ScriptShell

/-- A scalar cell, by its place. -/
structure ScalarRef where
  /-- Its place. -/
  id : Nat
  deriving DecidableEq, Repr, Inhabited

/-- A hook registry, by its place. -/
structure RegistryRef where
  /-- Its place. -/
  id : Nat
  deriving DecidableEq, Repr, Inhabited

/-- What a scalar cell holds.  It always keeps its kind. -/
inductive ScalarCell where
  /-- A text. -/
  | text (s : String)
  /-- A flag. -/
  | flag (b : Bool)
  deriving DecidableEq, Repr, Inhabited

namespace ScalarCell

/-- The content as a host value. -/
def value : ScalarCell → HostValue
  | text s => .text s
  | flag b => .bool b

/-- Stores a value of the cell's kind under the property `name`. -/
def store (cell : ScalarCell) (name : String) (v : HostValue) :
    Except PropertyError ScalarCell :=
  match cell, v with
  | text _, .text s => .ok (text s)
  | flag _, .bool b => .ok (flag b)
  | text _, v => .error ⟨name, "expected string, got " ++ v.kindName⟩
  | flag _, v => .error ⟨name, "expected boolean, got " ++ v.kindName⟩

/-- The cell for diagnostics. -/
def debugText : ScalarCell → String
  | text s =>
    Quoted.call "Text"
      [Quoted.record "RwLock" [("data", Quoted.ofText s), ("poisoned", "false")] true]
  | flag b => Quoted.call "Flag" [toString b]

end ScalarCell

/-- The shell's side of all properties. -/
structure HostState where
  /-- The scalar cells. -/
  scalars : Array ScalarCell := #[]
  /-- The collections. -/
  collections : Collections := {}
  /-- The key bindings. -/
  keymap : Keymap := {}
  /-- The hook registries of all sessions. -/
  registries : Array HookRegistry := #[]
  deriving Inhabited

namespace HostState

/-- The content of a scalar cell. -/
def scalar (h : HostState) (cell : ScalarRef) : ScalarCell := h.scalars[cell.id]?.getD default

/-- A hook registry. -/
def registry (h : HostState) (r : RegistryRef) : HookRegistry := h.registries[r.id]?.getD {}

/-- Adds a scalar cell. -/
def addScalar (h : HostState) (cell : ScalarCell) : ScalarRef × HostState :=
  (⟨h.scalars.size⟩, { h with scalars := h.scalars.push cell })

/-- Adds a hook registry without registrations. -/
def addRegistry (h : HostState) : RegistryRef × HostState :=
  (⟨h.registries.size⟩, { h with registries := h.registries.push {} })

/-- Changes the content of a scalar cell. -/
def setScalar (h : HostState) (cell : ScalarRef) (content : ScalarCell) : HostState :=
  { h with scalars := h.scalars.setIfInBounds cell.id content }

/-- Changes a hook registry. -/
def setRegistry (h : HostState) (r : RegistryRef) (hooks : HookRegistry) : HostState :=
  { h with registries := h.registries.setIfInBounds r.id hooks }

/-- Adds a line to the history. -/
def pushHistory (h : HostState) (line : String) : HostState :=
  { h with collections := { h.collections with history := h.collections.history.push line } }

/-- Binds a key in the keymap and in a hook registry. -/
def bindKey (h : HostState) (hooks : RegistryRef) (key : String) (v : HostValue) :
    Except PropertyError HostState :=
  match ScriptShell.bindKey h.keymap (h.registry hooks) key v with
  | .ok (keymap, registry) => .ok ({ h with keymap := keymap }.setRegistry hooks registry)
  | .error e => .error e

end HostState

/-! ## Scalar properties -/

/-- Scalar properties: the cell behind each name. -/
abbrev ScalarProperties := TextMap ScalarRef

namespace ScalarProperties

/-- The value of a property. -/
def value? (p : ScalarProperties) (h : HostState) (name : String) : Option HostValue :=
  (TextMap.get? p name).map fun cell => (h.scalar cell).value

/-- Stores a value; `none` if there is no such property. -/
def store? (p : ScalarProperties) (h : HostState) (name : String) (v : HostValue) :
    Option (Except PropertyError HostState) :=
  (TextMap.get? p name).map fun cell => ((h.scalar cell).store name v).map (h.setScalar cell)

/-- The properties for diagnostics. -/
def debugText (p : ScalarProperties) (h : HostState) : String :=
  Quoted.record "ScalarProperties"
    [("cells", Quoted.table (p.entries.map fun e =>
      (Quoted.ofText e.1, (h.scalar e.2).debugText)))] false

end ScalarProperties

/-! ## Tables -/

/-- One way into the shell's properties. -/
inductive PropertyTable where
  /-- The capability table: scalar cells, then hook fields. -/
  | capabilities (scalars : ScalarProperties) (hooks : RegistryRef)
  /-- A collection. -/
  | collection (kind : CollectionKind)
  /-- The key bindings. -/
  | keys (hooks : RegistryRef)
  deriving Inhabited

namespace PropertyTable

/-- Whether the shell takes writes of a key. -/
def claims (t : PropertyTable) (key : HostValue) : Bool :=
  match t with
  | capabilities scalars _ =>
    match key.asText? with
    | some name => TextMap.contains scalars name || (HookPoint.ofField? name).isSome
    | none => false
  | collection _ | keys _ => true

/-- Reads a key; `none` if the shell has nothing under it. -/
def get (t : PropertyTable) (h : HostState) (key : HostValue) : Option HostValue :=
  match t with
  | capabilities scalars hooks =>
    match key.asText? with
    | none => none
    | some name =>
      match scalars.value? h name with
      | some v => some v
      | none =>
        match HookPoint.ofField? name with
        | some point => ((h.registry hooks).get? point).map .callable
        | none => none
  | collection kind => h.collections.get kind key
  | keys hooks =>
    match key.asText? with
    | some name => boundTo? h.keymap (h.registry hooks) name
    | none => none

/-- Writes a key.  A hook field takes a guest function, or `nil`, which removes the hook. -/
def set (t : PropertyTable) (h : HostState) (key v : HostValue) :
    Except PropertyError HostState :=
  match t with
  | capabilities scalars hooks =>
    let name := key.asText?.getD ""
    match scalars.store? h name v with
    | some result => result
    | none =>
      match HookPoint.ofField? name with
      | none => .error ⟨name, "not a host property"⟩
      | some point =>
        match v with
        | .callable f => .ok (h.setRegistry hooks ((h.registry hooks).register point f))
        | .nil => .ok (h.setRegistry hooks ((h.registry hooks).unregister point))
        | v => .error ⟨name, "expected function, got " ++ v.kindName⟩
  | collection kind =>
    (h.collections.set kind key v).map fun c => { h with collections := c }
  | keys hooks =>
    match key.asText? with
    | some name => h.bindKey hooks name v
    | none => .error ⟨key.debugText, "key names must be strings"⟩

/-- The length of a table that has one. -/
def length? (t : PropertyTable) (h : HostState) : Option Nat :=
  match t with
  | collection kind => h.collections.length? kind
  | _ => none

/-- Whether the shell also answers for the length of the guest's table. -/
def answersLength : PropertyTable → Bool
  | collection _ => true
  | _ => false

/-- The table for diagnostics. -/
def debugText : PropertyTable → String
  | capabilities scalars _ =>
    Quoted.record "Namespace" [("scalars", Quoted.list (scalars.keys.map Quoted.ofText))] true
  | collection kind => Quoted.record "Collection" [("kind", kind.debugText)] true
  | keys _ => Quoted.record "Keys" [] true

end PropertyTable
end ScriptShell
