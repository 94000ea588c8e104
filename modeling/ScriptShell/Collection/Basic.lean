import ScriptShell.Collection.TextMap
import ScriptShell.Host.Declared
import ScriptShell.Text.Words

/-! # The shell's collections

Environment, aliases, options and history as scripts reach them: each answers `get` for a key and
takes or refuses `set`.  The environment and the aliases map texts to texts, and writing `nil`
removes a name; the options are a fixed set of flags; the history can be read by position only. -/

namespace ScriptShell

/-- The text of a key. -/
def textKey (key : HostValue) : Except PropertyError String :=
  match key.asText? with
  | some s => .ok s
  | none => .error ⟨key.debugText, "key must be a string"⟩

/-- A value as text; whole numbers are written in decimal. -/
def textValue (name : String) (value : HostValue) : Except PropertyError String :=
  match value with
  | .int i => .ok (toString i)
  | v =>
    match v.toText with
    | .ok s => .ok s
    | .error e => .error ⟨name, e.message⟩

/-- The variables that programs are started with. -/
structure Environment where
  /-- The variables by name. -/
  vars : TextMap String := {}
  deriving Inhabited

namespace Environment

/-- The value of a variable. -/
def get (e : Environment) (key : HostValue) : Option HostValue :=
  (key.asText?.bind e.vars.get?).map .text

/-- Sets a variable, or removes it with `nil`.  No name is empty or holds `=`. -/
def set (e : Environment) (key value : HostValue) : Except PropertyError Environment := do
  let name ← textKey key
  if name.isEmpty || name.toList.contains '=' then throw ⟨name, "invalid variable name"⟩
  if value.isNil then return ⟨e.vars.erase name⟩
  let text ← textValue name value
  return ⟨e.vars.insert name text⟩

end Environment

/-- Other names for commands. -/
structure Aliases where
  /-- The bodies by name. -/
  table : TextMap String := {}
  deriving Inhabited

namespace Aliases

/-- The body of an alias. -/
def get (a : Aliases) (key : HostValue) : Option HostValue :=
  (key.asText?.bind a.table.get?).map .text

/-- Sets an alias, or removes it with `nil`. -/
def set (a : Aliases) (key value : HostValue) : Except PropertyError Aliases := do
  let name ← textKey key
  if value.isNil then return ⟨a.table.erase name⟩
  let body ← textValue name value
  return ⟨a.table.insert name body⟩

/-- Puts the words of the body in place of the first word, if that is an alias.  The new first word
is not looked up again. -/
def expand (a : Aliases) (words : List String) : List String :=
  match words with
  | [] => []
  | name :: rest =>
    match a.table.get? name with
    | some body => Words.split body ++ rest
    | none => words

end Aliases

/-- The shell's flags.  No flag is ever added or removed. -/
structure Options where
  /-- The flags by name. -/
  flags : TextMap Bool := .ofList [("noclobber", false), ("echo_commands", false)]
  deriving Inhabited

namespace Options

/-- Whether a flag is known and set. -/
def isSet (o : Options) (name : String) : Bool := (o.flags.get? name).getD false

/-- The state of a flag. -/
def get (o : Options) (key : HostValue) : Option HostValue :=
  (key.asText?.bind o.flags.get?).map .bool

/-- Sets a known flag. -/
def set (o : Options) (key value : HostValue) : Except PropertyError Options := do
  let name ← textKey key
  if !o.flags.contains name then throw ⟨name, "no such option"⟩
  match value.toBool with
  | .ok b => return ⟨o.flags.insert name b⟩
  | .error e => throw ⟨name, e.message⟩

end Options

/-- The lines entered so far. -/
structure History where
  /-- The lines, oldest first. -/
  lines : List String := []
  deriving Inhabited

namespace History

/-- Adds a line. -/
def push (h : History) (line : String) : History := ⟨h.lines ++ [line]⟩

/-- The line at a position, counting from one. -/
def get (h : History) (key : HostValue) : Option HostValue :=
  match key.asInt? with
  | some i => if 1 ≤ i.toInt then (h.lines[(i.toInt - 1).toNat]?).map .text else none
  | none => none

/-- Scripts cannot write to the history. -/
def set (_ : History) (key _value : HostValue) : Except PropertyError History :=
  .error ⟨key.debugText, "history is read-only"⟩

end History

/-- Which of the shell's collections. -/
inductive CollectionKind where
  /-- Variables. -/
  | env
  /-- Aliases. -/
  | aliases
  /-- Flags. -/
  | option
  /-- Lines entered. -/
  | history
  deriving DecidableEq, Repr, Inhabited

namespace CollectionKind

/-- All four collections. -/
def all : List CollectionKind := [env, aliases, option, history]

/-- The field of the capability table that holds the collection. -/
def field : CollectionKind → String
  | env => "env"
  | aliases => "alias"
  | option => "option"
  | history => "history"

/-- The collection of a field. -/
def ofField? (name : String) : Option CollectionKind := all.find? (·.field == name)

/-- The kind for diagnostics. -/
def debugText : CollectionKind → String
  | env => "Env"
  | aliases => "Alias"
  | option => "Option"
  | history => "History"

end CollectionKind

/-- The shell's four collections. -/
structure Collections where
  /-- Variables. -/
  env : Environment := {}
  /-- Aliases. -/
  aliases : Aliases := {}
  /-- Flags. -/
  options : Options := {}
  /-- Lines entered. -/
  history : History := {}
  deriving Inhabited

namespace Collections

/-- Reads a key of a collection. -/
def get (c : Collections) (kind : CollectionKind) (key : HostValue) : Option HostValue :=
  match kind with
  | .env => c.env.get key
  | .aliases => c.aliases.get key
  | .option => c.options.get key
  | .history => c.history.get key

/-- Writes a key of a collection. -/
def set (c : Collections) (kind : CollectionKind) (key value : HostValue) :
    Except PropertyError Collections :=
  match kind with
  | .env => (c.env.set key value).map fun e => { c with env := e }
  | .aliases => (c.aliases.set key value).map fun a => { c with aliases := a }
  | .option => (c.options.set key value).map fun o => { c with options := o }
  | .history => (c.history.set key value).map fun h => { c with history := h }

/-- The length of a collection that has one. -/
def length? (c : Collections) : CollectionKind → Option Nat
  | .history => some c.history.lines.length
  | _ => none

end Collections
end ScriptShell
