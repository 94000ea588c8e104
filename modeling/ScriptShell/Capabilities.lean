import ScriptShell.Property

/-! # Capabilities

What a shell offers to scripts: functions, scalar properties, collections and key bindings.  All of
them become fields of one table, beside the hook fields and the fields that every session has, so
no two may share a name: `validate` says which two do. -/

namespace ScriptShell

/-- What a shell offers to scripts. -/
structure Capabilities where
  /-- Host functions by name. -/
  functions : TextMap HostFunction := {}
  /-- Scalar properties. -/
  scalars : ScalarProperties := {}
  /-- The collections that scripts can reach. -/
  collections : List CollectionKind := []
  /-- Whether scripts can bind keys. -/
  keys : Bool := false
  deriving Inhabited

namespace Capabilities

/-- The fields that every session has. -/
def reservedFields : List String :=
  ["bindkey", "exe", "getalias", "key", "lines", "loadfile", "open", "setalias", "version"]

/-- Adds a collection after the others. -/
def addCollection (c : Capabilities) (kind : CollectionKind) : Capabilities :=
  { c with collections := c.collections.filter (· != kind) ++ [kind] }

/-- The names of all fields, each with what it is a name of. -/
def names (c : Capabilities) : List (String × String) :=
  c.functions.keys.map (·, "function") ++ c.scalars.keys.map (·, "property") ++
    (HookPoint.fields.filterMap HookPoint.field?).map (·, "hook") ++
    c.collections.map (·.field, "collection") ++ reservedFields.map (·, "reserved name")

/-- The first name that occurred before, with what it names now and what it named last. -/
def firstClash? (seen : List (String × String)) :
    List (String × String) → Option (String × String × String)
  | [] => none
  | (name, what) :: rest =>
    match seen.lookup name with
    | some earlier => some (name, earlier, what)
    | none => firstClash? ((name, what) :: seen) rest

/-- Checks that no two fields share a name. -/
def validate (c : Capabilities) : Except BridgeError Unit :=
  match firstClash? [] c.names with
  | some (name, earlier, what) =>
    .error (.config (name ++ " is defined both as " ++ earlier ++ " and as " ++ what))
  | none => .ok ()

/-- The capabilities for diagnostics. -/
def debugText (c : Capabilities) (h : HostState) : String :=
  Quoted.record "Capabilities"
    [("functions", Quoted.list (c.functions.keys.map Quoted.ofText)),
      ("scalars", c.scalars.debugText h),
      ("collections", Quoted.list (c.collections.map CollectionKind.debugText)),
      ("has_keys", toString c.keys)] false

end Capabilities
end ScriptShell
