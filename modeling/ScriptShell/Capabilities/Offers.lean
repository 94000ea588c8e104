import ScriptShell.Capabilities

/-! # Capabilities from offers

A shell offers one thing after the other.  A function takes the place of an earlier one with the
same name, a collection that of an earlier one of the same kind, and all scalar properties are
offered at once.  What the collections and the keymap hold belongs to the shell, so an offer is made
in two places: in the capabilities (`Capabilities.offer`) and in the state of the shell
(`HostState.offer`). -/

namespace ScriptShell

/-- A collection that a shell offers, with what it holds. -/
inductive Collection where
  /-- Variables. -/
  | env (e : Environment)
  /-- Aliases. -/
  | aliases (a : Aliases)
  /-- Flags. -/
  | option (o : Options)
  /-- Lines entered. -/
  | history (h : History)
  deriving Inhabited

/-- Which collection it is. -/
def Collection.kind : Collection → CollectionKind
  | env _ => .env
  | aliases _ => .aliases
  | option _ => .option
  | history _ => .history

namespace Collections

/-- Puts a collection in the place of the one of its kind. -/
def replace (c : Collections) : Collection → Collections
  | .env e => { c with env := e }
  | .aliases a => { c with aliases := a }
  | .option o => { c with options := o }
  | .history h => { c with history := h }

/-- The collection of a kind. -/
def ofKind (c : Collections) : CollectionKind → Collection
  | .env => .env c.env
  | .aliases => .aliases c.aliases
  | .option => .option c.options
  | .history => .history c.history

end Collections

/-- One thing that a shell offers. -/
inductive Offer where
  /-- A function. -/
  | function (name : String) (f : HostFunction)
  /-- All scalar properties, each with its cell. -/
  | scalars (cells : List (String × ScalarRef))
  /-- A collection. -/
  | collection (c : Collection)
  /-- The key bindings. -/
  | keys (keymap : Keymap)
  deriving Inhabited

/-- The capabilities with one more offer. -/
def Capabilities.offer (c : Capabilities) : Offer → Capabilities
  | .function name f => { c with functions := c.functions.insert name f }
  | .scalars cells => { c with scalars := .ofList cells }
  | .collection x => c.addCollection x.kind
  | .keys _ => { c with keys := true }

/-- The shell with one more offer.  Functions and cells are there already. -/
def HostState.offer (h : HostState) : Offer → HostState
  | .collection x => { h with collections := h.collections.replace x }
  | .keys keymap => { h with keymap := keymap }
  | .function _ _ | .scalars _ => h

/-- The capabilities that offers make, one after the other. -/
def Capabilities.ofOffers (offers : List Offer) : Capabilities := offers.foldl offer {}

/-- The shell after some offers. -/
def HostState.offerAll (h : HostState) (offers : List Offer) : HostState := offers.foldl offer h

end ScriptShell
