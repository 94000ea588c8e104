import ScriptShell.Session.Basic

/-! # Copies of sessions

A copy of a session is a new session for the same shell, to which everything is added that the old
one has and the new one lacks: global variables, the contents of `share` and of the capability
table, and the hooks.  Tables are copied with all that they hold, sharing and cycles included.
Library functions stand for their counterparts in the copy; a guest function is copied with the
values of its captured variables, and given up if one of them cannot be copied: it is left out from
then on, but a copy of it that something else holds by then stays there. -/

namespace ScriptShell

open Guest (Heap Value Key TableRef CellRef UserRef RuntimeRef Proto)

/-- A copy under way: the heap, and what has become of the tables and functions seen so far. -/
structure Copying where
  /-- The heap at the start, from which everything is read that is copied. -/
  source : Heap
  /-- The heap of both sessions. -/
  heap : Heap
  /-- The runtime of the copy. -/
  target : RuntimeRef
  /-- The global variables of that runtime. -/
  globals : TableRef
  /-- The tables that have a counterpart. -/
  tables : List (TableRef × TableRef) := []
  /-- The functions that have a counterpart or cannot be copied. -/
  functions : List (GuestFunction × Option GuestFunction) := []
  deriving Inhabited

namespace Copying

/-- Makes one function the counterpart of another. -/
def pairFunctions (c : Copying) (ours theirs : GuestFunction) : Copying :=
  { c with functions := (ours, some theirs) :: c.functions }

/-- Pairs up the functions that two tables hold under the same name. -/
def pairFields (c : Copying) (theirs : TableRef) : List (Key × Value) → Copying
  | [] => c
  | (.str name, .func f) :: rest =>
    match (c.heap.table theirs).get (.str name) with
    | .func g => (c.pairFunctions f g).pairFields theirs rest
    | _ => c.pairFields theirs rest
  | _ :: rest => c.pairFields theirs rest

/-- Pairs up the functions and tables that the globals of two runtimes hold under the same name, and
the functions in those tables. -/
def pairGlobals (c : Copying) (theirs : TableRef) : List (Key × Value) → Copying
  | [] => c
  | (.str name, .func f) :: rest =>
    match (c.heap.table theirs).get (.str name) with
    | .func g => (c.pairFunctions f g).pairGlobals theirs rest
    | _ => c.pairGlobals theirs rest
  | (.str name, .table t) :: rest =>
    match (c.heap.table theirs).get (.str name) with
    | .table u =>
      -- a table with several names keeps the counterpart of the first one
      if (c.tables.lookup t).isSome then c.pairGlobals theirs rest
      else
        let c := { c with tables := (t, u) :: c.tables }
        (c.pairFields u (c.source.table t).enumerate).pairGlobals theirs rest
    | _ => c.pairGlobals theirs rest
  | _ :: rest => c.pairGlobals theirs rest

/-! ## Steps -/

/-- The next table that is made. -/
def nextTable (c : Copying) : TableRef := ⟨c.heap.tables.size⟩

/-- Makes the counterpart of a table, with nothing in it. -/
def openTable (c : Copying) (t : TableRef) : Copying :=
  { c with heap := (c.heap.addTable {}).2, tables := (t, c.nextTable) :: c.tables }

/-- Puts a value into a table. -/
def setSlot (c : Copying) (into : TableRef) (k : Key) (v : Value) : Copying :=
  { c with heap := c.heap.setSlot into k v }

/-- Gives a table a metatable. -/
def setMetatable (c : Copying) (u m : TableRef) : Copying :=
  { c with heap := c.heap.setMetatable u (some m) }

/-- Makes an object for a handle. -/
def addHandle (c : Copying) (handle : Handle) : Copying :=
  { c with heap := (c.heap.addUser (.handle handle)).2 }

/-- New variables, one for each in a list: the first one with a value, the others without. -/
def freshCells (h : Heap) (first : Value) : List CellRef → List (CellRef × CellRef) × Heap
  | [] => ([], h)
  | source :: rest =>
    let (target, h) := h.addCell first
    let (cells, h) := freshCells h .nil rest
    ((source, target) :: cells, h)

/-- The variables of a function that is loaded.  Loading takes the first one for that of the globals
and puts those of the copy there, whatever it stands for. -/
def loadCells (c : Copying) (captures : List CellRef) : List (CellRef × CellRef) × Heap :=
  freshCells c.heap (.table c.globals) captures

/-- The next function that is made. -/
def nextFunction (c : Copying) : GuestFunction := ⟨c.heap.functions.size⟩

/-- Makes the counterpart of a closure, with what loading puts into its variables. -/
def openFunction (c : Copying) (f : GuestFunction) (p : Proto) (captures : List CellRef) :
    Copying :=
  let (cells, heap) := c.loadCells captures
  { c with
    heap := (heap.addFunction ⟨c.target, .closure p (cells.map (·.2))⟩).2
    functions := (f, some c.nextFunction) :: c.functions }

/-- The variables that a function has captured, with those that its copy has captured. -/
def cellPairs (c : Copying) (f g : GuestFunction) : List (CellRef × CellRef) :=
  (c.source.captures f).zip (c.heap.captures g)

/-- Puts a value into a variable. -/
def setCell (c : Copying) (b : CellRef) (v : Value) : Copying :=
  { c with heap := c.heap.setCell b v }

/-- Gives a function up: from now on it cannot be copied. -/
def giveUp (c : Copying) (f : GuestFunction) : Copying :=
  { c with functions := (f, none) :: c.functions }

/-! ## Copying values -/

section

variable (copy : Copying → Value → Option Value × Copying)

/-- Sets the captured variables of a copied function, one by one; fails on a value that cannot be
copied.  `copy` copies a value. -/
def copyCaptures (c : Copying) : List (CellRef × CellRef) → Bool × Copying
  | [] => (true, c)
  | (source, target) :: rest =>
    match copy c (c.source.cell source) with
    | (some v, c) => copyCaptures (c.setCell target v) rest
    | (none, c) => (false, c)

/-- Adds the pairs to a table that it does not have yet.  `copy` copies a value. -/
def mergeInto (c : Copying) (into : TableRef) : List (Key × Value) → Copying
  | [] => c
  | (k, v) :: rest =>
    match copy c k.toValue with
    | (none, c) => mergeInto c into rest
    | (some k, c) =>
      match Key.ofValue k with
      | .error _ => mergeInto c into rest
      | .ok k =>
        -- what is there stays, and the value is not looked at
        if !((c.heap.table into).get k).isNil then mergeInto c into rest
        else
          match copy c v with
          | (none, c) => mergeInto c into rest
          | (some v, c) => mergeInto (c.setSlot into k v) into rest

/-- Gives a table the copy of a metatable. -/
def copyMetatable (c : Copying) (u m : TableRef) : Copying :=
  match copy c (.table m) with
  | (some (.table m), c) => c.setMetatable u m
  | (_, c) => c

/-- Copies a table, with all that it holds. -/
def copyTable (c : Copying) (t : TableRef) : Option Value × Copying :=
  match c.tables.lookup t with
  | some u => (some (.table u), c)
  | none =>
    let u := c.nextTable
    let source := c.source.table t
    -- the counterpart is known before anything is copied into it, so a cycle comes back to it
    let c := mergeInto copy (c.openTable t) u source.enumerate
    match source.metatable? with
    | none => (some (.table u), c)
    | some m => (some (.table u), copyMetatable copy c u m)

/-- Copies a function, with all that it has captured. -/
def copyFunction (c : Copying) (f : GuestFunction) : Option Value × Copying :=
  match c.functions.lookup f with
  | some (some g) => (some (.func g), c)
  | some none => (none, c)
  | none =>
    match c.source.function? f with
    | some ⟨_, .closure p captures⟩ =>
      let g := c.nextFunction
      -- as with tables, for a function that is among the values that it has captured
      let c := c.openFunction f p captures
      match copyCaptures copy c (c.cellPairs f g) with
      | (true, c) => (some (.func g), c)
      -- what was copied meanwhile may hold the copy that is given up
      | (false, c) => (none, c.giveUp f)
    | _ => (none, c.giveUp f)

end

/-- Copies an object, which must be a handle. -/
def copyUser (c : Copying) (x : UserRef) : Option Value × Copying :=
  match c.source.user x with
  | .handle handle => (some (.user ⟨c.heap.users.size⟩), c.addHandle handle)
  | _ => (none, c)

/-- Copies a value that lies at most `n` tables and functions deep. -/
def copyWithin : Nat → Copying → Value → Option Value × Copying
  | 0, c, _ => (none, c)
  | n + 1, c, v =>
    match v with
    | .table t => copyTable (copyWithin n) c t
    | .func f => copyFunction (copyWithin n) c f
    | .user x => copyUser c x
    | .thread _ | .light _ => (none, c)
    | v => (some v, c)

/-! ## Copying sessions -/

/-- How deep values can lie: every table and function is entered at most once on the way. -/
def depth (c : Copying) : Nat := c.source.tables.size + c.source.functions.size + 2

/-- Adds to a table what it lacks of another one. -/
def merge (c : Copying) (source into : TableRef) : Copying :=
  mergeInto (copyWithin c.depth) c into (c.source.table source).enumerate

/-- Adds to a global table what it lacks of the global table of the same name. -/
def mergeNamed (c : Copying) (source into : TableRef) (name : String) : Copying :=
  match c.source.field source name, c.heap.field into name with
  | .table t, .table u => c.merge t u
  | _, _ => c

/-- Copies hooks; those that cannot be copied are left out. -/
def copyHooks (c : Copying) (hooks : HookRegistry) :
    List (HookPoint × GuestFunction) → HookRegistry × Copying
  | [] => (hooks, c)
  | (point, f) :: rest =>
    match copyWithin c.depth c (.func f) with
    | (some (.func g), c) => c.copyHooks (hooks.register point g) rest
    | (_, c) => c.copyHooks hooks rest

/-- Knows the counterparts of the functions and tables that two runtimes have in common. -/
def pairAll (c : Copying) (source into : TableRef) : Copying :=
  { c with tables := (source, into) :: c.tables }.pairGlobals into (c.source.table source).enumerate

/-- Copies everything that one runtime has and the other one lacks. -/
def mergeAll (c : Copying) (source into : TableRef) (config : Config) : Copying :=
  let c := c.merge source into
  let c := c.mergeNamed source into "share"
  c.mergeNamed source into config.namespaceName

end Copying

namespace World

/-- The global variables of a session. -/
def globals (w : World) (s : SessionRef) : TableRef :=
  (w.runtime (w.session s).runtime).runtime.globals

/-- The state in which copying into a new session starts. -/
def startCopy (w : World) (s : SessionRef) (new : World) (fresh : SessionRef) : Copying :=
  let start : Copying :=
    { source := w.heap, heap := new.heap, target := (new.session fresh).runtime
      globals := new.globals fresh }
  start.pairAll (w.globals s) (new.globals fresh)

/-- Copies everything that one session has and a new one lacks, and gives the hooks of the copy. -/
def copyInto (w : World) (s : SessionRef) (new : World) (fresh : SessionRef) :
    HookRegistry × Copying :=
  let c := (w.startCopy s new fresh).mergeAll (w.globals s) (new.globals fresh) (w.session s).config
  c.copyHooks {} (w.hooks s).entries

/-- Adds a copy of a session, which must be open. -/
def copySession (w : World) (s : SessionRef) : Except BridgeError (SessionRef × World) :=
  let state := w.session s
  if state.closed then .error .closed
  else
    match w.addSession state.shell state.capabilities state.config with
    | .error e => .error e
    | .ok (fresh, new) =>
      let (hooks, c) := w.copyInto s new fresh
      .ok (fresh, { new with heap := c.heap }.setRegistry (new.session fresh).hooks hooks)

end World
end ScriptShell
