import ScriptShell.Guest.Syntax
import ScriptShell.Guest.Table
import ScriptShell.Property
import ScriptShell.Stream

/-! # The guest heap

Everything that guest values refer to: tables, variables, functions, objects of the host and
coroutines.  Nothing is ever removed, so a reference stays good, and everything new gets a place
behind all that is there.  Functions and host objects never change, streams and open files apart. -/

namespace ScriptShell.Guest

/-- A guest runtime, by its place. -/
@[ext]
structure RuntimeRef where
  /-- Its place. -/
  id : Nat
  deriving DecidableEq, Repr, Inhabited

/-- The functions of the guest's standard library. -/
inductive LibraryFunction where
  /-- `assert`. -/
  | assert
  /-- `collectgarbage`. -/
  | collectgarbage
  /-- `dofile`. -/
  | dofile
  /-- `error`. -/
  | error
  /-- `getmetatable`. -/
  | getmetatable
  /-- `ipairs`. -/
  | ipairs
  /-- The iterator that `ipairs` gives. -/
  | ipairsStep
  /-- `load`. -/
  | load
  /-- `loadfile`. -/
  | loadfile
  /-- `next`. -/
  | next
  /-- `pairs`. -/
  | pairs
  /-- `pcall`. -/
  | pcall
  /-- `print`. -/
  | print
  /-- `rawequal`. -/
  | rawequal
  /-- `rawget`. -/
  | rawget
  /-- `rawlen`. -/
  | rawlen
  /-- `rawset`. -/
  | rawset
  /-- `select`. -/
  | select
  /-- `setmetatable`. -/
  | setmetatable
  /-- `tonumber`. -/
  | tonumber
  /-- `tostring`. -/
  | tostring
  /-- `type`. -/
  | type
  /-- `xpcall`. -/
  | xpcall
  /-- `coroutine.create`. -/
  | coroutineCreate
  /-- `coroutine.status`. -/
  | coroutineStatus
  /-- `io.lines`. -/
  | ioLines
  /-- `io.open`. -/
  | ioOpen
  /-- `io.read`. -/
  | ioRead
  /-- `io.type`. -/
  | ioType
  /-- `io.write`. -/
  | ioWrite
  /-- `math.abs`. -/
  | mathAbs
  /-- `math.ceil`. -/
  | mathCeil
  /-- `math.floor`. -/
  | mathFloor
  /-- `math.fmod`. -/
  | mathFmod
  /-- `math.max`. -/
  | mathMax
  /-- `math.min`. -/
  | mathMin
  /-- `math.sqrt`. -/
  | mathSqrt
  /-- `math.tointeger`. -/
  | mathTointeger
  /-- `math.type`. -/
  | mathType
  /-- `string.byte`. -/
  | stringByte
  /-- `string.char`. -/
  | stringChar
  /-- `string.find`. -/
  | stringFind
  /-- `string.format`. -/
  | stringFormat
  /-- `string.gmatch`. -/
  | stringGmatch
  /-- `string.gsub`. -/
  | stringGsub
  /-- `string.len`. -/
  | stringLen
  /-- `string.lower`. -/
  | stringLower
  /-- `string.match`. -/
  | stringMatch
  /-- `string.rep`. -/
  | stringRep
  /-- `string.reverse`. -/
  | stringReverse
  /-- `string.sub`. -/
  | stringSub
  /-- `string.upper`. -/
  | stringUpper
  /-- Arithmetic on strings that are numerals. -/
  | stringArithmetic (op : BinaryOp)
  /-- Negation of strings that are numerals. -/
  | stringNegate
  /-- `table.concat`. -/
  | tableConcat
  /-- `table.insert`. -/
  | tableInsert
  /-- `table.pack`. -/
  | tablePack
  /-- `table.remove`. -/
  | tableRemove
  /-- `table.sort`. -/
  | tableSort
  /-- `table.unpack`. -/
  | tableUnpack
  /-- The `close` method of a stream. -/
  | streamClose
  /-- The `flush` method of a stream. -/
  | streamFlush
  /-- The `lines` method of a stream. -/
  | streamLines
  /-- The `read` method of a stream. -/
  | streamRead
  /-- A stream as text. -/
  | streamText
  /-- The `write` method of a stream. -/
  | streamWrite
  /-- A failure as text. -/
  | failureText
  /-- The `close` method of an open file. -/
  | fileClose
  /-- The `lines` method of an open file. -/
  | fileLines
  /-- The `read` method of an open file. -/
  | fileRead
  /-- An open file as text. -/
  | fileText
  deriving DecidableEq, Repr, Inhabited

/-- What a function of the heap does. -/
inductive Code where
  /-- Runs a body with its captured variables. -/
  | closure (proto : Proto) (captures : List CellRef)
  /-- A function of the standard library. -/
  | library (f : LibraryFunction)
  /-- A function that the host offers. -/
  | host (f : HostFunction)
  /-- Reads a property. -/
  | propertyGet (t : PropertyTable)
  /-- Writes a property. -/
  | propertySet (t : PropertyTable)
  /-- The length of a property table. -/
  | propertyLength (t : PropertyTable)
  /-- Binds a key. -/
  | bindKey (hooks : RegistryRef)
  /-- Reads an alias. -/
  | getAlias
  /-- Writes an alias. -/
  | setAlias
  /-- Reads the next item of a stream or an open file. -/
  | lines (source : Value) (formats : List Value)
  /-- Finds the next match from the position in a variable on. -/
  | gmatch (source pattern : Bytes) (position : CellRef)
  deriving Inhabited

/-- A function of the heap. -/
structure Function where
  /-- The runtime that it belongs to. -/
  runtime : RuntimeRef
  /-- What it does. -/
  code : Code
  deriving Inhabited

/-- A file that was opened for reading. -/
structure OpenFile where
  /-- The bytes that are left, until it is closed. -/
  rest? : Option Bytes
  deriving Inhabited

/-- An object of the host. -/
inductive User where
  /-- A handle. -/
  | handle (h : Handle)
  /-- A standard stream. -/
  | stream (s : Stream)
  /-- An error that the host's side raised. -/
  | failure (f : Failure)
  /-- An open file. -/
  | file (f : OpenFile)
  /-- An object of someone else. -/
  | foreign
  deriving Inhabited

/-- Everything that guest values refer to. -/
structure Heap where
  /-- The tables. -/
  tables : Array Table := #[]
  /-- The variables. -/
  cells : Array Value := #[]
  /-- The functions. -/
  functions : Array Function := #[]
  /-- The objects of the host. -/
  users : Array User := #[]
  /-- The coroutines, each with its function. -/
  threads : Array Value := #[]
  deriving Inhabited

namespace Heap

/-- A table. -/
def table (h : Heap) (t : TableRef) : Table := h.tables[t.id]?.getD {}

/-- The value of a variable. -/
def cell (h : Heap) (c : CellRef) : Value := h.cells[c.id]?.getD .nil

/-- A function. -/
def function? (h : Heap) (f : GuestFunction) : Option Function := h.functions[f.id]?

/-- The variables that a function has captured. -/
def captures (h : Heap) (f : GuestFunction) : List CellRef :=
  match h.function? f with
  | some ⟨_, .closure _ cells⟩ => cells
  | _ => []

/-- An object of the host. -/
def user (h : Heap) (u : UserRef) : User := h.users[u.id]?.getD .foreign

/-- Adds a table. -/
def addTable (h : Heap) (t : Table) : TableRef × Heap :=
  (⟨h.tables.size⟩, { h with tables := h.tables.push t })

/-- Adds a variable. -/
def addCell (h : Heap) (v : Value) : CellRef × Heap :=
  (⟨h.cells.size⟩, { h with cells := h.cells.push v })

/-- Adds a function. -/
def addFunction (h : Heap) (f : Function) : GuestFunction × Heap :=
  (⟨h.functions.size⟩, { h with functions := h.functions.push f })

/-- Adds an object of the host. -/
def addUser (h : Heap) (u : User) : UserRef × Heap :=
  (⟨h.users.size⟩, { h with users := h.users.push u })

/-- Adds a coroutine. -/
def addThread (h : Heap) (f : Value) : ThreadRef × Heap :=
  (⟨h.threads.size⟩, { h with threads := h.threads.push f })

/-- Changes a table. -/
def modifyTable (h : Heap) (t : TableRef) (f : Table → Table) : Heap :=
  { h with tables := h.tables.modify t.id f }

/-- Puts a value into a table, without metamethods. -/
def setSlot (h : Heap) (t : TableRef) (k : Key) (v : Value) : Heap :=
  h.modifyTable t (·.set k v)

/-- Puts a value under a text into a table, without metamethods. -/
def setField (h : Heap) (t : TableRef) (name : String) (v : Value) : Heap :=
  h.setSlot t (.text name) v

/-- The value under a text in a table, without metamethods. -/
def field (h : Heap) (t : TableRef) (name : String) : Value := (h.table t).get (.text name)

/-- Changes the metatable of a table. -/
def setMetatable (h : Heap) (t : TableRef) (m : Option TableRef) : Heap :=
  h.modifyTable t fun t => { t with metatable? := m }

/-- Changes a variable. -/
def setCell (h : Heap) (c : CellRef) (v : Value) : Heap :=
  { h with cells := h.cells.setIfInBounds c.id v }

/-- Takes its pipe or its bytes away from a stream or an open file. -/
def closeUser (h : Heap) (u : UserRef) : Heap :=
  { h with
    users := h.users.modify u.id fun
      | .stream s => .stream s.close
      | .file _ => .file ⟨none⟩
      | u => u }

/-- Leaves fewer bytes in an open file; a closed one stays closed. -/
def setFileRest (h : Heap) (u : UserRef) (rest : Bytes) : Heap :=
  { h with
    users := h.users.modify u.id fun
      | .file ⟨some _⟩ => .file ⟨some rest⟩
      | u => u }

/-! ## Looking things up -/

theorem table_modifyTable (h : Heap) (t : TableRef) (f : Table → Table) (t' : TableRef) :
    (h.modifyTable t f).table t' =
      if t = t' ∧ t.id < h.tables.size then f (h.table t') else h.table t' := by
  simp only [table, modifyTable, Array.getElem?_modify]
  by_cases ht : t = t'
  · subst ht
    by_cases hlt : t.id < h.tables.size
    · simp [hlt]
    · simp [hlt]
  · have hne : t.id ≠ t'.id := fun he => ht (TableRef.ext he)
    simp [ht, hne]

theorem table_addTable (h : Heap) (x : Table) (t : TableRef) :
    (h.addTable x).2.table t = if t.id = h.tables.size then x else h.table t := by
  simp only [table, addTable, Array.getElem?_push]
  split <;> rfl

theorem size_modifyTable (h : Heap) (t : TableRef) (f : Table → Table) :
    (h.modifyTable t f).tables.size = h.tables.size := Array.size_modify

theorem get_setSlot (h : Heap) {t : TableRef} (ht : t.id < h.tables.size) (k : Key) (v : Value)
    (t' : TableRef) (k' : Key) :
    ((h.setSlot t k v).table t').get k' =
      if t = t' ∧ k = k' then v else (h.table t').get k' := by
  rw [setSlot, table_modifyTable]
  by_cases he : t = t'
  · rw [if_pos ⟨he, ht⟩, Table.get_set]
    simp [he]
  · simp [he]

theorem get_setSlot_of_ne (h : Heap) (t : TableRef) {k k' : Key} (hk : k ≠ k') (v : Value)
    (t' : TableRef) : ((h.setSlot t k v).table t').get k' = (h.table t').get k' := by
  rw [setSlot, table_modifyTable]
  split
  · rw [Table.get_set, if_neg hk]
  · rfl

/-- What a table holds after a slot was set: the new value, or what it held before. -/
theorem get_setSlot_or (h : Heap) (t : TableRef) (k : Key) (v : Value) (t' : TableRef) (k' : Key) :
    (t = t' ∧ k = k' ∧ ((h.setSlot t k v).table t').get k' = v) ∨
      ((h.setSlot t k v).table t').get k' = (h.table t').get k' := by
  rw [setSlot, table_modifyTable]
  split
  · next ht =>
    rw [Table.get_set]
    split
    · next hk => exact .inl ⟨ht.1, hk, rfl⟩
    · exact .inr rfl
  · exact .inr rfl

theorem metatable_setSlot (h : Heap) (t : TableRef) (k : Key) (v : Value) (t' : TableRef) :
    ((h.setSlot t k v).table t').metatable? = (h.table t').metatable? := by
  rw [setSlot, table_modifyTable]
  split
  · exact Table.metatable_set _ k v
  · rfl

theorem metatable_setMetatable (h : Heap) {t : TableRef} (ht : t.id < h.tables.size)
    (m : Option TableRef) (t' : TableRef) :
    ((h.setMetatable t m).table t').metatable? = if t = t' then m else (h.table t').metatable? := by
  rw [setMetatable, table_modifyTable]
  by_cases he : t = t'
  · rw [if_pos ⟨he, ht⟩, if_pos he]
  · rw [if_neg fun h => he h.1, if_neg he]

theorem get_setMetatable (h : Heap) (t : TableRef) (m : Option TableRef) (t' : TableRef) (k : Key) :
    ((h.setMetatable t m).table t').get k = (h.table t').get k := by
  rw [setMetatable, table_modifyTable]
  split <;> rfl

/-- A table that does not exist reads as an empty one. -/
theorem table_of_ge {h : Heap} {t : TableRef} (ht : h.tables.size ≤ t.id) : h.table t = {} := by
  rw [table, Array.getElem?_eq_none ht, Option.getD_none]

theorem field_of_ge {h : Heap} {t : TableRef} (ht : h.tables.size ≤ t.id) (name : String) :
    h.field t name = .nil := by
  rw [field, table_of_ge ht, Table.get_empty]

theorem text_injective {s t : String} (h : Key.text s = Key.text t) : s = t :=
  Utf8.encode_injective (Key.str.inj h)

theorem field_setField_of_ne (h : Heap) (t : TableRef) {name name' : String} (hn : name ≠ name')
    (v : Value) (t' : TableRef) : (h.setField t name v).field t' name' = h.field t' name' :=
  get_setSlot_of_ne h t (hn ∘ text_injective) v t'

theorem field_setField (h : Heap) {t : TableRef} (ht : t.id < h.tables.size) (name : String)
    (v : Value) (t' : TableRef) (name' : String) :
    (h.setField t name v).field t' name' =
      if t = t' ∧ name = name' then v else h.field t' name' := by
  by_cases hn : name = name'
  · rw [field, setField, get_setSlot h ht, hn]
    simp [field]
  · rw [field_setField_of_ne h t hn, if_neg fun he => hn he.2]

end Heap

/-- What belongs to one guest runtime. -/
structure Runtime where
  /-- The global variables. -/
  globals : TableRef
  /-- The metatable of all strings. -/
  strings : TableRef
  /-- The metatable of streams. -/
  streams : TableRef
  /-- The metatable of open files. -/
  files : TableRef
  /-- The metatable of handles. -/
  handles : TableRef
  /-- The metatable of failures. -/
  failures : TableRef
  /-- The libraries by name. -/
  loaded : TableRef
  deriving Inhabited

end ScriptShell.Guest
