import ScriptShell.Decimal.Binary
import ScriptShell.Host.Value

/-! # Guest values

The values of the guest language, Lua 5.4.  Tables, objects and coroutines are references into the
heap; functions are `GuestFunction`s, which the host can hold too.  `Key` is a value as a table key:
every number equal to an integer is that integer, so that equal keys are the same key. -/

namespace ScriptShell.Guest

/-- A table in the heap. -/
@[ext]
structure TableRef where
  /-- Its place. -/
  id : Nat
  deriving DecidableEq, Repr, Inhabited

/-- A variable in the heap, shared by the functions that capture it. -/
@[ext]
structure CellRef where
  /-- Its place. -/
  id : Nat
  deriving DecidableEq, Repr, Inhabited

/-- An object of the host in the heap. -/
@[ext]
structure UserRef where
  /-- Its place. -/
  id : Nat
  deriving DecidableEq, Repr, Inhabited

/-- A coroutine in the heap. -/
@[ext]
structure ThreadRef where
  /-- Its place. -/
  id : Nat
  deriving DecidableEq, Repr, Inhabited

/-- A value of the guest language. -/
inductive Value where
  /-- No value. -/
  | nil
  /-- A truth value. -/
  | bool (b : Bool)
  /-- An integer. -/
  | int (i : Int64)
  /-- A float. -/
  | num (x : Float)
  /-- A string. -/
  | str (s : Bytes)
  /-- A table. -/
  | table (t : TableRef)
  /-- A function. -/
  | func (f : GuestFunction)
  /-- An object of the host. -/
  | user (u : UserRef)
  /-- A coroutine. -/
  | thread (t : ThreadRef)
  /-- A bare address. -/
  | light (n : Nat)
  deriving Inhabited

namespace Value

/-- A text as a guest string. -/
def text (s : String) : Value := .str (Utf8.encode s)

/-- Whether this is no value. -/
def isNil : Value → Bool
  | .nil => true
  | _ => false

theorem isNil_iff {v : Value} : v.isNil = true ↔ v = .nil := by
  cases v <;> simp [isNil]

theorem isNil_eq_false {v : Value} : v.isNil = false ↔ v ≠ .nil := by
  cases v <;> simp [isNil]

/-- What counts as true: all but `nil` and `false`. -/
def truthy : Value → Bool
  | .nil | .bool false => false
  | _ => true

/-- The name of the type. -/
def typeName : Value → String
  | .nil => "nil"
  | .bool _ => "boolean"
  | .int _ | .num _ => "number"
  | .str _ => "string"
  | .table _ => "table"
  | .func _ => "function"
  | .user _ | .light _ => "userdata"
  | .thread _ => "thread"

/-- Equality without metamethods: numbers by value, whatever their form, and objects by identity. -/
def rawEq : Value → Value → Bool
  | .nil, .nil => true
  | .bool a, .bool b => a == b
  | .int a, .int b => a == b
  | .int a, .num b => exactInt64? b == some a
  | .num a, .int b => exactInt64? a == some b
  | .num a, .num b => a == b
  | .str a, .str b => a == b
  | .table a, .table b => a == b
  | .func a, .func b => a == b
  | .user a, .user b => a == b
  | .thread a, .thread b => a == b
  | .light a, .light b => a == b
  | _, _ => false

theorem rawEq_table {v : Value} {t : TableRef} : v.rawEq (.table t) = true ↔ v = .table t := by
  cases v <;> simp [rawEq]

theorem rawEq_bool {v : Value} {b : Bool} : v.rawEq (.bool b) = true ↔ v = .bool b := by
  cases v <;> simp [rawEq]

theorem rawEq_func {v : Value} {f : GuestFunction} : v.rawEq (.func f) = true ↔ v = .func f := by
  cases v <;> simp [rawEq]

end Value

/-- Whether this is a number that equals no integer. -/
structure Key.IsFloat (x : Float) : Prop where
  /-- It equals no integer. -/
  noInteger : exactInt64? x = none
  /-- It is a number. -/
  number : x.isNaN = false

/-- A value as a table key. -/
inductive Key where
  /-- A truth value. -/
  | bool (b : Bool)
  /-- An integer, or a float equal to it. -/
  | int (i : Int64)
  /-- A float that equals no integer. -/
  | num (x : Float) {proper : Key.IsFloat x}
  /-- A string. -/
  | str (s : Bytes)
  /-- A table. -/
  | table (t : TableRef)
  /-- A function. -/
  | func (f : GuestFunction)
  /-- An object of the host. -/
  | user (u : UserRef)
  /-- A coroutine. -/
  | thread (t : ThreadRef)
  /-- A bare address. -/
  | light (n : Nat)
  deriving DecidableEq, Inhabited

/-- Why a value cannot be a key. -/
inductive KeyFault where
  /-- No value. -/
  | nil
  /-- Not a number. -/
  | nan
  deriving DecidableEq, Repr

/-- The fault in words. -/
def KeyFault.message : KeyFault → String
  | nil => "index is nil"
  | nan => "index is NaN"

namespace Key

/-- The key that a value is. -/
def ofValue : Value → Except KeyFault Key
  | .nil => .error .nil
  | .bool b => .ok (.bool b)
  | .int i => .ok (.int i)
  | .num x =>
    match hi : exactInt64? x with
    | some i => .ok (.int i)
    | none =>
      match hn : x.isNaN with
      | true => .error .nan
      | false => .ok (@num x ⟨hi, hn⟩)
  | .str s => .ok (.str s)
  | .table t => .ok (.table t)
  | .func f => .ok (.func f)
  | .user u => .ok (.user u)
  | .thread t => .ok (.thread t)
  | .light n => .ok (.light n)

/-- The value that a key is. -/
def toValue : Key → Value
  | .bool b => .bool b
  | .int i => .int i
  | .num x => .num x
  | .str s => .str s
  | .table t => .table t
  | .func f => .func f
  | .user u => .user u
  | .thread t => .thread t
  | .light n => .light n

/-- A text as a key. -/
def text (s : String) : Key := .str (Utf8.encode s)

/-- A key is the key of its value. -/
@[simp] theorem ofValue_toValue (k : Key) : ofValue k.toValue = .ok k := by
  cases k with
  | @num x proper =>
    simp only [toValue, ofValue]
    split
    · next hi => rw [proper.noInteger] at hi; cases hi
    · split
      · next hn => rw [proper.number] at hn; cases hn
      · rfl
  | _ => rfl

end Key
end ScriptShell.Guest
