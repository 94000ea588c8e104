import ScriptShell.Decimal.Binary
import ScriptShell.Host.Fault

/-! # Declared types

A caller that knows what it expects declares a type: an integer type with a range, the months,
truth values, texts or bytes.  Each has an embedding into `HostValue` and a partial way back that
says what was wrong.  Unsigned numbers above the 64-bit signed range are embedded as its end. -/

namespace ScriptShell

/-- An integer type: its name and its range. -/
structure IntType where
  /-- The name in messages. -/
  name : String
  /-- The least number of the type. -/
  low : Int
  /-- The greatest number of the type. -/
  high : Int
  deriving DecidableEq, Repr

namespace IntType

/-- Signed numbers of 8 bits. -/
def i8 : IntType := ⟨"i8", -0x80, 0x7F⟩
/-- Signed numbers of 16 bits. -/
def i16 : IntType := ⟨"i16", -0x8000, 0x7FFF⟩
/-- Signed numbers of 32 bits. -/
def i32 : IntType := ⟨"i32", -0x80000000, 0x7FFFFFFF⟩
/-- Signed numbers of 64 bits. -/
def i64 : IntType := ⟨"i64", -0x8000000000000000, 0x7FFFFFFFFFFFFFFF⟩
/-- Signed numbers of the width of an address. -/
def isize : IntType := ⟨"isize", -0x8000000000000000, 0x7FFFFFFFFFFFFFFF⟩
/-- Unsigned numbers of 8 bits. -/
def u8 : IntType := ⟨"u8", 0, 0xFF⟩
/-- Unsigned numbers of 16 bits. -/
def u16 : IntType := ⟨"u16", 0, 0xFFFF⟩
/-- Unsigned numbers of 32 bits. -/
def u32 : IntType := ⟨"u32", 0, 0xFFFFFFFF⟩
/-- Unsigned numbers of 64 bits. -/
def u64 : IntType := ⟨"u64", 0, 0xFFFFFFFFFFFFFFFF⟩
/-- Unsigned numbers of the width of an address. -/
def usize : IntType := ⟨"usize", 0, 0xFFFFFFFFFFFFFFFF⟩

/-- All integer types. -/
def all : List IntType := [i8, i16, i32, i64, isize, u8, u16, u32, u64, usize]

/-- The integer type of a name. -/
def ofName? (name : String) : Option IntType := all.find? (·.name == name)

end IntType

/-- The months by number, from one. -/
def monthNames : List String :=
  ["January", "February", "March", "April", "May", "June", "July", "August", "September",
    "October", "November", "December"]

namespace HostValue

/-- A number of any type as a host value. -/
def ofInt (n : Int) : HostValue := .int (clampInt64 n)

/-- A month, by its place among all months, as a host value: its number. -/
def ofMonth (month : Fin monthNames.length) : HostValue := .int (Int64.ofNat (month + 1))

/-- What there is of an optional value. -/
def ofOption (v : Option HostValue) : HostValue := v.getD .nil

/-- The number as a member of an integer type. -/
def toInt (type : IntType) : HostValue → Except MarshalError Int
  | .int i =>
    if type.low ≤ i.toInt && i.toInt ≤ type.high then .ok i.toInt
    else .error (.outOfRange i type.name)
  | v => .error (.kind "integer" v.kindName)

/-- The number as the name of a month. -/
def toMonth (v : HostValue) : Except MarshalError String :=
  match v.toInt .u8 with
  | .ok n =>
    match if n = 0 then none else monthNames[n.toNat - 1]? with
    | some name => .ok name
    | none => .error (.outOfRange (Int64.ofInt n) "Month")
  | .error e => .error e

/-- The truth value. -/
def toBool : HostValue → Except MarshalError Bool
  | .bool b => .ok b
  | v => .error (.kind "boolean" v.kindName)

/-- The text of a text, an error, or bytes that are UTF-8. -/
def toText : HostValue → Except MarshalError String
  | .text s | .error s => .ok s
  | .bytes b =>
    match Utf8.decode? b with
    | some s => .ok s
    | none => .error (.kind "text" "non-UTF-8 bytes")
  | v => .error (.kind "text" v.kindName)

/-- The bytes of bytes or of a text. -/
def toBytes : HostValue → Except MarshalError Bytes
  | .bytes b => .ok b
  | .text s => .ok (Utf8.encode s)
  | v => .error (.kind "bytes" v.kindName)

end HostValue

/-- The host kind that a guest value is read as. -/
inductive Declared where
  /-- Whatever kind the value has. -/
  | any
  /-- A truth value. -/
  | bool
  /-- A whole number; fractions are dropped. -/
  | int
  /-- A text. -/
  | text
  /-- Bytes, whether or not they are a text. -/
  | bytes
  deriving DecidableEq, Repr, Inhabited

namespace Declared

/-- All declared types. -/
def all : List Declared := [any, bool, int, text, bytes]

/-- The name of the type. -/
def name : Declared → String
  | any => "any"
  | bool => "bool"
  | int => "int"
  | text => "text"
  | bytes => "bytes"

/-- The declared type of a name. -/
def ofName? (name : String) : Option Declared := all.find? (·.name == name)

end Declared
end ScriptShell
