import ScriptShell.Text.Quoted

/-! # Host values

`HostValue` is what a value looks like on the host's side of the boundary.  It has one kind for
each sort of thing that can cross.  Whole numbers are its only numbers.  Two maps are equal if they
have the same keys with equal values, in whatever order the pairs were inserted; handles and
functions are equal if they are the same object. -/

namespace ScriptShell

/-- A host object that guests can keep and pass around but not look into. -/
structure Handle where
  /-- Tells the objects apart. -/
  id : Nat
  deriving DecidableEq, Repr, Inhabited

/-- A function of a guest. -/
@[ext]
structure GuestFunction where
  /-- Its place among all guest functions. -/
  id : Nat
  deriving DecidableEq, Repr, Inhabited

/-- A function that the host offers to guests. -/
structure HostFunction where
  /-- Its place among all host functions. -/
  id : Nat
  /-- Whether it also receives the streams and the context of the call. -/
  withCall : Bool
  deriving DecidableEq, Repr, Inhabited

/-- A host object that builds its guest form itself. -/
structure Native where
  /-- Its place among all such objects. -/
  id : Nat
  deriving DecidableEq, Repr, Inhabited

/-- A value on the host's side. -/
inductive HostValue where
  /-- No value. -/
  | nil
  /-- A truth value. -/
  | bool (b : Bool)
  /-- A whole number. -/
  | int (i : Int64)
  /-- A text. -/
  | text (s : String)
  /-- Bytes that need not be a text. -/
  | bytes (b : Bytes)
  /-- An error, which guests see as its message. -/
  | error (message : String)
  /-- An opaque object. -/
  | handle (h : Handle)
  /-- A guest's function. -/
  | callable (f : GuestFunction)
  /-- A function offered to guests. -/
  | function (f : HostFunction)
  /-- A sequence. -/
  | seq (items : List HostValue)
  /-- Pairs of key and value, in the order in which the keys were first inserted. -/
  | map (entries : List (HostValue × HostValue))
  /-- An object that converts itself. -/
  | native (n : Native)
  deriving Inhabited

namespace HostValue

/-! ## Equality -/

mutual

/-- Equality of host values. -/
def eqv : HostValue → HostValue → Bool
  | .nil, .nil => true
  | .bool a, .bool b => a == b
  | .int a, .int b => a == b
  | .text a, .text b => a == b
  | .bytes a, .bytes b => a == b
  | .error a, .error b => a == b
  | .handle a, .handle b => a == b
  | .callable a, .callable b => a == b
  | .function a, .function b => a == b
  | .seq a, .seq b => eqvItems a b
  | .map a, .map b => a.length == b.length && eqvEntries a b
  | .native a, .native b => a == b
  | _, _ => false
termination_by structural v => v

/-- Item by item equality of sequences. -/
def eqvItems : List HostValue → List HostValue → Bool
  | [], [] => true
  | a :: as, b :: bs => eqv a b && eqvItems as bs
  | _, _ => false
termination_by structural v => v

/-- Each pair has a pair with an equal key in `b`, and the first such pair has an equal value.  The
recursion is on the first map, so its keys and values are on the left of the comparisons; a lookup
in `b` (`HostMap.get?`) has them on the right, which comes to the same (`HostValue.beq_comm`). -/
def eqvEntries : List (HostValue × HostValue) → List (HostValue × HostValue) → Bool
  | [], _ => true
  | (k, v) :: rest, b =>
    (match b.find? fun e => eqv k e.1 with
      | some e => eqv v e.2
      | none => false) && eqvEntries rest b
termination_by structural v => v

end

instance : BEq HostValue := ⟨eqv⟩

/-! ## Simple views -/

/-- The name of the kind, as error messages give it. -/
def kindName : HostValue → String
  | .nil => "nil"
  | .bool _ => "boolean"
  | .int _ => "integer"
  | .text _ => "text"
  | .bytes _ => "bytes"
  | .error _ => "error"
  | .handle _ => "handle"
  | .callable _ => "guest function"
  | .function _ => "host function"
  | .seq _ => "sequence"
  | .map _ => "map"
  | .native _ => "native"

/-- Whether this is no value. -/
def isNil : HostValue → Bool
  | .nil => true
  | _ => false

/-- What counts as true for the guest: all but `nil` and `false`. -/
def truthy : HostValue → Bool
  | .nil | .bool false => false
  | _ => true

/-- The text of a text, of an error or of bytes that are UTF-8. -/
def asText? : HostValue → Option String
  | .text s | .error s => some s
  | .bytes b => Utf8.decode? b
  | _ => none

/-- The number, if this is one. -/
def asInt? : HostValue → Option Int64
  | .int i => some i
  | _ => none

end HostValue

/-! ## Maps -/

/-- Pairs of key and value with unequal keys, in the order in which the keys were first
inserted. -/
abbrev HostMap := List (HostValue × HostValue)

namespace HostMap

/-- Inserts a pair; the value of an equal key is replaced in its place. -/
def insert (m : HostMap) (k v : HostValue) : HostMap :=
  match m with
  | [] => [(k, v)]
  | e :: rest => if e.1 == k then (e.1, v) :: rest else e :: insert rest k v

/-- The map that inserting pairs in order makes. -/
def ofPairs (pairs : List (HostValue × HostValue)) : HostMap :=
  pairs.foldl (fun m e => insert m e.1 e.2) []

/-- The value under a key. -/
def get? (m : HostMap) (k : HostValue) : Option HostValue :=
  (m.find? fun e => e.1 == k).map (·.2)

/-- The value under the first key that reads as the text `s`. -/
def getText? (m : HostMap) (s : String) : Option HostValue :=
  (m.find? fun e => e.1.asText? == some s).map (·.2)

/-- The position that a key names in a sequence of `size` items, counting from zero. -/
def position? (size : Nat) (k : HostValue) : Option Nat :=
  match k.asInt? with
  | some i =>
    let n := i.toInt
    if 1 ≤ n && n ≤ size then some (n - 1).toNat else none
  | none => none

/-- Puts each value at the position that its key names; fails on a key that names none. -/
def fillSlots (size : Nat) : List (Option HostValue) → HostMap → Option (List (Option HostValue))
  | slots, [] => some slots
  | slots, (k, v) :: rest =>
    match position? size k with
    | some n => fillSlots size (slots.set n (some v)) rest
    | none => none

/-- The values in order, if the keys are exactly the numbers from one to the number of pairs. -/
def sequence? (m : HostMap) : Option (List HostValue) :=
  match fillSlots m.length (List.replicate m.length none) m with
  | some slots => slots.mapM id
  | none => none

end HostMap

namespace HostValue

/-- The items of a sequence, or of a map whose keys are the numbers from one on. -/
def sequence? : HostValue → Option (List HostValue)
  | .seq items => some items
  | .map entries => HostMap.sequence? entries
  | _ => none

/-! ## Diagnostic text -/

mutual

/-- The value for diagnostics. -/
def debugText : HostValue → String
  | .nil => "Nil"
  | .bool b => Quoted.call "Bool" [toString b]
  | .int i => Quoted.call "Int" [toString i]
  | .text s => Quoted.call "Text" [Quoted.ofText s]
  | .bytes b => Quoted.call "Bytes" [Quoted.ofBytes b]
  | .error s => Quoted.call "Error" [Quoted.ofText s]
  | .handle _ => "Handle(..)"
  | .callable f => Quoted.call "Callable" ["GuestFunction(Function(" ++ toString f.id ++ "))"]
  | .function f => if f.withCall then "HostFunction::WithCall" else "HostFunction::Plain"
  | .seq items => Quoted.call "Seq" [Quoted.list (debugItems items)]
  | .map entries =>
    Quoted.call "Map"
      [Quoted.record "HostMap" [("entries", Quoted.list (debugEntries entries))] false]
  | .native _ => "Native"
termination_by structural v => v

/-- The items of a sequence for diagnostics. -/
def debugItems : List HostValue → List String
  | [] => []
  | v :: rest => debugText v :: debugItems rest
termination_by structural v => v

/-- The pairs of a map for diagnostics. -/
def debugEntries : List (HostValue × HostValue) → List String
  | [] => []
  | (k, v) :: rest => ("(" ++ debugText k ++ ", " ++ debugText v ++ ")") :: debugEntries rest
termination_by structural v => v

end

end HostValue
end ScriptShell
