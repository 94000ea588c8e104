import ScriptShell.Guest.Heap

/-! # Marshalling

Host values become guest values by `toGuest`, which adds what it needs to the heap, and guest values
become host values by `toHost`, which only reads the heap.  Both are total: what cannot cross is a
`MarshalError`, and tables inside tables are followed `maxDepth` levels down, so that a table that
holds itself is refused too. -/

namespace ScriptShell.Marshal

open Guest

/-- How many levels of tables are followed. -/
def maxDepth : Nat := 64

/-- How an object that converts itself does so. -/
abbrev NativeForm := RuntimeRef → Heap → Except MarshalError Value × Heap

mutual

/-- The guest form of a host value. -/
def toGuest (natives : Array NativeForm) (r : RuntimeRef) :
    HostValue → Heap → Except MarshalError Value × Heap
  | .nil, h => (.ok .nil, h)
  | .bool b, h => (.ok (.bool b), h)
  | .int i, h => (.ok (.int i), h)
  | .text s, h => (.ok (.text s), h)
  | .error s, h => (.ok (.text s), h)
  | .bytes b, h => (.ok (.str b), h)
  | .handle x, h =>
    let (u, h) := h.addUser (.handle x)
    (.ok (.user u), h)
  | .callable f, h => (.ok (.func f), h)
  | .function f, h =>
    let (g, h) := h.addFunction ⟨r, .host f⟩
    (.ok (.func g), h)
  | .seq items, h =>
    let (t, h) := h.addTable {}
    match toGuestItems natives r t 1 items h with
    | (.ok (), h) => (.ok (.table t), h)
    | (.error e, h) => (.error e, h)
  | .map entries, h =>
    let (t, h) := h.addTable {}
    match toGuestEntries natives r t entries h with
    | (.ok (), h) => (.ok (.table t), h)
    | (.error e, h) => (.error e, h)
  | .native n, h =>
    match natives[n.id]? with
    | some form => form r h
    | none => (.ok .nil, h)
termination_by structural v => v

/-- Fills a table with the guest forms of a sequence, from position `n` on. -/
def toGuestItems (natives : Array NativeForm) (r : RuntimeRef) (t : TableRef) (n : Nat) :
    List HostValue → Heap → Except MarshalError Unit × Heap
  | [], h => (.ok (), h)
  | v :: rest, h =>
    match toGuest natives r v h with
    | (.ok v, h) =>
      toGuestItems natives r t (n + 1) rest (h.setSlot t (.int (Int64.ofNat n)) v)
    | (.error e, h) => (.error e, h)
termination_by structural vs => vs

/-- Fills a table with the guest forms of pairs, in their order. -/
def toGuestEntries (natives : Array NativeForm) (r : RuntimeRef) (t : TableRef) :
    List (HostValue × HostValue) → Heap → Except MarshalError Unit × Heap
  | [], h => (.ok (), h)
  | (k, v) :: rest, h =>
    match toGuest natives r k h with
    | (.error e, h) => (.error e, h)
    | (.ok k, h) =>
      match Key.ofValue k with
      | .error _ => (.error .nilKey, h)
      | .ok k =>
        match toGuest natives r v h with
        | (.ok v, h) => toGuestEntries natives r t rest (h.setSlot t k v)
        | (.error e, h) => (.error e, h)
termination_by structural es => es

end

/-! ## To the host -/

/-- The host form of a guest value, following `n` levels of tables. -/
def toHostWithin (h : Heap) : Nat → Value → Except MarshalError HostValue
  | _, .nil => .ok .nil
  | _, .bool b => .ok (.bool b)
  | _, .int i => .ok (.int i)
  -- the host has whole numbers only
  | _, .num x => .ok (.int (truncate x))
  | _, .str s =>
    match Utf8.decode? s with
    | some t => .ok (.text t)
    | none => .ok (.bytes s)
  | _, .func f => .ok (.callable f)
  | _, .user u =>
    match h.user u with
    | .handle x => .ok (.handle x)
    | .failure f => .ok (.text f.bareMessage)
    | _ => .error .foreignUserData
  | 0, .table _ => .error (.tooDeep maxDepth)
  | n + 1, .table t => (entries n [] (h.table t).enumerate).map .map
  | _, .thread _ => .error (.unsupportedGuest "thread")
  | _, .light _ => .error (.unsupportedGuest "lightuserdata")
where
  /-- Adds the host forms of pairs to a map. -/
  entries (n : Nat) (m : HostMap) : List (Key × Value) → Except MarshalError HostMap
    | [] => .ok m
    | (k, v) :: rest =>
      match toHostWithin h n k.toValue with
      | .error e => .error e
      | .ok k =>
        match toHostWithin h n v with
        | .error e => .error e
        -- another key may have had this host form already; then the later pair stays
        | .ok v => entries n (HostMap.insert m k v) rest

/-- The host form of a guest value. -/
def toHost (h : Heap) (v : Value) : Except MarshalError HostValue := toHostWithin h maxDepth v

/-- The host forms of several values, in order. -/
def listToHost (h : Heap) (vs : List Value) : Except MarshalError (List HostValue) :=
  vs.mapM (toHost h)

/-- The name of a guest value's type, with integers told from other numbers and failures from
other objects. -/
def typeName (h : Heap) : Value → String
  | .nil => "nil"
  | .bool _ => "boolean"
  | .int _ => "integer"
  | .num _ => "number"
  | .str _ => "string"
  | .table _ => "table"
  | .func _ => "function"
  | .thread _ => "thread"
  | .light _ => "lightuserdata"
  | .user u =>
    match h.user u with
    | .failure _ => "error"
    | _ => "userdata"

/-- The host form of a guest value as a declared type.  No value stays no value. -/
def toHostAs (h : Heap) (declared : Declared) (v : Value) : Except MarshalError HostValue :=
  match declared, v with
  | _, .nil => .ok .nil
  | .any, v => toHost h v
  | .bool, .bool b => .ok (.bool b)
  | .int, .int i => .ok (.int i)
  | .int, .num x => .ok (.int (truncate x))
  | .text, .str s =>
    match Utf8.decode? s with
    | some t => .ok (.text t)
    | none => .error (.kind "text" "non-UTF-8 bytes")
  | .bytes, .str s => .ok (.bytes s)
  | .bool, v => .error (.kind "boolean" (typeName h v))
  | .int, v => .error (.kind "integer" (typeName h v))
  | .text, v => .error (.kind "text" (typeName h v))
  | .bytes, v => .error (.kind "bytes" (typeName h v))

end ScriptShell.Marshal
