import ScriptShell.Guest.Evaluator
import ScriptShell.Guest.Library.Numbers
import ScriptShell.Guest.Library.Properties
import ScriptShell.Guest.Library.Tables
import ScriptShell.Guest.Library.Text

/-! # The guest's library

Which functions the library has and where they are, what each of them does, and what calling any
guest value does.  `addRuntime` sets up a new runtime with all of it.

Scripts lack what `LibraryFunction.globals` and `LibraryFunction.tables` do not list.  Coroutines
can be made and asked for their status, but never run: there is no `coroutine.resume`, `wrap` or
`yield`.  `os` and `utf8` are empty tables.  There is no `require`, `package` holds nothing but the
table of loaded libraries, and `warn`, `table.move`, the random numbers and the transcendental
functions of `math` are missing, as are `string.dump`, `pack` and `unpack`; so no script has a chunk
in binary form.  Nothing is ever collected: no finalizer runs (a `__gc` metamethod is a field like
any other) and weak tables keep all that they hold. -/

namespace ScriptShell.Guest

namespace LibraryFunction

/-- What a function of the library does. -/
def run (f : LibraryFunction) (c : LibraryCall) : Program (List Value) :=
  match f with
  | assert => c.assert
  | collectgarbage => c.collectgarbage
  | dofile => c.dofile
  | error => c.error
  | getmetatable => c.getmetatable
  | ipairs => c.ipairs
  | ipairsStep => c.ipairsStep
  | load => c.load
  | loadfile => c.loadfile
  | next => c.next
  | pairs => c.pairs
  | pcall => c.pcall
  | print => c.print
  | rawequal => c.rawequal
  | rawget => c.rawget
  | rawlen => c.rawlen
  | rawset => c.rawset
  | select => c.select
  | setmetatable => c.setmetatable
  | tonumber => c.tonumber
  | tostring => c.tostring
  | type => c.type
  | xpcall => c.xpcall
  | coroutineCreate => c.coroutineCreate
  | coroutineStatus => c.coroutineStatus
  | ioLines => c.ioLines
  | ioOpen => c.ioOpen
  | ioRead => c.ioRead
  | ioType => c.ioType
  | ioWrite => c.ioWrite
  | mathAbs => c.mathAbs
  | mathCeil => c.mathCeil
  | mathFloor => c.mathFloor
  | mathFmod => c.mathFmod
  | mathMax => c.mathMax
  | mathMin => c.mathMin
  | mathSqrt => c.mathSqrt
  | mathTointeger => c.mathTointeger
  | mathType => c.mathType
  | stringByte => c.stringByte
  | stringChar => c.stringChar
  | stringFind => c.stringFind
  | stringFormat => c.stringFormat
  | stringGmatch => c.stringGmatch
  | stringGsub => c.stringGsub
  | stringLen => c.stringLen
  | stringLower => c.stringLower
  | stringMatch => c.stringMatch
  | stringRep => c.stringRep
  | stringReverse => c.stringReverse
  | stringSub => c.stringSub
  | stringUpper => c.stringUpper
  | stringArithmetic op => c.stringArithmetic op
  | stringNegate => c.stringNegate
  | tableConcat => c.tableConcat
  | tableInsert => c.tableInsert
  | tablePack => c.tablePack
  | tableRemove => c.tableRemove
  | tableSort => c.tableSort
  | tableUnpack => c.tableUnpack
  | streamClose => c.streamClose
  | streamFlush => c.streamFlush
  | streamLines => c.streamLines
  | streamRead => c.streamRead
  | streamText => c.streamText
  | streamWrite => c.streamWrite
  | failureText => c.failureText
  | fileClose => c.fileClose
  | fileLines => c.fileLines
  | fileRead => c.fileRead
  | fileText => c.fileText

/-- The functions of the library that are global variables. -/
def globals : List (String × LibraryFunction) :=
  [("assert", assert), ("collectgarbage", collectgarbage), ("dofile", dofile), ("error", error),
    ("getmetatable", getmetatable), ("ipairs", ipairs), ("load", load), ("loadfile", loadfile),
    ("next", next), ("pairs", pairs), ("pcall", pcall), ("print", print), ("rawequal", rawequal),
    ("rawget", rawget), ("rawlen", rawlen), ("rawset", rawset), ("select", select),
    ("setmetatable", setmetatable), ("tonumber", tonumber), ("tostring", tostring),
    ("type", type), ("xpcall", xpcall)]

/-- The functions of the library that are in tables.  Scripts find an empty `os` and an empty
`utf8`, and no function that runs a coroutine. -/
def tables : List (String × List (String × LibraryFunction)) :=
  [("coroutine", [("create", coroutineCreate), ("status", coroutineStatus)]),
    ("io", [("lines", ioLines), ("open", ioOpen), ("read", ioRead), ("type", ioType),
      ("write", ioWrite)]),
    ("math", [("abs", mathAbs), ("ceil", mathCeil), ("floor", mathFloor), ("fmod", mathFmod),
      ("max", mathMax), ("min", mathMin), ("sqrt", mathSqrt), ("tointeger", mathTointeger),
      ("type", mathType)]),
    ("os", []),
    ("string", [("byte", stringByte), ("char", stringChar), ("find", stringFind),
      ("format", stringFormat), ("gmatch", stringGmatch), ("gsub", stringGsub),
      ("len", stringLen), ("lower", stringLower), ("match", stringMatch), ("rep", stringRep),
      ("reverse", stringReverse), ("sub", stringSub), ("upper", stringUpper)]),
    ("table", [("concat", tableConcat), ("insert", tableInsert), ("pack", tablePack),
      ("remove", tableRemove), ("sort", tableSort), ("unpack", tableUnpack)]),
    ("utf8", [])]

/-- The metamethods of strings. -/
def stringMetamethods : List (String × LibraryFunction) :=
  [("__add", stringArithmetic .add), ("__sub", stringArithmetic .sub),
    ("__mul", stringArithmetic .mul), ("__div", stringArithmetic .div),
    ("__mod", stringArithmetic .mod), ("__pow", stringArithmetic .pow),
    ("__idiv", stringArithmetic .floorDiv), ("__unm", stringNegate)]

/-- The methods of streams. -/
def streamMethods : List (String × LibraryFunction) :=
  [("close", streamClose), ("flush", streamFlush), ("lines", streamLines), ("read", streamRead),
    ("write", streamWrite)]

/-- The methods of open files. -/
def fileMethods : List (String × LibraryFunction) :=
  [("close", fileClose), ("lines", fileLines), ("read", fileRead)]

/-- The name under which the library holds a function. -/
def name (f : LibraryFunction) : String :=
  match globals.find? (·.2 = f) with
  | some (n, _) => n
  | none =>
    match tables.findSome? fun t => (t.2.find? (·.2 = f)).map fun e => t.1 ++ "." ++ e.1 with
    | some n => n
    | none => "?"

end LibraryFunction

/-! ## Calls -/

/-- What calling a value does, functions of the host apart: a closure runs its body, and what is no
function is called through its metamethod. -/
def callBody (h : Heap) (r : RuntimeRef) (f : Value) (args : List Value) (sites : CallSites) :
    Program (List Value) :=
  match f with
  | .func g =>
    match h.function? g with
    | none => return []
    | some ⟨r, code⟩ =>
      let c : LibraryCall := ⟨r, sites, "?", args⟩
      match code with
      | .closure p captures => runClosure r p captures args sites
      | .library f => f.run { c with name := f.name }
      | .host _ => return []
      | .propertyGet t => c.propertyGet t
      | .propertySet t => c.propertySet t
      | .propertyLength t => c.propertyLength t
      | .bindKey hooks => c.bindKey hooks
      | .getAlias => c.getAlias
      | .setAlias => c.setAlias
      | .lines source formats => c.linesStep source formats
      | .gmatch s p position => c.gmatchStep s p position
  | f => do
    let here : Here := ⟨r, sites⟩
    let handler ← metamethod r f "call"
    if handler.isNil then
      let name? :=
        match sites.head? with
        | some (.guest _ _ callee? _) => callee?
        | _ => none
      here.failType "call" f name?
    else Program.callValue handler (f :: args) sites

/-! ## A new runtime -/

/-- Adds the functions of a list to a table. -/
def addFunctions (r : RuntimeRef) (t : TableRef) (fs : List (String × LibraryFunction))
    (h : Heap) : Heap :=
  fs.foldl (fun h e =>
    let (f, h) := h.addFunction ⟨r, .library e.2⟩
    h.setField t e.1 (.func f)) h

/-- Adds a metatable that guests cannot get at, for objects of a type. -/
def addObjectType (r : RuntimeRef) (name : String) (methods : List (String × LibraryFunction))
    (text? : Option LibraryFunction) (h : Heap) : TableRef × Heap :=
  let (m, h) := h.addTable {}
  let h := h.setField m "__name" (.text name)
  let h := h.setField m "__metatable" (.bool false)
  let h :=
    match text? with
    | some f => addFunctions r m [("__tostring", f)] h
    | none => h
  if methods.isEmpty then (m, h)
  else
    let (t, h) := h.addTable {}
    (m, (addFunctions r t methods h).setField m "__index" (.table t))

/-- The numbers that the library has besides its functions. -/
def mathConstants : List (String × Value) :=
  [("huge", .num floatInfinity), ("maxinteger", .int Int64.maxValue),
    ("mininteger", .int Int64.minValue), ("pi", .num 3.141592653589793)]

/-- Adds the table of the global variables, with the functions that are such. -/
def addGlobals (r : RuntimeRef) (h : Heap) : TableRef × Heap :=
  let (globals, h) := h.addTable {}
  let h := addFunctions r globals LibraryFunction.globals h
  let h := h.setField globals "_G" (.table globals)
  (globals, h.setField globals "_VERSION" (.text "Lua 5.4"))

/-- Adds the table of all libraries. -/
def addLoaded (globals : TableRef) (h : Heap) : TableRef × Heap :=
  let (loaded, h) := h.addTable {}
  (loaded, h.setField loaded "_G" (.table globals))

/-- Adds a library in a table of its own. -/
def addLibrary (r : RuntimeRef) (globals loaded : TableRef) (h : Heap)
    (e : String × List (String × LibraryFunction)) : Heap :=
  let (t, h) := h.addTable {}
  let h := addFunctions r t e.2 h
  let h := if e.1 = "math" then mathConstants.foldl (fun h c => h.setField t c.1 c.2) h else h
  (h.setField globals e.1 (.table t)).setField loaded e.1 (.table t)

/-- Adds the library that tells which libraries there are. -/
def addPackage (globals loaded : TableRef) (h : Heap) : Heap :=
  let (package, h) := h.addTable {}
  let h := h.setField package "loaded" (.table loaded)
  let h := h.setField globals "package" (.table package)
  h.setField loaded "package" (.table package)

/-- Adds the metatable of strings. -/
def addStrings (r : RuntimeRef) (globals : TableRef) (h : Heap) : TableRef × Heap :=
  let (strings, h) := h.addTable {}
  let h := h.setField strings "__index" (h.field globals "string")
  (strings, addFunctions r strings LibraryFunction.stringMetamethods h)

/-- Adds a runtime with its library, in the place `r`. -/
def addRuntime (r : RuntimeRef) (h : Heap) : Runtime × Heap :=
  let (globals, h) := addGlobals r h
  let (loaded, h) := addLoaded globals h
  let h := LibraryFunction.tables.foldl (addLibrary r globals loaded) h
  let h := addPackage globals loaded h
  let (strings, h) := addStrings r globals h
  let (streams, h) :=
    addObjectType r "StreamProxy" LibraryFunction.streamMethods (some .streamText) h
  let (files, h) := addObjectType r "FILE*" LibraryFunction.fileMethods (some .fileText) h
  let (handles, h) := addObjectType r "HandleData" [] none h
  let (failures, h) := addObjectType r "error" [] (some .failureText) h
  (⟨globals, strings, streams, files, handles, failures, loaded⟩, h)

end ScriptShell.Guest
