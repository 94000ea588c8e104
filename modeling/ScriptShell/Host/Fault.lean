import ScriptShell.Host.Value

/-! # Faults

What can go wrong at the boundary, by cause.  A `MarshalError` is a value that cannot cross, a
`PropertyError` a refused write, a `Failure` an error raised inside a guest runtime by the host's
side, a `BridgeError` what a caller of a session sees, and a `Fatal` what ends the shell.  Each has
one function `message` with its wording. -/

namespace ScriptShell

/-- Why an operation on a file or a directory failed. -/
inductive IoError where
  /-- There is no such file. -/
  | notFound
  /-- The file may not be used in this way. -/
  | permissionDenied
  /-- A directory stands where a file is needed. -/
  | isDirectory
  /-- A file stands where a directory is needed. -/
  | notDirectory
  /-- The content is not UTF-8. -/
  | invalidData
  /-- A file name holds a null character. -/
  | nullInName
  /-- A word of a command holds a null character. -/
  | nullInWord
  /-- The names in a directory may not be read. -/
  | unlistable (path : String)
  deriving DecidableEq, Repr, Inhabited

namespace IoError

/-- The wording of the error. -/
def message : IoError → String
  | notFound => "No such file or directory (os error 2)"
  | permissionDenied => "Permission denied (os error 13)"
  | isDirectory => "Is a directory (os error 21)"
  | notDirectory => "Not a directory (os error 20)"
  | invalidData => "stream did not contain valid UTF-8"
  | nullInName => "file name contained an unexpected NUL byte"
  | nullInWord => "nul byte found in provided data"
  | unlistable path =>
    "attempting to read \x60" ++ path ++
      "\x60 resulted in an error: Permission denied (os error 13)"

/-- The kind of the error in words. -/
def kind : IoError → String
  | notFound => "entity not found"
  | permissionDenied | unlistable _ => "permission denied"
  | isDirectory => "is a directory"
  | notDirectory => "not a directory"
  | invalidData => "invalid data"
  | nullInName | nullInWord => "invalid input parameter"

/-- The number that the system gives to the error. -/
def code : IoError → Nat
  | notFound => 2
  | permissionDenied | unlistable _ => 13
  | isDirectory => 21
  | notDirectory => 20
  | invalidData | nullInName | nullInWord => 22

/-- The wording without the number. -/
def reason : IoError → String
  | notFound => "No such file or directory"
  | permissionDenied => "Permission denied"
  | isDirectory => "Is a directory"
  | notDirectory => "Not a directory"
  | e => e.message

end IoError

/-- A write that was refused. -/
structure PropertyError where
  /-- The property or the key written to. -/
  name : String
  /-- Why the write was refused. -/
  reason : String
  deriving DecidableEq, Repr, Inhabited

/-- The wording: what was written to, and why that was refused. -/
def PropertyError.message (e : PropertyError) : String := e.name ++ ": " ++ e.reason

mutual

/-- Why a value could not cross the boundary. -/
inductive MarshalError where
  /-- A guest value of a type that the host has no kind for. -/
  | unsupportedGuest (type : String)
  /-- A guest object that is no handle of the host. -/
  | foreignUserData
  /-- A map with a key that is no value. -/
  | nilKey
  /-- A value of another kind than the declared one. -/
  | kind (expected found : String)
  /-- A number outside the range of the declared type. -/
  | outOfRange (value : Int64) (target : String)
  /-- Tables inside tables, more than `limit` deep. -/
  | tooDeep (limit : Nat)
  /-- An error of the guest runtime on the way. -/
  | guest (cause : Failure)

/-- An error that the host's side raises inside a guest runtime. -/
inductive Failure where
  /-- A guest error as text. -/
  | runtime (message : String)
  /-- Source that is no program. -/
  | malformed (message : String)
  /-- A value that could not cross. -/
  | marshal (cause : MarshalError)
  /-- A refused write. -/
  | property (cause : PropertyError)
  /-- A guest value that a function of the host cannot take. -/
  | conversion (found wanted : String) (detail : Option String)
  /-- An argument that a function of the host cannot take. -/
  | argument (function : Option String) (position : Nat) (name : Option String) (cause : Failure)
  /-- Any other error, by its wording. -/
  | other (message : String)
  /-- An error that came out of a function of the host. -/
  | callback (cause : Failure)

end

instance : Inhabited MarshalError := ⟨.nilKey⟩
instance : Inhabited Failure := ⟨.runtime ""⟩

/-- What stands after an error that left the guest.  The runtime names no frames of the host but
the outermost. -/
def traceback : String := "stack traceback:\n\t[C]: in ?"

mutual

/-- The wording of a marshalling error. -/
def MarshalError.message : MarshalError → String
  | .unsupportedGuest type => "unsupported guest value of type " ++ type
  | .foreignUserData => "userdata is not a host handle"
  | .nilKey => "table key cannot be nil"
  | .kind expected found => "expected " ++ expected ++ ", found " ++ found
  | .outOfRange value target => s!"integer {value} out of range for " ++ target
  | .tooDeep limit => s!"table nesting exceeds {limit} levels"
  | .guest cause => "guest runtime error: " ++ cause.plain
termination_by structural e => e

/-- The wording of an error inside a runtime, whatever functions of the host it came through. -/
def Failure.plain : Failure → String
  | .callback cause => cause.plain
  | .runtime message => "runtime error: " ++ message
  | .malformed message => "syntax error: " ++ message
  | .marshal cause => cause.message
  | .property cause => cause.message
  | .conversion found wanted detail =>
    "error converting Lua " ++ found ++ " to " ++ wanted ++
      (match detail with
        | some d => " (" ++ d ++ ")"
        | none => "")
  | .argument function position name cause =>
    "bad argument " ++
      (match name with
        | some n => "`" ++ n ++ "`"
        | none => s!"#{position}") ++
      (match function with
        | some f => " to `" ++ f ++ "`"
        | none => "") ++ ": " ++ cause.plain
  | .other message => message
termination_by structural e => e

end

/-- The wording of a failure.  One that came out of a function of the host is followed by the place
where that happened. -/
def Failure.message : Failure → String
  | .callback cause => cause.plain ++ "\n" ++ traceback ++ "\n"
  | f => f.plain

/-- The text that stands for a failure once it has become a host value: callbacks are looked
through, and a guest's own error gives its bare text. -/
def Failure.bareMessage : Failure → String
  | .callback cause => cause.bareMessage
  | .runtime message => message
  | f => f.message

/-- What a caller of a session sees. -/
inductive BridgeError where
  /-- A value could not cross. -/
  | marshal (cause : MarshalError)
  /-- A guest raised an error. -/
  | runtime (message : String)
  /-- A write was refused. -/
  | property (cause : PropertyError)
  /-- The shell has no script session. -/
  | notSupported (what : String)
  /-- The session is closed. -/
  | closed
  /-- The operation was cancelled. -/
  | cancelled
  /-- A file could not be used. -/
  | io (cause : IoError)
  /-- The configuration is not valid. -/
  | config (message : String)
  deriving Inhabited

namespace BridgeError

/-- The wording of the error. -/
def message : BridgeError → String
  | marshal cause => "marshalling error: " ++ cause.message
  | runtime message => "script error: " ++ message
  | property cause => "property error: " ++ cause.message
  | notSupported what => "script is not supported: " ++ what
  | closed => "session is closed"
  | cancelled => "operation cancelled"
  | io cause => "IO error: " ++ cause.message
  | config message => "invalid configuration: " ++ message

/-- Whether a guest raised the error. -/
def isRuntime : BridgeError → Bool
  | runtime _ => true
  | _ => false

/-- A failure inside a runtime, as the caller of the session sees it. -/
def ofFailure (f : Failure) : BridgeError := .runtime f.message

end BridgeError

/-- An error that ends a run: what was to be done, and the causes. -/
structure Fatal where
  /-- What was to be done. -/
  activity : String
  /-- The causes, each that of the one before it. -/
  causes : List String
  deriving DecidableEq, Repr, Inhabited

namespace Fatal

/-- The wording of the error, on one line with its causes. -/
def message (f : Fatal) : String := ": ".intercalate (f.activity :: f.causes)

/-- The error as it is printed when the program ends.  Several causes are numbered. -/
def text (f : Fatal) : String :=
  let causes :=
    match f.causes with
    | [cause] => ["    " ++ cause]
    | causes => causes.zipIdx.map fun e => s!"    {e.2}: " ++ e.1
  "Error: " ++ f.activity ++ "\n" ++
    (if causes.isEmpty then "" else "\nCaused by:\n" ++ "\n".intercalate causes ++ "\n")

end Fatal

/-! ## Diagnostic text -/

namespace PropertyError

/-- The error for diagnostics. -/
def debugText (e : PropertyError) : String :=
  Quoted.record "PropertyError"
    [("name", Quoted.ofText e.name), ("reason", Quoted.ofText e.reason)] false

end PropertyError

mutual

/-- A marshalling error for diagnostics. -/
def MarshalError.debugText : MarshalError → String
  | .unsupportedGuest type => Quoted.call "UnsupportedGuest" [Quoted.ofText type]
  | .foreignUserData => "ForeignUserData"
  | .nilKey => "NilKey"
  | .kind expected found =>
    Quoted.record "Kind"
      [("expected", Quoted.ofText expected), ("found", Quoted.ofText found)] false
  | .outOfRange value target =>
    Quoted.record "OutOfRange"
      [("value", toString value), ("target", Quoted.ofText target)] false
  | .tooDeep limit => Quoted.call "TooDeep" [toString limit]
  | .guest cause => Quoted.call "Lua" [cause.debugText]
termination_by structural e => e

/-- A failure for diagnostics. -/
def Failure.debugText : Failure → String
  | .runtime message => Quoted.call "RuntimeError" [Quoted.ofText message]
  | .malformed message =>
    Quoted.record "SyntaxError"
      [("message", Quoted.ofText message), ("incomplete_input", "false")] false
  | .marshal cause => Quoted.call "ExternalError" [cause.debugText]
  | .property cause => Quoted.call "ExternalError" [cause.debugText]
  | .conversion found wanted detail =>
    Quoted.record "FromLuaConversionError"
      [("from", Quoted.ofText found), ("to", Quoted.ofText wanted),
        ("message", Quoted.ofOption (detail.map Quoted.ofText))] false
  | .argument function position name cause =>
    Quoted.record "BadArgument"
      [("to", Quoted.ofOption (function.map Quoted.ofText)), ("pos", toString position),
        ("name", Quoted.ofOption (name.map Quoted.ofText)), ("cause", cause.debugText)] false
  | .other message => Quoted.call "ExternalError" [Quoted.ofText message]
  | .callback cause =>
    Quoted.record "CallbackError"
      [("traceback", Quoted.ofText traceback), ("cause", cause.debugText)] false
termination_by structural e => e

end

/-- The error for diagnostics. -/
def BridgeError.debugText : BridgeError → String
  | marshal cause => Quoted.call "Marshal" [cause.debugText]
  | runtime message => Quoted.call "Runtime" [Quoted.ofText message]
  | property cause => Quoted.call "Property" [cause.debugText]
  | notSupported what => Quoted.call "NotSupported" [Quoted.ofText what]
  | closed => "Closed"
  | cancelled => "Cancelled"
  | io cause => Quoted.call "Io" [cause.message]
  | config message => Quoted.call "Config" [Quoted.ofText message]

end ScriptShell
