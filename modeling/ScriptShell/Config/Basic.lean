import ScriptShell.Config.Json
import ScriptShell.Files

/-! # Configuration

What all sessions of a process share.  A configuration is read from a JSON object whose missing
fields take their defaults, or from a JSON array of the fields in order, and is printed as an
object with all fields.  `validate` asks that the capability table can be a global of the guest. -/

namespace ScriptShell

/-- The configuration of a bridge. -/
structure Config where
  /-- The global that holds the capability table. -/
  namespaceName : String := "moonsh"
  /-- Directories whose scripts run at startup. -/
  scriptDirs : List String := []
  /-- Scripts that run at startup after those. -/
  startupFiles : List String := []
  /-- Whether any scripts run at startup. -/
  loadStartup : Bool := true
  /-- Milliseconds after which a hook counts as slow; zero means never. -/
  slowHookThreshold : Nat := 500
  deriving DecidableEq, Repr, Inhabited

namespace Config

/-- A letter of ASCII or an underscore. -/
def startsName (c : Char) : Bool := c.isAlpha || c == '_'

/-- A letter or a digit of ASCII or an underscore. -/
def continuesName (c : Char) : Bool := c.isAlphanum || c == '_'

/-- Whether a text is spelled like a name of the guest language. -/
def isIdentifier (s : String) : Bool :=
  match s.toList with
  | [] => false
  | c :: cs => startsName c && cs.all continuesName

/-- What is wrong with the configuration, if anything. -/
def validate (c : Config) : Except BridgeError Unit :=
  if isIdentifier c.namespaceName then .ok ()
  else .error
    (.config ("namespace " ++ Quoted.ofText c.namespaceName ++ " is not a valid identifier"))

/-! ## From JSON -/

/-- A string that names a text. -/
def textOf? : Json → Option String
  | .string s => s
  | _ => none

/-- An array of strings. -/
def textsOf? : Json → Option (List String)
  | .array items => items.mapM textOf?
  | _ => none

/-- A truth value. -/
def flagOf? : Json → Option Bool
  | .bool b => some b
  | _ => none

/-- A whole number of at most 64 bits, spelled in digits only. -/
def countOf? : Json → Option Nat
  | .number cs =>
    if cs.all Char.isDigit then
      let n := cs.foldl (fun n c => n * 10 + (c.toNat - '0'.toNat)) 0
      if n < 0x10000000000000000 then some n else none
    else none
  | _ => none

/-- The fields of a configuration, as they are spelled. -/
inductive Field where
  /-- The name of the capability table. -/
  | namespaceName
  /-- The directories of scripts. -/
  | scriptDirs
  /-- The startup scripts. -/
  | startupFiles
  /-- Whether scripts run at startup. -/
  | loadStartup
  /-- The time after which a hook is slow. -/
  | slowHookThreshold
  deriving DecidableEq, Repr

namespace Field

/-- All fields, in the order of an array. -/
def all : List Field := [namespaceName, scriptDirs, startupFiles, loadStartup, slowHookThreshold]

/-- The name of a field. -/
def key : Field → String
  | namespaceName => "namespace"
  | scriptDirs => "script_dirs"
  | startupFiles => "startup_files"
  | loadStartup => "load_startup"
  | slowHookThreshold => "slow_hook_threshold"

/-- The field of a name. -/
def ofKey? (name : String) : Option Field := all.find? (·.key == name)

end Field

/-- Sets one field from its JSON value. -/
def setField? (c : Config) (field : Field) (v : Json) : Option Config :=
  match field with
  | .namespaceName => (textOf? v).map fun s => { c with namespaceName := s }
  | .scriptDirs => (textsOf? v).map fun s => { c with scriptDirs := s }
  | .startupFiles => (textsOf? v).map fun s => { c with startupFiles := s }
  | .loadStartup => (flagOf? v).map fun b => { c with loadStartup := b }
  | .slowHookThreshold => (countOf? v).map fun n => { c with slowHookThreshold := n }

/-- Sets fields by name.  Names have to be texts, unknown ones are skipped, and a field may come only
once. -/
def setMembers? (c : Config) (seen : List Field) : List (Option String × Json) → Option Config
  | [] => some c
  | (none, _) :: _ => none
  | (some name, v) :: rest =>
    match Field.ofKey? name with
    | none => setMembers? c seen rest
    | some field =>
      if seen.contains field then none
      else
        match setField? c field v with
        | some c => setMembers? c (field :: seen) rest
        | none => none

/-- Sets fields by position. -/
def setItems? (c : Config) : List Field → List Json → Option Config
  | _, [] => some c
  | [], _ :: _ => none
  | field :: fields, v :: rest =>
    match setField? c field v with
    | some c => setItems? c fields rest
    | none => none

/-- The configuration that a JSON value describes. -/
def ofJson? : Json → Option Config
  | .object members => setMembers? {} [] members
  | .array items => setItems? {} Field.all items
  | _ => none

/-- The configuration in the content of a file. -/
def ofBytes (path : String) (content : Bytes) : Except BridgeError Config :=
  match Utf8.decode? content with
  | none => .error (.io .invalidData)
  | some text =>
    match (Json.parse? text).bind ofJson? with
    | none => .error (.config (path ++ ": malformed configuration"))
    | some c =>
      match c.validate with
      | .ok () => .ok c
      | .error e => .error e

/-- Reads a configuration file. -/
def read (files : Files) (path : String) : Except BridgeError Config :=
  match files.read path with
  | .error e => .error (.io e)
  | .ok content => ofBytes path content

/-! ## To JSON -/

/-- A printed field: a value on one line, or the items of an array. -/
inductive Printed where
  /-- A value on one line. -/
  | one (s : String)
  /-- The items of an array. -/
  | many (items : List String)

/-- The fields with their printed values. -/
def printed (c : Config) : List (String × Printed) :=
  [(Field.namespaceName.key, .one (Json.quote c.namespaceName)),
    (Field.scriptDirs.key, .many (c.scriptDirs.map Json.quote)),
    (Field.startupFiles.key, .many (c.startupFiles.map Json.quote)),
    (Field.loadStartup.key, .one (toString c.loadStartup)),
    (Field.slowHookThreshold.key, .one (toString c.slowHookThreshold))]

/-- The configuration on one line, without blanks. -/
def compact (c : Config) : String :=
  "\x7b" ++ ",".intercalate (c.printed.map fun f =>
    Json.quote f.1 ++ ":" ++
      (match f.2 with
        | .one s => s
        | .many items => "[" ++ ",".intercalate items ++ "]")) ++ "\x7d"

/-- The configuration with one field or item on each line, two blanks further in at each level. -/
def pretty (c : Config) : String :=
  "\x7b\n" ++ ",\n".intercalate (c.printed.map fun f =>
    "  " ++ Json.quote f.1 ++ ": " ++
      (match f.2 with
        | .one s => s
        | .many [] => "[]"
        | .many items =>
          "[\n" ++ ",\n".intercalate (items.map ("    " ++ ·)) ++ "\n  ]")) ++ "\n\x7d"

/-- The configuration for diagnostics. -/
def debugText (c : Config) : String :=
  Quoted.record "BridgeConfig"
    [("namespace", Quoted.ofText c.namespaceName),
      ("script_dirs", Quoted.list (c.scriptDirs.map Quoted.ofText)),
      ("startup_files", Quoted.list (c.startupFiles.map Quoted.ofText)),
      ("load_startup", toString c.loadStartup),
      ("slow_hook_threshold", debugMillis c.slowHookThreshold)] false
where
  /-- A time in milliseconds, in seconds from one second on. -/
  debugMillis (n : Nat) : String :=
    if n < 1000 then s!"{n}ms"
    else if n % 1000 = 0 then s!"{n / 1000}s"
    else
      let fraction := Nat.toDigits 10 (n % 1000)
      let fraction := List.replicate (3 - fraction.length) '0' ++ fraction
      let fraction := (fraction.reverse.dropWhile (· == '0')).reverse
      s!"{n / 1000}." ++ String.ofList fraction ++ "s"

end Config
end ScriptShell
