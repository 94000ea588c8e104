import ScriptShell.Guest.Library.Basic
import ScriptShell.Marshal

/-! # Streams of the guest

The parts of the guest's `io` library that belong to the running command: `io.write`, `io.read`,
`io.lines` and `print` use the streams in the fields of `io`, or the process's own where a field
holds no stream.  Values are written one by one, so those before a faulty one are written; reading
stops after the first format that gives nothing.

Of the functions of `io` for files there are `io.open`, `io.lines` and `io.type`, and open files can
be read, not written; `io.close`, `io.flush`, `io.input`, `io.output`, `io.popen` and `io.tmpfile`
are missing. -/

namespace ScriptShell.Guest

/-- The name that host functions give to a value's type. -/
def hostTypeName (v : Value) : Program String := do
  match v with
  | .user u =>
    match ← Program.ask (.user u) with
    | .failure _ => return "error"
    | _ => return "userdata"
  | .int _ => return "integer"
  | .light _ => return "lightuserdata"
  | v => return v.typeName

/-- The failure to turn a value into what a host function needs. -/
def conversionOf (v : Value) (wanted : String) (detail : Option String) : Program Failure := do
  return .conversion (← hostTypeName v) wanted detail

/-- The pieces in which a value is written to a stream.  The sign of an integer is one of its own,
and there is none in an empty string. -/
def streamPieces? : Value → Option (List Bytes)
  | .str s => some (if s.isEmpty then [] else [s])
  | .int i =>
    let text := Utf8.encode (toString i)
    some (if i < 0 then [text.take 1, text.drop 1] else [text])
  | .num x => some [Utf8.encode (streamedNumber x)]
  | _ => none

/-- A read format.  Stars in front of its letter are skipped. -/
def readFormat (v : Value) : Program ReadFormat := do
  match v with
  | .int n => return .count n
  | .str s =>
    match Utf8.decode? s with
    | none =>
      raiseFailure (.conversion "string" "&str" ((Utf8.firstFault? s).map Utf8.Fault.message))
    | some text =>
      -- only the letter in front counts, whatever is behind it
      let spec := text.toList.dropWhile (· == '*')
      match spec with
      | 'l' :: _ => return .line false
      | 'L' :: _ => return .line true
      | 'a' :: _ => return .all
      | 'n' :: _ => return .number
      | _ =>
        raiseFailure
          (.runtime ("bad argument to 'read' (invalid format '" ++ String.ofList spec ++ "')"))
  | v =>
    raiseFailure
      (.runtime ("bad argument to 'read' (invalid format of type " ++ (← hostTypeName v) ++ ")"))

/-- What was read as a value. -/
def itemValue : ReadItem → Value
  | .absent => .nil
  | .bytes b => .str b
  | .int i => .int i
  | .num x => .num x

/-- Reads one item for each format, up to the first one that gives nothing. -/
def readItems (i : InputRef) : List Value → Program (List Value)
  | [] => return []
  | f :: rest => do
    let v := itemValue (← Program.ask (.read i (← readFormat f)))
    if v.isNil then return [v] else return v :: (← readItems i rest)

/-- Reads from a stream; a line if there is no format. -/
def readStream (s : Stream) (formats : List Value) : Program (List Value) := do
  match s.cancel? with
  | some signal =>
    if ← Program.ask (.isCancelled signal) then
      raiseFailure (.runtime StreamFault.interrupted.message)
  | none => pure ()
  match s.reader with
  | .error e => raiseFailure (.runtime e.message)
  | .ok i => readItems i (if formats.isEmpty then [.text "l"] else formats)

/-- Writes the pieces of a value. -/
def writePieces (o : OutputRef) : List Bytes → Program Unit
  | [] => return ()
  | s :: rest => do
    Program.ask (.write o s)
    writePieces o rest

/-- Writes values, of which the next one is at position `n`. -/
def writeItems (o : OutputRef) : Nat → List Value → Program Unit
  | _, [] => return ()
  | n, v :: rest => do
    match streamPieces? v with
    | some pieces =>
      writePieces o pieces
      writeItems o (n + 1) rest
    | none =>
      raiseFailure
        (.runtime (s!"bad argument #{n} to 'write' (string expected, got " ++
          (← hostTypeName v) ++ ")"))

/-- Writes to a stream. -/
def writeStream (s : Stream) (args : List Value) : Program Unit :=
  match s.writer with
  | .error e => raiseFailure (.runtime e.message)
  | .ok o => writeItems o 1 args

/-- The stream that an object is. -/
def streamOf (u : UserRef) : Program Stream := do
  match ← Program.ask (.user u) with
  | .stream s => return s
  | _ => raiseFailure (.other "userdata is not expected type")

namespace LibraryCall

/-- A global variable. -/
def global (c : LibraryCall) (name : String) : Program Value := do
  let globals := (← Program.ask (.runtime c.runtime)).globals
  viaHost c.here (c.here.index none (.table globals) (.text name))

/-- The stream in a field of `io`, or one of the process. -/
def currentStream (c : LibraryCall) (name : StreamName) : Program UserRef := do
  match ← c.global "io" with
  | .table io =>
    match (← Program.ask (.table io)).get (.text name.field) with
    | .user u =>
      match ← Program.ask (.user u) with
      | .stream _ => return u
      | _ => processStream
    | _ => processStream
  | v => raiseFailure (← conversionOf v "table" none)
where
  /-- A stream over the pipes of the process. -/
  processStream : Program UserRef := do
    Program.ask (.newUser (.stream (Stream.ofIo (← Program.ask .processIo) none name)))

/-- `io.write`. -/
def ioWrite (c : LibraryCall) : Program (List Value) := do
  let u ← c.currentStream .stdout
  writeStream (← streamOf u) c.args
  return [.user u]

/-- `io.read`. -/
def ioRead (c : LibraryCall) : Program (List Value) := do
  let u ← c.currentStream .stdin
  readStream (← streamOf u) c.args

/-- An iterator over a stream or an open file. -/
def linesOf (c : LibraryCall) (source : Value) (formats : List Value) : Program Value := do
  return .func (← Program.ask (.newFunction ⟨c.runtime, .lines source formats⟩))

/-- `print`: the values as `tostring` gives them, with tabs between them and a line break. -/
def print (c : LibraryCall) : Program (List Value) := do
  match ← c.global "tostring" with
  | .func f =>
    let texts ← Program.forAll (fun v => do
      let v := first (← viaHost c.here (Program.callValue (.func f) [v] c.here.sites))
      match Here.piece? v with
      | some s => return s
      | none => raiseFailure (← conversionOf v "string" (some "expected string or number"))) c.args
    let u ← c.currentStream .stdout
    writeStream (← streamOf u) [.str (List.intercalate [9] texts ++ [10])]
    return []
  | v => raiseFailure (← conversionOf v "function" none)

/-! ## Methods of streams -/

/-- The object of a method that takes any object. -/
def object (c : LibraryCall) (function : String) : Program UserRef := do
  let wrong := do
    let cause ← conversionOf (c.arg 1) "userdata" none
    raiseFailure (.argument (some function) 1 none cause)
  match c.arg 1 with
  | .user u =>
    match ← Program.ask (.user u) with
    | .failure _ => wrong
    | _ => return u
  | _ => wrong

/-- Raises the failure of a method whose object is no stream. -/
def failSelf {α : Type} (function : String) (cause : Failure) : Program α :=
  raiseFailure (.argument (some function) 1 (some "self") cause)

/-- The object of a method that takes a stream. -/
def self (c : LibraryCall) (function : String) : Program (UserRef × Stream) := do
  if c.args.isEmpty then failSelf function (.conversion "missing argument" "userdata" none)
  match c.arg 1 with
  | .user u =>
    match ← Program.ask (.user u) with
    | .stream s => return (u, s)
    | _ => failSelf function (.other "userdata is not expected type")
  | _ => failSelf function (.other "userdata is not expected type")

/-- The `write` method of a stream. -/
def streamWrite (c : LibraryCall) : Program (List Value) := do
  let u ← c.object "StreamProxy.write"
  writeStream (← streamOf u) (c.args.drop 1)
  return [.user u]

/-- The `flush` method of a stream. -/
def streamFlush (c : LibraryCall) : Program (List Value) := do
  let u ← c.object "StreamProxy.flush"
  match (← streamOf u).writer with
  | .ok _ => return [.user u]
  | .error e => raiseFailure (.runtime e.message)

/-- The `read` method of a stream. -/
def streamRead (c : LibraryCall) : Program (List Value) := do
  let (_, s) ← c.self "StreamProxy.read"
  readStream s (c.args.drop 1)

/-- The `lines` method of a stream. -/
def streamLines (c : LibraryCall) : Program (List Value) := do
  let u ← c.object "StreamProxy.lines"
  return [← c.linesOf (.user u) (c.args.drop 1)]

/-- The `close` method of a stream. -/
def streamClose (c : LibraryCall) : Program (List Value) := do
  let (u, s) ← c.self "StreamProxy.close"
  if s.pipe?.isNone then raiseFailure (.runtime StreamFault.closed.message)
  Program.ask (.closeUser u)
  return [.bool true]

/-- A stream as text. -/
def streamText (c : LibraryCall) : Program (List Value) := do
  let (_, s) ← c.self "StreamProxy.__tostring"
  return [.text s.text]

/-- A failure as text. -/
def failureText (c : LibraryCall) : Program (List Value) := do
  match c.arg 1 with
  | .user u =>
    match ← Program.ask (.user u) with
    | .failure f => return [.text f.message]
    | _ => return [.text "<unsupported>"]
  | _ => return [.text "<unsupported>"]

/-! ## Files -/

/-- The open file that an argument is. -/
def file (c : LibraryCall) (n : Nat) : Program (UserRef × OpenFile) := do
  match c.arg n with
  | .user u =>
    match ← Program.ask (.user u) with
    | .file f => return (u, f)
    | _ => c.failType n "FILE*"
  | _ => c.failType n "FILE*"

/-- A read format of an open file. -/
def fileFormat (c : LibraryCall) (n : Nat) : Program ReadFormat := do
  match c.arg n with
  | .int i => return .count i
  | .num _ => return .count (Int64.ofInt (← c.integer n))
  | _ =>
    let s ← c.string n
    match (if s.head? = some 42 then s.drop 1 else s) with
    | 108 :: _ => return .line false
    | 76 :: _ => return .line true
    | 97 :: _ => return .all
    | 110 :: _ => return .number
    | _ => c.failArgument n "invalid format"

/-- Reads `count` items from an open file, by the formats from position `n` on. -/
def readFile (c : LibraryCall) (u : UserRef) : Nat → Nat → Bytes → Program (List Value)
  | 0, _, _ => return []
  | count + 1, n, rest => do
    let (item, rest) := Reader.read (← c.fileFormat n) rest
    Program.ask (.setFileRest u rest)
    match item with
    | .absent => return [.nil]
    | item => return itemValue item :: (← readFile c u count (n + 1) rest)

/-- The `read` method of an open file. -/
def fileRead (c : LibraryCall) : Program (List Value) := do
  let (u, f) ← c.file 1
  match f.rest? with
  | none => c.fail "attempt to use a closed file"
  | some rest =>
    let c' := if c.args.length < 2 then { c with args := c.args ++ [.text "l"] } else c
    c'.readFile u (c'.args.length - 1) 2 rest

/-- The `close` method of an open file. -/
def fileClose (c : LibraryCall) : Program (List Value) := do
  let (u, f) ← c.file 1
  if f.rest?.isNone then c.fail "attempt to use a closed file"
  Program.ask (.closeUser u)
  return [.bool true]

/-- The `lines` method of an open file. -/
def fileLines (c : LibraryCall) : Program (List Value) := do
  let (u, f) ← c.file 1
  if f.rest?.isNone then c.fail "attempt to use a closed file"
  return [← c.linesOf (.user u) (c.args.drop 1)]

/-- An open file as text. -/
def fileText (c : LibraryCall) : Program (List Value) := do
  let (u, f) ← c.file 1
  return [.text (if f.rest?.isNone then "file (closed)"
    else "file (" ++ Here.addressText (Here.placeOf (.user u)) ++ ")")]

/-- The next item of an iterator. -/
def linesStep (c : LibraryCall) (source : Value) (formats : List Value) :
    Program (List Value) := do
  match source with
  | .user u =>
    match ← Program.ask (.user u) with
    | .file f =>
      match f.rest? with
      | none => c.fail "file is already closed"
      | some rest =>
        let formats := if formats.isEmpty then [.text "l"] else formats
        { c with args := source :: formats }.readFile u formats.length 2 rest
    | _ => do
      let vs ← readStream (← streamOf u) formats
      -- one item for each step, however many formats there are
      return [first vs]
  | _ => raiseFailure (.other "userdata is not expected type")

/-- `io.open`, for reading. -/
def ioOpen (c : LibraryCall) : Program (List Value) := do
  let path := Utf8.decodeLossy (← c.string 1)
  let mode ← if (c.arg 2).isNil then pure [114] else c.string 2
  let refused := fun e : IoError =>
    [Value.nil, .text (path ++ ": " ++ e.reason), .int (Int64.ofNat e.code)]
  match mode.filter (· != 98) with
  | [114] =>
    match (← Program.ask .files).openAt path with
    | .error e => return refused e
    | .ok (_, .file content) => return [.user (← Program.ask (.newUser (.file ⟨some content⟩)))]
    | .ok _ => return [.user (← Program.ask (.newUser (.file ⟨some []⟩)))]
  | [119] | [97] | [114, 43] | [119, 43] | [97, 43] => return refused .permissionDenied
  | _ => c.failArgument 2 "invalid mode"

/-- `io.type`. -/
def ioType (c : LibraryCall) : Program (List Value) := do
  match ← c.any 1 with
  | .user u =>
    match ← Program.ask (.user u) with
    | .file ⟨some _⟩ => return [.text "file"]
    | .file ⟨none⟩ => return [.text "closed file"]
    | _ => return [.nil]
  | _ => return [.nil]

/-- The lines of a file by its name. -/
def namedLines (c : LibraryCall) : Program (List Value) := do
  let path := Utf8.decodeLossy (← c.string 1)
  match (← Program.ask .files).openAt path with
  | .error e => c.fail ("cannot open file '" ++ path ++ "' (" ++ e.reason ++ ")")
  | .ok (_, entry) =>
    let content :=
      match entry with
      | .file content => content
      | _ => []
    let u ← Program.ask (.newUser (.file ⟨some content⟩))
    return [← c.linesOf (.user u) (c.args.drop 1), .nil, .nil, .user u]

/-- `io.lines`: of a file by its name, or of the input. -/
def ioLines (c : LibraryCall) : Program (List Value) := do
  if !(c.arg 1).isNil then
    viaHost c.here { c with sites := c.here.sites, name := "?" }.namedLines
  else
    let u ← c.currentStream .stdin
    return [← c.linesOf (.user u) (c.args.drop 1)]

end LibraryCall
end ScriptShell.Guest
