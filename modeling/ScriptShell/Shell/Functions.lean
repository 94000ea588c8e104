import ScriptShell.Bridge
import ScriptShell.Tool.Run

/-! # Functions that the shell offers

The functions of the capability table that are the shell's own: `exec` and `eval` run a program with
the shell's variables, and `getcwd` and `chdir` are about the working directory.  A function that
cannot do its work returns `nil` and a message. -/

namespace ScriptShell.Shell

/-- What a function returns that cannot do its work. -/
def refusal (message : String) : List HostValue := [.nil, .error message]

/-- The words of a command, from one line or from separate words. -/
def commandWords (name : String) (args : List HostValue) : Except String (List String) :=
  match args.mapM HostValue.toText with
  | .error e => .error e.message
  | .ok words =>
    let words :=
      match words with
      | [line] => Words.split line
      | words => words
    if words.isEmpty then .error (name ++ ": missing command") else .ok words

/-- Whether the invocation that a call belongs to is cancelled. -/
def isCancelled (c : HostCall) : Program Bool :=
  match c.context? with
  | some context => Program.ask (.isCancelled context.signal)
  | none => return false

/-- Runs a program with the shell's variables. -/
def runWords (words : List String) : Program (Except IoError ToolResult) := do
  let vars := (← Program.ask .host).collections.env.vars
  match startTool (← Program.ask .files) vars words with
  | .ok (tool, call) => return .ok (runTool tool call)
  | .error e => return .error e

/-- Runs the words of a call, unless the invocation is cancelled, and reads the result. -/
def withResult (name : String) (c : HostCall)
    (f : ToolResult → Program (List HostValue)) : Program (List HostValue) := do
  match commandWords name c.args with
  | .error message => return refusal message
  | .ok words =>
    if ← isCancelled c then return refusal "interrupted"
    match ← runWords words with
    | .ok result => f result
    | .error e => return refusal (words.headD "" ++ ": " ++ e.message)

/-- `exec`: runs a program, copies what it writes to the pipes of the call, and returns its status,
or minus one if a signal ended it. -/
def exec : HostCode := fun _ c =>
  withResult "exec" c fun result => do
    Program.ask (.write c.io.stdout result.stdout)
    Program.ask (.write c.io.stderr result.stderr)
    return [.ofInt ((result.status?.map Int.ofNat).getD (-1))]

/-- The most bytes that `eval` keeps. -/
def evalLimit : Nat := 0x100000

/-- How many bytes are copied at a time. -/
def pieceSize : Nat := 8192

/-- Writes bytes to a pipe piece by piece; `n` bounds the number of pieces. -/
def copyPieces : Nat → Bytes → Pipe → Pipe
  | 0, _, p => p
  | n + 1, b, p =>
    if b.isEmpty then p else copyPieces n (b.drop pieceSize) (p.write (b.take pieceSize))

/-- What `eval` keeps of a program's output. -/
def captured (output : Bytes) : Pipe :=
  copyPieces (output.length / pieceSize + 1) output { limit? := some evalLimit }

/-- `eval`: runs a program and returns what it writes, without line breaks at the end.  Its error
output goes to that of the process. -/
def eval : HostCode := fun _ c =>
  withResult "eval" c fun result => do
    Program.ask (.write (← Program.ask .processIo).stderr result.stderr)
    return [.text (trimLineBreaks (captured result.stdout).text)]

/-- `getcwd`: the working directory. -/
def getcwd : HostCode := fun _ _ => do
  return [.text (← Program.ask .files).workingDirectory]

/-- `chdir`: makes another directory the working directory. -/
def chdir : HostCode := fun _ c => do
  match c.args.head?.bind HostValue.asText? with
  | none => return refusal "chdir: expected a directory name"
  | some dir =>
    match ← Program.ask (.changeDirectory dir) with
    | .ok () => return [.bool true]
    | .error e => return refusal (dir ++ ": " ++ e.message)

end ScriptShell.Shell
