import ScriptShell.Pipe
import ScriptShell.Text.Quoted
import ScriptShell.Reader
import ScriptShell.Signal

/-! # Streams

A command has one input and two outputs.  A guest reaches them through streams, which last for one
invocation: a stream that has been closed has lost its pipe and never gets it back.  Reading fails
once the signal of the invocation is cancelled. -/

namespace ScriptShell

/-- An input, by its place. -/
structure InputRef where
  /-- Its place. -/
  id : Nat
  deriving DecidableEq, Repr, Inhabited

/-- An output, by its place. -/
structure OutputRef where
  /-- Its place. -/
  id : Nat
  deriving DecidableEq, Repr, Inhabited

/-- The signal of the command that runs now, by the place where it is kept. -/
structure InterruptRef where
  /-- Its place. -/
  id : Nat
  deriving DecidableEq, Repr, Inhabited

/-- An input: what has not been read yet, and what fires when an interrupt character is read. -/
structure Input where
  /-- The bytes that are left. -/
  rest : Bytes := []
  /-- What an interrupt character fires. -/
  interrupt? : Option InterruptRef := none
  deriving Inhabited

/-- The byte that a terminal sends to interrupt a command. -/
def interruptByte : UInt8 := 3

/-- The pipes of one command. -/
structure CommandIo where
  /-- Its input. -/
  stdin : InputRef
  /-- Its output. -/
  stdout : OutputRef
  /-- Its error output. -/
  stderr : OutputRef
  deriving DecidableEq, Repr, Inhabited

namespace CommandIo

/-- The pipes for diagnostics. -/
def debugText (_ : CommandIo) : String := Quoted.record "CommandIo" [] true

end CommandIo

/-- The three standard streams. -/
inductive StreamName where
  /-- The input. -/
  | stdin
  /-- The output. -/
  | stdout
  /-- The error output. -/
  | stderr
  deriving DecidableEq, Repr, Inhabited

namespace StreamName

/-- All three streams. -/
def all : List StreamName := [stdin, stdout, stderr]

/-- The field of the guest's `io` table that holds the stream. -/
def field : StreamName → String
  | stdin => "stdin"
  | stdout => "stdout"
  | stderr => "stderr"

/-- The stream of a field. -/
def ofField? (name : String) : Option StreamName := all.find? (·.field == name)

end StreamName

/-- One side of a pipe. -/
inductive PipeEnd where
  /-- The side to read from. -/
  | input (i : InputRef)
  /-- The side to write to. -/
  | output (o : OutputRef)
  deriving DecidableEq, Repr, Inhabited

/-- A guest's stream. -/
structure Stream where
  /-- Which stream it is. -/
  name : StreamName
  /-- Its pipe, until it is closed. -/
  pipe? : Option PipeEnd
  /-- The signal that stops reading. -/
  cancel? : Option Signal := none
  deriving Inhabited

/-- Why a stream cannot be used. -/
inductive StreamFault where
  /-- It has been closed. -/
  | closed
  /-- It is an output. -/
  | notReadable (name : StreamName)
  /-- It is the input. -/
  | notWritable (name : StreamName)
  /-- The invocation was cancelled. -/
  | interrupted
  deriving DecidableEq, Repr

/-- The fault in words. -/
def StreamFault.message : StreamFault → String
  | closed => "attempt to use a closed file"
  | notReadable name => name.field ++ " is not readable"
  | notWritable name => name.field ++ " is not writable"
  | interrupted => "interrupted"

namespace Stream

/-- The stream of a command's pipe. -/
def ofIo (io : CommandIo) (cancel? : Option Signal) : StreamName → Stream
  | .stdin => { name := .stdin, pipe? := some (.input io.stdin), cancel? := cancel? }
  | .stdout => { name := .stdout, pipe? := some (.output io.stdout) }
  | .stderr => { name := .stderr, pipe? := some (.output io.stderr) }

/-- The input to read from. -/
def reader (s : Stream) : Except StreamFault InputRef :=
  match s.pipe? with
  | some (.input i) => .ok i
  | some (.output _) => .error (.notReadable s.name)
  | none => .error .closed

/-- The output to write to. -/
def writer (s : Stream) : Except StreamFault OutputRef :=
  match s.pipe? with
  | some (.output o) => .ok o
  | some (.input _) => .error (.notWritable s.name)
  | none => .error .closed

/-- The stream without its pipe. -/
def close (s : Stream) : Stream := { s with pipe? := none }

/-- The stream as the guest prints it. -/
def text (s : Stream) : String :=
  "file " ++ s.name.field ++ (if s.pipe?.isSome then " (open)" else " (closed)")

end Stream
end ScriptShell
