import ScriptShell.Text.Quoted

/-! # Output pipes

An output pipe keeps what is written to it.  A limited pipe keeps at most `limit` bytes: the write
that goes beyond the limit is cut, a marker says so, and what comes later is dropped.  Every write
reports its full length, so that the writer goes on. -/

namespace ScriptShell

/-- An output pipe that is kept in memory. -/
structure Pipe where
  /-- What the pipe holds. -/
  contents : Bytes := []
  /-- The most bytes that the pipe takes, if it is limited. -/
  limit? : Option Nat := none
  /-- Whether something came in after the pipe was full. -/
  truncated : Bool := false
  deriving DecidableEq, Repr, Inhabited

namespace Pipe

/-- What stands after the bytes of a cut write. -/
def marker : Bytes := Utf8.encode "\n... [output truncated] ...\n"

/-- Writes to the pipe: the number of bytes that the writer is told were taken, and the pipe
then. -/
def accept (p : Pipe) (data : Bytes) : Nat × Pipe :=
  match p.limit? with
  | none => (data.length, { p with contents := p.contents ++ data })
  | some limit =>
    let room := limit - p.contents.length
    if room = 0 then (data.length, { p with truncated := true })
    else
      let taken := min data.length room
      let p := { p with contents := p.contents ++ data.take taken }
      -- a write that fills the pipe exactly is whole, and the next one comes to a full pipe
      if taken < data.length then
        (data.length, { p with contents := p.contents ++ marker, truncated := true })
      else (data.length, p)

/-- The pipe after a write. -/
def write (p : Pipe) (data : Bytes) : Pipe := (p.accept data).2

/-- What the pipe holds, as text. -/
def text (p : Pipe) : String := Utf8.decodeLossy p.contents

/-- The pipe for diagnostics. -/
def debugText (p : Pipe) : String :=
  let buffer := Quoted.record "PipeBuffer"
    [("buffer", Quoted.ofBytes p.contents),
      ("limit", match p.limit? with
        | some n => s!"Some({n})"
        | none => "None"),
      ("truncated", toString p.truncated)] false
  Quoted.record "MemoryPipe"
    [("inner", Quoted.record "Mutex" [("data", buffer), ("poisoned", "false")] true)] false

end Pipe
end ScriptShell
