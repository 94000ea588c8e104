import ScriptShell.CommandLine

/-! # The program

Reads the input and the files below the working directory, does what the words of the command line
ask for, and writes what came of it. -/

namespace ScriptShell

/-- Adds files and directories at a place, and what is in them at most `depth` levels down.  Those
that the process may not read are closed to reading. -/
def loadEntries : Nat → Place → List IO.FS.DirEntry → Files → IO Files
  | 0, _, _, files => return files
  | depth + 1, place, entries, files =>
    entries.foldlM (fun files e => do
      let place := place ++ [e.fileName]
      if ← e.path.isDir then
        let files := files.install place .directory
        match ← e.path.readDir.toBaseIO with
        | .ok entries => loadEntries depth place entries.toList files
        | .error _ => return files.close place
      else
        match ← (IO.FS.readBinFile e.path).toBaseIO with
        | .ok content => return files.install place (.file content.data.toList)
        | .error _ => return (files.install place (.file [])).close place) files

/-- How deep directories are read. -/
def loadDepth : Nat := 16

/-- The files of the system and everything below the working directory. -/
def loadFiles : IO Files := do
  let directory ← IO.currentDir
  let place := (Files.namesOf directory.toString).filter (· != "")
  let files := Files.system.install place .directory
  let files ← loadEntries loadDepth place (← directory.readDir).toList files
  return { files with cwd := place }

/-- The variables of the process that matter to commands. -/
def loadVariables : IO (List (String × String)) := do
  let named ← ["PATH", "HOME"].mapM fun name => do
    return (name, ← IO.getEnv name)
  return named.filterMap fun e => e.2.map (e.1, ·)

/-- The path of the program, if the system tells it. -/
def loadPath : IO (Option String) := do
  match ← IO.appPath.toBaseIO with
  | .ok path => return some path.toString
  | .error _ => return none

/-- Reads what is left of a stream, at most `n` pieces of it. -/
def readPieces (stream : IO.FS.Stream) : Nat → ByteArray → IO ByteArray
  | 0, read => return read
  | n + 1, read => do
    let piece ← stream.read 65536
    if piece.isEmpty then return read else readPieces stream n (read ++ piece)

/-- The most pieces of input that are read. -/
def maxPieces : Nat := 1000000

end ScriptShell

open ScriptShell in
/-- Does what the words of the command line ask for. -/
def main (words : List String) : IO UInt32 := do
  let input ← readPieces (← IO.getStdin) maxPieces .empty
  let (io, w) := ({} : World).addIo { rest := input.data.toList } none
  let w := { w with processIo := io, files := ← loadFiles, executable? := ← loadPath }
  let (status, w) := Launch.run words w (← loadVariables)
  (← IO.getStdout).write ⟨(w.output io.stdout).contents.toArray⟩
  (← IO.getStderr).write ⟨(w.output io.stderr).contents.toArray⟩
  return status.toUInt32
