import ScriptShell.Host.Fault

/-! # Files

The files that scripts and commands can see: a tree of directories with files and programs in it,
and a working directory.  Paths are texts; `locate` follows one step by step, so that a path through
something that is no directory fails, even if it comes back out of it.  What is found may be closed
to reading, which `openAt` minds and `locate` does not. -/

namespace ScriptShell

/-- The programs that the system has. -/
inductive Tool where
  /-- Does nothing and succeeds. -/
  | succeed
  /-- Does nothing and fails. -/
  | fail
  /-- Writes its words. -/
  | echo
  /-- Writes its words in a format. -/
  | printf
  /-- Runs a command line. -/
  | shell
  /-- Copies the start of its input. -/
  | head
  deriving DecidableEq, Repr, Inhabited

/-- A file that no one wrote. -/
inductive Device where
  /-- Empty. -/
  | null
  /-- As many zero bytes as one reads. -/
  | zero
  deriving DecidableEq, Repr, Inhabited

/-- What stands at a place of the tree. -/
inductive Entry where
  /-- A file with its content. -/
  | file (content : Bytes)
  /-- A program. -/
  | program (tool : Tool)
  /-- A device. -/
  | device (d : Device)
  /-- A directory. -/
  | directory
  deriving DecidableEq, Repr, Inhabited

/-- A place in the tree: the names on the way from the root. -/
abbrev Place := List String

/-- All files, and the directory that relative paths start from. -/
structure Files where
  /-- What stands where; the root is always a directory. -/
  entries : List (Place × Entry) := []
  /-- The working directory. -/
  cwd : Place := []
  /-- The files and directories that may not be read. -/
  unreadable : List Place := []
  deriving Inhabited

namespace Files

/-- What stands at a place. -/
def lookup? (t : Files) (p : Place) : Option Entry :=
  if p.isEmpty then some .directory else t.entries.lookup p

/-- Puts something at a place. -/
def put (t : Files) (p : Place) (e : Entry) : Files :=
  { t with entries := t.entries.filter (·.1 != p) ++ [(p, e)] }

/-- Puts something at a place, and directories on the way to it where there is nothing yet. -/
def install (t : Files) (p : Place) (e : Entry) : Files :=
  let above := (List.range p.length).map fun n => p.take n
  (above.foldl (fun t q => if (t.lookup? q).isSome then t else t.put q .directory) t).put p e

/-- Closes a place to reading. -/
def close (t : Files) (p : Place) : Files := { t with unreadable := p :: t.unreadable }

/-- The names in a path; a path from the root starts with an empty one. -/
def namesOf (path : String) : List String := (path.toList.splitOn '/').map String.ofList

/-- Goes from a directory to the place of a name in it. -/
def step (t : Files) (p : Place) (name : String) : Except IoError Place :=
  match t.lookup? p with
  | none => .error .notFound
  | some .directory =>
    .ok (if name = "" || name = "." then p else if name = ".." then p.dropLast else p ++ [name])
  | some _ => .error .notDirectory

/-- The place of a path and what stands there. -/
def locate (t : Files) (path : String) : Except IoError (Place × Entry) :=
  if path.toList.contains '\x00' then .error .nullInName
  else if path.isEmpty then .error .notFound
  else
    match (namesOf path).foldlM t.step (if path.startsWith "/" then [] else t.cwd) with
    | .error e => .error e
    | .ok p =>
      match t.lookup? p with
      | some e => .ok (p, e)
      | none => .error .notFound

/-- What stands at the end of a path, if anything. -/
def entry? (t : Files) (path : String) : Option Entry :=
  match t.locate path with
  | .ok (_, e) => some e
  | .error _ => none

/-- Whether a path leads to a file or a program. -/
def isFile (t : Files) (path : String) : Bool :=
  match t.entry? path with
  | some (.file _) | some (.program _) => true
  | some (.device _) | some .directory | none => false

/-- Whether a path leads to a directory. -/
def isDirectory (t : Files) (path : String) : Bool := t.entry? path == some .directory

/-- What stands at the end of a path and its place, for reading. -/
def openAt (t : Files) (path : String) : Except IoError (Place × Entry) :=
  match t.locate path with
  | .ok (p, e) => if t.unreadable.contains p then .error .permissionDenied else .ok (p, e)
  | .error e => .error e

/-- The content of a file. -/
def read (t : Files) (path : String) : Except IoError Bytes :=
  match t.openAt path with
  | .ok (_, .file content) => .ok content
  | .ok (_, .program _) | .ok (_, .device _) => .ok []
  | .ok (_, .directory) => .error .isDirectory
  | .error e => .error e

/-- The names in the directory at a place, in no order. -/
def namesIn (t : Files) (p : Place) : List String :=
  t.entries.filterMap fun e => if e.1.dropLast == p then e.1.getLast? else none

/-- Makes another directory the working directory. -/
def changeDirectory (t : Files) (path : String) : Except IoError Files :=
  match t.locate path with
  | .ok (p, .directory) => .ok { t with cwd := p }
  | .ok _ => .error .notDirectory
  | .error e => .error e

/-- The path of a place. -/
def pathOf (p : Place) : String := "/" ++ "/".intercalate p

/-- The path of the working directory. -/
def workingDirectory (t : Files) : String := pathOf t.cwd

end Files
end ScriptShell
