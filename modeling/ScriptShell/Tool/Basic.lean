import ScriptShell.Collection.TextMap
import ScriptShell.Files

/-! # Programs of the system

How a command finds its program, and what a program leaves behind.  A name with a slash is a path;
any other name is looked for in the directories of the search path, one after the other. -/

namespace ScriptShell

/-- What a program leaves behind. -/
structure ToolResult where
  /-- Its exit status; none if a signal ended it. -/
  status? : Option Nat := some 0
  /-- What it wrote to its output. -/
  stdout : Bytes := []
  /-- What it wrote to its error output. -/
  stderr : Bytes := []
  deriving DecidableEq, Repr, Inhabited

/-- A program that failed with a complaint. -/
def ToolResult.fail (status : Nat) (complaint : String) : ToolResult :=
  { status? := some status, stderr := Utf8.encode (complaint ++ "\n") }

/-- What a program finds when it starts. -/
structure ToolCall where
  /-- The files. -/
  files : Files
  /-- The variables. -/
  vars : TextMap String
  /-- The words of the command, its name first. -/
  words : List String
  deriving Inhabited

namespace ToolCall

/-- The words after the name. -/
def args (c : ToolCall) : List String := c.words.drop 1

end ToolCall

namespace Files

/-- The program at a path. -/
def programAt (t : Files) (path : String) : Except IoError Tool :=
  match t.locate path with
  | .ok (_, .program tool) => .ok tool
  | .ok _ => .error .permissionDenied
  | .error e => .error e

/-- Tries a name in one directory after the other.  A file that may not be run is remembered, but
does not end the search. -/
def searchIn (t : Files) (name : String) (refused : Bool) : List String → Except IoError Tool
  | [] => .error (if refused then .permissionDenied else .notFound)
  | dir :: rest =>
    match t.programAt (if dir.isEmpty then name else dir ++ "/" ++ name) with
    | .ok tool => .ok tool
    | .error .permissionDenied => t.searchIn name true rest
    | .error _ => t.searchIn name refused rest

/-- The search path where the variables name none. -/
def defaultSearchPath : String := "/bin:/usr/bin"

/-- The program of a command's name. -/
def findProgram (t : Files) (vars : TextMap String) (name : String) : Except IoError Tool :=
  if name.isEmpty then .error .notFound
  else if name.toList.contains '/' then t.programAt name
  else t.searchIn name false (((vars.get? "PATH").getD defaultSearchPath).splitOn ":")

end Files

/-- Whether a text can be passed to a program. -/
def passable (s : String) : Bool := !s.toList.contains '\x00'

/-- The program of a command and what it finds when it starts.  No word and no variable may hold a
null character. -/
def startTool (files : Files) (vars : TextMap String) (words : List String) :
    Except IoError (Tool × ToolCall) :=
  if words.all passable && vars.entries.all fun e => passable e.1 && passable e.2 then
    (files.findProgram vars (words.headD "")).map (·, ⟨files, vars, words⟩)
  else .error .nullInWord

end ScriptShell
