import ScriptShell.Files
import ScriptShell.Text.MarkerLines

/-! # Script files

Scripts are read with their marker lines left empty, and are known to the guest by the path they
were read from.  `discover` lists the scripts of a directory in the order of their names; `list` is
the same for a directory that may be closed to reading. -/

namespace ScriptShell.Scripts

/-- A script as the guest gets it. -/
def read (t : Files) (path : String) : Except BridgeError Bytes :=
  match t.read path with
  | .ok source => .ok (MarkerLines.elide source)
  | .error e => .error (.io e)

/-- The end of a script's name. -/
def suffix : String := ".lua"

/-- Adds a name to a path. -/
def join (path name : String) : String :=
  if name.startsWith "/" then name
  else if path.isEmpty || path.endsWith "/" then path ++ name
  else path ++ "/" ++ name

/-- The path of a directory as its scripts' paths start with it: a `.` at the beginning is dropped,
all else stays as it was spelled. -/
def directoryPath (path : String) : List String → String
  | [] => path
  | name :: rest => directoryPath (if path = "." then name else join path name) rest

/-- The path that a directory is looked up by. -/
def listed (dir : String) : String :=
  match Files.namesOf dir with
  | "" :: rest => directoryPath "/" rest
  | names => directoryPath "." names

/-- The scripts directly inside a directory, ordered by name.  A missing directory has none. -/
def discover (t : Files) (dir : String) : List String :=
  match t.locate (listed dir) with
  | .ok (p, .directory) =>
    let scripts := (t.namesIn p).filter fun n =>
      n.endsWith suffix && (match t.lookup? (p ++ [n]) with
        | some (.file _) | some (.program _) => true
        | some (.device _) | some .directory | none => false)
    (scripts.mergeSort fun a b => a ≤ b).map fun n =>
      if listed dir = "." then n else join (listed dir) n
  | _ => []

/-- The scripts directly inside a directory, if its names may be read. -/
def list (t : Files) (dir : String) : Except BridgeError (List String) :=
  match t.locate (listed dir) with
  | .ok (p, .directory) =>
    if t.unreadable.contains p then .error (.io (.unlistable (listed dir)))
    else .ok (discover t dir)
  | _ => .ok []

end ScriptShell.Scripts
