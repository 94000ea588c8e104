import ScriptShell.Tool.CommandText
import ScriptShell.Tool.Printf

/-! # Running programs of the system

What each program does: from its words, its variables and its input to its exit status and what it
writes.  `sh` runs a command text; its commands are functions of its own or other programs. -/

namespace ScriptShell

open CommandText (Word Part Token Command Pipeline Connector Target)

/-! ## `head` -/

namespace Head

/-- How much is copied. -/
inductive Amount where
  /-- So many lines. -/
  | lines (n : Nat)
  /-- So many bytes. -/
  | bytes (n : Nat)
  deriving Inhabited

/-- The first lines of a text. -/
def takeLines : Nat → Bytes → Bytes
  | 0, _ => []
  | _, [] => []
  | n + 1, b :: rest => if b = 10 then b :: takeLines n rest else b :: takeLines (n + 1) rest

/-- The start of a text. -/
def Amount.of (a : Amount) (b : Bytes) : Bytes :=
  match a with
  | lines n => takeLines n b
  | bytes n => b.take n

/-- The options and the names of files. -/
def options (a : Amount) : List String → Except String (Amount × List String)
  | [] => .ok (a, [])
  | "-c" :: n :: rest =>
    match n.toNat? with
    | some n => options (.bytes n) rest
    | none => .error ("invalid number of bytes: '" ++ n ++ "'")
  | "-n" :: n :: rest =>
    match n.toNat? with
    | some n => options (.lines n) rest
    | none => .error ("invalid number of lines: '" ++ n ++ "'")
  | w :: rest =>
    match w.toList with
    | '-' :: 'c' :: ds =>
      match (String.ofList ds).toNat? with
      | some n => options (.bytes n) rest
      | none => .error ("invalid number of bytes: '" ++ String.ofList ds ++ "'")
    | '-' :: 'n' :: ds =>
      match (String.ofList ds).toNat? with
      | some n => options (.lines n) rest
      | none => .error ("invalid number of lines: '" ++ String.ofList ds ++ "'")
    | '-' :: d :: ds =>
      match (String.ofList (d :: ds)).toNat? with
      | some n => options (.lines n) rest
      | none => .error ("invalid option -- '" ++ d.toString ++
          "'\nTry 'head --help' for more information.")
    | _ => (options a rest).map fun (a, names) => (a, w :: names)

/-- The start of a file, or a complaint. -/
def ofFile (c : ToolCall) (input : Bytes) (a : Amount) (name : String) : Except String Bytes :=
  if name = "-" then .ok (a.of input)
  else
    match c.files.openAt name with
    | .ok (_, .device .zero) =>
      match a with
      | .bytes n => .ok (List.replicate n 0)
      | .lines _ => .ok []
    | .ok (_, .directory) => .error ("head: error reading '" ++ name ++ "': Is a directory")
    | .ok (_, .file content) => .ok (a.of content)
    | .ok _ => .ok []
    | .error e => .error ("head: cannot open '" ++ name ++ "' for reading: " ++ e.reason)

/-- The starts of several files, each under its name. -/
def ofFiles (c : ToolCall) (input : Bytes) (a : Amount) : List String → ToolResult
  | [] => {}
  | name :: rest =>
    let more := ofFiles c input a rest
    match ofFile c input a name with
    | .ok b =>
      let title := Utf8.encode ("==> " ++ name ++ " <==\n")
      let gap : Bytes := if rest.isEmpty then [] else [10]
      { more with stdout := title ++ b ++ gap ++ more.stdout }
    | .error e =>
      { more with status? := some 1, stderr := Utf8.encode (e ++ "\n") ++ more.stderr }

/-- The program `head`. -/
def run (c : ToolCall) (input : Bytes) : ToolResult :=
  match options (.lines 10) c.args with
  | .error e => .fail 1 ("head: " ++ e)
  | .ok (a, []) => { stdout := a.of input }
  | .ok (a, [name]) =>
    match ofFile c input a name with
    | .ok b => { stdout := b }
    | .error e => .fail 1 e
  | .ok (a, names) => ofFiles c input a names

end Head

/-! ## `sh` -/

/-- The state of a command text that runs. -/
structure ScriptState where
  /-- The files. -/
  files : Files
  /-- The variables. -/
  vars : TextMap String
  /-- The name of the script and its arguments. -/
  args : List String
  /-- The status of the last command. -/
  status : Nat := 0
  /-- Whether the text has ended early: by `exit`, or by a signal. -/
  ended? : Option (Option Nat) := none
  /-- What has been written. -/
  result : ToolResult := {}
  deriving Inhabited

namespace ScriptState

/-- The number that the running text has as a process. -/
def processNumber : String := "4242"

/-- The value of a variable. -/
def value (s : ScriptState) (name : String) : String :=
  if name = "?" then toString s.status
  else if name = "$" then processNumber
  else if name = "#" then toString (s.args.length - 1)
  else if name = "@" || name = "*" then " ".intercalate (s.args.drop 1)
  else
    match name.toNat? with
    | some n => s.args[n]?.getD ""
    | none => (s.vars.get? name).getD ""

/-- The characters of a word, each with whether it separates fields. -/
def characters (s : ScriptState) (w : Word) : List (Char × Bool) :=
  w.flatMap fun
    | .text t _ => t.toList.map (·, false)
    | .value name quoted =>
      (s.value name).toList.map fun c => (c, !quoted && (CommandText.isGap c || c == '\n'))

/-- The fields between the characters that separate them. -/
def split (current : Option (List Char)) : List (Char × Bool) → List String
  | [] => (current.map fun cs => String.ofList cs.reverse).toList
  | (_, true) :: rest => (current.map fun cs => String.ofList cs.reverse).toList ++ split none rest
  | (c, false) :: rest => split (some (c :: current.getD [])) rest

/-- Whether a part is quoted. -/
def isQuoted : Part → Bool
  | .text _ quoted | .value _ quoted => quoted

/-- The fields of a word. -/
def fields (s : ScriptState) (w : Word) : List String :=
  match split none (s.characters w) with
  | [] => if w.any isQuoted then [""] else []
  | fs => fs

/-- A word as one text. -/
def wordText (s : ScriptState) (w : Word) : String :=
  String.ofList ((s.characters w).map (·.1))

/-- The assignment that a word is. -/
def assignment? (s : ScriptState) (w : Word) : Option (String × String) :=
  let plain := w.takeWhile fun
    | .text t quoted => !quoted && t != "="
    | .value _ _ => false
  let name := s.wordText plain
  match w.drop plain.length with
  | .text "=" false :: rest =>
    if !name.isEmpty && !(name.toList.headD ' ').isDigit && name.toList.all CommandText.inName then
      some (name, s.wordText rest)
    else none
  | _ => none

end ScriptState

/-- Where an output leads: to the output, to the error output, or nowhere. -/
inductive Sink where
  /-- To the output. -/
  | stdout
  /-- To the error output. -/
  | stderr
  /-- Nowhere. -/
  | nowhere
  deriving DecidableEq, Repr, Inhabited

/-- A command with its words expanded. -/
structure Expanded where
  /-- The assignments in front of it. -/
  assignments : List (String × String) := []
  /-- Its words. -/
  words : List String := []
  /-- Where its outputs lead, by number. -/
  sinks : List (Nat × Sink) := [(1, .stdout), (2, .stderr)]
  /-- The file that its input comes from. -/
  source? : Option String := none

namespace Expanded

/-- Adds a token of a command. -/
def add (s : ScriptState) (e : Expanded) : Token → Expanded
  | .word w =>
    match e.words, s.assignment? w with
    | [], some a => { e with assignments := e.assignments ++ [a] }
    | _, _ => { e with words := e.words ++ s.fields w }
  | .redirect n (.same m) => { e with sinks := (n, (e.sinks.lookup m).getD .nowhere) :: e.sinks }
  | .redirect n (.file _) => { e with sinks := (n, .nowhere) :: e.sinks }
  | .source w => { e with source? := some (s.wordText w) }
  | .pipe | .connector _ => e

/-- What a command writes, led to where its redirections say. -/
def led (e : Expanded) (r : ToolResult) : ToolResult :=
  let out := (e.sinks.lookup 1).getD .stdout
  let err := (e.sinks.lookup 2).getD .stderr
  let pick := fun sink =>
    (if out = sink then r.stdout else []) ++ (if err = sink then r.stderr else [])
  { r with stdout := pick .stdout, stderr := pick .stderr }

end Expanded

/-- What a command of a text does besides writing. -/
inductive Effect where
  /-- Nothing. -/
  | none
  /-- Ends the text. -/
  | exit (status? : Option Nat)
  /-- Sets variables. -/
  | assign (assignments : List (String × String))

/-- The escapes that `sh` reads when it writes words. -/
def echoEscapes : Escape.Dialect := { leadingZero := true, onlyZero := true, hexadecimal := false }

/-- Runs one of the functions of `sh`. -/
def runFunction (s : ScriptState) (c : ToolCall) : Option (ToolResult × Effect) :=
  match c.words with
  | "echo" :: words =>
    let text :=
      match words with
      | "-n" :: rest => Echo.text { lineBreak := false, escapes := true } echoEscapes rest
      | words => Echo.text { escapes := true } echoEscapes words
    some ({ stdout := text }, .none)
  | "printf" :: _ => some (Printf.run c, .none)
  | "true" :: _ | ":" :: _ => some ({}, .none)
  | "false" :: _ => some ({ status? := some 1 }, .none)
  | ["exit"] => some ({ status? := some s.status }, .exit (some s.status))
  | "exit" :: n :: _ =>
    match n.toNat? with
    | some n => some ({ status? := some (n % 256) }, .exit (some (n % 256)))
    | none => some (.fail 2 ("sh: 1: exit: Illegal number: " ++ n), .exit (some 2))
  | "kill" :: rest =>
    some ({}, if rest.getLast? = some ScriptState.processNumber then .exit none else .none)
  | "pwd" :: _ =>
    some ({ stdout := Utf8.encode (c.files.workingDirectory ++ "\n") }, .none)
  | "export" :: rest =>
    let assignments := rest.filterMap fun w =>
      match w.splitOn "=" with
      | name :: v :: vs => some (name, "=".intercalate (v :: vs))
      | _ => none
    some ({}, .assign assignments)
  | _ => none

/-- Runs a program that was found. -/
abbrev ToolRunner := Tool → ToolCall → Bytes → ToolResult

/-- Runs one command of a text.  `tool` runs a program. -/
def runCommand (tool : ToolRunner) (s : ScriptState) (input : Bytes) (command : Command) :
    ToolResult × Effect :=
  let e := command.foldl (Expanded.add s) {}
  -- assignments in front of a command are for that command only
  let vars := e.assignments.foldl (fun m a => m.insert a.1 a.2) s.vars
  let input :=
    match e.source? with
    | some path => (s.files.read path).toOption.getD []
    | none => input
  match e.words with
  | [] => ({}, .assign e.assignments)
  | name :: _ =>
    let c : ToolCall := ⟨s.files, vars, e.words⟩
    match runFunction s c with
    | some (r, effect) => (e.led r, effect)
    | none =>
      match s.files.findProgram vars name with
      | .ok t => (e.led (tool t c input), .none)
      | .error .notFound => (e.led (.fail 127 ("sh: 1: " ++ name ++ ": not found")), .none)
      | .error e' => (e.led (.fail 126 ("sh: 1: " ++ name ++ ": " ++ e'.reason)), .none)

/-- Runs the commands of a pipeline, each with the output of the one before it as its input. -/
def runPipe (tool : ToolRunner) (s : ScriptState) (input stderr : Bytes) :
    List Command → ToolResult × Effect
  | [] => ({ stdout := input, stderr := stderr }, .none)
  | [c] =>
    let (r, effect) := runCommand tool s input c
    ({ r with stderr := stderr ++ r.stderr }, effect)
  | c :: rest =>
    let (r, _) := runCommand tool s input c
    runPipe tool s r.stdout (stderr ++ r.stderr) rest

/-- Runs pipelines one after the other. -/
def runPipelines (tool : ToolRunner) (input : Bytes) (s : ScriptState) :
    List Pipeline → ScriptState
  | [] => s
  | p :: rest =>
    -- a pipeline that is skipped leaves the status as it was
    let skipped :=
      match p.after with
      | .always => false
      | .onSuccess => s.status != 0
      | .onFailure => s.status == 0
    if skipped then runPipelines tool input s rest
    else
      let (r, effect) := runPipe tool s input [] p.commands
      let s := { s with
        -- the status of what a signal has ended, as shells count it
        status := r.status?.getD 137
        result :=
          { s.result with
            stdout := s.result.stdout ++ r.stdout
            stderr := s.result.stderr ++ r.stderr } }
      match effect with
      | .none => runPipelines tool input s rest
      | .exit status? => { s with ended? := some status? }
      | .assign as =>
        runPipelines tool input
          { s with vars := as.foldl (fun m a => m.insert a.1 a.2) s.vars, status := 0 } rest

/-- Runs a command text. -/
def runText (tool : ToolRunner) (c : ToolCall) (input : Bytes) (args : List String)
    (text : String) : ToolResult :=
  match CommandText.pipelines text with
  | none => .fail 2 "sh: 1: Syntax error: Unterminated quoted string"
  | some ps =>
    let s := runPipelines tool input { files := c.files, vars := c.vars, args := args } ps
    { s.result with status? := s.ended?.getD (some s.status) }

/-- The program `sh`. -/
def runShell (tool : ToolRunner) (c : ToolCall) (input : Bytes) : ToolResult :=
  match c.args with
  | ["-c"] => .fail 2 "sh: 0: -c requires an argument"
  | "-c" :: text :: args => runText tool c input (if args.isEmpty then ["sh"] else args) text
  | path :: args =>
    match c.files.read path with
    | .ok content => runText tool c input (path :: args) (Utf8.decodeLossy content)
    | .error .permissionDenied => .fail 2 ("sh: 0: cannot open " ++ path ++ ": Permission denied")
    | .error _ => .fail 2 ("sh: 0: cannot open " ++ path ++ ": No such file")
  | [] => runText tool c [] ["sh"] (Utf8.decodeLossy input)

/-! ## All programs -/

/-- Runs a program, which may run others at most `n` levels deep. -/
def runToolWithin : Nat → ToolRunner
  | 0, _, _, _ => .fail 254 "sh: 1: too many levels"
  | n + 1, tool, c, input =>
    match tool with
    | .succeed => {}
    | .fail => { status? := some 1 }
    | .echo => Echo.run c
    | .printf => Printf.run c
    | .head => Head.run c input
    | .shell => runShell (runToolWithin n) c input

/-- Runs a program without input. -/
def runTool (tool : Tool) (c : ToolCall) : ToolResult := runToolWithin 64 tool c []

/-- The programs of a system, in the usual places. -/
def systemPrograms : List (String × Tool) :=
  [("true", .succeed), ("false", .fail), ("echo", .echo), ("printf", .printf), ("sh", .shell),
    ("head", .head)]

/-- The files of a system without any of its user's: programs and devices. -/
def Files.system : Files :=
  let programs : List (Place × Entry) := systemPrograms.flatMap fun e =>
    [(["bin", e.1], .program e.2), (["usr", "bin", e.1], .program e.2)]
  let devices : List (Place × Entry) :=
    [(["dev", "null"], .device .null), (["dev", "zero"], .device .zero)]
  (programs ++ devices).foldl
    (fun t e => t.install e.1 e.2) {}

end ScriptShell
