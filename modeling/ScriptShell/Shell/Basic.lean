import ScriptShell.Capabilities.Offers
import ScriptShell.Shell.Functions

/-! # The shell

The command loop.  A line goes through the line filter, the aliases and the argument filter, and
then runs as one of the shell's own commands or as a program; a command that is not found is offered
to scripts before it is reported.  Every command has a signal of its own, which an interrupt
character cancels. -/

namespace ScriptShell

/-- What to run after startup. -/
inductive Mode where
  /-- Lines of the input, one after the other. -/
  | interactive
  /-- One line. -/
  | command (line : String)
  /-- A script with its arguments. -/
  | script (path : String) (args : List String)
  deriving DecidableEq, Repr, Inhabited

/-- A shell with its script session. -/
structure Shell where
  /-- The pipes that commands are read from and written to. -/
  terminal : ShellRef
  /-- The script session. -/
  session : SessionRef
  /-- What events are forwarded to. -/
  dispatcher : EventDispatcher := {}
  /-- The flag that asks for every command to be shown. -/
  echo : ScalarRef
  /-- Where the signal of the command that runs is kept. -/
  interrupt : InterruptRef
  deriving Inhabited

/-- What to do after a command. -/
inductive CommandFlow where
  /-- Go on, with a status. -/
  | resume (status : Int)
  /-- End the shell. -/
  | exit (status : Int)
  deriving DecidableEq, Repr, Inhabited

namespace Shell

/-! ## A new shell -/

/-- Adds a host function that does what `code` says. -/
def addFunction (w : World) (code : HostCode) (withCall : Bool) : HostFunction × World :=
  { w with hostCode := w.hostCode.push code }.addHostFunction w.hostCode.size [] withCall

/-- Adds the functions that the shell offers. -/
def addFunctions (w : World) : List Offer × World :=
  [("exec", exec, true), ("eval", eval, true), ("getcwd", getcwd, false),
    ("chdir", chdir, false)].foldl (fun (offers, w) (name, code, withCall) =>
      let (f, w) := addFunction w code withCall
      (offers ++ [.function name f], w)) ([], w)

/-- The title that the shell starts with. -/
def title : String := "moonsh"

/-- A shell on the given pipes.  Its variables are those of the process. -/
def ofIo (w : World) (config : Config) (io : CommandIo) (interrupt : InterruptRef)
    (vars : List (String × String)) : Except BridgeError (Shell × World) :=
  let (functions, w) := addFunctions w
  let (echo, w) := w.addScalar (.flag false)
  let (titleCell, w) := w.addScalar (.text title)
  let offers := functions ++
    [.scalars [("echo", echo), ("title", titleCell)], .collection (.env ⟨.ofList vars⟩),
      .collection (.aliases {}), .collection (.option {}), .collection (.history {}), .keys {}]
  let w := { w with host := w.host.offerAll offers }
  match Bridge.ofConfig config with
  | .error e => .error e
  | .ok bridge =>
    let (terminal, w) := w.addShell io
    -- the first session of the bridge, so its events are connected
    let bridge := { bridge with events? := some {} }
    match (Bridge.newSession terminal (.ofOffers offers)).run (bridge, w) with
    | (.error e, _) => .error e
    | (.ok session, bridge, w) =>
      let dispatcher := (bridge.events?.bind (·.dispatcher?)).getD {}
      .ok (⟨terminal, session, dispatcher, echo, interrupt⟩, w)

/-! ## Helpers of the loop -/

/-- A context with a new signal, which is that of the command that runs from now on. -/
def context (s : Shell) : Program Context := do
  Program.ask (.newContext (← Program.ask (.beginCommand s.interrupt)) none)

/-- Writes to the terminal. -/
def say (s : Shell) (text : String) : Program Unit := do
  Program.ask (.write (← Program.ask (.shell s.terminal)).io.stdout (Utf8.encode text))

/-- Writes a line to the terminal's error output. -/
def report (s : Shell) (message : String) : Program Unit := s.session.report message

/-- The prompt without a hook. -/
def defaultPrompt : Program String := do return (← Program.ask .files).workingDirectory ++ "> "

/-- The template that the prompt hook gets. -/
def promptTemplate : String := "$P$G"

/-- Shows the prompt. -/
def showPrompt (s : Shell) : Program Unit := do
  match ← (s.session.renderPrompt (← s.context) promptTemplate).run with
  | .ok (some prompt) => s.say prompt
  | .ok none => s.say (← defaultPrompt)
  | .error e =>
    s.report ("prompt: " ++ e.message)
    s.say (← defaultPrompt)

/-- Runs a script with its arguments. -/
def runScript (s : Shell) (path : String) (args : List String) : Program Int := do
  let context ← s.context
  let run : SessionProgram (List HostValue) := do
    s.session.setArgs path args
    s.session.runFile context path
  match ← run.run with
  | .ok _ => return 0
  | .error e =>
    s.report ("moonsh: " ++ e.message)
    return 1

/-- The status of guest code that the user ran. -/
def statusOf {α : Type} (s : Shell) (result : Except BridgeError α) : Program Int := do
  match result with
  | .ok _ => return 0
  | .error .cancelled =>
    s.report "^C"
    return 130
  | .error e =>
    s.report e.message
    return 1

/-! ## Commands -/

/-- `cd`: makes another directory, or the home directory, the working directory. -/
def changeDirectory (s : Shell) (target? : Option String) : Program Int := do
  let home? := (← Program.ask .host).collections.env.vars.get? "HOME"
  match target? <|> home? with
  | none => return 0
  | some dir =>
    match ← Program.ask (.changeDirectory dir) with
    | .ok () => return 0
    | .error e =>
      s.report ("cd: " ++ dir ++ ": " ++ e.message)
      return 1

/-- A number that is filled up to five characters with blanks. -/
def lineNumber (n : Nat) : String :=
  let digits := toString n
  String.ofList (List.replicate (5 - digits.length) ' ') ++ digits

/-- `history`: shows the lines entered so far, with their numbers. -/
def showHistory (s : Shell) : Program Int := do
  let lines := (← Program.ask .host).collections.history.lines
  let _ ← Program.forAll (fun (e : String × Nat) =>
    s.say (lineNumber (e.2 + 1) ++ "  " ++ e.1 ++ "\n")) lines.zipIdx
  return 0

/-- `key`: runs the function that is bound to a key. -/
def pressKey (s : Shell) (context : Context) (words : List String) : Program Int := do
  match words with
  | [] =>
    s.report "key: missing key name"
    return 1
  | key :: rest =>
    match ← (s.session.runKey context key (" ".intercalate rest)).run with
    | .ok (some _) => return 0
    | .ok none =>
      s.report ("key: " ++ key ++ " is not bound to a script")
      return 1
    | .error e => s.statusOf (α := Unit) (.error e)

/-- `source`: runs a script. -/
def sourceFile (s : Shell) (words : List String) : Program Int := do
  match words with
  | [] =>
    s.report "source: missing script name"
    return 1
  | path :: args => s.runScript path args

/-- Runs a program, which writes to the pipes of the process. -/
def spawn (s : Shell) (context : Context) (words : List String) : Program Int := do
  let name := words.headD ""
  match ← runWords words with
  | .ok result =>
    let io ← Program.ask .processIo
    Program.ask (.write io.stdout result.stdout)
    Program.ask (.write io.stderr result.stderr)
    return (result.status?.map Int.ofNat).getD 130
  | .error .notFound =>
    -- scripts are asked before the command is reported
    if ← s.dispatcher.onCommandNotFound s.terminal context words then return 0
    s.report ("moonsh: " ++ name ++ ": command not found")
    return 127
  | .error e =>
    s.report ("moonsh: " ++ name ++ ": " ++ e.message)
    return 126

/-- Runs the words of a line. -/
def runWordsOf (s : Shell) (context : Context) (line : String) (name : String)
    (args : List String) : Program CommandFlow := do
  match name with
  | "exit" => return .exit ((args.head?.bind fun a => readInt32? a.toList).getD 0)
  | "cd" => return .resume (← s.changeDirectory args.head?)
  | "history" => return .resume (← s.showHistory)
  | "lua" =>
    -- the source as it was entered: the words have lost its quotes and blanks
    let source := ((splitAtBlank? line).map (·.2)).getD ""
    return .resume (← s.statusOf (← (s.session.runString context source).run))
  | "source" => return .resume (← s.sourceFile args)
  | "key" => return .resume (← s.pressKey context args)
  | _ => return .resume (← s.spawn context (name :: args))

/-- Whether commands are shown before they run. -/
def showsCommands (s : Shell) : Program Bool := do
  let host ← Program.ask .host
  return host.scalar s.echo = .flag true || host.collections.options.isSet "echo_commands"

/-- The line after the line filter. -/
def filtered (s : Shell) (context : Context) (line : String) : Program String := do
  match ← (s.session.filterLine context line).run with
  | .ok changed => return changed.getD line
  | .error e =>
    s.report ("filter: " ++ e.message)
    return line

/-- Runs a line. -/
def execute (s : Shell) (line : String) : Program CommandFlow := do
  let context ← s.context
  let line := trimBlank (← s.filtered context line)
  if line.isEmpty then return .resume 0
  -- the history keeps the line as it is before aliases
  Program.ask (.pushHistory line)
  let aliases := (← Program.ask .host).collections.aliases
  match ← s.dispatcher.onArgs s.terminal context (aliases.expand (Words.split line)) with
  | [] => return .resume 0
  | name :: args =>
    if ← s.showsCommands then s.say ("+ " ++ " ".intercalate (name :: args) ++ "\n")
    s.runWordsOf context line name args

/-! ## The loop -/

/-- The error of a shell that cannot read its input. -/
def unreadable (cause : IoError) : Fatal := ⟨"reading input", [cause.message]⟩

/-- Runs lines of the input until it ends or a command ends the shell, at most `n` lines. -/
def interactiveWithin (s : Shell) (stdin : InputRef) :
    Nat → Int → Program (Except Fatal Int)
  | 0, status => return .ok status
  | n + 1, status => do
    s.showPrompt
    match ← Program.ask (.read stdin (.line true)) with
    | .bytes b =>
      match Utf8.decode? b with
      | none => return .error (unreadable .invalidData)
      | some line =>
        match ← s.execute (trimLineBreaks line) with
        | .resume status => s.interactiveWithin stdin n status
        | .exit status => return .ok status
    | _ =>
      -- the input has ended, and the prompt is still without a line break
      s.say "\n"
      return .ok status

/-- Runs lines of the input until it ends or a command ends the shell.  Every line takes at least
one byte, so there are no more lines than bytes. -/
def interactive (s : Shell) : Program (Except Fatal Int) := do
  let stdin := (← Program.ask (.shell s.terminal)).io.stdin
  let bytes := (← Program.ask (.input stdin)).rest
  s.interactiveWithin stdin (bytes.length + 1) 0

/-- The exit code of a status: its last eight bits. -/
def exitCode (status : Int) : Nat := (status % 256).toNat

/-- Loads the startup scripts, runs what the mode asks for, and closes the session.  The answer is
the exit code; input that is no text ends the shell without one, before the session is closed. -/
def run (s : Shell) (mode : Mode) : Program (Except Fatal Nat) := do
  match ← (s.session.loadStartupScripts (← s.context)).run with
  | .ok _ => pure ()
  | .error e => s.report ("moonsh: startup: " ++ e.message)
  let result : Except Fatal Int ←
    match mode with
    | .command line =>
      match ← s.execute line with
      | .resume status | .exit status => pure (.ok status)
    | .script path args => do pure (.ok (← s.runScript path args))
    | .interactive => s.interactive
  match result with
  | .ok status =>
    Program.ask (.closeSession s.session)
    return .ok (exitCode status)
  | .error e => return .error e

end Shell
end ScriptShell
