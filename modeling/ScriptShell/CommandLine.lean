import ScriptShell.Shell.Basic

/-! # The command line

The words that the program is started with: options, the name of a script, and the script's own
arguments, among which nothing counts as an option any more.  `Launch.parse` reads the words and
`Launch.run` does what they ask for. -/

namespace ScriptShell

/-- What the program is asked for. -/
structure Launch where
  /-- A line to run. -/
  command? : Option String := none
  /-- The file of the configuration. -/
  config? : Option String := none
  /-- Whether no startup scripts are run. -/
  norc : Bool := false
  /-- More directories of startup scripts. -/
  scriptDirs : List String := []
  /-- Which log messages are shown. -/
  logLevel? : Option String := none
  /-- Whether the configuration is printed, and nothing else done. -/
  printConfig : Bool := false
  /-- The script. -/
  script? : Option String := none
  /-- The arguments of the script. -/
  args : List String := []
  deriving DecidableEq, Repr, Inhabited

/-- Words that ask for nothing that could be done. -/
inductive Usage where
  /-- They ask for help. -/
  | help
  /-- They ask for the version. -/
  | version
  /-- They are wrong. -/
  | wrong
  deriving DecidableEq, Repr, Inhabited

namespace Launch

/-! ## Options -/

/-- The options that take a value. -/
inductive Valued where
  /-- A line to run. -/
  | command
  /-- The file of the configuration. -/
  | config
  /-- A directory of startup scripts. -/
  | scriptDir
  /-- Which log messages are shown. -/
  | logLevel
  deriving DecidableEq, Repr

/-- The options that take none. -/
inductive Switch where
  /-- Run no startup scripts. -/
  | norc
  /-- Print the configuration. -/
  | printConfig
  /-- Show help. -/
  | help
  /-- Show the version. -/
  | version
  deriving DecidableEq, Repr

/-- An option. -/
inductive Opt where
  /-- One with a value. -/
  | valued (v : Valued)
  /-- One without. -/
  | switch (s : Switch)
  deriving DecidableEq, Repr

/-- The option of a long name. -/
def long? (name : String) : Option Opt :=
  match name with
  | "command" => some (.valued .command)
  | "config" => some (.valued .config)
  | "script-dir" => some (.valued .scriptDir)
  | "log-level" => some (.valued .logLevel)
  | "norc" => some (.switch .norc)
  | "print-config" => some (.switch .printConfig)
  | "help" => some (.switch .help)
  | "version" => some (.switch .version)
  | _ => none

/-- The option of a letter. -/
def short? (c : Char) : Option Opt :=
  match c with
  | 'c' => some (.valued .command)
  | 'h' => some (.switch .help)
  | 'V' => some (.switch .version)
  | _ => none

/-- A value that may be given once and is not given yet. -/
def once (current : Option String) (v : String) : Except Usage (Option String) :=
  if current.isSome then .error .wrong else .ok (some v)

/-- A path, which is not empty. -/
def path (v : String) : Except Usage String := if v.isEmpty then .error .wrong else .ok v

/-- Takes an option with its value. -/
def setValued (l : Launch) (v : Valued) (value : String) : Except Usage Launch :=
  match v with
  | .command => do return { l with command? := ← once l.command? value }
  | .config => do return { l with config? := ← once l.config? (← path value) }
  | .scriptDir => do return { l with scriptDirs := l.scriptDirs ++ [← path value] }
  | .logLevel => do return { l with logLevel? := ← once l.logLevel? value }

/-- Takes an option without a value. -/
def setSwitch (l : Launch) (s : Switch) : Except Usage Launch :=
  match s with
  | .norc => if l.norc then .error .wrong else .ok { l with norc := true }
  | .printConfig => if l.printConfig then .error .wrong else .ok { l with printConfig := true }
  | .help => .error .help
  | .version => .error .version

/-- Takes the name of the script, or one of its arguments. -/
def setWord (l : Launch) (w : String) : Except Usage Launch :=
  match l.script? with
  | none => do return { l with script? := some (← path w) }
  | some _ => .ok { l with args := l.args ++ [w] }

/-- Takes words none of which is an option. -/
def setWords (l : Launch) (ws : List String) : Except Usage Launch := ws.foldlM setWord l

/-! ## Words -/

/-- A word that looks like options. -/
inductive Dashed where
  /-- A long name, with the value that stands behind an equals sign. -/
  | long (name : String) (value? : Option String)
  /-- Letters. -/
  | short (letters : List Char)
  deriving DecidableEq, Repr

/-- How a word looks like options, if it does. -/
def dashed? (w : String) : Option Dashed :=
  match w.toList with
  | '-' :: '-' :: cs =>
    let name := cs.takeWhile (· != '=')
    match cs.drop name.length with
    | _ :: value => some (.long (String.ofList name) (some (String.ofList value)))
    | [] => some (.long (String.ofList name) none)
  | ['-'] => none
  | '-' :: cs => some (.short cs)
  | _ => none

/-- Whether all that the word holds are options; what stands behind an option with a value is looked
at as well. -/
def Dashed.isKnown : Dashed → Bool
  | .long name _ => (long? name).isSome
  | .short letters => letters.all fun c => (short? c).isSome

/-- The options that a word holds; none if it stands for itself.  A word that holds something else
than options stands for itself as soon as there is a script that it can be an argument of. -/
def options? (l : Launch) (w : String) : Option Dashed :=
  (dashed? w).filter fun d => l.script?.isNone || d.isKnown

/-- What a word of options leaves open. -/
inductive Taken where
  /-- Nothing. -/
  | all (l : Launch)
  /-- The value of an option, which must be the next word. -/
  | awaits (l : Launch) (v : Valued)

/-- Takes letters, one after the other.  The rest of the word is the value of one that has one. -/
def takeLetters (l : Launch) : List Char → Except Usage Taken
  | [] => .ok (.all l)
  | c :: rest =>
    match short? c with
    | none => .error .wrong
    | some (.switch s) =>
      match l.setSwitch s with
      | .ok l => takeLetters l rest
      | .error e => .error e
    | some (.valued v) =>
      match rest with
      | [] => .ok (.awaits l v)
      -- an equals sign between a letter and its value is dropped
      | '=' :: value => (l.setValued v (String.ofList value)).map .all
      | value => (l.setValued v (String.ofList value)).map .all

/-- Takes a word of options. -/
def take (l : Launch) : Dashed → Except Usage Taken
  | .short letters => takeLetters l letters
  | .long name value? =>
    match long? name, value? with
    | none, _ => .error .wrong
    | some (.switch s), none => (l.setSwitch s).map .all
    | some (.switch _), some _ => .error .wrong
    | some (.valued v), some value => (l.setValued v value).map .all
    | some (.valued v), none => .ok (.awaits l v)

/-- Reads words.  Once the script has an argument, all words are its arguments; until then options
are taken wherever they stand.  The value of an option is a word that stands for itself. -/
def parseFrom (l : Launch) : List String → Except Usage Launch
  | [] => .ok l
  | "--" :: rest => l.setWords rest
  | w :: rest =>
    match l.options? w with
    | none =>
      -- the script has its first argument
      if l.script?.isSome then l.setWords (w :: rest)
      else
        match l.setWord w with
        | .ok l => parseFrom l rest
        | .error e => .error e
    | some d =>
      match l.take d with
      | .error e => .error e
      | .ok (.all l) => parseFrom l rest
      | .ok (.awaits l v) =>
        match rest with
        | [] => .error .wrong
        | value :: rest =>
          -- what could be an option is not taken for a value
          if value = "--" || (l.options? value).isSome then .error .wrong
          else
            match l.setValued v value with
            | .ok l => parseFrom l rest
            | .error e => .error e

/-- Reads the words that the program is started with.  A line to run and a script exclude each
other. -/
def parse (words : List String) : Except Usage Launch :=
  match parseFrom {} words with
  | .error e => .error e
  | .ok l => if l.command?.isSome && l.script?.isSome then .error .wrong else .ok l

/-! ## What is asked for -/

/-- What to run after startup. -/
def mode (l : Launch) : Mode :=
  match l.command?, l.script? with
  | some line, _ => .command line
  | none, some path => .script path l.args
  | none, none => .interactive

/-- Whether a text can name a level of log messages. -/
def isLevel (s : String) : Bool :=
  let s := String.ofList (s.toList.map Char.toLower)
  ["off", "error", "warn", "info", "debug", "trace", "0", "1", "2", "3", "4", "5", ""].contains s

/-- Whether a text can say which log messages are shown: parts with commas between them, each a
target, a level or both. -/
def isLogFilter (s : String) : Bool :=
  (s.splitOn ",").all fun part =>
    match part.splitOn "=" with
    | [_] => true
    | [_, level] => isLevel level
    | _ => false

/-- The causes of an error. -/
def causesOf (e : BridgeError) : List String :=
  match e with
  | .io cause => [e.message, cause.message]
  | e => [e.message]

/-- The configuration from its file, or the default one. -/
def loadConfig (l : Launch) (files : Files) : Except Fatal Config :=
  match l.config? with
  | none => .ok {}
  | some path =>
    match Config.read files path with
    | .ok c => .ok c
    | .error e => .error ⟨"loading " ++ path, causesOf e⟩

/-- The configuration with what the words add to it. -/
def config (l : Launch) (files : Files) : Except Fatal Config :=
  match l.logLevel? with
  | some level =>
    if isLogFilter level then effective
    else .error ⟨"invalid log level " ++ Quoted.ofText level, ["invalid filter directive"]⟩
  | none => effective
where
  /-- The configuration with what the words add to it. -/
  effective : Except Fatal Config :=
    (l.loadConfig files).map fun c =>
      { c with
        scriptDirs := c.scriptDirs ++ l.scriptDirs
        loadStartup := c.loadStartup && !l.norc }

/-- Runs a shell on the pipes of the process.  The answer is the exit status. -/
def runShell (w : World) (config : Config) (mode : Mode) (vars : List (String × String)) :
    Except Fatal Nat × World :=
  let (interrupt, w) := w.addInterrupt
  match Shell.ofIo w config w.processIo interrupt vars with
  | .error e => (.error ⟨e.message, []⟩, w)
  | .ok (shell, w) =>
    match w.run (w.session shell.session).runtime (shell.run mode) with
    | (.value result, w) => (result, w)
    -- the shell answers errors of guests itself, so none comes this far
    | (.error _, w) | (.exhausted, w) => (.ok 1, w)

/-- Does what the program is asked for.  The answer is the exit status. -/
def runLaunch (l : Launch) (w : World) (vars : List (String × String)) : Nat × World :=
  let ended : Except Fatal Nat × World :=
    match l.config w.files with
    | .error e => (.error e, w)
    | .ok c =>
      if l.printConfig then
        (.ok 0, w.write w.processIo.stdout (Utf8.encode (c.pretty ++ "\n")))
      else runShell w c l.mode vars
  match ended with
  | (.ok status, w) => (status, w)
  | (.error e, w) => (1, w.write w.processIo.stderr (Utf8.encode e.text))

/-- How the program is used. -/
def help : String :=
  "Interactive shell extended by Lua scripts\n\n" ++
  "Usage: moonsh [OPTIONS] [SCRIPT] [ARGS]...\n"

/-- Does what the words ask for.  The answer is the exit status. -/
def run (words : List String) (w : World) (vars : List (String × String)) : Nat × World :=
  match parse words with
  | .ok l => l.runLaunch w vars
  | .error .help => (0, w.write w.processIo.stdout (Utf8.encode help))
  | .error .version =>
    (0, w.write w.processIo.stdout (Utf8.encode ("moonsh " ++ Session.version ++ "\n")))
  | .error .wrong =>
    (2, w.write w.processIo.stderr (Utf8.encode ("error: invalid arguments\n\n" ++ help)))

end Launch
end ScriptShell
