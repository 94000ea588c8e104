import ScriptShell.Proofs.AliasExpansion
import ScriptShell.Proofs.IdleRuns

/-! # Programs of the shell

What the shell does on its own is a program of the host (`Program.Confined`).  Nearly all of it is
routine: it neither closes a session nor adds to the history (`Program.Routine`).  The two
exceptions are the last step of `Shell.run` and the one operation between the line filter and the
command (`Shell.runLine`).  So no error of the guest gets past the shell (`Confined.run_ne_error`),
and when a session is about to be closed while the loop runs, this is done inside an invocation
(`LeavesOpen.activations_ne_nil`).
-/

namespace ScriptShell

open Guest (Value RuntimeRef)

variable {α β : Type} {s : SessionRef}

/-- Whether a program runs guest code by invocations only, handles every error and does not close a
session. -/
def Program.LeavesOpen (s : SessionRef) (p : Program α) : Prop :=
  p.Confined (· ≠ .closeSession s) fun _ => True

/-- Whether an operation is neither the end of a session nor a new line of the history. -/
def Operation.isRoutine : Operation → Bool
  | .closeSession _ | .pushHistory _ => false
  | _ => true

/-- Whether a program runs guest code by invocations only, handles every error, and does not close a
session or add to the history. -/
def Program.Routine (p : Program α) : Prop := p.Confined (·.isRoutine = true) fun _ => True

namespace Program

/-- What only looks or adds something new is routine. -/
theorem Confined.routine {p : Program α} {invokes : Invocation → Prop}
    (hp : p.Confined (·.isMild = true) invokes) : p.Routine := by
  refine hp.mono (fun o mild => ?_) fun _ _ => trivial
  cases o with
  | closeSession | pushHistory => cases mild
  | _ => rfl

theorem Routine.leavesOpen {p : Program α} (hp : p.Routine) : p.LeavesOpen s := by
  refine hp.mono (fun o routine ho => ?_) fun _ _ => trivial
  rw [ho] at routine
  cases routine

theorem LeavesOpen.andThen {p : Program α} {f : α → Program β} (hp : p.LeavesOpen s)
    (hf : ∀ a, (f a).LeavesOpen s) : (p >>= f).LeavesOpen s :=
  Confined.andThen hp hf

/-- When the session is about to be closed, this is done inside an invocation. -/
theorem LeavesOpen.activations_ne_nil {n b : Nat} {r : RuntimeRef} {p : Program α} {w : World}
    (hp : p.LeavesOpen s) {m : Moment} (hm : Reaches n b r p w m)
    (hasks : m.Asks (.closeSession s)) : m.activations ≠ [] :=
  fun hout => hp.allowed hm hout hasks rfl

end Program

open Program.Confined

/-! ## Programs of a session -/

namespace SessionRef

theorem Use.routine {t : SessionRef} {context : Context} {p : SessionProgram α}
    (use : t.Use context p) : p.run.Routine := use.confined.routine

theorem routine_report (t : SessionRef) (message : String) : (t.report message).Routine :=
  (confined_report (fun _ => True) t message).routine

theorem routine_fillTexts (u : Guest.TableRef) (n : Nat) (texts : List String) :
    (fillTexts u n texts).Routine := by
  induction texts generalizing n with
  | nil => trivial
  | cons text rest ih => exact asking (by rfl) fun _ => ih _

theorem routine_setArgs (t : SessionRef) (script : String) (args : List String) :
    (t.setArgs script args).run.Routine :=
  thenDo (confined_runtime (fun _ => True) t).routine fun _ =>
    sessionAsking (by rfl) fun u =>
      thenDo (lift (routine_fillTexts u 0 _)) fun _ =>
        sessionAsking (by rfl) fun _ => sessionAsk (by rfl)

end SessionRef

/-! ## Events -/

namespace EventDispatcher

variable (d : EventDispatcher) (shell : ShellRef) (context : Context) (words : List String)

theorem routine_onArgs : (d.onArgs shell context words).Routine := by
  refine asking (by rfl) fun state => ?_
  split
  · trivial
  · next t _ =>
    refine andThen (SessionRef.Use.routine (.words words)) fun result => ?_
    split
    · trivial
    · exact (SessionRef.routine_report t _).andThen fun _ => trivial

theorem routine_onCommandNotFound : (d.onCommandNotFound shell context words).Routine := by
  refine asking (by rfl) fun state => ?_
  split
  · trivial
  · next t _ =>
    refine andThen (SessionRef.Use.routine (.notFound words)) fun result => ?_
    split
    · trivial
    · exact (SessionRef.routine_report t _).andThen fun _ => trivial

end EventDispatcher

namespace Shell

/-! ## Functions of the shell -/

section Functions

theorem routine_runWords (words : List String) : (runWords words).Routine := by
  refine asking (by rfl) fun host => asking (by rfl) fun files => ?_
  split
  · trivial
  · trivial

theorem routine_isCancelled (c : HostCall) : (isCancelled c).Routine := by
  unfold isCancelled
  split
  · exact ask (by rfl)
  · trivial

theorem routine_withResult {name : String} {c : HostCall}
    {f : ToolResult → Program (List HostValue)} (hf : ∀ result, (f result).Routine) :
    (withResult name c f).Routine := by
  unfold withResult
  split
  · trivial
  · refine (routine_isCancelled c).andThen fun cancelled => ?_
    split
    · trivial
    · refine (routine_runWords _).andThen fun result => ?_
      split
      · exact hf _
      · trivial

variable (values : List HostValue) (c : HostCall)

theorem routine_exec : (exec values c).Routine :=
  routine_withResult fun _ => asking (by rfl) fun _ => asking (by rfl) fun _ => trivial

theorem routine_eval : (eval values c).Routine :=
  routine_withResult fun _ => asking (by rfl) fun _ => asking (by rfl) fun _ => trivial

theorem routine_getcwd : (getcwd values c).Routine := asking (by rfl) fun _ => trivial

theorem routine_chdir : (chdir values c).Routine := by
  unfold chdir
  split
  · trivial
  · refine asking (by rfl) fun result => ?_
    split
    · trivial
    · trivial

end Functions

/-! ## The shell -/

variable (shell : Shell) (context : Context)

theorem routine_context : shell.context.Routine :=
  asking (by rfl) fun _ => ask (by rfl)

theorem routine_say (text : String) : (shell.say text).Routine :=
  asking (by rfl) fun _ => ask (by rfl)

theorem routine_report (message : String) : (shell.report message).Routine :=
  SessionRef.routine_report shell.session message

/-- It writes something about an error, and goes on with a value. -/
theorem routine_reported (message : String) (a : α) :
    (shell.report message >>= fun _ => pure a).Routine :=
  (routine_report shell message).andThen fun _ => trivial

theorem routine_showPrompt : shell.showPrompt.Routine := by
  have hdefault : (defaultPrompt >>= fun prompt => shell.say prompt).Routine :=
    andThen (asking (by rfl) fun _ => trivial) fun _ => routine_say shell _
  refine (routine_context shell).andThen fun context => ?_
  refine andThen (SessionRef.Use.routine (.prompt _)) fun result => ?_
  split
  · exact routine_say shell _
  · exact hdefault
  · exact (routine_report shell _).andThen fun _ => hdefault

theorem routine_runScript (path : String) (args : List String) :
    (shell.runScript path args).Routine := by
  refine (routine_context shell).andThen fun context => ?_
  refine andThen (thenDo (SessionRef.routine_setArgs shell.session path args) fun _ =>
    SessionRef.Use.routine (.runFile path)) fun result => ?_
  split
  · trivial
  · exact routine_reported shell _ _

theorem routine_statusOf (result : Except BridgeError α) :
    (shell.statusOf result).Routine := by
  unfold statusOf
  split
  · trivial
  · exact routine_reported shell _ _
  · exact routine_reported shell _ _

theorem routine_changeDirectory (target? : Option String) :
    (shell.changeDirectory target?).Routine := by
  refine asking (by rfl) fun host => ?_
  dsimp only
  split
  · trivial
  · refine asking (by rfl) fun result => ?_
    split
    · trivial
    · exact routine_reported shell _ _

theorem routine_showHistory : shell.showHistory.Routine :=
  asking (by rfl) fun _ =>
    andThen (forAll (fun _ => routine_say shell _) _) fun _ => trivial

theorem routine_pressKey (words : List String) :
    (shell.pressKey context words).Routine := by
  unfold pressKey
  split
  · exact routine_reported shell _ _
  · refine andThen (SessionRef.Use.routine (.key _ _)) fun result => ?_
    split
    · trivial
    · exact routine_reported shell _ _
    · exact routine_statusOf shell _

theorem routine_sourceFile (words : List String) : (shell.sourceFile words).Routine := by
  unfold sourceFile
  split
  · exact routine_reported shell _ _
  · exact routine_runScript shell _ _

theorem routine_spawn (words : List String) : (shell.spawn context words).Routine := by
  refine (routine_runWords words).andThen fun result => ?_
  split
  · exact asking (by rfl) fun io => asking (by rfl) fun _ =>
      asking (by rfl) fun _ => trivial
  · have hoffer := EventDispatcher.routine_onCommandNotFound shell.dispatcher
      shell.terminal context words
    refine hoffer.andThen fun handled => ?_
    split
    · trivial
    · exact routine_reported shell _ _
  · exact routine_reported shell _ _

theorem routine_runWordsOf (line name : String) (args : List String) :
    (shell.runWordsOf context line name args).Routine := by
  unfold runWordsOf
  split
  · trivial
  · exact (routine_changeDirectory shell _).andThen fun _ => trivial
  · exact (routine_showHistory shell).andThen fun _ => trivial
  · exact andThen (SessionRef.Use.routine (.runString _)) fun result =>
      (routine_statusOf shell result).andThen fun _ => trivial
  · exact (routine_sourceFile shell args).andThen fun _ => trivial
  · exact (routine_pressKey shell context args).andThen fun _ => trivial
  · exact (routine_spawn shell context _).andThen fun _ => trivial

theorem routine_filtered (line : String) : (shell.filtered context line).Routine := by
  refine andThen (SessionRef.Use.routine (.line line)) fun result => ?_
  split
  · trivial
  · exact routine_reported shell _ _

theorem routine_runRecorded (line : String) (words : List String) :
    (shell.runRecorded context line words).Routine := by
  refine andThen (EventDispatcher.routine_onArgs shell.dispatcher shell.terminal context words)
    fun words => ?_
  split
  · trivial
  · have hshows : shell.showsCommands.Routine := asking (by rfl) fun _ => trivial
    refine hshows.andThen fun shows => ?_
    split
    · exact (routine_say shell _).andThen fun _ => routine_runWordsOf shell context _ _ _
    · exact routine_runWordsOf shell context _ _ _

/-! ## The loop -/

/-- What happens to a line after the line filter: one that is not empty is recorded, and then it
runs. -/
def runLine (line : String) : Program CommandFlow := do
  if line.isEmpty then return .resume 0
  Program.ask (.pushHistory line)
  let aliases := (← Program.ask .host).collections.aliases
  shell.runRecorded context line (aliases.expand (Words.split line))

theorem execute_eq (line : String) : shell.execute line = (do
    let context ← shell.context
    let line ← shell.filtered context line
    shell.runLine context (trimBlank line)) := rfl

theorem leavesOpen_runLine (line : String) : (shell.runLine context line).LeavesOpen s := by
  unfold runLine
  split
  · trivial
  · exact asking Operation.noConfusion fun _ => asking Operation.noConfusion fun host =>
      (routine_runRecorded shell context line _).leavesOpen

theorem leavesOpen_execute (line : String) : (shell.execute line).LeavesOpen s := by
  rw [execute_eq]
  -- nothing depends on how the line is trimmed
  generalize trimBlank = trim
  exact (routine_context shell).leavesOpen.andThen fun context =>
    (routine_filtered shell context line).leavesOpen.andThen fun line =>
      leavesOpen_runLine shell context (trim line)

theorem leavesOpen_interactiveWithin (stdin : InputRef) (n : Nat) (status : Int) :
    (shell.interactiveWithin stdin n status).LeavesOpen s := by
  induction n generalizing status with
  | zero => trivial
  | succ n ih =>
    refine (routine_showPrompt shell).leavesOpen.andThen fun _ =>
      asking Operation.noConfusion fun item => ?_
    split
    · split
      · trivial
      · refine (leavesOpen_execute shell _).andThen fun flow => ?_
        split
        · exact ih _
        · trivial
    · exact (routine_say shell _).leavesOpen.andThen fun _ => trivial

theorem leavesOpen_interactive : shell.interactive.LeavesOpen s :=
  asking Operation.noConfusion fun _ => asking Operation.noConfusion fun _ =>
    leavesOpen_interactiveWithin shell _ _ _

end Shell
end ScriptShell
