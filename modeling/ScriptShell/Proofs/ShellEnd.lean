import ScriptShell.Proofs.Causes
import ScriptShell.Proofs.Closing
import ScriptShell.Proofs.ShellPrograms

/-! # How the shell ends

The shell closes its session as the last thing that it does before it returns a status.  It returns
an error where a line of its input is no text, and there it does not come to the last thing.

That nothing else closes the session is not a fact about the end but about everything before it:
between two states of a run in which a session is open and closed there is a moment at which closing
it is asked for (`exists_closing`), and what the shell does of its own never asks for it
(`Program.LeavesOpen`), so such a moment is one of the guest's.
-/

namespace ScriptShell

open Guest (Value RuntimeRef)

variable {α : Type} {n b : Nat} {r : RuntimeRef}

theorem Program.andThen_assoc {β γ : Type} (p : Program α) (f : α → Program β)
    (g : β → Program γ) : p >>= f >>= g = p >>= fun a => f a >>= g := Program.bind_assoc p f g

theorem Program.pure_andThen {β : Type} (a : α) (f : α → Program β) :
    (pure a : Program α) >>= f = f a := Program.pure_bind a f

/-! ## Who closes a session -/

section Closers

variable {s : SessionRef} {w w' : World}

/-- No other operation closes a session. -/
theorem World.closed_answer_of_ne (w : World) {o : Operation} (ho : o ≠ .closeSession s) :
    ((w.answer o).2.session s).closed = (w.session s).closed := by
  rcases (w.framed_answer o).sessions with h | ⟨t, rfl⟩
  · rw [World.session, World.session, h]
  · have hst : t.id ≠ s.id := fun he => ho (congrArg Operation.closeSession (SessionRef.ext he))
    show ((w.closeSession t).session s).closed = _
    unfold World.closeSession
    dsimp only
    split
    · rfl
    · show ((w.sessions.setIfInBounds t.id { w.session t with closed := true })[s.id]?.getD
        default).closed = _
      rw [Array.getElem?_setIfInBounds, if_neg hst]
      rfl

theorem World.session_begin (w : World) (i : Invocation) :
    (i.begin w).2.session s = w.session s := by
  rw [World.session, World.session, i.begin_sessions w]

/-- An open session stays open unless it is closed. -/
theorem World.open_lostBy (s : SessionRef) :
    LostBy (fun w => (w.session s).closed = false) (· = .closeSession s) where
  answer w _ ho hopen := (w.closed_answer_of_ne ho).trans hopen
  begin i w hopen := (congrArg SessionState.closed (w.session_begin i)).trans hopen
  setContext _ _ _ hopen := hopen

/-- **A session that is closed in the end and was open at first** is closed at a moment of the
run. -/
theorem exists_closing (n b : Nat) (r : RuntimeRef) (p : Program α) (w : World)
    (hopen : (w.session s).closed = false)
    (hclosed : (((handlerWithin n b r).run p w).2.session s).closed = true) :
    ∃ m, Reaches n b r p w m ∧ m.Asks (.closeSession s) := by
  have hlost : ¬ (((handlerWithin n b r).run p w).2.session s).closed = false := by
    rw [hclosed]
    exact Bool.noConfusion
  obtain ⟨m, o, hm, hasks, rfl⟩ := (World.open_lostBy s).occurs_run n b r p w hopen hlost
  exact ⟨m, hm, hasks⟩

end Closers

namespace Shell

variable (shell : Shell)

/-! ## The loop -/

/-- The shell reads a line from an input that is no text, which leaves a state. -/
def ReadsNoText (stdin : InputRef) (m : Moment) (w' : World) : Prop :=
  m.activations = [] ∧ m.Asks (.read stdin (.line true)) ∧
    ∃ bytes, m.world.read stdin (.line true) = (.bytes bytes, w') ∧ Utf8.decode? bytes = none

/-- The loop ends with an error where it reads no text, and there only. -/
theorem interactiveWithin_error {stdin : InputRef} {lines : Nat} {status : Int} {w w' : World}
    {e : Fatal} (hr : (handlerWithin n b r).run (shell.interactiveWithin stdin lines status) w =
      (.value (.error e), w')) :
    e = unreadable .invalidData ∧
      ∃ m, Reaches n b r (shell.interactiveWithin stdin lines status) w m ∧
        ReadsNoText stdin m w' := by
  induction lines generalizing status w with
  | zero => cases hr
  | succ lines ih =>
    obtain ⟨_, w₁, hshow, hr⟩ := Handler.run_bind_value hr
    have hread : w₁.answer (.read stdin (.line true)) = w₁.read stdin (.line true) := rfl
    rw [Handler.run_ask_bind, hread] at hr
    cases hitem : w₁.read stdin (.line true) with
    | mk item w₂ =>
      rw [hitem] at hr
      -- at the end of the input the loop ends without an error
      have hend (h : (handlerWithin n b r).run (do
          shell.say "\n"
          return .ok status : Program (Except Fatal Int)) w₂ = (.value (.error e), w')) : False := by
        obtain ⟨_, _, -, h⟩ := Handler.run_bind_value h
        cases h
      cases item with
      | bytes bytes =>
        dsimp only at hr
        cases hdecode : Utf8.decode? bytes with
        | none =>
          rw [hdecode] at hr
          cases hr
          exact ⟨rfl, _, .bind_right hshow .now, rfl, ⟨_, rfl⟩, bytes, hitem, hdecode⟩
        | some line =>
          rw [hdecode] at hr
          obtain ⟨flow, w₃, hexecute, hr⟩ := Handler.run_bind_value hr
          cases flow with
          | exit status => cases hr
          | resume status =>
            obtain ⟨he, m, hm, hreads⟩ := ih hr
            refine ⟨he, m, .bind_right hshow (.perform ?_), hreads⟩
            rw [hread, hitem, Program.pure_bind]
            dsimp only
            rw [hdecode]
            exact .bind_right hexecute hm
      | absent => exact (hend hr).elim
      | int i => exact (hend hr).elim
      | num x => exact (hend hr).elim

/-! ## The whole run -/

/-- The shell loads the startup scripts. -/
def start : Program Unit := do
  match ← (shell.session.loadStartupScripts (← shell.context)).run with
  | .ok _ => return ()
  | .error e => shell.report ("moonsh: startup: " ++ e.message)

/-- It does what the mode asks for. -/
def obey : Mode → Program (Except Fatal Int)
  | .command line => do
    match ← shell.execute line with
    | .resume status | .exit status => return .ok status
  | .script path args => return .ok (← shell.runScript path args)
  | .interactive => shell.interactive

/-- What it does before it ends. -/
def work (mode : Mode) : Program (Except Fatal Int) := do
  shell.start
  shell.obey mode

/-- It ends with what has come of its work. -/
def finish : Except Fatal Int → Program (Except Fatal Nat)
  | .ok status => do
    Program.ask (.closeSession shell.session)
    return .ok (exitCode status)
  | .error e => return .error e

theorem obey_finish (mode : Mode) : shell.obey mode >>= shell.finish =
    match mode with
    | .command line => shell.execute line >>= fun
      | .resume status | .exit status => shell.finish (.ok status)
    | .script path args => shell.runScript path args >>= fun status => shell.finish (.ok status)
    | .interactive => shell.interactive >>= shell.finish := by
  cases mode with
  | interactive => rfl
  | command line =>
    refine (Program.bind_assoc _ _ _).trans (congrArg _ (funext fun flow => ?_))
    cases flow <;> rfl
  | script path args => exact Program.bind_assoc _ _ _

/-- A run is the work and the end. -/
theorem run_eq (mode : Mode) : shell.run mode = shell.work mode >>= shell.finish := by
  unfold run work start
  simp only [Program.andThen_assoc, obey_finish]
  refine congrArg _ (funext fun context => congrArg _ (funext fun result => ?_))
  cases result with
  | ok report => cases mode <;> rfl
  | error e => exact congrArg (shell.report _ >>= ·) (funext fun _ => by cases mode <;> rfl)

theorem routine_start : shell.start.Routine := by
  refine (routine_context shell).andThen fun context => ?_
  refine .andThen (SessionRef.Use.routine .startup) fun result => ?_
  split
  · trivial
  · exact routine_report shell _

theorem leavesOpen_obey {s : SessionRef} (mode : Mode) : (shell.obey mode).LeavesOpen s := by
  cases mode with
  | interactive => exact leavesOpen_interactive shell
  | command line =>
    refine (leavesOpen_execute shell line).andThen fun flow => ?_
    cases flow with
    | resume status => trivial
    | exit status => trivial
  | script path args =>
    exact .andThen (routine_runScript shell path args).leavesOpen fun _ => trivial

theorem leavesOpen_work {s : SessionRef} (mode : Mode) : (shell.work mode).LeavesOpen s :=
  .andThen (routine_start shell).leavesOpen fun _ => leavesOpen_obey shell mode

/-- What the mode asks for ends with an error in the loop only. -/
theorem obey_error {mode : Mode} {w w' : World} {e : Fatal}
    (hr : (handlerWithin n b r).run (shell.obey mode) w = (.value (.error e), w')) :
    mode = .interactive ∧ e = unreadable .invalidData ∧
      ∃ m stdin, Reaches n b r (shell.obey mode) w m ∧ ReadsNoText stdin m w' := by
  cases mode with
  | command line =>
    obtain ⟨flow, w₁, -, hr⟩ := Handler.run_bind_value hr
    cases flow with
    | resume status => cases hr
    | exit status => cases hr
  | script path args =>
    obtain ⟨status, w₁, -, hr⟩ := Handler.run_bind_value hr
    cases hr
  | interactive =>
    obtain ⟨he, m, hm, hreads⟩ := interactiveWithin_error shell hr
    exact ⟨rfl, he, m, _, .perform (.perform hm), hreads⟩

theorem ReadsNoText.beside {stdin : InputRef} {m m' : Moment} {w' : World}
    (h : ReadsNoText stdin m w') (hb : m.Beside m') (hasks : ∀ o, m.Asks o → m'.Asks o) :
    ReadsNoText stdin m' w' := by
  obtain ⟨hout, hread, hbytes⟩ := h
  refine ⟨hb.1.trans hout, hasks _ hread, ?_⟩
  rw [hb.2]
  exact hbytes

section Run

variable {shell} {mode : Mode} {w w' : World}

/-- A run that returns comes to the end of its work. -/
theorem work_of_run {outcome : Outcome (Except Fatal Nat)}
    (hr : (handlerWithin n b r).run (shell.run mode) w = (outcome, w'))
    (hret : outcome.ended = true) :
    ∃ result w₁, (handlerWithin n b r).run (shell.work mode) w = (.value result, w₁) ∧
      (handlerWithin n b r).run (shell.finish result) w₁ = (outcome, w') := by
  have hleaves : (shell.work mode).LeavesOpen shell.session := leavesOpen_work shell mode
  rw [run_eq] at hr
  have hbind := (handlerWithin n b r).run_bind (shell.work mode) shell.finish w
  cases hwork : (handlerWithin n b r).run (shell.work mode) w with
  | mk ended w₁ =>
    rw [hwork] at hbind
    have hend := hr.symm.trans hbind
    cases ended with
    | value result => exact ⟨result, w₁, rfl, hend.symm⟩
    | error v => exact absurd (congrArg Prod.fst hwork) (hleaves.run_ne_error v)
    | exhausted =>
      cases hend
      cases hret

/-- What the work comes through, the run comes through. -/
theorem reaches_run {m : Moment} (hm : Reaches n b r (shell.work mode) w m) :
    ∃ m', Reaches n b r (shell.run mode) w m' ∧ m.Beside m' ∧ ∀ o, m.Asks o → m'.Asks o := by
  rw [run_eq]
  obtain ⟨m', hm', hb, hasks, -⟩ := hm.bind_left shell.finish
  exact ⟨m', hm', hb, hasks⟩

/-- Work that ends with an error is that of the loop, at a line that is no text. -/
theorem work_error {e : Fatal}
    (hr : (handlerWithin n b r).run (shell.work mode) w = (.value (.error e), w')) :
    mode = .interactive ∧ e = unreadable .invalidData ∧
      ∃ m stdin, Reaches n b r (shell.run mode) w m ∧ ReadsNoText stdin m w' := by
  obtain ⟨_, w₀, hstart, hobey⟩ := Handler.run_bind_value hr
  obtain ⟨rfl, rfl, m, stdin, hm, hreads⟩ := obey_error shell hobey
  obtain ⟨m', hm', hb, hasks⟩ := reaches_run (.bind_right hstart hm)
  exact ⟨rfl, rfl, m', stdin, hm', hreads.beside hb hasks⟩

/-- A session that is closed while the shell works is closed inside an invocation. -/
theorem closing_in_work {s : SessionRef} (hopen : (w.session s).closed = false)
    (hclosed : (((handlerWithin n b r).run (shell.work mode) w).2.session s).closed = true) :
    ∃ m, Reaches n b r (shell.run mode) w m ∧ m.activations ≠ [] ∧ m.Asks (.closeSession s) := by
  obtain ⟨m, hm, hcloses⟩ := exists_closing n b r _ w hopen hclosed
  obtain ⟨m', hm', hb, hasks⟩ := reaches_run hm
  refine ⟨m', hm', ?_, hasks _ hcloses⟩
  rw [hb.1]
  exact (leavesOpen_work shell mode).activations_ne_nil hm hcloses

end Run

end Shell

/-! ## The main result -/

/-- **How a shell ends.**  It returns a status, and then its session is closed; or it returns an
error, and then it is interactive and the last thing that it has done is to read a line that is no
text.  In that case it has not closed its session: if this was open before the run and is closed
after it, it was closed by an invocation, at a moment of the run.  No error of the guest ends the
shell. -/
theorem shell_ends (n b : Nat) (r : RuntimeRef) (shell : Shell) (mode : Mode) (w w' : World)
    (outcome : Outcome (Except Fatal Nat)) (hs : shell.session.id < w.sessions.size)
    (hr : (handlerWithin n b r).run (shell.run mode) w = (outcome, w'))
    (hret : outcome.ended = true) :
    (∃ code, outcome = .value (.ok code) ∧ (w'.session shell.session).closed = true) ∨
      (mode = .interactive ∧ outcome = .value (.error (Shell.unreadable .invalidData)) ∧
        (∃ m stdin, Reaches n b r (shell.run mode) w m ∧ Shell.ReadsNoText stdin m w') ∧
        ((w.session shell.session).closed = false → (w'.session shell.session).closed = true →
          ∃ m, Reaches n b r (shell.run mode) w m ∧ m.activations ≠ [] ∧
            m.Asks (.closeSession shell.session))) := by
  obtain ⟨result, w₁, hwork, hend⟩ := Shell.work_of_run hr hret
  cases result with
  | ok status =>
    cases hend
    refine .inl ⟨_, rfl, World.closed_closeSession ?_ (.inl rfl)⟩
    -- the session is there when it is closed
    have hkept := World.KeepsClosed.kept.run n b r (shell.work mode) w
    rw [hwork] at hkept
    exact Nat.lt_of_lt_of_le hs hkept.size
  | error e =>
    cases hend
    obtain ⟨rfl, rfl, hreads⟩ := Shell.work_error hwork
    refine .inr ⟨rfl, rfl, hreads, fun hopen hclosed => Shell.closing_in_work hopen ?_⟩
    rw [hwork]
    exact hclosed

/-- What is made without an error and passes a check. -/
theorem exists_ok_of_any {ε : Type} {made : Except ε α} {check : α → Bool}
    (h : made.toOption.any check = true) : ∃ a, made = .ok a ∧ check a = true := by
  cases made with
  | error e => cases h
  | ok a => exact ⟨a, rfl, h⟩

/-- A new shell that reads a byte which begins no character, and a line break: it returns an error
that says so, and its session is open. -/
theorem shell_left_open :
    let start : World :=
      { inputs := #[{ rest := [0xff, 0x0a] }]
        outputs := #[{}, {}]
        signals := { states := #[{}] }
        interrupts := #[⟨0⟩] }
    ∃ shell w w', Shell.ofIo start {} ⟨⟨0⟩, ⟨0⟩, ⟨1⟩⟩ ⟨0⟩ [] = .ok (shell, w) ∧
      shell.session.id < w.sessions.size ∧
      (handlerWithin 2 2 ⟨0⟩).run (shell.run .interactive) w =
        (.value (.error (Shell.unreadable .invalidData)), w') ∧
      (Shell.unreadable .invalidData).message =
        "reading input: stream did not contain valid UTF-8" ∧
      (w'.session shell.session).closed = false := by
  intro start
  -- the shell is made, its session exists, and its run ends with that session open
  have hcheck : (Shell.ofIo start {} ⟨⟨0⟩, ⟨0⟩, ⟨1⟩⟩ ⟨0⟩ []).toOption.any (fun made =>
      let left := (handlerWithin 2 2 ⟨0⟩).run (made.1.run .interactive) made.2
      decide (made.1.session.id < made.2.sessions.size) && left.1.ended &&
        !(left.2.session made.1.session).closed) = true := by decide +kernel
  obtain ⟨⟨shell, w⟩, hmade, hcheck⟩ := exists_ok_of_any hcheck
  simp only [Bool.and_eq_true, decide_eq_true_eq, Bool.not_eq_true'] at hcheck
  obtain ⟨⟨hs, hret⟩, hopen⟩ := hcheck
  cases hr : (handlerWithin 2 2 ⟨0⟩).run (shell.run .interactive) w with
  | mk outcome w' =>
    rw [hr] at hret hopen
    rcases shell_ends 2 2 ⟨0⟩ shell .interactive w w' outcome hs hr hret with
      ⟨_, -, hclosed⟩ | ⟨-, rfl, -, -⟩
    · rw [hopen] at hclosed
      cases hclosed
    · exact ⟨shell, w, w', hmade, hs, hr, by decide, hopen⟩

end ScriptShell
