import ScriptShell.Proofs.AskedOperations
import ScriptShell.Proofs.PropertyWrites
import ScriptShell.Proofs.ShellTurns

/-! # What the history holds

There is one operation that changes the history, and it adds a line at the end
(`World.history_answer`).  Guest code does not come to ask for it, nor do the functions of the shell,
so invocations leave the history alone (`Program.Confined.inside`).  Of the shell's own programs only
`Shell.runLine` asks for it, once for every line that is not empty and before the line runs, and all
others are routine.  So over the lines that the loop goes through the history grows by these lines
(`Shell.Ran.logged`), and at every moment of a run it holds what has been executed until then
(`Shell.Executed.logged`).
-/

namespace ScriptShell

open Guest (Value RuntimeRef)

variable {α : Type} {n b : Nat} {r : RuntimeRef}

/-! ## The operation that records -/

/-- Whether an operation adds to the history. -/
def Operation.records : Operation → Bool
  | .pushHistory _ => true
  | _ => false

/-- Whether a program does not add to the history, whatever it is answered. -/
def Program.RecordsNothing (p : Program α) : Prop := p.AsksOnly (·.records = false)

theorem Operation.records_of_isGuest {o : Operation} (ho : o.isGuest = true) :
    o.records = false := by
  cases o with
  | pushHistory line => cases ho
  | _ => rfl

namespace World

variable {w : World}

/-- The lines of the history. -/
def history (w : World) : List String := w.host.collections.history.lines

/-- A write to a property table is no way to the history, not even one to the history's table. -/
theorem history_updateHost_set (w : World) (t : PropertyTable) (key v : HostValue) :
    (w.updateHost (t.set w.host key v)).2.history = w.history := by
  cases hset : t.set w.host key v with
  | error e => rfl
  | ok host =>
    refine List.ext_getElem? fun i => ?_
    have hline := PropertyTable.content?_of_set hset (t.line_not_mem_entries _ i)
    exact Option.map_injective (fun _ _ h => HostValue.text.inj h) hline

theorem history_updateHost_bindKey (w : World) (hooks : RegistryRef) (key : String)
    (v : HostValue) : (w.updateHost (w.host.bindKey hooks key v)).2.history = w.history := by
  unfold HostState.bindKey
  split
  · rfl
  · rfl

theorem history_closeSession (w : World) (s : SessionRef) :
    (w.closeSession s).history = w.history := by
  unfold closeSession
  dsimp only
  split
  · rfl
  · rfl

/-- **Nothing else changes the history.** -/
theorem history_answer (w : World) {o : Operation} (ho : o.records = false) :
    (w.answer o).2.history = w.history := by
  cases o with
  | pushHistory line => cases ho
  | read i format =>
    obtain ⟨_, _, h⟩ := w.read_eq i format
    show (w.read i format).2.history = _
    rw [h]
    rfl
  | setProperty t key v => exact w.history_updateHost_set t key v
  | bindKey hooks key v => exact w.history_updateHost_bindKey hooks key v
  | closeSession s => exact w.history_closeSession s
  | changeDirectory path =>
    obtain ⟨_, h⟩ := w.changeDirectory_eq path
    rw [h]
    rfl
  | _ => rfl

theorem history_begin (i : Invocation) (w : World) : (i.begin w).2.history = w.history := by
  unfold Invocation.begin
  dsimp only
  split
  · rfl
  · rfl

theorem history_lostBy (lines : List String) :
    LostBy (fun w => w.history = lines) (¬ ·.records = false) where
  answer w _ ho h := (w.history_answer (Classical.not_not.1 ho)).trans h
  begin i w h := (history_begin i w).trans h
  setContext _ _ _ h := h

end World

/-! ## Programs of the host -/

namespace Program

theorem Confined.asksOnly {asks : Operation → Prop} {invokes : Invocation → Prop} {p : Program α}
    (hp : p.Confined asks invokes) : p.AsksOnly asks := by
  induction p with
  | done a => trivial
  | raise v => exact hp.elim
  | exhausted => exact hp.elim
  | perform o k ih => exact ⟨hp.1, fun x => ih x (hp.2 x)⟩
  | call f args sites k ih => exact hp.elim
  | invoke i k ih => exact fun result => ih result (hp.2 result)

theorem Routine.recordsNothing {p : Program α} (hp : p.Routine) : p.RecordsNothing := by
  refine hp.asksOnly.mono fun o ho => ?_
  cases o with
  | pushHistory line => cases ho
  | _ => rfl

/-- **Inside the invocations of the host** nothing is asked for but what guest code and the functions
of the host ask for, whatever the host itself does. -/
theorem Confined.inside {asks may : Operation → Prop} {invokes : Invocation → Prop}
    {p : Program α} (hp : p.Confined may invokes)
    (guest : ∀ o : Operation, o.isGuest = true → asks o) {w : World} (host : w.HostAsksOnly asks)
    {m : Moment} (hm : Reaches n b r p w m) (inside : m.activations ≠ []) :
    m.rest.AsksOnly asks := by
  induction hm with
  | now => exact absurd rfl inside
  | perform _ ih => exact ih (hp.2 _) (host.of_eq (World.framed_answer _ _).hostCode) inside
  | inCall => exact hp.elim
  | afterCall => exact hp.elim
  | afterError => exact hp.elim
  | @inInvocation n b r α i k w m isOpen isWanted hbody _ =>
    exact hbody.asksOnly guest ((Guest.isGuest_callInScope ..).mono guest)
      (host.of_eq (i.begin_hostCode w))
  | @afterInvocation n b r α i k w w' m result returns _ ih =>
    have hkept := World.kept_hostCode.invoke n b r i w
    rw [returns] at hkept
    exact ih (hp.2 _) (host.of_eq hkept) inside

end Program

/-! ## The log -/

/-- The history holds lines of its own and after them those of the given ones that are not empty, and
no function of the host adds to it. -/
structure World.Logged (before lines : List String) (w : World) : Prop where
  /-- What it holds. -/
  history : w.history = before ++ lines.filter fun line => !line.isEmpty
  /-- No function of the host adds to it. -/
  host : w.HostAsksOnly (·.records = false)

namespace World.Logged

variable {before lines : List String} {line : String} {w w' : World}

theorem of_eq (h : w.Logged before lines) (hhost : w'.host = w.host)
    (hcode : w'.hostCode = w.hostCode) : w'.Logged before lines where
  history := by
    rw [World.history, hhost]
    exact h.history
  host := h.host.of_eq hcode

/-- A program that records nothing keeps the log. -/
theorem of_run (h : w.Logged before lines) {p : Program α} (hp : p.RecordsNothing)
    {outcome : Outcome α} (hr : (handlerWithin n b r).run p w = (outcome, w')) :
    w'.Logged before lines where
  history := by
    have hrun := (World.history_lostBy _).holds_run (fun _ => Operation.records_of_isGuest) hp h.host
      n b r h.history
    rwa [hr] at hrun
  host := by
    have hkept := World.kept_hostCode.run n b r p w
    rw [hr] at hkept
    exact h.host.of_eq hkept

/-- It keeps the log at every moment. -/
theorem of_reaches (h : w.Logged before lines) {p : Program α} (hp : p.RecordsNothing) {m : Moment}
    (hm : Reaches n b r p w m) : m.world.Logged before lines where
  history := (World.history_lostBy _).holds_reaches (fun _ => Operation.records_of_isGuest) hp h.host
    hm h.history
  host := by
    have hkept := World.kept_hostCode.reaches (fun w i => i.begin_hostCode w) hm
    exact h.host.of_eq hkept

/-- A line that is not empty is recorded. -/
theorem record (h : w.Logged before lines) (isLine : line.isEmpty = false) :
    (Shell.recorded line w).Logged before (lines ++ [line]) where
  history := by
    show w.history ++ [line] = _
    rw [h.history, List.filter_append, List.append_assoc]
    congr 2
    simp [isLine]
  host := h.host

/-- An empty one is not. -/
theorem skip (h : w.Logged before lines) (isEmpty : line.isEmpty = true) :
    w.Logged before (lines ++ [line]) where
  history := by
    rw [h.history, List.filter_append]
    simp [isEmpty]
  host := h.host

end World.Logged

namespace Shell

variable {s : Shell} {before lines : List String} {w w' : World}

/-! ## The loop -/

theorem routine_nextLine (s : Shell) (stdin : InputRef) (status : Int) :
    (s.nextLine stdin status).Routine := by
  refine (routine_showPrompt s).andThen fun _ => .asking (by rfl) fun item => ?_
  split
  · split
    · trivial
    · exact .andThen (routine_context s) fun context =>
        .andThen (routine_filtered s context _) fun line => trivial
  · exact .andThen (routine_say s _) fun _ => trivial

theorem Takes.logged {stdin : InputRef} {context : Context} {line : String}
    (h : s.Takes n b r stdin w context line w') (hw : w.Logged before lines) :
    w'.Logged before lines :=
  hw.of_run (routine_nextLine s stdin 0).recordsNothing (h.run 0)

/-- A line that has come to an end is in the log if it is not empty. -/
theorem logged_runLine {context : Context} {line : String} {outcome : Outcome CommandFlow}
    (hr : (handlerWithin n b r).run (s.runLine context line) w = (outcome, w'))
    (hw : w.Logged before lines) : w'.Logged before (lines ++ [line]) := by
  unfold runLine at hr
  split at hr
  · next isEmpty =>
    cases hr
    exact hw.skip isEmpty
  · next isLine =>
    exact (hw.record (Bool.eq_false_iff.2 isLine)).of_run
      (routine_runRecorded s context line (wordsOf line w)).recordsNothing hr

/-- **The log after the lines that the loop has gone through.** -/
theorem Ran.logged {status : Int} (h : s.Ran n b r w lines status w') (hw : w.Logged before []) :
    w'.Logged before lines := by
  induction h with
  | start => exact hw
  | turn _ takes runs ih => exact logged_runLine runs (takes.logged ih)

theorem Ended.logged {result : Except Fatal Int} (h : s.Ended n b r w lines result w')
    (hw : w.Logged before []) : w'.Logged before lines := by
  cases h with
  | input ran ends =>
    exact (ran.logged hw).of_run (routine_nextLine s _ _).recordsNothing ends
  | exit ran takes exits => exact logged_runLine exits (takes.logged (ran.logged hw))
  | bound ran many => exact ran.logged hw

theorem recordsNothing_finish (s : Shell) (result : Except Fatal Int) :
    (s.finish result).RecordsNothing := by
  cases result with
  | ok status => exact ⟨rfl, fun _ => trivial⟩
  | error e => trivial

/-- **The log at a moment** holds the lines that have been executed until then. -/
theorem Executed.logged {m : Moment} (h : s.Executed n b r w lines m) (hw : w.Logged before []) :
    m.world.Logged before lines := by
  have hstart {w₀ : World} (starts : (handlerWithin n b r).run s.start w = (.value (), w₀)) :=
    hw.of_run (routine_start s).recordsNothing starts
  cases h with
  | starting hm beside =>
    have hlogged := hw.of_reaches (routine_start s).recordsNothing hm
    rwa [beside.2] at hlogged
  | waiting starts ran hm beside =>
    have hlogged := (ran.logged (hstart starts)).of_reaches (routine_nextLine s _ _).recordsNothing hm
    rwa [beside.2] at hlogged
  | running starts ran takes isLine hm beside =>
    have hlogged := ((takes.logged (ran.logged (hstart starts))).record isLine).of_reaches
      (routine_runRecorded s _ _ _).recordsNothing hm
    rwa [beside.2] at hlogged
  | finishing starts ended hm beside =>
    have hlogged := (ended.logged (hstart starts)).of_reaches (recordsNothing_finish s _) hm
    rwa [beside.2] at hlogged

/-- The shell runs guest code by invocations only. -/
theorem confined_run (s : Shell) (mode : Mode) :
    (s.run mode).Confined (fun _ => True) fun _ => True := by
  rw [run_eq]
  have hwork : (s.work mode).LeavesOpen default := leavesOpen_work s mode
  refine .andThen (hwork.mono (fun _ _ => trivial) fun _ _ => trivial) fun result => ?_
  cases result with
  | ok status => exact .asking trivial fun _ => trivial
  | error e => trivial

/-! ## A new shell -/

theorem mem_hostCode_addFunctions {w : World} {code : HostCode}
    (h : code ∈ (addFunctions w).2.hostCode) : code ∈ w.hostCode ∨ ∀ values c,
      (code values c).Routine := by
  have hpushed : (addFunctions w).2.hostCode =
    (((w.hostCode.push exec).push eval).push getcwd).push chdir := rfl
  rw [hpushed] at h
  simp only [Array.mem_push] at h
  rcases h with (((h | rfl) | rfl) | rfl) | rfl
  · exact .inl h
  · exact .inr routine_exec
  · exact .inr routine_eval
  · exact .inr routine_getcwd
  · exact .inr routine_chdir

/-- The log of a new shell is empty. -/
theorem logged_ofIo {start : World} {config : Config} {io : CommandIo} {interrupt : InterruptRef}
    {vars : List (String × String)} (host : start.HostAsksOnly (·.records = false))
    (hmade : ofIo start config io interrupt vars = .ok (s, w)) : w.Logged [] [] := by
  have hcode (code : HostCode) (h : code ∈ (addFunctions start).2.hostCode) (values : List HostValue)
      (call : HostCall) : (code values call).RecordsNothing := by
    rcases mem_hostCode_addFunctions h with old | routine
    · exact host code old values call
    · exact (routine values call).recordsNothing
  unfold ofIo at hmade
  dsimp only at hmade
  split at hmade
  · cases hmade
  · split at hmade
    · cases hmade
    · next made =>
      cases hmade
      cases hadd : World.addSession .. with
      | error e => cases (Bridge.run_newSession_of_error hadd).symm.trans made
      | ok placed =>
        cases (Bridge.run_newSession_of_ok hadd).symm.trans made
        unfold World.addSession at hadd
        split at hadd
        · cases hadd
        · cases hadd
          exact ⟨rfl, hcode⟩

end Shell

/-! ## The main result -/

/-- **The history of an interactive run.**  A new shell has nothing in its history.  Every moment of
its run is one at which some lines have been executed, and at such a moment the history holds those
of them that are not empty, in this order.  Inside the invocations of hooks and scripts, whatever
these do, no operation changes it. -/
theorem history_of_executed_lines (n b : Nat) (r : RuntimeRef) (start : World) (config : Config)
    (io : CommandIo) (interrupt : InterruptRef) (vars : List (String × String)) (shell : Shell)
    (w : World) (host : start.HostAsksOnly (·.records = false))
    (hmade : Shell.ofIo start config io interrupt vars = .ok (shell, w)) :
    (∀ m, Reaches n b r (shell.run .interactive) w m → ∃ lines, shell.Executed n b r w lines m) ∧
    (∀ lines m, shell.Executed n b r w lines m →
      m.world.history = lines.filter fun line => !line.isEmpty) ∧
    (∀ m, Reaches n b r (shell.run .interactive) w m → m.activations ≠ [] →
      ∀ o, m.Asks o → (m.world.answer o).2.history = m.world.history) := by
  have hw := Shell.logged_ofIo host hmade
  refine ⟨fun m hm => Shell.exists_executed hm, fun lines m executed => ?_,
    fun m hm inside o hasks => ?_⟩
  · have hlines := (executed.logged hw).history
    rwa [List.nil_append] at hlines
  · have hconfined : (shell.run .interactive).Confined (fun _ => True) fun _ => True :=
      Shell.confined_run shell .interactive
    have hrest := hconfined.inside (fun _ => Operation.records_of_isGuest) hw.host hm inside
    obtain ⟨k, hk⟩ := hasks
    rw [hk] at hrest
    exact m.world.history_answer hrest.1

/-- A script reads a line, which is not recorded, and a blank line follows, which is not recorded
either. -/
theorem history_beside_script :
    let start : World :=
      { inputs := #[{ rest := Utf8.encode "lua io.read()\nx\n \ncd\n" }]
        outputs := #[{}, {}]
        signals := { states := #[{}] }
        interrupts := #[⟨0⟩] }
    ∃ shell w m lines, Shell.ofIo start {} ⟨⟨0⟩, ⟨0⟩, ⟨1⟩⟩ ⟨0⟩ [] = .ok (shell, w) ∧
      Reaches 9 9 ⟨0⟩ (shell.run .interactive) w m ∧ shell.Executed 9 9 ⟨0⟩ w lines m ∧
      (lines.filter fun line => !line.isEmpty) = ["lua io.read()", "cd"] := by
  intro start
  -- the shell is made, and its run ends with these lines in the history
  have hcheck : (Shell.ofIo start {} ⟨⟨0⟩, ⟨0⟩, ⟨1⟩⟩ ⟨0⟩ []).toOption.any (fun made =>
      let left := (handlerWithin 9 9 ⟨0⟩).run (made.1.run .interactive) made.2
      left.1.value?.isSome && left.2.history == ["lua io.read()", "cd"]) = true := by
    decide +kernel
  obtain ⟨⟨shell, w⟩, hmade, hcheck⟩ := exists_ok_of_any hcheck
  simp only [Bool.and_eq_true, beq_iff_eq] at hcheck
  obtain ⟨result, w', hr, hhistory⟩ := Outcome.exists_of_value? (p := fun w => w.history = _)
    hcheck.1 hcheck.2
  have host : start.HostAsksOnly (·.records = false) := fun code hcode =>
    (Array.not_mem_empty code hcode).elim
  obtain ⟨hexecuted, hholds, -⟩ :=
    history_of_executed_lines 9 9 ⟨0⟩ start {} _ ⟨0⟩ [] shell w host hmade
  obtain ⟨lines, executed⟩ := hexecuted _ (reaches_value hr)
  exact ⟨shell, w, _, lines, hmade, reaches_value hr, executed,
    (hholds lines _ executed).symm.trans hhistory⟩

end ScriptShell
