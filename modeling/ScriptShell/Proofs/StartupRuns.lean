import ScriptShell.Proofs.ScriptFiles
import ScriptShell.Proofs.ScriptListings

/-! # Startup

Loading the startup scripts gives each of them a turn, one after the other: the script is run, its
failure is reported, and the next turn begins in the state that this leaves.  `SessionRef.turns` are
the turns of a run, each with the states before and after it, so what the run ends with can be read
off them (`SessionRef.concludes_runAll`), and every invocation in the run belongs to one of them
(`SessionRef.reaches_runAll`).

Only a cancellation ends the run early.  It is told by the context: a script whose turn ends so
leaves the context cancelled (`SessionRef.cancelled_of_runFile`), and since signals stay cancelled,
a turn that comes later begins with a cancelled context and starts no code of the guest.
-/

namespace ScriptShell

open Guest (Value RuntimeRef Proto)
open SessionRef (StartupReport)

/-! ## Reports -/

namespace World

/-- Where the shell of a session writes errors to; in the place of a shell that is gone, the process
does. -/
def errorOutput (w : World) (s : SessionRef) : OutputRef :=
  let shell := w.shell (w.session s).shell
  (if shell.alive then shell.io else w.processIo).stderr

/-- The state in which a line has been written to the error output. -/
def reported (w : World) (s : SessionRef) (line : String) : World :=
  w.write (w.errorOutput s) (Utf8.encode (line ++ "\n"))

theorem signalled_reported (w : World) (s : SessionRef) (line : String) :
    w.Signalled (w.reported s line) := .of_eq rfl

end World

theorem SessionRef.run_report (hd : Handler) (s : SessionRef) (line : String) (w : World) :
    hd.run (s.report line) w = (.value (), w.reported s line) := by
  have hpipes : hd.run s.pipes w =
      (.value (if (w.shell (w.session s).shell).alive then (w.shell (w.session s).shell).io
        else w.processIo), w) := by
    rw [pipes, Handler.run_ask_bind, Handler.run_ask_bind]
    show hd.run (if (w.shell (w.session s).shell).alive then _ else _ : Program CommandIo) w = _
    split <;> rfl
  rw [report, Handler.run_bind_of_value hpipes]
  rfl

/-! ## Turns -/

/-- The turn of a script: where it is run, and how that ends. -/
structure Turn where
  /-- The script. -/
  path : String
  /-- The state before. -/
  before : World
  /-- What comes of running it. -/
  outcome : Outcome (Except BridgeError (List HostValue))
  /-- The state after. -/
  after : World

namespace Turn

/-- The error with which the script has failed, if it has. -/
def error? (t : Turn) : Option BridgeError :=
  match t.outcome with
  | .value (.error e) => some e
  | _ => none

/-- Whether the other scripts have their turns too: this one has come to an end, and has not been
cancelled. -/
def passes (t : Turn) : Bool :=
  match t.outcome with
  | .value (.error .cancelled) => false
  | .value _ => true
  | _ => false

/-- The state in which the next turn begins: a failure has been reported. -/
def left (s : SessionRef) (t : Turn) : World :=
  match t.error? with
  | none | some .cancelled => t.after
  | some e => t.after.reported s (t.path ++ ": " ++ e.message)

/-- What the run ends with if the turn does not pass. -/
def stop (t : Turn) : Outcome (Except BridgeError StartupReport) :=
  match t.outcome with
  | .value _ => .value (.error .cancelled)
  | .error v => .error v
  | .exhausted => .exhausted

/-- What a report says of turns. -/
def report (turns : List Turn) : StartupReport where
  loaded := (turns.filter (·.error?.isNone)).map (·.path)
  failed := turns.filterMap fun t => t.error?.map fun e => (t.path, e.message)

/-- A turn that does not pass is cancelled, or has no end that its caller sees. -/
theorem cases_of_stops {t : Turn} (h : t.passes = false) :
    t.outcome = .value (.error .cancelled) ∨ (∃ v, t.outcome = .error v) ∨
      t.outcome = .exhausted := by
  unfold passes at h
  split at h
  · exact .inl ‹_›
  · cases h
  · cases houtcome : t.outcome with
    | value result => exact absurd houtcome (‹∀ result, t.outcome ≠ .value result› result)
    | error v => exact .inr (.inl ⟨v, rfl⟩)
    | exhausted => exact .inr (.inr rfl)

/-- After a failure that is no cancellation the others have their turns, when it has been
reported. -/
theorem passes_of_failed {s : SessionRef} {t : Turn} {e : BridgeError}
    (h : t.outcome = .value (.error e)) (he : e ≠ .cancelled) :
    t.passes = true ∧ t.left s = t.after.reported s (t.path ++ ": " ++ e.message) := by
  rw [passes, left, error?, h]
  cases e with
  | cancelled => exact absurd rfl he
  | _ => exact ⟨rfl, rfl⟩

theorem signalled_left (s : SessionRef) (t : Turn) : t.after.Signalled (t.left s) := by
  unfold left
  split
  · exact .of_eq rfl
  · exact .of_eq rfl
  · exact World.signalled_reported _ _ _

end Turn

namespace SessionRef

/-- A report with what another one says after it. -/
def StartupReport.append (a b : StartupReport) : StartupReport where
  loaded := a.loaded ++ b.loaded
  failed := a.failed ++ b.failed

theorem StartupReport.append_cons (a : StartupReport) (t : Turn) (turns : List Turn) :
    (a.append (Turn.report [t])).append (Turn.report turns) =
      a.append (Turn.report (t :: turns)) := by
  unfold append Turn.report
  cases h : t.error? <;> simp [h]

/-- The turn of a script that is run in a state. -/
def turn (hd : Handler) (s : SessionRef) (context : Context) (path : String) (w : World) : Turn :=
  let run := hd.run (s.runFile context path).run w
  ⟨path, w, run.1, run.2⟩

/-- The turns of scripts, up to the first that does not pass. -/
def turns (hd : Handler) (s : SessionRef) (context : Context) : List String → World → List Turn
  | [], _ => []
  | path :: rest, w =>
    let t := turn hd s context path w
    if t.passes then t :: turns hd s context rest (t.left s) else [t]

/-! ## The run -/

section Runs

variable {n b : Nat} {r : RuntimeRef} {s : SessionRef} {context : Context} {w : World}

/-- What follows on a program that has no errors of its own. -/
theorem run_lift_bind {α β : Type} (p : Program α) (f : α → SessionProgram β) :
    (ExceptT.lift p >>= f).run = p.bind fun a => (f a).run :=
  Program.bind_assoc p _ _

/-- What a script's turn is followed by. -/
def afterTurn (s : SessionRef) (context : Context) (report : StartupReport) (path : String)
    (rest : List String) : Except BridgeError (List HostValue) → SessionProgram StartupReport
  | .ok _ => s.runAll context { report with loaded := report.loaded ++ [path] } rest
  | .error .cancelled => throw .cancelled
  | .error e => do
    ExceptT.lift (s.report (path ++ ": " ++ e.message))
    s.runAll context { report with failed := report.failed ++ [(path, e.message)] } rest

theorem runAll_cons (report : StartupReport) (path : String) (rest : List String) :
    (s.runAll context report (path :: rest)).run =
      (s.runFile context path).run.bind fun result =>
        (s.afterTurn context report path rest result).run := by
  rw [runAll, run_lift_bind]
  refine congrArg _ (funext fun result => ?_)
  cases result with
  | ok xs => rfl
  | error e => cases e <;> rfl

/-- The ways on from a turn that has ended: the others have their turns, at once or when a failure
has been reported, or nothing more is run. -/
theorem afterTurn_cases (s : SessionRef) (context : Context) (report : StartupReport)
    (rest : List String) {t : Turn} {result : Except BridgeError (List HostValue)}
    (hresult : t.outcome = .value result) :
    let later := s.runAll context (report.append (Turn.report [t])) rest
    (t.passes = true ∧ (s.afterTurn context report t.path rest result).run = later.run ∧
        t.left s = t.after) ∨
      (∃ line, t.passes = true ∧ (s.afterTurn context report t.path rest result).run =
          (s.report line).bind (fun _ => later.run) ∧ t.left s = t.after.reported s line) ∨
      t.passes = false ∧ s.afterTurn context report t.path rest result = throw .cancelled ∧
        t.left s = t.after := by
  intro later
  cases result with
  | ok xs =>
    have happend : report.append (Turn.report [t]) =
        { report with loaded := report.loaded ++ [t.path] } := by
      simp [StartupReport.append, Turn.report, Turn.error?, hresult]
    refine .inl ⟨by rw [Turn.passes, hresult], ?_, by rw [Turn.left, Turn.error?, hresult]⟩
    show _ = (s.runAll context (report.append (Turn.report [t])) rest).run
    rw [happend]
    rfl
  | error e =>
    by_cases he : e = .cancelled
    · subst he
      exact .inr (.inr ⟨by rw [Turn.passes, hresult], rfl, by rw [Turn.left, Turn.error?, hresult]⟩)
    · have happend : report.append (Turn.report [t]) =
          { report with failed := report.failed ++ [(t.path, e.message)] } := by
        simp [StartupReport.append, Turn.report, Turn.error?, hresult]
      obtain ⟨hpass, hleft⟩ := Turn.passes_of_failed (s := s) hresult he
      refine .inr (.inl ⟨t.path ++ ": " ++ e.message, hpass, ?_, hleft⟩)
      show _ = (s.report _).bind fun _ =>
        (s.runAll context (report.append (Turn.report [t])) rest).run
      rw [happend, ← run_lift_bind]
      cases e with
      | cancelled => exact absurd rfl he
      | _ => rfl

/-- **A run through scripts** is the first one's turn and, if that passes, a run through the
others. -/
theorem run_runAll_cons (hd : Handler) (report : StartupReport) (path : String)
    (rest : List String) (w : World) :
    let t := turn hd s context path w
    hd.run (s.runAll context report (path :: rest)).run w =
      if t.passes then
        hd.run (s.runAll context (report.append (Turn.report [t])) rest).run (t.left s)
      else (t.stop, t.left s) := by
  intro t
  rw [runAll_cons, Handler.run_bind]
  cases hrun : hd.run (s.runFile context path).run w with
  | mk outcome after =>
    have ht : t = ⟨path, w, outcome, after⟩ := by
      show turn hd s context path w = _
      rw [turn, hrun]
    have hpath : t.path = path := by rw [ht]
    have hafter : t.after = after := by rw [ht]
    cases outcome with
    | value result =>
      have hresult : t.outcome = .value result := by rw [ht]
      dsimp only
      rw [← hpath, ← hafter]
      rcases afterTurn_cases s context report rest hresult with
        ⟨hpass, hrest, hleft⟩ | ⟨line, hpass, hrest, hleft⟩ | ⟨hstop, hrest, hleft⟩
      · rw [if_pos hpass, hleft, hrest]
      · rw [if_pos hpass, hleft, hrest, Handler.run_bind, run_report]
      · rw [if_neg (by rw [hstop]; exact Bool.false_ne_true), hrest, hleft, Turn.stop, hresult]
        rfl
    | error v =>
      rw [ht]
      rfl
    | exhausted =>
      rw [ht]
      rfl

/-- A report is written outside all invocations. -/
theorem not_inside_report {line : String} {m : Moment} (inside : m.activations ≠ []) :
    ¬ Reaches n b r (s.report line) w m := by
  intro hm
  have hconfined := confined_report (fun _ => False) s line
  exact inside ((hconfined.idles fun _ hi => hi.elim).reaches hm).1.1

/-- Inside an invocation, what follows on a turn that has ended is the run through the others, if
the turn passes. -/
theorem reaches_afterTurn (report : StartupReport) (rest : List String) {t : Turn}
    {result : Except BridgeError (List HostValue)} {m : Moment} (inside : m.activations ≠ [])
    (hresult : t.outcome = .value result) :
    Reaches n b r (s.afterTurn context report t.path rest result).run t.after m ↔
      t.passes = true ∧
        Reaches n b r (s.runAll context (report.append (Turn.report [t])) rest).run (t.left s)
          m := by
  rcases afterTurn_cases s context report rest hresult with
    ⟨hpass, hrest, hleft⟩ | ⟨line, hpass, hrest, hleft⟩ | ⟨hstop, hrest, hleft⟩
  · rw [hrest, hleft]
    exact (and_iff_right hpass).symm
  · rw [hrest, hleft, reaches_bind_iff inside, and_iff_right hpass, run_report]
    refine (or_iff_right (not_inside_report inside)).trans ⟨?_, fun hm => ⟨(), _, rfl, hm⟩⟩
    rintro ⟨_, _, ⟨⟩, hm⟩
    exact hm
  · rw [hrest, hstop]
    refine iff_of_false (fun hm => ?_) fun h => Bool.noConfusion h.1
    cases hm
    exact inside rfl

/-- **Inside an invocation**, a run through scripts is in the first one's turn or, if that passes,
in the run through the others. -/
theorem reaches_runAll_cons (report : StartupReport) (path : String) (rest : List String)
    {m : Moment} (inside : m.activations ≠ []) :
    let t := turn (handlerWithin n b r) s context path w
    Reaches n b r (s.runAll context report (path :: rest)).run w m ↔
      Reaches n b r (s.runFile context path).run w m ∨
        t.passes = true ∧
          Reaches n b r (s.runAll context (report.append (Turn.report [t])) rest).run (t.left s)
            m := by
  intro t
  have hrun : (handlerWithin n b r).run (s.runFile context path).run w = (t.outcome, t.after) := rfl
  rw [runAll_cons, reaches_bind_iff inside, hrun]
  refine or_congr_right ⟨?_, fun h => ?_⟩
  · rintro ⟨result, after, hr, hm⟩
    obtain ⟨hresult, rfl⟩ := Prod.mk.inj hr
    exact (reaches_afterTurn report rest inside hresult).1 hm
  · cases houtcome : t.outcome with
    | value result =>
      exact ⟨result, t.after, rfl, (reaches_afterTurn report rest inside houtcome).2 h⟩
    | error _ | exhausted =>
      rw [Turn.passes, houtcome] at h
      cases h.1

end Runs

/-! ## All turns -/

/-- Whether a turn is the run of its script. -/
def Ran (hd : Handler) (s : SessionRef) (context : Context) (t : Turn) : Prop :=
  hd.run (s.runFile context t.path).run t.before = (t.outcome, t.after)

theorem ran_turn (hd : Handler) (s : SessionRef) (context : Context) (path : String) (w : World) :
    Ran hd s context (turn hd s context path w) :=
  Prod.ext rfl rfl

/-- Turns in a row: each is the run of its script, in the state that the one before has left. -/
inductive InTurns (hd : Handler) (s : SessionRef) (context : Context) :
    World → List Turn → World → Prop where
  /-- No more turns. -/
  | done (w : World) : InTurns hd s context w [] w
  /-- A turn, and others after it. -/
  | next {t : Turn} {ts : List Turn} {w' : World} (ran : Ran hd s context t)
      (later : InTurns hd s context (t.left s) ts w') : InTurns hd s context t.before (t :: ts) w'

/-- What the run ends with: after all turns with the report, and after one that does not pass with a
cancellation or not at all. -/
inductive Concludes (scripts : List String) (turns : List Turn) (report : StartupReport) :
    Outcome (Except BridgeError StartupReport) → Prop where
  /-- All scripts have had their turns. -/
  | finished (all : turns.map (·.path) = scripts) (passed : ∀ t ∈ turns, t.passes = true) :
      Concludes scripts turns report (.value (.ok report))
  /-- The last turn has been cancelled. -/
  | cancelled {earlier : List Turn} {last : Turn} (split : turns = earlier ++ [last])
      (passed : ∀ t ∈ earlier, t.passes = true)
      (stopped : last.outcome = .value (.error .cancelled)) :
      Concludes scripts turns report (.value (.error .cancelled))
  /-- The last turn does not end. -/
  | exhausted {earlier : List Turn} {last : Turn} (split : turns = earlier ++ [last])
      (passed : ∀ t ∈ earlier, t.passes = true) (stopped : last.outcome = .exhausted) :
      Concludes scripts turns report .exhausted

section Turns

variable {n b : Nat} {r : RuntimeRef} {s : SessionRef} {context : Context} {w w' : World}
  {scripts : List String} {ts : List Turn}

theorem inTurns_runAll (hd : Handler) (s : SessionRef) (context : Context) (report : StartupReport)
    (scripts : List String) (w : World) :
    InTurns hd s context w (turns hd s context scripts w)
      (hd.run (s.runAll context report scripts).run w).2 := by
  induction scripts generalizing report w with
  | nil => exact .done w
  | cons path rest ih =>
    rw [run_runAll_cons, turns]
    have ran := ran_turn hd s context path w
    have hbefore : (turn hd s context path w).before = w := rfl
    generalize turn hd s context path w = t at ran hbefore ⊢
    subst hbefore
    by_cases hpass : t.passes = true
    · rw [if_pos hpass, if_pos hpass]
      exact .next ran (ih _ _)
    · rw [if_neg hpass, if_neg hpass]
      exact .next ran (.done _)

theorem paths_turns (hd : Handler) (s : SessionRef) (context : Context) (scripts : List String)
    (w : World) : (turns hd s context scripts w).map (·.path) <+: scripts := by
  induction scripts generalizing w with
  | nil => exact List.prefix_rfl
  | cons path rest ih =>
    rw [turns]
    split
    · exact (List.prefix_cons_inj path).2 (ih _)
    · exact ⟨rest, rfl⟩

/-- What comes later concludes the whole, after a turn that passes. -/
theorem Concludes.cons {t : Turn} {report : StartupReport}
    {outcome : Outcome (Except BridgeError StartupReport)} (hpass : t.passes = true)
    (h : Concludes scripts ts report outcome) :
    Concludes (t.path :: scripts) (t :: ts) report outcome := by
  have hcons {ts : List Turn} (hts : ∀ u ∈ ts, u.passes = true) : ∀ u ∈ t :: ts, u.passes = true :=
    List.forall_mem_cons.2 ⟨hpass, hts⟩
  cases h with
  | finished all passed => exact .finished (congrArg _ all) (hcons passed)
  | cancelled split passed stopped => exact .cancelled (congrArg _ split) (hcons passed) stopped
  | exhausted split passed stopped => exact .exhausted (congrArg _ split) (hcons passed) stopped

theorem concludes_runAll (n b : Nat) (r : RuntimeRef) (s : SessionRef) (context : Context)
    (report : StartupReport) (scripts : List String) (w : World) :
    Concludes scripts (turns (handlerWithin n b r) s context scripts w)
      (report.append (Turn.report (turns (handlerWithin n b r) s context scripts w)))
      ((handlerWithin n b r).run (s.runAll context report scripts).run w).1 := by
  induction scripts generalizing report w with
  | nil =>
    have hsame : report.append (Turn.report []) = report := by
      simp [StartupReport.append, Turn.report]
    rw [turns, hsame]
    exact .finished rfl (List.forall_mem_nil _)
  | cons path rest ih =>
    rw [run_runAll_cons, turns]
    have ran := ran_turn (handlerWithin n b r) s context path w
    have hpath : (turn (handlerWithin n b r) s context path w).path = path := rfl
    generalize turn (handlerWithin n b r) s context path w = t at ran hpath ⊢
    subst hpath
    by_cases hpass : t.passes = true
    · have hrest := (ih (report.append (Turn.report [t])) (t.left s)).cons hpass
      rw [StartupReport.append_cons] at hrest
      rw [if_pos hpass, if_pos hpass]
      exact hrest
    · have hnone : ∀ t ∈ ([] : List Turn), t.passes = true := List.forall_mem_nil _
      rw [if_neg hpass, if_neg hpass, Turn.stop]
      rcases Turn.cases_of_stops (Bool.eq_false_iff.2 hpass) with hstop | ⟨v, hstop⟩ | hstop
      · rw [hstop]
        exact .cancelled (List.nil_append _).symm hnone hstop
      · -- no error of the guest gets past the running of a file
        rw [Ran, hstop] at ran
        exact absurd (congrArg Prod.fst ran) ((confined_runFile t.path).run_ne_error v)
      · rw [hstop]
        exact .exhausted (List.nil_append _).symm hnone hstop

/-- **Every invocation in a run through scripts** belongs to one of the turns. -/
theorem reaches_runAll (report : StartupReport) (scripts : List String) (w : World) {m : Moment}
    (inside : m.activations ≠ []) :
    Reaches n b r (s.runAll context report scripts).run w m ↔
      ∃ t ∈ turns (handlerWithin n b r) s context scripts w,
        Reaches n b r (s.runFile context t.path).run t.before m := by
  induction scripts generalizing report w with
  | nil =>
    refine iff_of_false (fun hm => ?_) fun ⟨t, ht, _⟩ => List.not_mem_nil ht
    cases hm
    exact inside rfl
  | cons path rest ih =>
    refine (reaches_runAll_cons report path rest inside).trans ?_
    rw [turns, ih]
    have hpath : (turn (handlerWithin n b r) s context path w).path = path := rfl
    have hbefore : (turn (handlerWithin n b r) s context path w).before = w := rfl
    generalize turn (handlerWithin n b r) s context path w = t at hpath hbefore ⊢
    subst hpath hbefore
    by_cases hpass : t.passes = true
    · rw [if_pos hpass]
      simp only [hpass, true_and, List.mem_cons, exists_eq_or_imp]
    · rw [if_neg hpass]
      simp only [List.mem_singleton, exists_eq_left]
      exact or_iff_left fun h => hpass h.1

/-! ## Signals over turns -/

theorem Ran.signalled {t : Turn} (h : Ran (handlerWithin n b r) s context t) :
    t.before.Signalled t.after := by
  have hk := World.Signalled.kept.run n b r (s.runFile context t.path).run t.before
  rwa [h] at hk

/-- A moment of a turn is followed by its end. -/
theorem Ran.signalled_of_reaches {t : Turn} (h : Ran (handlerWithin n b r) s context t) {m : Moment}
    (hm : Reaches n b r (s.runFile context t.path).run t.before m) :
    m.world.Signalled t.after := by
  have hk := World.Signalled.kept.reaches_end_of hm (.inr World.Signalled.setContext)
  rwa [h] at hk

theorem InTurns.ran (h : InTurns (handlerWithin n b r) s context w ts w') :
    ∀ t ∈ ts, Ran (handlerWithin n b r) s context t := by
  induction h with
  | done w => exact List.forall_mem_nil _
  | next ran _ ih => exact List.forall_mem_cons.2 ⟨ran, ih⟩

theorem InTurns.signalled (h : InTurns (handlerWithin n b r) s context w ts w') :
    w.Signalled w' ∧ ∀ t ∈ ts, w.Signalled t.before := by
  induction h with
  | done w => exact ⟨.of_eq rfl, List.forall_mem_nil _⟩
  | @next t ts w' ran _ ih =>
    have hleft := ran.signalled.trans (t.signalled_left s)
    refine ⟨hleft.trans ih.1, List.forall_mem_cons.2 ⟨.of_eq rfl, fun u hu => ?_⟩⟩
    exact hleft.trans (ih.2 u hu)

/-- Each turn begins after those before it have ended. -/
theorem InTurns.pairwise (h : InTurns (handlerWithin n b r) s context w ts w') :
    ts.Pairwise fun t t' => t.after.Signalled t'.before := by
  induction h with
  | done w => exact .nil
  | @next t ts w' ran later ih =>
    refine .cons (fun u hu => ?_) ih
    exact (t.signalled_left s).trans (later.signalled.2 u hu)

theorem InTurns.eq_of_nil (h : InTurns (handlerWithin n b r) s context w [] w') : w' = w := by
  cases h
  rfl

/-- Once the context is cancelled in a turn, it is where the later turns begin. -/
theorem InTurns.cancelled_later (h : InTurns (handlerWithin n b r) s context w ts w') :
    ts.Pairwise fun t t' => ∀ m, Reaches n b r (s.runFile context t.path).run t.before m →
      m.world.signals.Cancelled context.signal → t'.before.signals.Cancelled context.signal := by
  refine h.pairwise.imp_of_mem fun {t t'} ht _ hlater m hm hcancelled => ?_
  have hend := (h.ran t ht).signalled_of_reaches hm
  exact hcancelled.mono (hend.trans hlater).grows

/-- The state after the last turn is the one that the turn leaves. -/
theorem InTurns.eq_left {earlier : List Turn} {last : Turn}
    (h : InTurns (handlerWithin n b r) s context w (earlier ++ [last]) w') : w' = last.left s := by
  induction earlier generalizing w with
  | nil =>
    cases h with
    | next _ later => exact later.eq_of_nil
  | cons t ts ih =>
    cases h with
    | next _ later => exact ih later

/-- A run through scripts that is not cancelled by its end goes through all of them. -/
theorem Concludes.finished_of_wanted {report : StartupReport}
    {outcome : Outcome (Except BridgeError StartupReport)}
    (h : Concludes scripts ts report outcome)
    (hturns : InTurns (handlerWithin n b r) s context w ts w')
    (hwanted : w'.signals.isCancelled context.signal = false)
    (hends : outcome.ended = true) :
    ts.map (·.path) = scripts ∧ (∀ t ∈ ts, t.passes = true) ∧ outcome = .value (.ok report) := by
  cases h with
  | finished all passed => exact ⟨all, passed, rfl⟩
  | @cancelled earlier last split passed stopped =>
    subst split
    have hran := hturns.ran last (List.mem_append_right _ (List.mem_singleton_self _))
    rw [Ran, stopped] at hran
    have hcancelled := cancelled_of_runFile hran
    rw [hturns.eq_left, Turn.left, Turn.error?, stopped] at hwanted
    rw [hcancelled] at hwanted
    cases hwanted
  | exhausted => cases hends

/-! ## The main result -/

section Startup

variable (enabled : (w.session s).config.loadStartup = true)
  (found : startupScripts (w.session s).config w.files = .ok scripts)

include enabled found

/-- Where scripts are loaded at all and have been found, loading them is a run through them. -/
theorem run_loadStartupScripts (hd : Handler) (context : Context) :
    hd.run (s.loadStartupScripts context).run w = hd.run (s.runAll context {} scripts).run w := by
  have hsession : w.answer (.session s) = (w.session s, w) := rfl
  have hfiles : w.answer .files = (w.files, w) := rfl
  rw [loadStartupScripts, Handler.run_session_ask_bind, hsession]
  dsimp only
  rw [enabled, Bool.not_true, if_neg Bool.false_ne_true, Handler.run_session_ask_bind, hfiles]
  dsimp only
  rw [found]

theorem reaches_loadStartupScripts (context : Context) {m : Moment}
    (inside : m.activations ≠ []) :
    Reaches n b r (s.loadStartupScripts context).run w m ↔
      Reaches n b r (s.runAll context {} scripts).run w m := by
  have hsession : w.answer (.session s) = (w.session s, w) := rfl
  have hfiles : w.answer .files = (w.files, w) := rfl
  rw [loadStartupScripts, reaches_ask_bind inside, hsession]
  dsimp only
  rw [enabled, Bool.not_true, if_neg Bool.false_ne_true, reaches_ask_bind inside, hfiles]
  dsimp only
  rw [found]

end Startup

/-- What can be said of loading the startup scripts: the turns that they have, what the run ends
with and where it leads. -/
structure Accounted (n b : Nat) (r : RuntimeRef) (s : SessionRef) (context : Context) (w : World)
    (scripts : List String) (ts : List Turn) (outcome : Outcome (Except BridgeError StartupReport))
    (w' : World) : Prop where
  /-- The run. -/
  run : (handlerWithin n b r).run (s.loadStartupScripts context).run w = (outcome, w')
  /-- Each turn begins in the state that the one before has left, when a failure has been
  reported. -/
  turns : InTurns (handlerWithin n b r) s context w ts w'
  /-- The scripts have their turns in their order. -/
  order : ts.map (·.path) <+: scripts
  /-- A script that cannot be made a chunk fails at once in its turn, and any other is called. -/
  turn : ∀ t ∈ ts, (t.outcome, t.after) =
    match s.chunkAt t.before t.path with
    | .error e => (.value (.error e), t.before)
    | .ok p =>
      let (f, w₁) := t.before.addChunk (t.before.session s).runtime p
      (handlerWithin n b r).run (s.call context f []).run w₁
  /-- Only a turn that is cancelled or does not end is the last one before all have had theirs. -/
  concludes : Concludes scripts ts (Turn.report ts) outcome
  /-- A run that ends with the context not cancelled has been through all scripts. -/
  complete : ¬ w'.signals.Cancelled context.signal → outcome.ended = true →
    ts.map (·.path) = scripts ∧ (∀ t ∈ ts, t.passes = true) ∧
      outcome = .value (.ok (Turn.report ts))
  /-- Guest code runs in the turns only. -/
  inside : ∀ m, Reaches n b r (s.loadStartupScripts context).run w m →
    m.Idle ∨ ∃ t ∈ ts, Reaches n b r (s.runFile context t.path).run t.before m
  /-- A turn that begins with the context cancelled runs none. -/
  refused : ∀ t ∈ ts, t.before.signals.Cancelled context.signal →
    ∀ m, Reaches n b r (s.runFile context t.path).run t.before m →
      m.Idle ∧ t.before.Untouched m.world
  /-- All turns begin so after one with a moment at which the context is cancelled. -/
  cancelled : ts.Pairwise fun t t' => ∀ m,
    Reaches n b r (s.runFile context t.path).run t.before m →
      m.world.signals.Cancelled context.signal → t'.before.signals.Cancelled context.signal

/-- **Startup accounts for every script.**  Where scripts are loaded and the directories may be
listed, the scripts are those of each directory, by name, and then the files that exist.  They have
their turns in this order, one after the other, and every end but a cancellation lets the others
have theirs.  So a run that ends with the context not cancelled has been through all scripts, with a
report that splits them in their order; and after a moment at which the context is cancelled, no
script whose turn comes later starts. -/
theorem startup_scripts_accounted (n b : Nat) (r : RuntimeRef) (s : SessionRef)
    (context : Context) (w : World) (scripts : List String) (ordered : w.signals.Ordered)
    (enabled : (w.session s).config.loadStartup = true)
    (found : startupScripts (w.session s).config w.files = .ok scripts) :
    (∃ inside, List.Forall₂ (Scripts.Lists w.files) (w.session s).config.scriptDirs inside ∧
      scripts = inside.flatten ++ (w.session s).config.startupFiles.filter w.files.isFile) ∧
    ∃ ts outcome w', Accounted n b r s context w scripts ts outcome w' := by
  have hturns := inTurns_runAll (handlerWithin n b r) s context {} scripts w
  have hconcludes := concludes_runAll n b r s context {} scripts w
  have hend := hturns.signalled.1.ordered ordered
  refine ⟨startupScripts_ok found, turns (handlerWithin n b r) s context scripts w, _, _,
    { run := run_loadStartupScripts enabled found (handlerWithin n b r) context
      turns := hturns
      order := paths_turns (handlerWithin n b r) s context scripts w
      turn := fun t ht => (hturns.ran t ht).symm.trans run_runFile
      concludes := hconcludes
      complete := fun hwanted hends => ?complete
      inside := fun m hm => ?inside
      refused := fun t ht hcancelled m hm => ?refused
      cancelled := hturns.cancelled_later }⟩
  case complete =>
    exact hconcludes.finished_of_wanted hturns ((Signals.isCancelled_eq_false_iff hend).2 hwanted)
      hends
  case inside =>
    by_cases inside : m.activations = []
    · exact .inl ((Use.startup : s.Use context _).confined.idle hm inside)
    · have hall := (reaches_loadStartupScripts enabled found context inside).1 hm
      exact .inr ((reaches_runAll {} scripts w inside).1 hall)
  case refused =>
    exact idle_of_cancelled ((hturns.signalled.2 t ht).ordered ordered) hcancelled hm

end Turns
end SessionRef

open SessionRef

/-- The value with which a run has ended. -/
def Outcome.value? {α : Type} : Outcome α → Option α
  | .value a => some a
  | .error _ | .exhausted => none

theorem Outcome.exists_of_value? {α : Type} {left : Outcome α × World} {p : World → Prop}
    (h : left.1.value?.isSome = true) (hp : p left.2) : ∃ a w, left = (.value a, w) ∧ p w := by
  obtain ⟨outcome, w⟩ := left
  cases outcome with
  | value a => exact ⟨a, w, rfl, hp⟩
  | error v => cases h
  | exhausted => cases h

/-- Of three startup files the first may not be read, the second is missing and the third is an
empty script: those that exist have their turns, and the report tells of both. -/
theorem startup_unreadable_script :
    let w : World :=
      { heap :=
          { tables := #[({} : Guest.Table).set (.text "io") (.table ⟨1⟩), {}] }
        runtimes := #[{ runtime := { (default : Guest.Runtime) with globals := ⟨0⟩ } }]
        signals := { states := #[{}] }
        sessions := #[{ (default : SessionState) with
          config := { startupFiles := ["a.lua", "b.lua", "c.lua"] } }]
        files :=
          { entries := [(["a.lua"], .file []), (["c.lua"], .file [])], unreadable := [["a.lua"]] } }
    let scripts := ["a.lua", "c.lua"]
    let left := (handlerWithin 5 5 ⟨0⟩).run (loadStartupScripts ⟨0⟩ ⟨0, ⟨0⟩, none⟩).run w
    w.signals.Ordered ∧ (w.session ⟨0⟩).config.loadStartup = true ∧
      startupScripts (w.session ⟨0⟩).config w.files = .ok scripts ∧
      ∃ ts, ts.map (·.path) = scripts ∧ left.1 = .value (.ok (Turn.report ts)) ∧
        (Turn.report ts).loaded = ["c.lua"] ∧
        (Turn.report ts).failed = [("a.lua", "IO error: Permission denied (os error 13)")] := by
  intro w scripts left
  have ordered : w.signals.Ordered := by
    intro i state p hstate hparent
    match i with
    | 0 =>
      cases hstate
      cases hparent
    | i + 1 => cases hstate
  have hexist : (w.session ⟨0⟩).config.startupFiles.filter w.files.isFile = scripts := by
    decide +kernel
  have found : startupScripts (w.session ⟨0⟩).config w.files = .ok scripts :=
    (startupScripts_of_files rfl w.files).trans (congrArg _ hexist)
  refine ⟨ordered, rfl, found, ?_⟩
  have hreport : (left.1.value?.bind Except.toOption).map (fun report =>
      (report.loaded, report.failed)) =
      some (["c.lua"], [("a.lua", "IO error: Permission denied (os error 13)")]) := by
    decide +kernel
  have hlive : left.2.signals.isCancelled ⟨0⟩ = false := by decide +kernel
  have hends : left.1.ended = true := by decide +kernel
  obtain ⟨-, ts, outcome, w', ha⟩ :=
    startup_scripts_accounted 5 5 ⟨0⟩ ⟨0⟩ ⟨0, ⟨0⟩, none⟩ w scripts ordered rfl found
  have houtcome : left.1 = outcome := congrArg Prod.fst ha.run
  have hworld : left.2 = w' := congrArg Prod.snd ha.run
  subst houtcome hworld
  have hend := ha.turns.signalled.1.ordered ordered
  obtain ⟨hpaths, -, hvalue⟩ :=
    ha.complete ((Signals.isCancelled_eq_false_iff hend).1 hlive) hends
  rw [hvalue] at hreport
  exact ⟨ts, hpaths, hvalue, Prod.ext_iff.1 (Option.some.inj hreport)⟩

/-- The context can be cancelled in a script's own turn before the script has begun: a guest whose
`io` table is looked up by a function that cancels the context, and answers, has the script called
after that, when the context is cancelled. -/
theorem script_starts_cancelled :
    let cancel : Guest.Function := ⟨⟨0⟩, .host ⟨0, false⟩⟩
    -- `cancel() return io`
    let lookup : Proto := .mk ⟨"io", 1, 0, true, [(.own 0, "cancel"), (.own 1, "io")]⟩
      [.call (.call (.variable (.captured 0) "cancel") [] 1), .ret [.variable (.captured 1) "io"]]
    let chain : Guest.Table := ({} : Guest.Table).set (.text "__index") (.func ⟨1⟩)
    let context : Context := ⟨0, ⟨0⟩, none⟩
    let w : World :=
      { heap :=
          { tables := #[{ metatable? := some ⟨1⟩ }, chain, {}]
            cells := #[.func ⟨0⟩, .table ⟨2⟩]
            functions := #[cancel, ⟨⟨0⟩, .closure lookup [⟨0⟩, ⟨1⟩]⟩] }
        runtimes := #[{ runtime := { (default : Guest.Runtime) with globals := ⟨0⟩ } }]
        signals := { states := #[{}] }
        sessions := #[{ (default : SessionState) with config := { startupFiles := ["rc.lua"] } }]
        hostCode := #[fun _ _ => do
          Program.ask (.cancel ⟨0⟩)
          return []]
        hostFunctions := #[(0, [])]
        files := { entries := [(["rc.lua"], .file (Utf8.encode "ran = true"))] } }
    (w.session ⟨0⟩).config.loadStartup = true ∧
      startupScripts (w.session ⟨0⟩).config w.files = .ok ["rc.lua"] ∧
      w.signals.isCancelled context.signal = false ∧ ∃ p, chunkAt ⟨0⟩ w "rc.lua" = .ok p ∧
        ∃ m, Reaches 5 5 ⟨0⟩ (loadStartupScripts ⟨0⟩ context).run w m ∧
          m.world.signals.isCancelled context.signal = true ∧
          ∃ k, m.rest = .call (.func (w.addChunk ⟨0⟩ p).1) [] [.host] k := by
  intro cancel lookup chain context w
  have hexists : (w.session ⟨0⟩).config.startupFiles.filter w.files.isFile = ["rc.lua"] := by
    decide +kernel
  have found : startupScripts (w.session ⟨0⟩).config w.files = .ok ["rc.lua"] :=
    (startupScripts_of_files rfl w.files).trans (congrArg _ hexists)
  let p : Proto := (chunkAt ⟨0⟩ w "rc.lua").toOption.getD default
  have hchunk : chunkAt ⟨0⟩ w "rc.lua" = .ok p := by
    have hloads : (chunkAt ⟨0⟩ w "rc.lua").toOption.isSome = true := by decide +kernel
    cases h : chunkAt ⟨0⟩ w "rc.lua" with
    | error e =>
      rw [h] at hloads
      cases hloads
    | ok q =>
      show _ = Except.ok ((chunkAt ⟨0⟩ w "rc.lua").toOption.getD default)
      rw [h]
      rfl
  let i : Invocation := ⟨⟨0⟩, context, (w.addChunk ⟨0⟩ p).1, []⟩
  let w₀ := (w.addChunk ⟨0⟩ p).2
  obtain ⟨scope, w₁, hopens, hcancelled⟩ : ∃ scope w₁, (handlerWithin 4 5 ⟨0⟩).run
      (Guest.StreamScope.enter (i.begin w₀).1.runtime (i.begin w₀).1.io
        (some (i.begin w₀).1.context.signal)) (i.begin w₀).2 = (.value scope, w₁) ∧
      w₁.signals.isCancelled context.signal = true := by
    apply Outcome.exists_of_value?
    · decide +kernel
    · decide +kernel
  have henters : Enters (handlerWithin 4 5 (w₀.session i.session).runtime) i w₀ scope w₁ :=
    ⟨rfl, by decide +kernel, hopens⟩
  have hargs (hd : Handler) : hd.run (Guest.guestValues (i.begin w₀).1.runtime i.args) w₁ =
    (.value (.ok []), w₁) := rfl
  refine ⟨rfl, found, by decide +kernel, p, hchunk, ?_⟩
  obtain ⟨m, hm, hactivations, hworld, hrest⟩ :=
    reaches_call_of_enters (r := ⟨0⟩) henters (hargs _)
  have inside : m.activations ≠ [] := by
    rw [hactivations]
    exact List.cons_ne_nil _ _
  have hfile : Reaches 5 5 ⟨0⟩ (runFile ⟨0⟩ context "rc.lua").run w m :=
    reaches_runFile_of_call hchunk inside hm
  have hall : Reaches 5 5 ⟨0⟩ (runAll ⟨0⟩ context {} ["rc.lua"]).run w m :=
    (reaches_runAll_cons {} "rc.lua" [] inside).2 (.inl hfile)
  refine ⟨m, (reaches_loadStartupScripts rfl found context inside).2 hall, ?_, hrest⟩
  rw [hworld]
  exact hcancelled

end ScriptShell
