import ScriptShell.Proofs.NewSessions
import ScriptShell.Proofs.StartupRuns
import ScriptShell.Proofs.Successors

/-! # Attempts to make sessions

A bridge is asked for sessions one after the other, and some of these attempts fail.  An attempt
makes the session, tags the shell with it and connects the events, in this order, so what fails
before the first of these is done leaves no trace (`SessionAttempt.run_of_error`).  A `Course` is
any number of attempts, between which all else goes on as it likes, except that nobody else tags
shells.  `Tally` says where a course has come to, and it is carried over each attempt
(`Tally.attempt`) and over what happens in between (`Tally.follows`): the events have been connected
once if an attempt has succeeded and not at all otherwise, and each shell has the session of the
last attempt on it that succeeded.  What a dispatcher does of its own is to look that tag up
(`EventDispatcher.run_onArgs_eq`, `EventDispatcher.run_onCommandNotFound_eq`). -/

namespace ScriptShell

/-! ## One attempt -/

/-- An attempt to make a session. -/
structure SessionAttempt where
  /-- The shell that it is for. -/
  shell : ShellRef
  /-- What the shell offers to scripts. -/
  capabilities : Capabilities

namespace SessionAttempt

variable {a : SessionAttempt}

/-- What an attempt comes to, with the bridge and the process afterwards. -/
def run (a : SessionAttempt) (now : Bridge × World) :
    Except BridgeError SessionRef × Bridge × World :=
  (Bridge.newSession a.shell a.capabilities).run.run now

/-- An attempt with capabilities that are refused changes neither the bridge nor the process. -/
theorem run_of_error {e : BridgeError} (h : a.capabilities.validate = .error e)
    (now : Bridge × World) : a.run now = (.error e, now) := by
  refine Bridge.run_newSession_of_error ?_
  rw [World.addSession, h]

/-- An attempt with other capabilities makes the next session. -/
theorem run_of_ok (h : a.capabilities.validate = .ok ()) (b : Bridge) (w : World) :
    a.run (b, w) = (.ok ⟨w.sessions.size⟩, b.connect,
      (w.placeSession a.shell a.capabilities b.config).2.setTag a.shell
        (some ⟨w.sessions.size⟩)) := by
  refine Bridge.run_newSession_of_ok ?_
  rw [World.addSession, h]
  rfl

end SessionAttempt

namespace World

variable {w w' : World}

/-! ## Tags -/

theorem tag?_setTag (w : World) {shell : ShellRef} (h : shell.id < w.shells.size)
    (tag? : Option SessionRef) (other : ShellRef) :
    ((w.setTag shell tag?).shell other).tag? =
      if other = shell then tag? else (w.shell other).tag? := by
  rw [World.shell, setTag, Array.getElem?_modify]
  split
  · next hid =>
    have : other = shell := congrArg ShellRef.mk hid.symm
    subst this
    rw [if_pos rfl, Array.getElem?_eq_getElem h]
    rfl
  · next hid =>
    rw [if_neg fun he => hid (congrArg ShellRef.id he).symm]
    rfl

theorem shells_placeSession (w : World) (shell : ShellRef) (capabilities : Capabilities)
    (config : Config) : (w.placeSession shell capabilities config).2.shells = w.shells := by
  simp only [placeSession, addRuntime, addRegistry, withHeap, modifyHeap]

/-- The tags after a new session has been bound to a shell. -/
theorem tag?_placeSession (w : World) {shell : ShellRef} (h : shell.id < w.shells.size)
    (capabilities : Capabilities) (config : Config) (tag? : Option SessionRef) (other : ShellRef) :
    (((w.placeSession shell capabilities config).2.setTag shell tag?).shell other).tag? =
      if other = shell then tag? else (w.shell other).tag? := by
  rw [← shells_placeSession w shell capabilities config] at h
  rw [tag?_setTag _ h, World.shell, shells_placeSession]
  rfl

/-- The shells are there and have the sessions that they had. -/
structure KeepsTags (w w' : World) : Prop where
  /-- The shells are there. -/
  size : w.shells.size ≤ w'.shells.size
  /-- They have the sessions that they had. -/
  tag : ∀ shell, (w'.shell shell).tag? = (w.shell shell).tag?

namespace KeepsTags

theorem refl (w : World) : KeepsTags w w := ⟨Nat.le_refl _, fun _ => rfl⟩

theorem of_eq (h : w'.shells = w.shells) : KeepsTags w w' :=
  ⟨Nat.le_of_eq (congrArg Array.size h.symm), fun s => by rw [World.shell, World.shell, h]⟩

theorem trans {a b c : World} (h : KeepsTags a b) (h' : KeepsTags b c) : KeepsTags a c :=
  ⟨Nat.le_trans h.size h'.size, fun s => (h'.tag s).trans (h.tag s)⟩

/-- New pipes leave the shell its session. -/
theorem setShellIo (w : World) (s : ShellRef) (io : CommandIo) :
    KeepsTags w (w.setShellIo s io) where
  size := Nat.le_of_eq (Array.size_modify ..).symm
  tag shell := by
    rw [World.shell, World.setShellIo, Array.getElem?_modify]
    split
    · rw [World.shell]
      cases w.shells[shell.id]? <;> rfl
    · rfl

theorem answer (w : World) (o : Operation) : KeepsTags w (w.answer o).2 := by
  rcases (w.framed_answer o).shells with h | ⟨s, io, rfl⟩
  · exact of_eq h
  · exact setShellIo w s io

theorem setContext (w : World) (q : Guest.RuntimeRef) (c? : Option Context) :
    KeepsTags w (w.setContext q c?) := of_eq rfl

theorem begin (w : World) (i : Invocation) : KeepsTags w (i.begin w).2 := by
  unfold Invocation.begin
  dsimp only
  split <;> exact of_eq rfl

/-- Runs of programs tag no shell. -/
theorem kept : Kept KeepsTags where
  refl := refl
  trans := trans
  answer := answer
  invokeOpen h i w hrun := by
    rw [h.invokeOpen_snd]
    exact ((begin w i).trans (hrun _ _)).trans (setContext _ _ _)

theorem of_follows (h : w.Follows KeepsTags w') : KeepsTags w w' :=
  h.relates kept begin setContext fun _ _ step => step

/-- A shell that is added has no session. -/
theorem addShell (w : World) (io : CommandIo) : KeepsTags w (w.addShell io).2 where
  size := by
    show w.shells.size ≤ (w.shells.push _).size
    rw [Array.size_push]
    exact Nat.le_succ _
  tag shell := by
    show ((w.shells.push _)[shell.id]?.getD default).tag? = _
    rw [Array.getElem?_push]
    split
    · next h =>
      rw [World.shell, h, Array.getElem?_eq_none (Nat.le_refl _)]
      rfl
    · rfl

end KeepsTags
end World

/-! ## A course of attempts -/

/-- An attempt that has been made, with what came of it. -/
structure Attempted extends SessionAttempt where
  /-- The session, or why there is none. -/
  outcome : Except BridgeError SessionRef

namespace Attempted

variable {a : Attempted} {as : List Attempted}

/-- Whether it has succeeded. -/
def succeeded (a : Attempted) : Bool := a.outcome.isOk

/-- The session of the last attempt on a shell that has succeeded. -/
def lastOn (shell : ShellRef) (as : List Attempted) : Option SessionRef :=
  as.reverse.findSome? fun a => if shell = a.shell then a.outcome.toOption else none

theorem lastOn_concat (shell : ShellRef) (as : List Attempted) (a : Attempted) :
    lastOn shell (as ++ [a]) =
      (if shell = a.shell then a.outcome.toOption else none).or (lastOn shell as) := by
  rw [lastOn, List.reverse_append, List.reverse_singleton, List.singleton_append,
    List.findSome?_cons]
  cases (if shell = a.shell then a.outcome.toOption else none) <;> rfl

end Attempted

/-- What has been attempted so far, and the bridge and the process now.  Between two attempts
programs run and the host does what it likes, except that nobody tags a shell. -/
inductive Course (start : Bridge × World) : List Attempted → Bridge × World → Prop where
  /-- Nothing has been attempted. -/
  | start : Course start [] start
  /-- The process goes on. -/
  | follows {as : List Attempted} {b : Bridge} {w w' : World} (before : Course start as (b, w))
      (h : w.Follows World.KeepsTags w') : Course start as (b, w')
  /-- One more attempt is made, for a shell that there is. -/
  | attempt {as : List Attempted} {now : Bridge × World} (before : Course start as now)
      (a : SessionAttempt) (h : a.shell.id < now.2.shells.size) :
      Course start (as ++ [⟨a, (a.run now).1⟩]) (a.run now).2

/-- Where a course of attempts has come to. -/
structure Tally (start : Bridge × World) (events : ShellEvents) (as : List Attempted)
    (now : Bridge × World) : Prop where
  /-- The attempts with capabilities that are not refused have succeeded. -/
  outcomes : ∀ a ∈ as, a.succeeded = true ↔ a.capabilities.validate = .ok ()
  /-- The bridge knows whether an attempt has succeeded. -/
  wired : now.1.wired = as.any (·.succeeded)
  /-- A dispatcher has been installed once if an attempt has succeeded, and never otherwise. -/
  installed : now.1.events? =
    some { installed := events.installed ++ if as.any (·.succeeded) then [{}] else [] }
  /-- A shell has the session of the last attempt on it that has succeeded. -/
  tags : ∀ shell, (now.2.shell shell).tag? =
    (Attempted.lastOn shell as).or (start.2.shell shell).tag?

namespace Tally

variable {start : Bridge × World} {events : ShellEvents} {as : List Attempted} {b : Bridge}
  {w w' : World} {now : Bridge × World}

theorem refl (hevents : b.events? = some events) (hnew : b.wired = false) :
    Tally (b, w) events [] (b, w) where
  outcomes a ha := nomatch ha
  wired := hnew
  installed := by simp [hevents]
  tags shell := rfl

theorem follows (t : Tally start events as (b, w)) (h : World.KeepsTags w w') :
    Tally start events as (b, w') where
  outcomes := t.outcomes
  wired := t.wired
  installed := t.installed
  tags shell := (h.tag shell).trans (t.tags shell)

theorem outcomes_concat (t : Tally start events as now) {a : Attempted}
    (h : a.succeeded = true ↔ a.capabilities.validate = .ok ()) :
    ∀ a' ∈ as ++ [a], a'.succeeded = true ↔ a'.capabilities.validate = .ok () := by
  intro a' ha'
  rcases List.mem_append.1 ha' with ha' | ha'
  · exact t.outcomes a' ha'
  · rwa [List.mem_singleton.1 ha']

/-- A failed attempt adds nothing. -/
theorem attempt_error (t : Tally start events as now) {a : SessionAttempt} {e : BridgeError}
    (h : a.capabilities.validate = .error e) : Tally start events (as ++ [⟨a, .error e⟩]) now := by
  have hany : (as ++ [(⟨a, .error e⟩ : Attempted)]).any (·.succeeded) = as.any (·.succeeded) := by
    rw [List.any_append]
    exact Bool.or_false _
  refine ⟨t.outcomes_concat ?_, t.wired.trans hany.symm, hany ▸ t.installed, fun shell => ?_⟩
  · rw [h]
    exact ⟨nofun, nofun⟩
  · rw [Attempted.lastOn_concat, t.tags]
    split <;> rfl

/-- The events are connected by the first attempt that succeeds, and by no other one. -/
theorem connect (t : Tally start events as (b, w)) :
    b.connect = { b with
      wired := true
      events? := some { installed := events.installed ++ [{}] } } := by
  have hinstalled : b.events? = _ := t.installed
  have hwired : b.wired = _ := t.wired
  rw [Bridge.connect]
  cases h : as.any (·.succeeded) with
  | true =>
    rw [h] at hinstalled hwired
    rw [if_pos hwired, ← hwired]
    exact congrArg (fun e => { b with events? := e }) hinstalled
  | false =>
    rw [h] at hinstalled hwired
    rw [if_neg (Bool.eq_false_iff.1 hwired), hinstalled]
    simp [ShellEvents.install]

/-- An attempt that succeeds leaves its session to its shell and the events connected. -/
theorem attempt_ok (t : Tally start events as (b, w)) {a : SessionAttempt}
    (h : a.capabilities.validate = .ok ()) (hshell : a.shell.id < w.shells.size) :
    Tally start events (as ++ [⟨a, .ok ⟨w.sessions.size⟩⟩])
      (b.connect, (w.placeSession a.shell a.capabilities b.config).2.setTag a.shell
        (some ⟨w.sessions.size⟩)) := by
  have hany : (as ++ [(⟨a, .ok ⟨w.sessions.size⟩⟩ : Attempted)]).any (·.succeeded) = true := by
    rw [List.any_append]
    exact Bool.or_true _
  refine ⟨t.outcomes_concat ⟨fun _ => h, fun _ => rfl⟩, ?_, ?_, fun shell => ?_⟩
  · rw [hany, t.connect]
  · rw [hany, t.connect]
    rfl
  · rw [Attempted.lastOn_concat]
    refine (World.tag?_placeSession w hshell _ _ _ shell).trans ?_
    dsimp only
    split
    · rfl
    · exact t.tags shell

/-- **One attempt.** -/
theorem attempt (t : Tally start events as now) (a : SessionAttempt)
    (hshell : a.shell.id < now.2.shells.size) :
    Tally start events (as ++ [⟨a, (a.run now).1⟩]) (a.run now).2 := by
  cases h : a.capabilities.validate with
  | error e =>
    rw [SessionAttempt.run_of_error h]
    exact t.attempt_error h
  | ok u =>
    rw [SessionAttempt.run_of_ok h now.1 now.2]
    exact t.attempt_ok h hshell

end Tally

/-- **A course of attempts.** -/
theorem Course.tally {b : Bridge} {w : World} {events : ShellEvents} {as : List Attempted}
    {now : Bridge × World} (hevents : b.events? = some events) (hnew : b.wired = false)
    (h : Course (b, w) as now) : Tally (b, w) events as now := by
  induction h with
  | start => exact .refl hevents hnew
  | follows _ h ih => exact ih.follows (.of_follows h)
  | attempt _ a hshell ih => exact ih.attempt a hshell

/-! ## Events of a shell -/

/-- What an event comes to once the hook of a session has run: to its answer, and to the default of
the event if there is no hook or if the hook has failed, which the session reports. -/
def SessionRef.settle {α : Type} (s : SessionRef) (complaint : String) (default : α) :
    Outcome (Except BridgeError (Option α)) × World → Outcome α × World
  | (.value (.ok answer), w) => (.value (answer.getD default), w)
  | (.value (.error e), w) => (.value default, w.reported s (complaint ++ e.message))
  | (.error v, w) => (.error v, w)
  | (.exhausted, w) => (.exhausted, w)

theorem SessionRef.run_settle {α : Type} (hd : Handler) (s : SessionRef) {complaint : String}
    {default : α} {p : Program (Except BridgeError (Option α))}
    {k : Except BridgeError (Option α) → Program α} (hok : ∀ x, k (.ok x) = pure (x.getD default))
    (herror : ∀ e, k (.error e) = s.report (complaint ++ e.message) >>= fun _ => pure default)
    (w : World) : hd.run (p >>= k) w = s.settle complaint default (hd.run p w) := by
  refine (Handler.run_bind hd p k w).trans ?_
  cases hd.run p w with
  | mk outcome w₁ =>
    cases outcome with
    | value result =>
      cases result with
      | ok answer =>
        dsimp only
        rw [hok]
        rfl
      | error e =>
        dsimp only
        rw [herror, Handler.run_bind_of_value (SessionRef.run_report hd s _ w₁)]
        rfl
    | error v => rfl
    | exhausted => rfl

namespace EventDispatcher

variable (hd : Handler) (d : EventDispatcher) (shell : ShellRef) (context : Context)
  (words : List String) (w : World)

theorem run_onArgs_eq :
    hd.run (d.onArgs shell context words) w =
      match (w.shell shell).tag? with
      | some s => s.settle "argsfilter: " words (hd.run (s.filterArgs context words).run w)
      | none => (.value words, w) := by
  have ha : w.answer (.shell shell) = (w.shell shell, w) := rfl
  rw [onArgs, Handler.run_ask_bind, ha, ShellState.session]
  cases (w.shell shell).tag? with
  | some s => exact s.run_settle hd (fun _ => rfl) (fun _ => rfl) w
  | none => rfl

theorem run_onCommandNotFound_eq :
    hd.run (d.onCommandNotFound shell context words) w =
      match (w.shell shell).tag? with
      | some s =>
        s.settle "on_command_not_found: " false (hd.run (s.commandNotFound context words).run w)
      | none => (.value false, w) := by
  have ha : w.answer (.shell shell) = (w.shell shell, w) := rfl
  rw [onCommandNotFound, Handler.run_ask_bind, ha, ShellState.session]
  cases (w.shell shell).tag? with
  | some s => exact s.run_settle hd (fun _ => rfl) (fun _ => rfl) w
  | none => rfl

end EventDispatcher

/-! ## The main result -/

/-- **The events are connected once, and failures leave no trace.**  Wherever a course of attempts
of a new bridge has come to, a dispatcher has been installed once if an attempt has succeeded and
never otherwise, and each shell has the session of the last attempt on it that has succeeded.  If
the next attempt fails, the bridge and the process are as they were.  If it succeeds, its session is
new and for its shell, it is the tag of that shell and of no other one, and the events are as the
first success leaves them.  Events of a shell go to the session that is its own tag, which settles
them, and take their defaults if the shell has none. -/
theorem Course.event_wiring {b₀ b : Bridge} {w₀ w : World} {events : ShellEvents}
    {as : List Attempted} (hevents : b₀.events? = some events) (hnew : b₀.wired = false)
    (h : Course (b₀, w₀) as (b, w)) :
    Tally (b₀, w₀) events as (b, w) ∧
      (∀ a : SessionAttempt, a.shell.id < w.shells.size →
        (∀ e, a.capabilities.validate = .error e → a.run (b, w) = (.error e, b, w)) ∧
        (a.capabilities.validate = .ok () → ∃ w', a.run (b, w) =
            (.ok ⟨w.sessions.size⟩,
              { b with
                wired := true
                events? := some { installed := events.installed ++ [{}] } }, w') ∧
          (w'.session ⟨w.sessions.size⟩).shell = a.shell ∧
          ∀ shell, (w'.shell shell).tag? =
            if shell = a.shell then some ⟨w.sessions.size⟩ else (w.shell shell).tag?)) ∧
      ∀ (hd : Handler) (d : EventDispatcher) (shell : ShellRef) (context : Context)
          (words : List String),
        (hd.run (d.onArgs shell context words) w =
          match (w.shell shell).tag? with
          | some s => s.settle "argsfilter: " words (hd.run (s.filterArgs context words).run w)
          | none => (.value words, w)) ∧
        (hd.run (d.onCommandNotFound shell context words) w =
          match (w.shell shell).tag? with
          | some s =>
            s.settle "on_command_not_found: " false (hd.run (s.commandNotFound context words).run w)
          | none => (.value false, w)) := by
  -- the tally says what the flag, the dispatchers and the tags are by now
  have t := h.tally hevents hnew
  refine ⟨t, fun a hshell => ⟨fun e he => a.run_of_error he _, fun hvalid => ?_⟩,
    fun hd d shell context words => ⟨d.run_onArgs_eq hd shell context words w,
      d.run_onCommandNotFound_eq hd shell context words w⟩⟩
  refine ⟨(w.placeSession a.shell a.capabilities b.config).2.setTag a.shell
    (some ⟨w.sessions.size⟩), ?_, ?_, World.tag?_placeSession w hshell _ _ _⟩
  · rw [SessionAttempt.run_of_ok hvalid, t.connect]
  · exact congrArg SessionState.shell (w.session_placeSession a.shell a.capabilities b.config)

/-- A process with one shell, which has no session. -/
def oneShell : World := { shells := #[{ io := default }] }

/-- A function with the name of a field that every session has. -/
def clashing : Capabilities := { functions := ({} : TextMap HostFunction).insert "version" default }

/-- Of four attempts the two in the middle succeed, the second one of them on a shell that has been
added in between. -/
theorem event_wiring_between_failures :
    let bridge : Bridge := { config := {}, events? := some {} }
    let clash : BridgeError := .config "version is defined both as function and as reserved name"
    ∃ b w, Course (bridge, oneShell)
        [⟨⟨⟨0⟩, clashing⟩, .error clash⟩, ⟨⟨⟨0⟩, {}⟩, .ok ⟨0⟩⟩, ⟨⟨⟨1⟩, {}⟩, .ok ⟨1⟩⟩,
          ⟨⟨⟨0⟩, clashing⟩, .error clash⟩] (b, w) ∧
      b.wired = true ∧ b.events? = some { installed := [{}] } ∧
      (w.shell ⟨0⟩).tag? = some ⟨0⟩ ∧ (w.shell ⟨1⟩).tag? = some ⟨1⟩ := by
  intro bridge clash
  have hclash : clashing.validate = .error clash := by rfl
  have hvalid : ({} : Capabilities).validate = .ok () := by rfl
  have h₀ : Course (bridge, oneShell) [] (bridge, oneShell) := .start
  have h₁ := h₀.attempt ⟨⟨0⟩, clashing⟩ (by decide)
  rw [SessionAttempt.run_of_error hclash] at h₁
  have h₂ := h₁.attempt ⟨⟨0⟩, {}⟩ (by decide)
  rw [SessionAttempt.run_of_ok hvalid] at h₂
  have h₃ := (h₂.follows (.acts .now (.addShell _ default))).attempt ⟨⟨1⟩, {}⟩ (by decide)
  rw [SessionAttempt.run_of_ok hvalid] at h₃
  have h₄ := h₃.attempt ⟨⟨0⟩, clashing⟩ (by decide)
  rw [SessionAttempt.run_of_error hclash] at h₄
  have ht := (Course.event_wiring rfl rfl h₄).1
  exact ⟨_, _, h₄, ht.wired, ht.installed, ht.tags ⟨0⟩, ht.tags ⟨1⟩⟩

end ScriptShell
