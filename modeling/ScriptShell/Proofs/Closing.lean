import ScriptShell.Proofs.Contexts
import ScriptShell.Proofs.HookCalls
import ScriptShell.Proofs.IdleRuns
import ScriptShell.Proofs.InvocationCourses
import ScriptShell.Proofs.Successors
import ScriptShell.Session.Copy

/-! # Closed sessions

Closing is a step like any other: nothing that is under way stops, and the runtime of the session
stays where it is.  What makes it final is that no step opens a session again, be it one of a program
or one of the host (`World.KeepsClosed`), so a session that is closed is so in all states that can
follow.  From there on what the host asks of it comes to its end at the first look at the session
(`SessionRef.run_of_needsRuntime`, `SessionRef.run_of_asksHook`).

An invocation that had begun does not look again.  It goes its way to the end (`Handler.course`) and
takes back what it had put in place, as if the session were still open.
-/

namespace ScriptShell

open Guest (Value RuntimeRef StreamScope)

/-! ## Closing -/

namespace World

variable {w w' w'' : World} {s t : SessionRef}

/-- Closing a closed session does nothing. -/
theorem closeSession_of_closed (h : (w.session s).closed = true) : w.closeSession s = w := if_pos h

theorem size_closeSession (w : World) (s : SessionRef) :
    (w.closeSession s).sessions.size = w.sessions.size := by
  unfold closeSession
  dsimp only
  split
  · rfl
  · exact Array.size_setIfInBounds

/-- Once closed, a session is closed, and so are those that were before. -/
theorem closed_closeSession (ht : t.id < w.sessions.size)
    (h : t = s ∨ (w.session t).closed = true) : ((w.closeSession s).session t).closed = true := by
  unfold closeSession
  dsimp only
  split
  · next hs =>
    rcases h with rfl | h
    · exact hs
    · exact h
  · next hs =>
    show ((w.sessions.setIfInBounds s.id { w.session s with closed := true })[t.id]?.getD
      default).closed = true
    rw [Array.getElem?_setIfInBounds]
    by_cases he : s.id = t.id
    · rw [if_pos he, if_pos (he ▸ ht)]
      rfl
    · rw [if_neg he]
      rcases h with rfl | h
      · exact absurd rfl he
      · exact h

/-! ## Steps that open no session -/

/-- The sessions of the earlier state are there, and those that were closed are closed. -/
structure KeepsClosed (w w' : World) : Prop where
  /-- The sessions are there. -/
  size : w.sessions.size ≤ w'.sessions.size
  /-- They are closed. -/
  closed : ∀ t : SessionRef, t.id < w.sessions.size → (w.session t).closed = true →
    (w'.session t).closed = true

/-- What the host may do of its own: it adds sessions, and leaves those that there are as they
are.  It is free in all else. -/
structure AddsSessions (w w' : World) : Prop where
  /-- The sessions are there. -/
  size : w.sessions.size ≤ w'.sessions.size
  /-- They are as they were. -/
  session : ∀ t : SessionRef, t.id < w.sessions.size → w'.session t = w.session t

namespace AddsSessions

theorem of_eq (h : w'.sessions = w.sessions) : AddsSessions w w' :=
  ⟨Nat.le_of_eq (congrArg Array.size h.symm), fun t _ => by rw [World.session, World.session, h]⟩

theorem placeSession (w : World) (shell : ShellRef) (capabilities : Capabilities)
    (config : Config) : AddsSessions w (w.placeSession shell capabilities config).2 where
  size := by
    show w.sessions.size ≤ (w.sessions.push _).size
    rw [Array.size_push]
    exact Nat.le_succ _
  session t ht := by
    show (w.sessions.push _)[t.id]?.getD default = w.session t
    rw [Array.getElem?_push, if_neg (Nat.ne_of_lt ht)]
    rfl

theorem addSession {shell : ShellRef} {capabilities : Capabilities} {config : Config}
    (h : w.addSession shell capabilities config = .ok (s, w')) : AddsSessions w w' := by
  unfold World.addSession at h
  split at h
  · cases h
  · cases h
    exact placeSession w shell capabilities config

/-- A copy of a session is a new session. -/
theorem copySession (h : w.copySession t = .ok (s, w')) : AddsSessions w w' := by
  unfold World.copySession at h
  dsimp only at h
  split at h
  · cases h
  · split at h
    · cases h
    · next hadd =>
      cases h
      have hnew := addSession hadd
      exact ⟨hnew.size, hnew.session⟩

theorem registerHook (w : World) (s : SessionRef) (p : HookPoint) (f : GuestFunction) :
    AddsSessions w (w.registerHook s p f).2 := of_eq rfl

theorem unregisterHook (w : World) (s : SessionRef) (p : HookPoint) :
    AddsSessions w (w.unregisterHook s p).2 := of_eq rfl

theorem keepsClosed (h : AddsSessions w w') : KeepsClosed w w' :=
  ⟨h.size, fun t ht hc => by rw [h.session t ht, hc]⟩

end AddsSessions

namespace KeepsClosed

theorem trans (h : KeepsClosed w w') (h' : KeepsClosed w' w'') : KeepsClosed w w'' :=
  ⟨Nat.le_trans h.size h'.size,
    fun t ht hc => h'.closed t (Nat.lt_of_lt_of_le ht h.size) (h.closed t ht hc)⟩

theorem closeSession (w : World) (s : SessionRef) : KeepsClosed w (w.closeSession s) :=
  ⟨Nat.le_of_eq (size_closeSession w s).symm, fun _ ht hc => closed_closeSession ht (.inr hc)⟩

theorem answer (w : World) (o : Operation) : KeepsClosed w (w.answer o).2 := by
  rcases (w.framed_answer o).sessions with h | ⟨s, rfl⟩
  · exact (AddsSessions.of_eq h).keepsClosed
  · exact closeSession w s

theorem setContext (w : World) (q : RuntimeRef) (c? : Option Context) :
    KeepsClosed w (w.setContext q c?) :=
  (AddsSessions.of_eq (show (w.setContext q c?).sessions = w.sessions from rfl)).keepsClosed

theorem begin (w : World) (i : Invocation) : KeepsClosed w (i.begin w).2 :=
  (AddsSessions.of_eq (i.begin_sessions w)).keepsClosed

/-- No run opens a session. -/
theorem kept : Kept KeepsClosed where
  refl _ := ⟨Nat.le_refl _, fun _ _ hc => hc⟩
  trans := trans
  answer := answer
  invokeOpen h i w hrun := by
    rw [h.invokeOpen_snd]
    exact ((begin w i).trans (hrun _ _)).trans (setContext _ _ _)

end KeepsClosed

/-- **A session that has been closed is closed in every state that can follow.** -/
theorem closed_of_follows (hs : s.id < w.sessions.size)
    (h : Follows AddsSessions (w.closeSession s) w') : (w'.session s).closed = true := by
  have hk : KeepsClosed (w.closeSession s) w' :=
    h.relates KeepsClosed.kept KeepsClosed.begin KeepsClosed.setContext
      fun _ _ step => step.keepsClosed
  refine hk.closed s ?_ (closed_closeSession hs (.inl rfl))
  rw [size_closeSession]
  exact hs

/-- A closed session is not copied. -/
theorem copySession_of_closed (h : (w.session s).closed = true) :
    w.copySession s = .error .closed := if_pos h

end World

/-! ## What a closed session answers -/

namespace SessionRef

variable {s : SessionRef} {w : World} {hd : Handler} {α : Type}

/-- What needs the runtime of a session. -/
inductive NeedsRuntime (s : SessionRef) (files : Files) : {α : Type} → SessionProgram α → Prop where
  /-- Calling a function. -/
  | call (context : Context) (f : GuestFunction) (args : List HostValue) :
      NeedsRuntime s files (s.call context f args)
  /-- Running source. -/
  | runString (context : Context) (source : String) :
      NeedsRuntime s files (s.runString context source)
  /-- Running a file that can be read. -/
  | runFile (context : Context) {path : String} {source : Bytes}
      (readable : Scripts.read files path = .ok source) :
      NeedsRuntime s files (s.runFile context path)
  /-- Setting the arguments of a script. -/
  | setArgs (script : String) (args : List String) : NeedsRuntime s files (s.setArgs script args)
  /-- Reading a global variable. -/
  | global (name : String) : NeedsRuntime s files (s.global name)
  /-- Reading a global variable as a declared type. -/
  | globalAs (name : String) (declared : Declared) : NeedsRuntime s files (s.globalAs name declared)
  /-- Writing a global variable. -/
  | setGlobal (name : String) (x : HostValue) : NeedsRuntime s files (s.setGlobal name x)

/-- What asks for the function that is registered for an event. -/
inductive AsksHook (s : SessionRef) (context : Context) :
    {α : Type} → SessionProgram (Option α) → Prop where
  /-- Any event. -/
  | hook (point : HookPoint) (args : List HostValue) :
      AsksHook s context (s.invokeHook context point args)
  /-- The prompt. -/
  | prompt (template : String) : AsksHook s context (s.renderPrompt context template)
  /-- A line. -/
  | line (line : String) : AsksHook s context (s.filterLine context line)
  /-- The words of a command. -/
  | words (words : List String) : AsksHook s context (s.filterArgs context words)
  /-- A command that was not found. -/
  | notFound (words : List String) : AsksHook s context (s.commandNotFound context words)
  /-- A key. -/
  | key (key line : String) : AsksHook s context (s.runKey context key line)
  /-- A completion. -/
  | complete (text word : String) (candidates : List String) :
      AsksHook s context (s.complete context text word candidates)

theorem AsksHook.use {context : Context} {p : SessionProgram (Option α)}
    (h : s.AsksHook context p) : s.Use context p := by
  cases h with
  | hook point args => exact .hook point args
  | prompt template => exact .prompt template
  | line line => exact .line line
  | words words => exact .words words
  | notFound words => exact .notFound words
  | key key line => exact .key key line
  | complete text word candidates => exact .complete text word candidates

section Closed

variable (closed : (w.session s).closed = true)

include closed

theorem run_runtime : hd.run s.runtime.run w = (.value (.error .closed), w) := by
  rw [runtime, Handler.run_session_ask_bind]
  show hd.run (if (w.session s).closed then _ else _ : SessionProgram RuntimeRef).run w = _
  rw [closed]
  rfl

theorem idles_runtime : s.runtime.run.Idles (fun x _ => x = .error .closed) w := by
  refine ⟨rfl, ?_⟩
  show Program.Idles _ (if (w.session s).closed then _ else _ : SessionProgram RuntimeRef).run w
  rw [closed]
  rfl

/-- **What needs the runtime of a closed session fails**, and changes nothing. -/
theorem run_of_needsRuntime (n b : Nat) (r : RuntimeRef) {p : SessionProgram α}
    (h : s.NeedsRuntime w.files p) :
    (handlerWithin (n + 1) b r).run p.run w = (.value (.error .closed), w) := by
  have hruntime : (handlerWithin (n + 1) b r).run s.runtime.run w = (.value (.error .closed), w) :=
    run_runtime closed
  have hcompile (name : String) (source : Bytes) :
      (handlerWithin (n + 1) b r).run (s.compile name source).run w =
        (.value (.error .closed), w) := Handler.run_session_bind_of_error hruntime _
  have hvalue (name : String) :
      (handlerWithin (n + 1) b r).run (s.globalValue name).run w =
        (.value (.error .closed), w) := Handler.run_session_bind_of_error hruntime _
  cases h with
  | call context f args =>
    show (handlerWithin (n + 1) b r).run (.invoke ⟨s, context, f, args⟩ .done) w = _
    simp only [Handler.run, handlerWithin, Handler.invokeIn, closed, if_true]
  | runString context source => exact Handler.run_session_bind_of_error (hcompile _ _) _
  | @runFile context path source readable =>
    have hfiles : w.answer .files = (w.files, w) := rfl
    rw [runFile, Handler.run_session_ask_bind, hfiles]
    dsimp only
    rw [readable]
    exact Handler.run_session_bind_of_error (hcompile _ _) _
  | setArgs script args => exact Handler.run_session_bind_of_error hruntime _
  | global name => exact Handler.run_session_bind_of_error (hvalue name) _
  | globalAs name declared => exact Handler.run_session_bind_of_error (hvalue name) _
  | setGlobal name x => exact Handler.run_session_bind_of_error hruntime _

/-- It starts no code of the guest. -/
theorem isIdle_of_needsRuntime {p : SessionProgram α} (h : s.NeedsRuntime w.files p) :
    p.IsIdle w := by
  have hbind {β γ : Type} {q : SessionProgram β} (f : β → SessionProgram γ)
      (hq : q.run.Idles (fun x _ => x = .error .closed) w) :
      (q >>= f).run.Idles (fun x _ => x = .error .closed) w := by
    refine Program.idles_bind.2 (hq.mono fun x w' hx => ?_)
    subst hx
    rfl
  have hidle {β : Type} {q : SessionProgram β}
      (hq : q.run.Idles (fun x _ => x = .error .closed) w) : q.IsIdle w :=
    hq.mono fun _ _ _ => trivial
  have hruntime := idles_runtime closed
  have hvalue (name : String) :
      (s.globalValue name).run.Idles (fun x _ => x = .error .closed) w := hbind _ hruntime
  cases h with
  | call context f args => exact Use.isIdle (.call f args) (.inl closed)
  | runString context source => exact Use.isIdle (.runString source) (.inl closed)
  | runFile context readable => exact Use.isIdle (.runFile _) (.inl closed)
  | setArgs script args => exact hidle (hbind _ hruntime)
  | global name => exact hidle (hbind _ (hvalue name))
  | globalAs name declared => exact hidle (hbind _ (hvalue name))
  | setGlobal name x => exact hidle (hbind _ hruntime)

/-- An event of a closed session has no function, or the function is not called. -/
theorem run_invokeHook_of_closed (n b : Nat) (r : RuntimeRef) (context : Context)
    (point : HookPoint) (args : List HostValue) :
    (handlerWithin (n + 1) b r).run (s.invokeHook context point args).run w =
        (.value (.ok none), w) ∨
      (handlerWithin (n + 1) b r).run (s.invokeHook context point args).run w =
        (.value (.error .closed), w) := by
  rw [run_invokeHook]
  cases (w.host.registry (w.session s).hooks).get? point with
  | none => exact .inl rfl
  | some f =>
    have hcall := run_of_needsRuntime closed n b r (.call context f args)
    exact .inr (Handler.run_session_bind_of_error hcall _)

/-- **Asking a closed session for a hook** gives no answer or fails, and changes nothing. -/
theorem run_of_asksHook (n b : Nat) (r : RuntimeRef) {context : Context}
    {p : SessionProgram (Option α)} (h : s.AsksHook context p) :
    (handlerWithin (n + 1) b r).run p.run w = (.value (.ok none), w) ∨
      (handlerWithin (n + 1) b r).run p.run w = (.value (.error .closed), w) := by
  -- every one of them asks first and has no answer where there is none
  have hthen {β : Type} (point : HookPoint) (args : List HostValue)
      (f : Option (List HostValue) → SessionProgram (Option β)) (hf : f none = pure none) :
      (handlerWithin (n + 1) b r).run (s.invokeHook context point args >>= f).run w =
          (.value (.ok none), w) ∨
        (handlerWithin (n + 1) b r).run (s.invokeHook context point args >>= f).run w =
          (.value (.error .closed), w) := by
    rcases run_invokeHook_of_closed closed n b r context point args with ha | ha
    · refine .inl ?_
      rw [Handler.run_session_bind_of_ok ha, hf]
      rfl
    · exact .inr (Handler.run_session_bind_of_error ha f)
  cases h with
  | hook point args => exact run_invokeHook_of_closed closed n b r context point args
  | prompt template => exact hthen _ _ _ rfl
  | line line => exact hthen _ _ _ rfl
  | words words => exact hthen _ _ _ rfl
  | notFound words => exact hthen _ _ _ rfl
  | key key line => exact hthen _ _ _ rfl
  | complete text word candidates => exact hthen _ _ _ rfl

end Closed

end SessionRef

/-! ## The main result -/

/-- An invocation that has begun has a result of its own, not that of a closed session. -/
theorem Ending.result_ne_closed (ending : Ending) (cancelled : Bool) (heap : Guest.Heap) :
    ending.result cancelled heap ≠ .error .closed := by
  intro h
  rcases Ending.result_error h with ⟨_, he⟩ | ⟨_, he⟩ | ⟨he, -, -⟩
  · cases he
  · cases he
  · cases he

/-- **Closing a session is final, and what is under way ends as it would.**  In every state that can
follow, whatever programs and the host have done since: the session is closed, and closing it again
changes nothing; what needs its runtime fails because it is closed, what asks for a hook of it has no
answer or fails for the same reason, and nothing of all this starts code of the guest.  An invocation
that had begun before ends where its way ends, with the result that this gives, which is not that of
a closed session; the contexts are then the ones before it, its streams are closed, and the fields
that it filled are as they were, whether the session was closed meanwhile or not. -/
theorem closing_is_final (w : World) (s : SessionRef) (hs : s.id < w.sessions.size)
    (natives : NativesGrow w.natives) :
    (∀ w', World.Follows World.AddsSessions (w.closeSession s) w' →
      (w'.session s).closed = true ∧ w'.closeSession s = w' ∧ w'.copySession s = .error .closed ∧
      ∀ (n b : Nat) (r : RuntimeRef) {α : Type},
        (∀ p : SessionProgram α, s.NeedsRuntime w'.files p →
          (handlerWithin (n + 1) b r).run p.run w' = (.value (.error .closed), w')) ∧
        (∀ (context : Context) (p : SessionProgram (Option α)), s.AsksHook context p →
          (handlerWithin (n + 1) b r).run p.run w' = (.value (.ok none), w') ∨
            (handlerWithin (n + 1) b r).run p.run w' = (.value (.error .closed), w')) ∧
        ∀ p : SessionProgram α,
          (s.NeedsRuntime w'.files p ∨ ∃ context : Context, s.Use context p) →
          ∀ m, Reaches n b r p.run w' m → m.Idle ∧ w'.Untouched m.world) ∧
    ∀ (n b : Nat) (r : RuntimeRef) (i : Invocation), i.session = s →
      (w.session s).closed = false → w.signals.isCancelled i.context.signal = false →
      (∀ ending w₁, (handlerWithin n b (w.session s).runtime).course i w = some (ending, w₁) →
        ∃ result w', (handlerWithin (n + 1) b r).invoke i w = (.value result, w')) ∧
      ∀ result w', (handlerWithin (n + 1) b r).invoke i w = (.value result, w') →
        (∃ ending w₁, (handlerWithin n b (w.session s).runtime).course i w = some (ending, w₁) ∧
          result = ending.result (w₁.signals.isCancelled i.context.signal) w'.heap) ∧
        result ≠ .error .closed ∧ w'.runtimes = w.runtimes ∧
        ∀ scope w₁, Enters (handlerWithin n b (w.session s).runtime) i w scope w₁ →
          (∀ e ∈ scope.streams, w'.heap.IsClosed e.2.1) ∧
          ∃ w₀, (handlerWithin n b (w.session s).runtime).run
              (Guest.ioTable (i.begin w).1.runtime) (i.begin w).2 = (.value scope.io, w₀) ∧
            ∀ name : StreamName,
              w'.heap.field scope.io name.field = w₀.heap.field scope.io name.field := by
  refine ⟨fun w' follows => ?_, fun n b r i hi hopen hwanted => ⟨fun ending w₁ hcourse => ?_,
    fun result w' hr => ?_⟩⟩
  · have closed := World.closed_of_follows hs follows
    refine ⟨closed, World.closeSession_of_closed closed, World.copySession_of_closed closed,
      fun n b r α => ⟨fun p needs => ?_, fun context p asks => ?_, fun p used m hm => ?_⟩⟩
    · exact SessionRef.run_of_needsRuntime closed n b r needs
    · exact SessionRef.run_of_asksHook closed n b r asks
    · rcases used with needs | ⟨context, use⟩
      · exact (SessionRef.isIdle_of_needsRuntime closed needs).reaches hm
      · exact (use.isIdle (.inl closed)).reaches hm
  · subst hi
    obtain ⟨w', hr⟩ := invoke_of_course (r := r) hopen hwanted hcourse
    exact ⟨_, w', hr⟩
  · subst hi
    obtain ⟨ending, w₁, hcourse, hresult⟩ := course_of_invoke hopen hwanted hr
    have hin : (handlerWithin n b (w.session i.session).runtime).invokeIn i w =
      (.value result, w') := hr
    have hslots : w'.runtimes = w.runtimes := by
      have hk := runtimes_kept.invoke (n + 1) b r i w
      rwa [hr] at hk
    refine ⟨⟨ending, w₁, hcourse, hresult⟩, ?_, hslots, fun scope w₂ he => ⟨fun e hmem => ?_, ?_⟩⟩
    · rw [hresult]
      exact ending.result_ne_closed _ _
    · exact closed_of_invokeIn natives hin he hmem
    · exact field_of_invokeIn natives hin he

/-- A session whose `io.stdin` is a text of the guest's is closed by a function that is called in it:
the call ends, not as one of a closed session, and the text is in its place again.  When it has been
closed and a hook has been registered after that, it runs no source. -/
theorem session_closed_by_its_guest :
    let io : Guest.Table :=
      { slots := [(.text "stdin", .text "kept")], distinct := List.pairwise_singleton _ _ }
    let globals : Guest.Table :=
      { slots := [(.text "io", .table ⟨1⟩)], distinct := List.pairwise_singleton _ _ }
    let i : Invocation := ⟨⟨0⟩, ⟨0, default, none⟩, ⟨0⟩, []⟩
    let w : World :=
      { heap := { tables := #[globals, io], functions := #[⟨⟨0⟩, .host ⟨0, false⟩⟩] }
        runtimes := #[{ runtime := { (default : Guest.Runtime) with globals := ⟨0⟩ } }]
        sessions := #[default]
        hostFunctions := #[(0, [])]
        hostCode := #[fun _ _ => do
          Program.ask (.closeSession ⟨0⟩)
          return []] }
    let left := (handlerWithin 3 3 ⟨0⟩).invoke i w
    let later := ((w.closeSession ⟨0⟩).registerHook ⟨0⟩ .prompt ⟨0⟩).2
    0 < w.sessions.size ∧ NativesGrow w.natives ∧
      (left.2.session ⟨0⟩).closed = true ∧ left.1.ended = true ∧
      left.1 ≠ .value (.error .closed) ∧ left.2.heap.field ⟨1⟩ "stdin" = .text "kept" ∧
      (handlerWithin 3 3 ⟨0⟩).run (SessionRef.runString ⟨0⟩ i.context "return 1").run later =
        (.value (.error .closed), later) := by
  intro io globals i w left later
  have hs : 0 < w.sessions.size := Nat.one_pos
  have natives : NativesGrow w.natives := fun n form hf => by cases hf
  have hended : left.1.ended = true := by decide +kernel
  obtain ⟨hlater, hgoes⟩ := closing_is_final w ⟨0⟩ hs natives
  obtain ⟨-, -, -, hafter⟩ := hlater later (.acts .now (.registerHook _ _ _ _))
  obtain ⟨-, hleaves⟩ := hgoes 2 3 ⟨0⟩ i rfl rfl rfl
  have hends (outcome : Outcome (Except BridgeError (List HostValue))) (w' : World)
      (hr : (handlerWithin 3 3 ⟨0⟩).invoke i w = (outcome, w')) (hret : outcome.ended = true) :
      outcome ≠ .value (.error .closed) ∧ w'.heap.field ⟨1⟩ "stdin" = .text "kept" := by
    cases outcome with
    | exhausted => cases hret
    | error v =>
      have hne := handlerWithin_invoke_ne_error 3 3 ⟨0⟩ i w v
      rw [hr] at hne
      exact absurd rfl hne
    | value result =>
      obtain ⟨-, hne, -, hscope⟩ := hleaves result w' hr
      refine ⟨fun he => hne (Outcome.value.inj he), ?_⟩
      have ht : w.heap.field (w.runtime (w.session i.session).runtime).runtime.globals "io" =
        .table ⟨1⟩ := rfl
      obtain ⟨hio, scope, w₁, he⟩ := enters_of_global (handlerWithin 2 3 ⟨0⟩) rfl rfl ht
      obtain ⟨-, w₀, hio', hfield⟩ := hscope scope w₁ he
      obtain ⟨hsame, rfl⟩ := Prod.mk.inj (hio.symm.trans hio')
      rw [← Outcome.value.inj hsame, heap_begin] at hfield
      exact hfield .stdin
  obtain ⟨hne, hkept⟩ := hends left.1 left.2 (Prod.eta _).symm hended
  exact ⟨hs, natives, by decide +kernel, hended, hne, hkept, (hafter 2 3 ⟨0⟩).1 _ (.runString _ _)⟩

end ScriptShell
