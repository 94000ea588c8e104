import ScriptShell.Proofs.HeapGrowth
import ScriptShell.Proofs.HostPrograms
import ScriptShell.Session.Hooks

/-! # Runs that start no guest code

An invocation of a closed session, or for a context that is cancelled, is refused before anything
happens (`Invocation.Refused`).  `Program.Idles` follows a program of the host from a state on: every
operation it asks for is one that looks or adds something new, every invocation is refused, and it
calls no guest function by itself.  Nothing else needs to be known of a run: no moment of it is inside
an invocation or before a call, and what was in the state is still there (`Program.Idles.reaches`).

What the shell does with a session comes down to invocations of it, whatever it is answered
(`SessionRef.Use.confined`), so all of it idles where these are refused (`SessionRef.Use.isIdle`).
-/

namespace ScriptShell

open Guest (Value RuntimeRef)

/-! ## States with everything in its place -/

/-- The later state has everything of the earlier one as it was, apart from new parts of the heap and
from what was written to the outputs. -/
def World.Untouched (w w' : World) : Prop :=
  ∃ heap outputs, w.heap.Keeps heap ∧ w' = { w with heap := heap, outputs := outputs }

namespace World.Untouched

variable {w w' w'' : World}

theorem refl (w : World) : Untouched w w := ⟨w.heap, w.outputs, .refl _, rfl⟩

theorem trans (h : Untouched w w') (h' : Untouched w' w'') : Untouched w w'' := by
  obtain ⟨_, _, hk, rfl⟩ := h
  obtain ⟨_, _, hk', rfl⟩ := h'
  exact ⟨_, _, hk.trans hk', rfl⟩

theorem session (h : Untouched w w') (s : SessionRef) : w'.session s = w.session s := by
  obtain ⟨_, _, -, rfl⟩ := h
  rfl

theorem signals (h : Untouched w w') : w'.signals = w.signals := by
  obtain ⟨_, _, -, rfl⟩ := h
  rfl

theorem heap (h : Untouched w w') : w.heap.Keeps w'.heap := by
  obtain ⟨_, _, hk, rfl⟩ := h
  exact hk

end World.Untouched

/-- Whether an operation only looks, adds something new to the heap, or writes to an output. -/
def Operation.isMild : Operation → Bool
  | .session _ | .shell _ | .runtime _ | .processIo | .host | .files | .newCell _ | .newFunction _
  | .write .. => true
  | _ => false

theorem World.untouched_answer (w : World) {o : Operation} (mild : o.isMild = true) :
    w.Untouched (w.answer o).2 := by
  have same := Guest.Heap.Keeps.refl w.heap
  cases o with
  | session | shell | runtime | processIo | host | files => exact .refl w
  | newCell v => exact ⟨_, _, same.addCell v, rfl⟩
  | newFunction f => exact ⟨_, _, same.addFunction f, rfl⟩
  | write o data => exact ⟨_, _, same, rfl⟩
  | _ => cases mild

/-! ## Refused invocations -/

/-- An invocation that is turned down before anything happens: its session is closed or its context
is cancelled. -/
def Invocation.Refused (i : Invocation) (w : World) : Prop :=
  (w.session i.session).closed = true ∨ w.signals.isCancelled i.context.signal = true

/-- What is refused stays so while everything stays in its place. -/
theorem Invocation.Refused.untouched {i : Invocation} {w w' : World} (h : i.Refused w)
    (hw : w.Untouched w') : i.Refused w' := by
  rw [Refused, hw.session, hw.signals]
  exact h

/-- A refused invocation ends with an error and changes nothing. -/
theorem Invocation.Refused.invoke {i : Invocation} {w : World} (h : i.Refused w) (n b : Nat)
    (r : RuntimeRef) : ∃ e, (handlerWithin n b r).invoke i w = (.value (.error e), w) := by
  cases n with
  | zero => exact ⟨_, rfl⟩
  | succ n =>
    simp only [handlerWithin, Handler.invokeIn]
    split
    · exact ⟨_, rfl⟩
    · next hopen => exact ⟨_, if_pos (h.resolve_left hopen)⟩

/-! ## Idling -/

namespace Program

variable {α β : Type}

/-- Whether a program starts no guest code in a state and leaves everything in its place, and
`Q` holds of the value and the state that it ends with, if it does with a value. -/
def Idles (Q : α → World → Prop) : Program α → World → Prop
  | .done a, w => Q a w
  | .raise _, _ | .exhausted, _ => True
  | .perform o k, w => o.isMild = true ∧ (k (w.answer o).1).Idles Q (w.answer o).2
  | .call .., _ => False
  | .invoke i k, w => i.Refused w ∧ ∀ e, (k (.error e)).Idles Q w

theorem Idles.mono {Q Q' : α → World → Prop} {p : Program α} {w : World} (h : p.Idles Q w)
    (hQ : ∀ a w, Q a w → Q' a w) : p.Idles Q' w := by
  induction p generalizing w with
  | done a => exact hQ a w h
  | raise v => trivial
  | exhausted => trivial
  | perform o k ih => exact ⟨h.1, ih _ h.2⟩
  | call f args sites k ih => exact h
  | invoke i k ih => exact ⟨h.1, fun e => ih _ (h.2 e)⟩

/-- A program that goes on with the value of another one. -/
theorem idles_bind {p : Program α} {f : α → Program β} {Q : β → World → Prop} {w : World} :
    (p >>= f).Idles Q w ↔ p.Idles (fun a w => (f a).Idles Q w) w := by
  show (p.bind f).Idles Q w ↔ _
  induction p generalizing w with
  | done a => exact Iff.rfl
  | raise v => exact Iff.rfl
  | exhausted => exact Iff.rfl
  | perform o k ih => exact and_congr_right fun _ => ih _
  | call f args sites k ih => exact Iff.rfl
  | invoke i k ih => exact and_congr_right fun _ => forall_congr' fun e => ih _

/-- **Where the invocations that it may make are refused, a program idles** that does nothing else but
look or add something new. -/
theorem Confined.idles {invokes : Invocation → Prop} {p : Program α} {w : World}
    (hp : p.Confined (·.isMild = true) invokes) (refused : ∀ i, invokes i → i.Refused w) :
    p.Idles (fun _ _ => True) w := by
  induction p generalizing w with
  | done a => trivial
  | raise v => trivial
  | exhausted => trivial
  | perform o k ih =>
    -- a mild operation leaves the sessions and the signals, and with them what is refused
    exact ⟨hp.1, ih _ (hp.2 _) fun i hi => (refused i hi).untouched (w.untouched_answer hp.1)⟩
  | call f args sites k ih => exact hp.elim
  | invoke i k ih => exact ⟨refused i hp.1, fun e => ih _ (hp.2 _) refused⟩

end Program

/-- A moment at which no guest code runs: it is inside no invocation, and no call is about to be
made. -/
def Moment.Idle (m : Moment) : Prop :=
  m.activations = [] ∧ ∀ f args sites k, m.rest ≠ .call f args sites k

namespace Program

variable {α : Type} {n b : Nat} {r : RuntimeRef} {p : Program α} {w : World}

/-- A program that runs guest code by invocations only runs none outside of them. -/
theorem Confined.idle {asks : Operation → Prop} {invokes : Invocation → Prop}
    (hp : p.Confined asks invokes) {m : Moment} (hm : Reaches n b r p w m)
    (hout : m.activations = []) : m.Idle := by
  induction p generalizing w with
  | done a =>
    cases hm
    exact ⟨rfl, by simp⟩
  | raise v => exact hp.elim
  | exhausted => exact hp.elim
  | perform o k ih =>
    cases hm with
    | now => exact ⟨rfl, by simp⟩
    | perform later => exact ih _ (hp.2 _) later
  | call f args sites k ih => exact hp.elim
  | invoke i k ih =>
    cases hm with
    | now => exact ⟨rfl, by simp⟩
    | inInvocation isOpen isWanted inside =>
      exact absurd hout (List.append_ne_nil_of_right_ne_nil _ (List.cons_ne_nil _ _))
    | afterInvocation returns later => exact ih _ (hp.2 _) later

/-- **No moment of an idle run has guest code in it**, and everything is in its place. -/
theorem Idles.reaches {Q : α → World → Prop} (h : p.Idles Q w) {m : Moment}
    (hm : Reaches n b r p w m) : m.Idle ∧ w.Untouched m.world := by
  induction p generalizing w with
  | done a =>
    cases hm
    exact ⟨⟨rfl, by simp⟩, .refl w⟩
  | raise v =>
    cases hm
    exact ⟨⟨rfl, by simp⟩, .refl w⟩
  | exhausted =>
    cases hm
    exact ⟨⟨rfl, by simp⟩, .refl w⟩
  | perform o k ih =>
    cases hm with
    | now => exact ⟨⟨rfl, by simp⟩, .refl w⟩
    | perform later =>
      obtain ⟨hidle, hw⟩ := ih _ h.2 later
      exact ⟨hidle, (w.untouched_answer h.1).trans hw⟩
  | call f args sites k ih => exact h.elim
  | invoke i k ih =>
    cases hm with
    | now => exact ⟨⟨rfl, by simp⟩, .refl w⟩
    | inInvocation isOpen isWanted inside =>
      rcases h.1 with hc | hc
      · rw [isOpen] at hc
        cases hc
      · rw [isWanted] at hc
        cases hc
    | afterInvocation returns later =>
      obtain ⟨e, he⟩ := h.1.invoke n b r
      rw [he] at returns
      cases returns
      exact ih _ (h.2 e) later

/-- An idle run leaves everything in its place. -/
theorem Idles.run {Q : α → World → Prop} (h : p.Idles Q w) (n b : Nat) (r : RuntimeRef) :
    w.Untouched ((handlerWithin n b r).run p w).2 := by
  induction p generalizing w with
  | done a => exact .refl w
  | raise v => exact .refl w
  | exhausted => exact .refl w
  | perform o k ih => exact (w.untouched_answer h.1).trans (ih _ h.2)
  | call f args sites k ih => exact h.elim
  | invoke i k ih =>
    obtain ⟨e, he⟩ := h.1.invoke n b r
    rw [Handler.run, he]
    exact ih _ (h.2 e)

end Program

/-! ## Programs of a session -/

/-- Whether a program of a session starts no guest code in a state. -/
def SessionProgram.IsIdle {α : Type} (p : SessionProgram α) (w : World) : Prop :=
  p.run.Idles (fun _ _ => True) w

namespace SessionRef

open Program.Confined

variable {s : SessionRef} {context : Context}

section Parts

-- the parts invoke nothing
variable (invokes : Invocation → Prop)

theorem confined_runtime (s : SessionRef) : s.runtime.run.Confined (·.isMild = true) invokes := by
  refine sessionAsking (by rfl) fun state => ?_
  dsimp only
  split
  · trivial
  · trivial

theorem confined_report (s : SessionRef) (message : String) :
    (s.report message).Confined (·.isMild = true) invokes := by
  have hpipes : s.pipes.Confined (·.isMild = true) invokes := by
    refine asking (by rfl) fun state => asking (by rfl) fun shell => ?_
    split
    · trivial
    · exact ask (by rfl)
  exact hpipes.andThen fun _ => ask (by rfl)

theorem confined_compile (s : SessionRef) (name : String) (source : Bytes) :
    (s.compile name source).run.Confined (·.isMild = true) invokes := by
  refine thenDo (confined_runtime _ s) fun r => ?_
  split
  · trivial
  · exact sessionAsking (by rfl) fun _ => sessionAsking (by rfl) fun _ => sessionAsk (by rfl)

theorem confined_textsOf (complaint : String) (v : HostValue) :
    (textsOf complaint v).run.Confined (·.isMild = true) invokes := by
  unfold textsOf
  split
  · trivial
  · unfold crossing
    split
    · trivial
    · trivial

end Parts

/-- What the shell does with a session for a context. -/
inductive Use (s : SessionRef) (context : Context) : {α : Type} → SessionProgram α → Prop where
  /-- It calls a function. -/
  | call (f : GuestFunction) (args : List HostValue) : Use s context (s.call context f args)
  /-- It runs source. -/
  | runString (source : String) : Use s context (s.runString context source)
  /-- It runs a file. -/
  | runFile (path : String) : Use s context (s.runFile context path)
  /-- It loads the startup scripts. -/
  | startup : Use s context (s.loadStartupScripts context)
  /-- It calls the function registered for an event. -/
  | hook (point : HookPoint) (args : List HostValue) : Use s context (s.invokeHook context point args)
  /-- It renders the prompt. -/
  | prompt (template : String) : Use s context (s.renderPrompt context template)
  /-- It filters a line. -/
  | line (line : String) : Use s context (s.filterLine context line)
  /-- It filters the words of a command. -/
  | words (words : List String) : Use s context (s.filterArgs context words)
  /-- It offers a command that was not found. -/
  | notFound (words : List String) : Use s context (s.commandNotFound context words)
  /-- It runs what is bound to a key. -/
  | key (key line : String) : Use s context (s.runKey context key line)
  /-- It asks for completions. -/
  | complete (text word : String) (candidates : List String) :
      Use s context (s.complete context text word candidates)

/-- An invocation of the session for the context. -/
def IsFor (s : SessionRef) (context : Context) (i : Invocation) : Prop :=
  i.session = s ∧ i.context = context

theorem confined_call (f : GuestFunction) (args : List HostValue) :
    (s.call context f args).run.Confined (·.isMild = true) (s.IsFor context) :=
  ⟨⟨rfl, rfl⟩, fun _ => trivial⟩

theorem confined_runFile (path : String) :
    (s.runFile context path).run.Confined (·.isMild = true) (s.IsFor context) := by
  refine sessionAsking (by rfl) fun files => ?_
  split
  · trivial
  · exact thenDo (confined_compile _ s _ _) fun f => confined_call f []

theorem confined_runAll (report : StartupReport) (paths : List String) :
    (s.runAll context report paths).run.Confined (·.isMild = true) (s.IsFor context) := by
  induction paths generalizing report with
  | nil => trivial
  | cons path rest ih =>
    refine thenDo (lift (confined_runFile path)) fun result => ?_
    split
    · exact ih _
    · trivial
    · exact thenDo (lift (confined_report _ s _)) fun _ => ih _

theorem confined_invokeHook (point : HookPoint) (args : List HostValue) :
    (s.invokeHook context point args).run.Confined (·.isMild = true) (s.IsFor context) := by
  refine sessionAsking (by rfl) fun host => sessionAsking (by rfl) fun state => ?_
  dsimp only
  split
  · trivial
  · exact thenDo (confined_call _ args) fun _ => trivial

/-- **A session is used by invocations of it for the context**, and by nothing that changes what is
there. -/
theorem Use.confined {α : Type} {p : SessionProgram α} (use : Use s context p) :
    p.run.Confined (·.isMild = true) (s.IsFor context) := by
  cases use with
  | call f args => exact confined_call f args
  | runString source => exact thenDo (confined_compile _ s _ _) fun f => confined_call f []
  | runFile path => exact confined_runFile path
  | startup =>
    -- nothing is run if scripts are not loaded or their directories cannot be listed
    refine sessionAsking (by rfl) fun state => ?_
    dsimp only
    split
    · trivial
    · refine sessionAsking (by rfl) fun files => ?_
      split
      · trivial
      · exact confined_runAll _ _
  | hook point args => exact confined_invokeHook point args
  | prompt template => exact thenDo (confined_invokeHook _ _) fun _ => trivial
  | line line => exact thenDo (confined_invokeHook _ _) fun _ => trivial
  | notFound words => exact thenDo (confined_invokeHook _ _) fun _ => trivial
  | key key line => exact thenDo (confined_invokeHook _ _) fun _ => trivial
  | words words =>
    refine thenDo (confined_invokeHook _ _) fun results => ?_
    split
    · trivial
    · trivial
    · trivial
    · exact thenDo (confined_textsOf _ _ _) fun _ => trivial
  | complete text word candidates =>
    refine thenDo (confined_invokeHook _ _) fun results => ?_
    split
    · trivial
    · trivial
    · trivial
    · exact thenDo (confined_textsOf _ _ _) fun _ => trivial

/-- Every invocation of the session for the context is refused. -/
def Refuses (s : SessionRef) (context : Context) (w : World) : Prop :=
  (w.session s).closed = true ∨ w.signals.isCancelled context.signal = true

/-- **Where its invocations are refused, a session is used without starting guest code.** -/
theorem Use.isIdle {α : Type} {p : SessionProgram α} {w : World} (use : Use s context p)
    (h : s.Refuses context w) : p.IsIdle w := by
  refine use.confined.idles fun i hi => ?_
  rw [Invocation.Refused, hi.1, hi.2]
  exact h

end SessionRef
end ScriptShell
