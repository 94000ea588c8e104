import ScriptShell.Proofs.Contexts
import ScriptShell.Proofs.StreamIsolation

/-! # The pipes of host functions

There are two ways to the pipes of a command.  A guest has streams, which get their pipes when the
invocation begins and never get others (`Guest.Heap.KeepsStreams`).  A host function gets its pipes
when it is called: those that the shell of the context in the slot of its runtime has by then
(`run_hostBody`).  Host functions may give a shell other pipes around an invocation that they make,
so the two agree only if the old pipes are put back.  `orderlyWithin` checks that along a run, and
then the context of the innermost invocation leads to the pipes of its streams wherever a function
is called (`Innermost.ioFor_of_call`).

What the slot holds is known from `context_of_reaches`.  It is the context of the innermost
invocation in the runtime of the function, so the function has to belong to a session that is being
invoked, and for the same shell.  `pipes_apart` shows what happens to the others.
-/

namespace ScriptShell

open Guest (Heap Value UserRef TableRef RuntimeRef StreamScope LibraryCall)

variable {α : Type} {n b : Nat} {r : RuntimeRef}

/-! ## Pipes of a call -/

namespace World

/-- The pipes that go with a context. -/
def ioFor (w : World) (context? : Option Context) : CommandIo :=
  match context?.bind (·.shell?) with
  | none => w.processIo
  | some s => if (w.shell s).alive then (w.shell s).io else w.processIo

theorem ioFor_congr (w : World) {c c' : Context} (h : c'.shell? = c.shell?) :
    w.ioFor (some c') = w.ioFor (some c) := by
  rw [ioFor, ioFor, Option.bind_some, Option.bind_some, h]

end World

theorem run_ioOf (hd : Handler) (context? : Option Context) (w : World) :
    hd.run (Guest.ioOf context?) w = (.value (w.ioFor context?), w) := by
  rw [Guest.ioOf, World.ioFor]
  cases context?.bind (·.shell?) with
  | none => rfl
  | some s =>
    dsimp only
    rw [Handler.run_ask_bind]
    show hd.run (if (w.shell s).alive then _ else _) w = _
    split <;> rfl

/-- A host function whose arguments have host forms gets them with the pipes that go with the
context in the slot of its runtime. -/
theorem run_hostBody (hd : Handler) (code : HostCall → Program (List HostValue)) (c : LibraryCall)
    {w : World} {xs : List HostValue} (hargs : Marshal.listToHost w.heap c.args = .ok xs) :
    hd.run (Guest.hostBody code c) w =
      hd.run (code { args := xs, io := w.ioFor (w.runtime c.runtime).context?,
                     context? := (w.runtime c.runtime).context? } >>=
        Program.forAll c.guestValue) w := by
  have hheap : w.answer .heap = (w.heap, w) := rfl
  rw [Guest.hostBody, Handler.run_ask_bind, hheap]
  dsimp only
  rw [hargs]
  dsimp only
  rw [Handler.run_ask_bind]
  exact Handler.run_bind_of_value (run_ioOf hd _ w)

/-! ## Shells over whole runs -/

/-- The shells are as before, their pipes apart, and every session is for the shell that it was
for. -/
structure SameShells (w w' : World) : Prop where
  /-- The process has the same pipes. -/
  processIo : w'.processIo = w.processIo
  /-- The same shells exist. -/
  alive : ∀ s, (w'.shell s).alive = (w.shell s).alive
  /-- Sessions stay with their shells. -/
  session : ∀ s, (w'.session s).shell = (w.session s).shell

namespace SameShells

variable {w w' w'' : World}

theorem of_eq (hp : w'.processIo = w.processIo) (hs : w'.shells = w.shells)
    (hss : w'.sessions = w.sessions) : SameShells w w' :=
  ⟨hp, fun s => by rw [World.shell, World.shell, hs],
    fun s => by rw [World.session, World.session, hss]⟩

theorem trans (h : SameShells w w') (h' : SameShells w' w'') : SameShells w w'' :=
  ⟨h'.processIo.trans h.processIo, fun s => (h'.alive s).trans (h.alive s),
    fun s => (h'.session s).trans (h.session s)⟩

theorem begin (w : World) (i : Invocation) : SameShells w (i.begin w).2 := by
  unfold Invocation.begin
  dsimp only
  split <;> exact of_eq rfl rfl rfl

theorem setContext (w : World) (q : RuntimeRef) (c? : Option Context) :
    SameShells w (w.setContext q c?) := of_eq rfl rfl rfl

theorem kept : Kept SameShells where
  refl _ := of_eq rfl rfl rfl
  trans := trans
  answer w o := by
    refine ⟨(w.framed_answer o).processIo, fun t => ?_, fun t => ?_⟩
    · rcases (w.framed_answer o).shells with h | ⟨s, io, rfl⟩
      · rw [World.shell, World.shell, h]
      · show ((w.shells.modify s.id fun st => { st with io := io })[t.id]?.getD default).alive = _
        rw [World.shell, Array.getElem?_modify]
        split
        · cases w.shells[t.id]? <;> rfl
        · rfl
    · obtain ⟨_, h⟩ := w.session_answer o t
      rw [h]
  invokeOpen h i w hrun := by
    rw [h.invokeOpen_snd]
    exact ((begin w i).trans (hrun _ _)).trans (setContext _ _ _)

end SameShells

/-- An invocation whose session has a shell, or whose context has none to offer instead. -/
def Invocation.Hosted (i : Invocation) (w : World) : Prop :=
  (w.shell (w.session i.session).shell).alive = true ∨
    ∀ s, i.context.shell? = some s → (w.shell s).alive = false

/-- As long as the shell of its session has the pipes that it had, the context of an invocation leads
to the pipes of its streams. -/
theorem Invocation.Hosted.ioFor {i : Invocation} {w w' : World} (h : i.Hosted w)
    (hsame : SameShells w w')
    (hhome : (w'.shell (w.session i.session).shell).io = (w.shell (w.session i.session).shell).io) :
    w'.ioFor (some (i.begin w).1.context) = (i.begin w).1.io := by
  cases halive : (w.shell (w.session i.session).shell).alive with
  | true =>
    simp only [Invocation.begin, halive, if_true]
    show (if (w'.shell (w.session i.session).shell).alive then _ else _) = _
    rw [hsame.alive, halive]
    exact hhome
  | false =>
    simp only [Invocation.begin, halive, Bool.false_eq_true, if_false]
    rw [World.ioFor, Option.bind_some, hsame.processIo]
    cases hs : i.context.shell? with
    | none => rfl
    | some s =>
      have hdead : (w.shell s).alive = false := h.resolve_left (by rw [halive]; simp) s hs
      show (if (w'.shell s).alive then _ else _) = _
      rw [hsame.alive, hdead]
      rfl

/-- While every session has its shell, so has every invocation. -/
theorem hosted_of_alive {p : Program α} {w : World}
    (hw : ∀ s, (w.shell (w.session s).shell).alive = true) {m : Moment}
    (hm : Reaches n b r p w m) (i : Invocation) : i.Hosted m.world := by
  have h := SameShells.kept.reaches SameShells.begin hm
  left
  rw [h.session, h.alive]
  exact hw i.session

/-! ## Pipes that are put back -/

/-- A shell and the pipes that it has to have. -/
structure Home where
  /-- The shell. -/
  shell : ShellRef
  /-- The pipes. -/
  io : CommandIo

/-- Whether the shell has these pipes. -/
def World.isHome (w : World) (home : Home) : Bool := (w.shell home.shell).io = home.io

/-- What an invocation finds with the shell of its session. -/
def Invocation.home (i : Invocation) (w : World) : Home :=
  ⟨(w.session i.session).shell, (w.shell (w.session i.session).shell).io⟩

namespace Handler

/-- Whether a program has its pipes in place, if there are any to be kept, wherever it calls a
function and where it ends.  In between it may replace them, so around an invocation that it makes,
but not around a call. -/
def orderly (h : Handler) (calls : Value → List Value → CallSites → World → Bool)
    (invokes : Invocation → World → Bool) (home? : Option Home) {α : Type} :
    Program α → World → Bool
  | .done _, w | .raise _, w => home?.all w.isHome
  | .exhausted, _ => true
  | .perform o k, w =>
    match w.answer o with
    | (x, w) => h.orderly calls invokes home? (k x) w
  | .call f args sites k, w =>
    home?.all w.isHome && calls f args sites w &&
      match h.call f args sites w with
      | (.value vs, w) => h.orderly calls invokes home? (k (.ok vs)) w
      | (.error v, w) => h.orderly calls invokes home? (k (.error v)) w
      | (.exhausted, _) => true
  | .invoke i k, w =>
    invokes i w &&
      match h.invoke i w with
      | (.value result, w) => h.orderly calls invokes home? (k result) w
      | (.error _, _) | (.exhausted, _) => true

section Orderly

variable {h : Handler} {calls : Value → List Value → CallSites → World → Bool}
  {invokes : Invocation → World → Bool} {home? : Option Home} {w : World}

theorem orderly_call_iff {f : Value} {args : List Value} {sites : CallSites}
    {k : Except Value (List Value) → Program α} :
    h.orderly calls invokes home? (.call f args sites k) w = true ↔
      (home?.all w.isHome = true ∧ calls f args sites w = true) ∧
        (match h.call f args sites w with
          | (.value vs, w) => h.orderly calls invokes home? (k (.ok vs)) w
          | (.error v, w) => h.orderly calls invokes home? (k (.error v)) w
          | (.exhausted, _) => true) = true := by
  rw [orderly, Bool.and_eq_true, Bool.and_eq_true]

theorem orderly_invoke_iff {i : Invocation} {k : Except BridgeError (List HostValue) → Program α} :
    h.orderly calls invokes home? (.invoke i k) w = true ↔
      invokes i w = true ∧
        (match h.invoke i w with
          | (.value result, w) => h.orderly calls invokes home? (k result) w
          | (.error _, _) | (.exhausted, _) => true) = true := by
  rw [orderly, Bool.and_eq_true]

end Orderly

end Handler

/-- Whether a run, all that it calls and all that it invokes replace the pipes of a shell only
outside its invocations or around an invocation with the old pipes put back afterwards.  Inside an
invocation its shell has to have the pipes that it had when the invocation began. -/
def orderlyWithin : Nat → Nat → RuntimeRef → Option Home → {α : Type} → Program α → World → Bool
  | 0, b, r, home?, _, p, w =>
    (handlerWithin 0 b r).orderly (fun _ _ _ _ => true) (fun _ _ => true) home? p w
  | n + 1, b, r, home?, _, p, w =>
    (handlerWithin (n + 1) b r).orderly
      (fun f args sites w => sites.isBoundary && b = 0 ||
        orderlyWithin n (if sites.isBoundary then b - 1 else b) (Guest.bodyOf w r f args sites).1
          home? (Guest.bodyOf w r f args sites).2 w)
      (fun i w => (w.session i.session).closed || w.signals.isCancelled i.context.signal ||
        orderlyWithin n b (w.session i.session).runtime (some (i.home w)) (i.body (i.begin w).1)
          (i.begin w).2)
      home? p w

section Orderly

variable {home? : Option Home} {w : World}

/-- Bounds decide only what calls and invocations have to do. -/
theorem exists_orderly (n b : Nat) (r : RuntimeRef) (home? : Option Home) :
    ∃ calls invokes, ∀ (α : Type) (p : Program α) (w : World), orderlyWithin n b r home? p w =
      (handlerWithin n b r).orderly calls invokes home? p w := by
  cases n with
  | zero => exact ⟨_, _, fun _ _ _ => rfl⟩
  | succ n => exact ⟨_, _, fun _ _ _ => rfl⟩

theorem orderly_perform {o : Operation} {k : o.Answer → Program α} :
    orderlyWithin n b r home? (.perform o k) w =
      orderlyWithin n b r home? (k (w.answer o).1) (w.answer o).2 := by
  obtain ⟨calls, invokes, heq⟩ := exists_orderly n b r home?
  rw [heq, heq]
  rfl

section Calls

variable {f : Value} {args : List Value} {sites : CallSites}
  {k : Except Value (List Value) → Program α}

theorem home_of_orderly_call (h : orderlyWithin n b r home? (.call f args sites k) w = true) :
    home?.all w.isHome = true := by
  obtain ⟨calls, invokes, heq⟩ := exists_orderly n b r home?
  rw [heq, Handler.orderly_call_iff] at h
  exact h.1.1

theorem orderly_afterCall (h : orderlyWithin n b r home? (.call f args sites k) w = true)
    {vs : List Value} {w' : World}
    (returns : (handlerWithin n b r).call f args sites w = (.value vs, w')) :
    orderlyWithin n b r home? (k (.ok vs)) w' = true := by
  obtain ⟨calls, invokes, heq⟩ := exists_orderly n b r home?
  rw [heq, Handler.orderly_call_iff, returns] at h
  exact (heq _ _ _).trans h.2

theorem orderly_afterError (h : orderlyWithin n b r home? (.call f args sites k) w = true)
    {v : Value} {w' : World}
    (fails : (handlerWithin n b r).call f args sites w = (.error v, w')) :
    orderlyWithin n b r home? (k (.error v)) w' = true := by
  obtain ⟨calls, invokes, heq⟩ := exists_orderly n b r home?
  rw [heq, Handler.orderly_call_iff, fails] at h
  exact (heq _ _ _).trans h.2

theorem orderly_inCall (h : orderlyWithin (n + 1) b r home? (.call f args sites k) w = true)
    (enters : (sites.isBoundary && b = 0) = false) :
    orderlyWithin n (if sites.isBoundary then b - 1 else b) (Guest.bodyOf w r f args sites).1
      home? (Guest.bodyOf w r f args sites).2 w = true := by
  have hin := (Handler.orderly_call_iff.1 h).1.2
  rwa [enters, Bool.false_or] at hin

end Calls

section Invocations

variable {i : Invocation} {k : Except BridgeError (List HostValue) → Program α}

theorem orderly_afterInvocation (h : orderlyWithin n b r home? (.invoke i k) w = true)
    {result : Except BridgeError (List HostValue)} {w' : World}
    (returns : (handlerWithin n b r).invoke i w = (.value result, w')) :
    orderlyWithin n b r home? (k result) w' = true := by
  obtain ⟨calls, invokes, heq⟩ := exists_orderly n b r home?
  rw [heq, Handler.orderly_invoke_iff, returns] at h
  exact (heq _ _ _).trans h.2

theorem orderly_inInvocation (h : orderlyWithin (n + 1) b r home? (.invoke i k) w = true)
    (isOpen : (w.session i.session).closed = false)
    (isWanted : w.signals.isCancelled i.context.signal = false) :
    orderlyWithin n b (w.session i.session).runtime (some (i.home w)) (i.body (i.begin w).1)
      (i.begin w).2 = true := by
  have hin := (Handler.orderly_invoke_iff.1 h).1
  rwa [isOpen, isWanted, Bool.false_or, Bool.false_or] at hin

end Invocations
end Orderly

/-! ## The innermost invocation -/

/-- What is left at a moment outside the invocations of a run is as orderly as the run. -/
theorem orderly_of_reaches {p : Program α} {w : World} {m : Moment} (hm : Reaches n b r p w m)
    (hout : m.activations = []) {home? : Option Home}
    (h : orderlyWithin n b r home? p w = true) :
    ∃ n' b', orderlyWithin n' b' m.runtime home? m.rest m.world = true := by
  induction hm with
  | now => exact ⟨_, _, h⟩
  | perform _ ih => exact ih hout (orderly_perform.symm.trans h)
  | inCall enters _ ih => exact ih hout (orderly_inCall h enters)
  | afterCall returns _ ih => exact ih hout (orderly_afterCall h returns)
  | afterError fails _ ih => exact ih hout (orderly_afterError h fails)
  | inInvocation _ _ _ _ =>
    exact absurd hout (List.append_ne_nil_of_right_ne_nil _ (List.cons_ne_nil _ _))
  | afterInvocation returns _ ih => exact ih hout (orderly_afterInvocation h returns)

/-- A moment lies in an invocation that was made in a state of the run, and in none that was made
after that. -/
structure Innermost (n b : Nat) (r : RuntimeRef) (p : Program α) (w : World) (m : Moment)
    (a : Activation) (n' b' : Nat) (i : Invocation) (w₀ : World) : Prop where
  /-- This is what began then. -/
  begins : (i.begin w₀).1 = a
  /-- The run comes to where it is made. -/
  made : ∃ m₀ k, Reaches n b r p w m₀ ∧ m₀.rest = .invoke i k ∧ m₀.world = w₀
  /-- From there it comes to the moment. -/
  inside : Reaches n' b' a.runtime (i.body a) (i.begin w₀).2 { m with activations := [] }
  /-- What is orderly outside is so inside. -/
  orderly : ∀ home?, orderlyWithin n b r home? p w = true →
    orderlyWithin n' b' a.runtime (some (i.home w₀)) (i.body a) (i.begin w₀).2 = true

namespace Innermost

variable {β : Type} {p : Program α} {q : Program β} {w w₁ w₀ : World} {m : Moment} {a : Activation}
  {n₁ b₁ n' b' : Nat} {r₁ : RuntimeRef} {i : Invocation}

/-- What lies in a part of a run lies in the run. -/
theorem lift (h : Innermost n₁ b₁ r₁ q w₁ m a n' b' i w₀)
    (hreach : ∀ m₀, Reaches n₁ b₁ r₁ q w₁ m₀ → ∃ l, Reaches n b r p w { m₀ with activations := l })
    (horderly : ∀ home?, orderlyWithin n b r home? p w = true →
      ∃ home?', orderlyWithin n₁ b₁ r₁ home?' q w₁ = true) :
    Innermost n b r p w m a n' b' i w₀ := by
  obtain ⟨m₀, k, hm₀, hk, hw₀⟩ := h.made
  obtain ⟨l, hl⟩ := hreach m₀ hm₀
  refine ⟨h.begins, ⟨{ m₀ with activations := l }, k, hl, hk, hw₀⟩, h.inside, fun home? ho => ?_⟩
  obtain ⟨home?', ho'⟩ := horderly home? ho
  exact h.orderly home?' ho'

theorem of_reaches (hm : Reaches n b r p w m) {rest : List Activation}
    (ha : m.activations = a :: rest) : ∃ n' b' i w₀, Innermost n b r p w m a n' b' i w₀ := by
  induction hm generalizing rest with
  | now => cases ha
  | perform _ ih =>
    obtain ⟨n', b', i, w₀, h⟩ := ih ha
    exact ⟨n', b', i, w₀, h.lift (fun m₀ hm₀ => ⟨_, .perform hm₀⟩)
      fun home? ho => ⟨home?, orderly_perform.symm.trans ho⟩⟩
  | inCall enters _ ih =>
    obtain ⟨n', b', i, w₀, h⟩ := ih ha
    exact ⟨n', b', i, w₀, h.lift (fun m₀ hm₀ => ⟨_, .inCall enters hm₀⟩)
      fun home? ho => ⟨home?, orderly_inCall ho enters⟩⟩
  | afterCall returns _ ih =>
    obtain ⟨n', b', i, w₀, h⟩ := ih ha
    exact ⟨n', b', i, w₀, h.lift (fun m₀ hm₀ => ⟨_, .afterCall returns hm₀⟩)
      fun home? ho => ⟨home?, orderly_afterCall ho returns⟩⟩
  | afterError fails _ ih =>
    obtain ⟨n', b', i, w₀, h⟩ := ih ha
    exact ⟨n', b', i, w₀, h.lift (fun m₀ hm₀ => ⟨_, .afterError fails hm₀⟩)
      fun home? ho => ⟨home?, orderly_afterError ho fails⟩⟩
  | @inInvocation n b r α i k w m isOpen isWanted inside ih =>
    cases hacts : m.activations with
    | nil =>
      rw [hacts] at ha
      cases ha
      have hm : m = { m with activations := [] } := by rw [← hacts]
      rw [hm] at inside
      exact ⟨n, b, i, w, rfl, ⟨_, k, .now, rfl, rfl⟩, inside,
        fun home? ho => orderly_inInvocation ho isOpen isWanted⟩
    | cons c more =>
      rw [hacts] at ha
      cases ha
      obtain ⟨n', b', i', w₀, h⟩ := ih hacts
      have h' := h.lift (p := Program.invoke i k) (n := n + 1) (r := r)
        (fun m₀ hm₀ => ⟨_, .inInvocation isOpen isWanted hm₀⟩)
        fun home? ho => ⟨_, orderly_inInvocation ho isOpen isWanted⟩
      exact ⟨n', b', i', w₀, h'.begins, h'.made, h'.inside, h'.orderly⟩
  | afterInvocation returns _ ih =>
    obtain ⟨n', b', i, w₀, h⟩ := ih ha
    exact ⟨n', b', i, w₀, h.lift (fun m₀ hm₀ => ⟨_, .afterInvocation returns hm₀⟩)
      fun home? ho => ⟨home?, orderly_afterInvocation ho returns⟩⟩

/-- Where an orderly run calls a function in an invocation, the context of the invocation leads to
the pipes of its streams. -/
theorem ioFor_of_call (h : Innermost n b r p w m a n' b' i w₀)
    (horderly : orderlyWithin n b r none p w = true) (hhosted : i.Hosted w₀) {f : Value}
    {args : List Value} {sites : CallSites} {k : Except Value (List Value) → Program m.Result}
    (hcall : m.rest = .call f args sites k) : m.world.ioFor (some a.context) = a.io := by
  obtain ⟨_, _, ho⟩ := orderly_of_reaches h.inside rfl (h.orderly none horderly)
  dsimp only at ho
  rw [hcall] at ho
  have hhome : (m.world.shell (w₀.session i.session).shell).io = _ :=
    of_decide_eq_true (home_of_orderly_call ho)
  have hsame := (SameShells.begin w₀ i).trans (SameShells.kept.reaches SameShells.begin h.inside)
  rw [← h.begins]
  exact hhosted.ioFor hsame hhome

end Innermost

/-! ## Streams over the same pipes -/

namespace Guest.Heap

/-- Streams stay what they are, but for those that lose their pipe. -/
def KeepsStreams (h h' : Heap) : Prop :=
  ∀ u s, h.user u = .stream s → h'.user u = .stream s ∨ h'.user u = .stream s.close

theorem KeepsStreams.evolves : Evolves KeepsStreams where
  trans hab hbc u s hs := by
    rcases hab u s hs with hs | hs
    · exact hbc u s hs
    · exact .inr (or_self_iff.1 (hbc u s.close hs))
  of_keeps k u s hs := .inl (by rw [Heap.user, k.users.get _ (Grows.user_lt hs)]; exact hs)
  of_users _ hu _ u s hs := .inl (by rw [Heap.user, hu]; exact hs)
  closeUser h v u s hs := by
    rw [Grows.user_closeUser h v u s hs]
    split
    · exact .inr rfl
    · exact .inl rfl
  setFileRest h v rest u s hs := .inl (Grows.user_setFileRest h v u rest hs)

end Guest.Heap

open Guest.Heap (KeepsStreams)

theorem Stream.close_ne_ofIo (s : Stream) (io : CommandIo) (cancel? : Option Signal)
    (name : StreamName) : s.close ≠ Stream.ofIo io cancel? name := by
  intro he
  have hp : (Stream.ofIo io cancel? name).pipe? = none := by
    rw [← he]
    rfl
  cases name <;> cases hp

/-- Whatever stands at a moment of an invocation in the place of one of its streams is that stream,
over the pipes that the invocation began with, or it is closed. -/
theorem stream_of_reaches {i : Invocation} {w₀ w₁ : World} {m : Moment}
    (hn : NativesEvolve KeepsStreams w₀.natives)
    (hm : Reaches n b r (i.body (i.begin w₀).1) (i.begin w₀).2 m) (hout : m.activations = [])
    {scope : StreamScope} (he : Enters (handlerWithin n b r) i w₀ scope w₁)
    {e : StreamName × UserRef × Value} (hmem : e ∈ scope.streams) {s : Stream}
    (hs : m.world.heap.user e.2.1 = .stream s) :
    s = Stream.ofIo (i.begin w₀).1.io (some (i.begin w₀).1.context.signal) e.1 ∨
      s = (Stream.ofIo (i.begin w₀).1.io (some (i.begin w₀).1.context.signal) e.1).close := by
  have hkept := World.Evolves.kept KeepsStreams.evolves
  have hbegins := World.Evolves.begin KeepsStreams.evolves
  obtain ⟨_, -, ho⟩ := StreamScope.run_enter he.2.2
  have hopened := ho.stream e hmem
  have hnatives : (i.begin w₀).2.natives = w₀.natives := (hbegins w₀ i).natives
  rcases reaches_bind hm with ⟨m₁, hm₁, ⟨hacts, hworld⟩, -⟩ | ⟨x, w₂, hx, hafter⟩
  · -- the scope is being opened, so what is there stays until it is open
    obtain ⟨m₂, hm₂, hacts', hworld'⟩ := reaches_attempt hm₁
    have hstart := (hkept.reaches hbegins hm₂).natives
    have hend := hkept.reaches_end hm₂ (by rw [hacts', hacts, hout])
    have henter : (handlerWithin n b r).run (StreamScope.enter (i.begin w₀).1.runtime
      (i.begin w₀).1.io (some (i.begin w₀).1.context.signal)) (i.begin w₀).2 =
        (.value scope, w₁) := he.2.2
    rw [henter, hworld', hworld] at hend
    rw [hworld', hworld] at hstart
    rcases hend.heap (by rw [hstart, hnatives]; exact hn) _ s hs with hlater | hlater
    · rw [hopened] at hlater
      cases hlater
      exact .inl rfl
    · rw [hopened] at hlater
      exact (Stream.close_ne_ofIo s _ _ _ (Guest.User.stream.inj hlater).symm).elim
  · -- the scope is open
    rw [Handler.run_attempt_ok.2 he.2.2] at hx
    cases hx
    have hnatives' := natives_of_enters he
    rcases (hkept.reaches hbegins hafter).heap (by rw [hnatives']; exact hn) _ _ hopened with
      hlater | hlater
    · rw [hs] at hlater
      cases hlater
      exact .inl rfl
    · rw [hs] at hlater
      cases hlater
      exact .inr rfl

namespace Guest.LibraryCall

/-- Writes to the current output. -/
def writing (c : LibraryCall) (args : List Value) (results : UserRef → List Value) :
    Program (List Value) := do
  let u ← c.currentStream .stdout
  writeStream (← streamOf u) args
  return results u

/-- The texts that `print` writes. -/
def printed (c : LibraryCall) : Program (List Bytes) := do
  match ← c.global "tostring" with
  | .func f =>
    Program.forAll (fun v => do
      let v := first (← viaHost c.here (Program.callValue (.func f) [v] c.here.sites))
      match Here.piece? v with
      | some s => return s
      | none => raiseFailure (← conversionOf v "string" (some "expected string or number"))) c.args
  | v => raiseFailure (← conversionOf v "function" none)

theorem ioWrite_eq (c : LibraryCall) : c.ioWrite = c.writing c.args fun u => [.user u] := rfl

/-- Once `print` has the texts it does what `io.write` does. -/
theorem print_eq (c : LibraryCall) :
    c.print = c.printed >>= fun texts =>
      c.writing [.str (List.intercalate [9] texts ++ [10])] fun _ => [] := by
  show (c.global "tostring").bind _ = ((c.global "tostring").bind _).bind _
  rw [Program.bind_assoc]
  congr 1
  funext v
  cases v with
  | func f => rfl
  | _ => exact (Program.bind_assoc (conversionOf _ "function" none) (raiseFailure ·) _).symm

/-- Through a stream over some pipes that is in its place the bytes go to their output. -/
theorem run_writing {hd : Handler} {w : World} {u : UserRef} {pipes : CommandIo}
    {cancel? : Option Signal} (hu : w.heap.user u = .stream (Stream.ofIo pipes cancel? .stdout))
    {c : LibraryCall} {io : TableRef}
    (hio : w.heap.field (w.runtime c.runtime).runtime.globals "io" = .table io)
    (hf : w.heap.field io StreamName.stdout.field = .user u) (args : List Value)
    (results : UserRef → List Value) :
    hd.run (c.writing args results) w =
      hd.run (writeItems pipes.stdout 1 args >>= fun _ => pure (results u)) w := by
  rw [writing, Handler.run_bind_of_value (run_currentStream hu hio hf),
    Handler.run_bind_of_value (run_streamOf hu)]
  rfl

end Guest.LibraryCall

/-! ## The main result -/

/-- **Host functions get the pipes of the streams of the innermost invocation.**  Take a run that
replaces the pipes of a shell only outside its invocations or around an invocation with the old
pipes put back afterwards, and any moment of it in an invocation, at whatever depth.  A host
function that is called there gets the very pipes that the streams of the innermost invocation are
opened over, if it belongs to the session of an invocation under way for the same shell; the
innermost one is such an invocation.  From when they are opened the three streams stay over these
pipes or are closed.  So what a guest writes through the output among them, with `io.write` or
`print` (`ioWrite_eq`, `print_eq`), goes at once to the output that such a host function writes
to. -/
theorem calls_get_invocation_pipes {p : Program α} {w : World} (hw : w.Linked)
    (hn : NativesEvolve KeepsStreams w.natives) (horderly : orderlyWithin n b r none p w = true)
    (hhosted : ∀ m i k, Reaches n b r p w m → m.rest = .invoke i k → i.Hosted m.world)
    {m : Moment} (hm : Reaches n b r p w m) {a : Activation} {rest : List Activation}
    (ha : m.activations = a :: rest) :
    (∀ (g : GuestFunction) (args : List Value) (sites : CallSites)
        (k : Except Value (List Value) → Program m.Result) (q : RuntimeRef) (f : HostFunction)
        (xs : List HostValue) (a' : Activation),
      m.rest = .call (.func g) args sites k → m.world.heap.function? g = some ⟨q, .host f⟩ →
      Marshal.listToHost m.world.heap args = .ok xs →
      m.activations.find? (·.runtime = q) = some a' → a'.context.shell? = a.context.shell? →
      ∀ hd : Handler, hd.run (Guest.bodyOf m.world m.runtime (.func g) args sites).2 m.world =
        hd.run (m.world.bodyOfHost f { args := xs, io := a.io, context? := some a'.context } >>=
          Program.forAll (LibraryCall.guestValue ⟨q, sites, "?", args⟩)) m.world) ∧
    ∃ n' b' i w₀, Innermost n b r p w m a n' b' i w₀ ∧
      ∀ scope w₁, Enters (handlerWithin n' b' a.runtime) i w₀ scope w₁ →
        scope.streams.map (·.1) = StreamName.all ∧
        ∀ e ∈ scope.streams,
          w₁.heap.user e.2.1 = .stream (Stream.ofIo a.io (some a.context.signal) e.1) ∧
          ∀ s, m.world.heap.user e.2.1 = .stream s →
            (s = Stream.ofIo a.io (some a.context.signal) e.1 ∨
              s = (Stream.ofIo a.io (some a.context.signal) e.1).close) ∧
            ∀ (hd : Handler) (c : LibraryCall) (io : TableRef) (args : List Value)
                (results : UserRef → List Value), e.1 = .stdout → s.pipe? ≠ none →
              m.world.heap.field (m.world.runtime c.runtime).runtime.globals "io" = .table io →
              m.world.heap.field io StreamName.stdout.field = .user e.2.1 →
              hd.run (c.writing args results) m.world =
                hd.run (Guest.writeItems a.io.stdout 1 args >>= fun _ => pure (results e.2.1))
                  m.world := by
  obtain ⟨n', b', i, w₀, h⟩ := Innermost.of_reaches hm ha
  obtain ⟨m₀, k₀, hm₀, hk₀, hw₀⟩ := h.made
  refine ⟨fun g args sites k q f xs a' hcall hg hargs hfind hshell hd => ?_, n', b', i, w₀, h,
    fun scope w₁ he => ?_⟩
  · have hrunning : a'.runtime = q :=
      of_decide_eq_true (List.find?_some (p := fun c : Activation => c.runtime = q) hfind)
    have hq := runtime_of_reaches hm hw (List.mem_of_find?_eq_some hfind)
    -- the slot of the runtime holds the context of the invocation that the function belongs to
    have hslot : (m.world.runtime q).context? = some a'.context := by
      rw [context_of_reaches hm (hrunning ▸ hq), contextAfter_of_find hfind]
    have hio : m.world.ioFor (some a'.context) = a.io := by
      rw [m.world.ioFor_congr hshell]
      exact h.ioFor_of_call horderly (hw₀ ▸ hhosted m₀ i k₀ hm₀ hk₀) hcall
    have hbody : (Guest.bodyOf m.world m.runtime (.func g) args sites).2 =
        Guest.hostBody (m.world.bodyOfHost f) ⟨q, sites, "?", args⟩ := by
      rw [Guest.bodyOf, hg]
    rw [hbody, run_hostBody hd _ ⟨q, sites, "?", args⟩ hargs, hslot, hio]
  · obtain ⟨_, -, ho⟩ := StreamScope.run_enter he.2.2
    have hopened := ho.stream
    rw [h.begins] at hopened
    have hnatives : w₀.natives = w.natives := by
      rw [← hw₀]
      exact ((World.Evolves.kept KeepsStreams.evolves).reaches
        (World.Evolves.begin KeepsStreams.evolves) hm₀).natives
    refine ⟨ho.names, fun e hmem => ⟨hopened e hmem, fun s hs => ?_⟩⟩
    -- seen from the innermost invocation, the moment is in none
    have hstream := stream_of_reaches (m := { m with activations := [] })
      (by rw [hnatives]; exact hn) (by rw [h.begins]; exact h.inside) rfl he hmem hs
    rw [h.begins] at hstream
    refine ⟨hstream, fun hd c io args results hname hopen hio hfield => ?_⟩
    rcases hstream with rfl | rfl
    · rw [hname] at hs
      exact LibraryCall.run_writing hs hio hfield args results
    · exact absurd rfl hopen

/-! ## Two sessions of one shell -/

namespace TwoSessions

/-- The pipes of the shell. -/
def front : CommandIo := ⟨⟨0⟩, ⟨0⟩, ⟨1⟩⟩

/-- The pipes that it has meanwhile. -/
def back : CommandIo := ⟨⟨1⟩, ⟨2⟩, ⟨3⟩⟩

/-- Writes one byte to the output of the call. -/
def emit : HostCode := fun _ c => do
  Program.ask (.write c.io.stdout [98])
  return []

/-- A call of a function in a session, without arguments and for a context without a shell. -/
def callIn (s : SessionRef) (f : GuestFunction) : Invocation := ⟨s, ⟨0, default, none⟩, f, []⟩

/-- Calls functions in the first session while the shell has other pipes. -/
def redirect : HostCode := fun functions _ => do
  Program.ask (.setShellIo ⟨0⟩ back)
  let _ ← Program.forAll (fun x => match x with
    | .callable f => .invoke (callIn ⟨0⟩ f) fun _ => .done ()
    | _ => .done ()) functions
  Program.ask (.setShellIo ⟨0⟩ front)
  return []

/-- The globals of a session whose `io` table is this one. -/
def globals (io : TableRef) : Guest.Table :=
  (({} : Guest.Table).set (.text "io") (.table io)).set (.text "tostring") (.func ⟨0⟩)

/-- Two sessions of one shell.  The first function writes for the first session, and the next two
for the second one; the last two call some of these. -/
def world : World :=
  { heap :=
      { tables := #[globals ⟨1⟩, {}, globals ⟨3⟩, {}]
        functions := #[⟨⟨0⟩, .host ⟨0, true⟩⟩, ⟨⟨1⟩, .host ⟨0, true⟩⟩, ⟨⟨1⟩, .library .print⟩,
          ⟨⟨0⟩, .host ⟨1, true⟩⟩, ⟨⟨1⟩, .host ⟨2, true⟩⟩] }
    runtimes := #[{ runtime := { (default : Guest.Runtime) with globals := ⟨0⟩ } },
      { runtime := { (default : Guest.Runtime) with globals := ⟨2⟩ } }]
    outputs := #[{}, {}, {}, {}, {}, {}]
    processIo := ⟨⟨2⟩, ⟨4⟩, ⟨5⟩⟩
    shells := #[{ io := front }]
    sessions := #[default, { (default : SessionState) with runtime := ⟨1⟩ }]
    hostCode := #[emit, redirect]
    hostFunctions := #[(0, []), (1, [.callable ⟨0⟩]), (1, [.callable ⟨2⟩, .callable ⟨1⟩])] }

/-- The first session calls `redirect`. -/
def outer : Invocation := callIn ⟨0⟩ ⟨3⟩

/-- It calls `emit`. -/
def inner : Invocation := callIn ⟨0⟩ ⟨0⟩

/-- Where the first session calls `redirect`. -/
def begun : Program (Except BridgeError (List HostValue)) × World :=
  (outer.body (outer.begin world).1).advance (outer.begin world).2

/-- Where `redirect` has replaced the pipes. -/
def redirected : Program (List Value) × World :=
  (Guest.bodyOf begun.2 ⟨0⟩ (.func ⟨3⟩) [] [.host]).2.advance begun.2

/-- Where `emit` is called then. -/
def emitting : Program (Except BridgeError (List HostValue)) × World :=
  (inner.body (inner.begin redirected.2).1).advance (inner.begin redirected.2).2

/-- The moment of that call, in two invocations. -/
def moment : Moment :=
  ⟨[(inner.begin redirected.2).1, (outer.begin world).1], ⟨0⟩, _, emitting.1, emitting.2⟩

theorem reaches_moment : Reaches 8 8 ⟨0⟩ (.invoke outer .done) world moment := by
  have hemit : Reaches 5 7 ⟨0⟩ (inner.body (inner.begin redirected.2).1) (inner.begin redirected.2).2
      { moment with activations := [] } := .advance .now
  have hredirect : Reaches 6 7 ⟨0⟩ (Guest.bodyOf begun.2 ⟨0⟩ (.func ⟨3⟩) [] [.host]).2 begun.2
      { moment with activations := [(inner.begin redirected.2).1] } :=
    .advance (.inInvocation (m := { moment with activations := [] }) (i := inner) rfl rfl hemit)
  have hbegin : Reaches 7 8 ⟨0⟩ (outer.body (outer.begin world).1) (outer.begin world).2
      { moment with activations := [(inner.begin redirected.2).1] } :=
    .advance (.inCall (f := .func ⟨3⟩) rfl hredirect)
  exact .inInvocation (i := outer) (w := world) rfl rfl hbegin

theorem alive_session (s : SessionRef) : (world.shell (world.session s).shell).alive = true := by
  rcases s with ⟨_ | _ | k⟩ <;> rfl

theorem linked_world : world.Linked := by
  rintro ⟨_ | _ | k⟩
  · exact Nat.zero_lt_two
  · exact Nat.one_lt_two
  · exact Nat.zero_lt_two

end TwoSessions

open TwoSessions in
/-- The first session calls a host function that calls another one in the same session while the
shell has other pipes: that one writes to these. -/
theorem emit_while_redirected :
    world.Linked ∧ NativesEvolve KeepsStreams world.natives ∧
      orderlyWithin 8 8 ⟨0⟩ none (.invoke outer .done) world = true ∧
      (∀ m i k, Reaches 8 8 ⟨0⟩ (.invoke outer .done) world m → m.rest = .invoke i k →
        i.Hosted m.world) ∧
      Reaches 8 8 ⟨0⟩ (.invoke outer .done) world moment ∧
      moment.activations.map (·.io) = [back, front] ∧
      ∀ hd : Handler,
        (hd.run (Guest.bodyOf moment.world moment.runtime (.func ⟨0⟩) [] [.host]).2 moment.world).2 =
          moment.world.write back.stdout [98] := by
  have hn : NativesEvolve KeepsStreams world.natives := fun n form hf => by cases hf
  have horderly : orderlyWithin 8 8 ⟨0⟩ none (.invoke outer .done) world = true := by
    decide +kernel
  have hhosted : ∀ m i k, Reaches 8 8 ⟨0⟩ (.invoke outer .done) world m → m.rest = .invoke i k →
      i.Hosted m.world := fun m i k hm _ => hosted_of_alive alive_session hm i
  have hbody :=
    (calls_get_invocation_pipes linked_world hn horderly hhosted reaches_moment rfl).1
      ⟨0⟩ [] [.host] _ ⟨0⟩ ⟨0, true⟩ [] _ rfl rfl rfl rfl rfl
  refine ⟨linked_world, hn, horderly, hhosted, reaches_moment, rfl, fun hd => ?_⟩
  rw [hbody]
  rfl

namespace TwoSessions

/-- The first session is for a shell that has ended, and there is another shell. -/
def orphaned : World :=
  { world with shells := #[{ io := front, alive := false }, { io := back }] }

/-- What an invocation writes to each output, if the pipes are put back. -/
def written? (i : Invocation) (w : World) : Option (List Bytes) :=
  if orderlyWithin 8 8 ⟨0⟩ none (.invoke i .done) w then
    some (((handlerWithin 8 8 ⟨0⟩).run (.invoke i .done) w).2.outputs.toList.map Pipe.contents)
  else none

end TwoSessions

open TwoSessions in
/-- A function of a session that is not being invoked writes to the process while the streams of the
innermost invocation are over the pipes of the shell.  A function of a session whose shell has ended
writes to the pipes of the shell that the context brings along, while the streams are over those of
the process.  And around an invocation of the first session with functions of the second one, what
is printed goes to the pipes that the invocation of the second session began with, and what the host
function writes to the pipes of the innermost one. -/
theorem pipes_apart :
    ((callIn ⟨0⟩ ⟨1⟩).begin world).1.io = front ∧
      written? (callIn ⟨0⟩ ⟨1⟩) world = some [[], [], [], [], [98], []] ∧
    ({ callIn ⟨0⟩ ⟨0⟩ with context := ⟨0, default, some ⟨1⟩⟩ }.begin orphaned).1.io =
        orphaned.processIo ∧
      written? { callIn ⟨0⟩ ⟨0⟩ with context := ⟨0, default, some ⟨1⟩⟩ } orphaned =
        some [[], [], [98], [], [], []] ∧
    written? (callIn ⟨1⟩ ⟨4⟩) world = some [[10], [], [98], [], [], []] := by
  decide +kernel

end ScriptShell
