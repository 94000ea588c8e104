import ScriptShell.Proofs.StreamScopes

/-! # Streams end with their invocation

An invocation opens three streams over the pipes of its command and leaves nothing of them: the
fields of the `io` table hold what they held, and the streams themselves are closed, wherever the
guest may have put them.  The second part rests on three facts: a scope closes its streams when it
is left, a closed stream stays closed over everything that can follow (`World.Later.closed`), and
using a closed stream fails and moves no byte (`fails_of_closed`).
-/

namespace ScriptShell

open Guest (Heap Value UserRef TableRef RuntimeRef StreamScope LibraryCall)

/-- A stream that has lost its pipe. -/
def Guest.Heap.IsClosed (h : Heap) (u : UserRef) : Prop :=
  ∃ s, h.user u = .stream s ∧ s.pipe? = none

theorem Guest.Heap.Grows.isClosed {h h' : Heap} (g : h.Grows h') {u : UserRef}
    (hc : h.IsClosed u) : h'.IsClosed u := by
  obtain ⟨s, hs, hp⟩ := hc
  obtain ⟨s', hs', hp'⟩ := g.stream u s hs
  exact ⟨s', hs', hp' hp⟩

/-! ## What can follow -/

/-- The states that can follow on another one. -/
inductive World.Later (w : World) : World → Prop where
  /-- Nothing happens. -/
  | now : Later w w
  /-- Any program runs, in any runtime and at any depth. -/
  | run {w' : World} (later : Later w w') (n b : Nat) (r : RuntimeRef) {α : Type}
      (p : Program α) : Later w ((handlerWithin n b r).run p w').2
  /-- The host does anything that leaves what is in the heap as it is, such as building a
  session. -/
  | host {w' w'' : World} (later : Later w w') (heap : w'.heap.Keeps w''.heap)
      (natives : NativesGrow w''.natives) : Later w w''

theorem World.Later.grows {w w' : World} (later : w.Later w') (hn : NativesGrow w.natives) :
    NativesGrow w'.natives ∧ w.heap.Grows w'.heap := by
  induction later with
  | now => exact ⟨hn, .refl _⟩
  | @run w' _ n b r α p ih =>
    have ha := World.Ages.kept.run n b r p w'
    exact ⟨by rw [ha.natives]; exact ih.1, ih.2.trans (ha.heap ih.1)⟩
  | host _ hk hn' ih => exact ⟨hn', ih.2.trans (.of_keeps hk)⟩

/-- A closed stream stays closed. -/
theorem World.Later.closed {w w' : World} (later : w.Later w') (hn : NativesGrow w.natives)
    {u : UserRef} (hc : w.heap.IsClosed u) : w'.heap.IsClosed u := (later.grows hn).2.isClosed hc

/-! ## Using a stream -/

/-- The calls that use a stream: its methods, the steps of an iterator over its lines, and the
functions of the `io` library that use the stream in a field of `io`. -/
inductive UsesStream (w : World) (u : UserRef) : Guest.Function → List Value → Prop where
  /-- Reading, writing, flushing or closing it. -/
  | method {r : RuntimeRef} {f : Guest.LibraryFunction} (args : List Value)
      (hf : f ∈ [.streamRead, .streamWrite, .streamFlush, .streamClose]) :
      UsesStream w u ⟨r, .library f⟩ (.user u :: args)
  /-- A step of an iterator over its lines. -/
  | step {r : RuntimeRef} (formats args : List Value) :
      UsesStream w u ⟨r, .lines (.user u) formats⟩ args
  /-- `io.read`, where `io.stdin` is the stream. -/
  | ioRead {r : RuntimeRef} {io : TableRef} (args : List Value)
      (hio : w.heap.field (w.runtime r).runtime.globals "io" = .table io)
      (hu : w.heap.field io StreamName.stdin.field = .user u) :
      UsesStream w u ⟨r, .library .ioRead⟩ args
  /-- `io.write`, where `io.stdout` is the stream. -/
  | ioWrite {r : RuntimeRef} {io : TableRef} (args : List Value)
      (hio : w.heap.field (w.runtime r).runtime.globals "io" = .table io)
      (hu : w.heap.field io StreamName.stdout.field = .user u) :
      UsesStream w u ⟨r, .library .ioWrite⟩ args

/-- A program that fails without reading or writing a byte. -/
def Fails {α : Type} (hd : Handler) (p : Program α) (w : World) : Prop :=
  ∃ v w', hd.run p w = (.error v, w') ∧ w'.inputs = w.inputs ∧ w'.outputs = w.outputs

namespace Fails

variable {α β : Type} {hd : Handler} {w w₁ : World}

theorem raiseFailure (f : Failure) : Fails hd (Guest.raiseFailure f : Program α) w :=
  ⟨_, _, rfl, rfl, rfl⟩

theorem bind {p : Program α} (hp : Fails hd p w) (f : α → Program β) : Fails hd (p >>= f) w := by
  obtain ⟨v, w', hr, hi, ho⟩ := hp
  refine ⟨v, w', ?_, hi, ho⟩
  show hd.run (p.bind f) w = _
  rw [Handler.run_bind, hr]

theorem of_run {p : Program α} {f : α → Program β} {a : α} (hr : hd.run p w = (.value a, w))
    (hf : Fails hd (f a) w) : Fails hd (p >>= f) w := by
  obtain ⟨v, w', hr', hi, ho⟩ := hf
  exact ⟨v, w', (Handler.run_bind_of_value hr).trans hr', hi, ho⟩

end Fails

section Closed

variable {hd : Handler} {w : World} {u : UserRef} {s : Stream}

theorem fails_readStream (hp : s.pipe? = none) (formats : List Value) :
    Fails hd (Guest.readStream s formats) w := by
  have hc : s.reader = .error .closed := by rw [Stream.reader, hp]
  unfold Guest.readStream
  rw [hc]
  -- a stream whose invocation was cancelled fails too, but for that reason
  cases s.cancel? with
  | none => exact .raiseFailure _
  | some signal =>
    have hr : hd.run (Program.ask (.isCancelled signal)) w =
        (.value (w.answer (.isCancelled signal)).1, w) := rfl
    refine .of_run hr ?_
    cases (w.answer (.isCancelled signal)).1 with
    | true => exact .bind (.raiseFailure _) _
    | false => exact .raiseFailure _

theorem fails_writeStream (hp : s.pipe? = none) (args : List Value) :
    Fails hd (Guest.writeStream s args) w := by
  have hc : s.writer = .error .closed := by rw [Stream.writer, hp]
  rw [Guest.writeStream, hc]
  exact .raiseFailure _

theorem run_streamOf (hu : w.heap.user u = .stream s) :
    hd.run (Guest.streamOf u) w = (.value s, w) := by
  have ha : (w.answer (.user u)).1 = .stream s := hu
  rw [Guest.streamOf, Handler.run_ask_bind, ha]
  rfl

/-- A method that takes any object gets the stream. -/
theorem run_object (hu : w.heap.user u = .stream s) {c : LibraryCall} (h1 : c.arg 1 = .user u)
    (function : String) : hd.run (c.object function) w = (.value u, w) := by
  have ha : (w.answer (.user u)).1 = .stream s := hu
  rw [LibraryCall.object, h1]
  dsimp only
  rw [Handler.run_ask_bind, ha]
  rfl

/-- A method that takes a stream gets the stream. -/
theorem run_self (hu : w.heap.user u = .stream s) {c : LibraryCall} {args : List Value}
    (hargs : c.args = .user u :: args) (function : String) :
    hd.run (c.self function) w = (.value (u, s), w) := by
  have ha : (w.answer (.user u)).1 = .stream s := hu
  have h1 : c.arg 1 = .user u := by
    rw [LibraryCall.arg, hargs]
    rfl
  rw [LibraryCall.self, hargs, h1]
  dsimp only
  simp only [List.isEmpty_cons, Bool.false_eq_true, if_false]
  rw [Handler.run_ask_bind, ha]
  rfl

/-- The functions of the `io` library find the stream that is in the field. -/
theorem run_currentStream (hu : w.heap.user u = .stream s) {c : LibraryCall} {io : TableRef}
    (hio : w.heap.field (w.runtime c.runtime).runtime.globals "io" = .table io)
    {name : StreamName} (hf : w.heap.field io name.field = .user u) :
    hd.run (c.currentStream name) w = (.value u, w) := by
  have hg : hd.run (c.global "io") w = (.value (.table io), w) := by
    have hi := StreamScope.run_index hd c.here w (by rw [hio]; exact Value.noConfusion)
    rw [hio] at hi
    exact StreamScope.run_viaHost hi
  have ht : ((w.answer (.table io)).1).get (.text name.field) = .user u := hf
  have ha : ((w.answer (.table io)).2.answer (.user u)).1 = .stream s := hu
  rw [LibraryCall.currentStream, Handler.run_bind_of_value hg]
  dsimp only
  rw [Handler.run_ask_bind, ht]
  dsimp only
  rw [Handler.run_ask_bind, ha]
  rfl

section Methods

variable {c : LibraryCall} {args : List Value}

theorem fails_streamRead (hu : w.heap.user u = .stream s)
    (hread : ∀ formats, Fails hd (Guest.readStream s formats) w) (hargs : c.args = .user u :: args) :
    Fails hd c.streamRead w := by
  rw [LibraryCall.streamRead]
  exact .of_run (run_self hu hargs _) (hread _)

theorem fails_streamWrite (hu : w.heap.user u = .stream s) (hp : s.pipe? = none)
    (h1 : c.arg 1 = .user u) : Fails hd c.streamWrite w := by
  rw [LibraryCall.streamWrite]
  refine .of_run (run_object hu h1 _) (.of_run (run_streamOf hu) ?_)
  exact .bind (fails_writeStream hp _) _

theorem fails_streamFlush (hu : w.heap.user u = .stream s) (hp : s.pipe? = none)
    (h1 : c.arg 1 = .user u) : Fails hd c.streamFlush w := by
  have hc : s.writer = .error .closed := by rw [Stream.writer, hp]
  rw [LibraryCall.streamFlush]
  refine .of_run (run_object hu h1 _) (.of_run (run_streamOf hu) ?_)
  rw [hc]
  exact .raiseFailure _

theorem fails_streamClose (hu : w.heap.user u = .stream s) (hp : s.pipe? = none)
    (hargs : c.args = .user u :: args) : Fails hd c.streamClose w := by
  rw [LibraryCall.streamClose]
  refine .of_run (run_self hu hargs _) ?_
  dsimp only
  rw [hp]
  exact .bind (.raiseFailure _) _

theorem fails_linesStep (hu : w.heap.user u = .stream s)
    (hread : ∀ formats, Fails hd (Guest.readStream s formats) w) (formats : List Value) :
    Fails hd (c.linesStep (.user u) formats) w := by
  have ha : (w.answer (.user u)).1 = .stream s := hu
  have hr : hd.run (Program.ask (.user u)) w = (.value (w.answer (.user u)).1, w) := rfl
  rw [LibraryCall.linesStep]
  refine .of_run hr ?_
  rw [ha]
  exact .of_run (run_streamOf hu) (.bind (hread _) _)

theorem fails_ioRead (hu : w.heap.user u = .stream s)
    (hread : ∀ formats, Fails hd (Guest.readStream s formats) w) {io : TableRef}
    (hio : w.heap.field (w.runtime c.runtime).runtime.globals "io" = .table io)
    (hf : w.heap.field io StreamName.stdin.field = .user u) : Fails hd c.ioRead w := by
  rw [LibraryCall.ioRead]
  exact .of_run (run_currentStream hu hio hf) (.of_run (run_streamOf hu) (hread _))

theorem fails_ioWrite (hu : w.heap.user u = .stream s) (hp : s.pipe? = none) {io : TableRef}
    (hio : w.heap.field (w.runtime c.runtime).runtime.globals "io" = .table io)
    (hf : w.heap.field io StreamName.stdout.field = .user u) : Fails hd c.ioWrite w := by
  rw [LibraryCall.ioWrite]
  refine .of_run (run_currentStream hu hio hf) (.of_run (run_streamOf hu) ?_)
  exact .bind (fails_writeStream hp _) _

end Methods

/-- **Using a closed stream fails**, and nothing is read or written. -/
theorem fails_of_closed (hc : w.heap.IsClosed u) {g : GuestFunction} {f : Guest.Function}
    (hg : w.heap.function? g = some f) {args : List Value} (huse : UsesStream w u f args)
    (r : RuntimeRef) (sites : CallSites) :
    Fails hd (Guest.bodyOf w r (.func g) args sites).2 w := by
  obtain ⟨s, hu, hp⟩ := hc
  cases huse with
  | @method r' f args hf =>
    rw [Guest.bodyOf, hg]
    dsimp only
    rw [Guest.callBody, hg]
    simp only [List.mem_cons, List.not_mem_nil, or_false] at hf
    rcases hf with rfl | rfl | rfl | rfl
    · exact fails_streamRead hu (fails_readStream hp) rfl
    · exact fails_streamWrite hu hp rfl
    · exact fails_streamFlush hu hp rfl
    · exact fails_streamClose hu hp rfl
  | step formats args =>
    rw [Guest.bodyOf, hg]
    dsimp only
    rw [Guest.callBody, hg]
    exact fails_linesStep hu (fails_readStream hp) formats
  | ioRead args hio hf =>
    rw [Guest.bodyOf, hg]
    dsimp only
    rw [Guest.callBody, hg]
    exact fails_ioRead hu (fails_readStream hp) hio hf
  | ioWrite args hio hf =>
    rw [Guest.bodyOf, hg]
    dsimp only
    rw [Guest.callBody, hg]
    exact fails_ioWrite hu hp hio hf

end Closed

/-! ## The main result -/

/-- The scope that an invocation enters, if it gets so far: its session is open, its context is not
cancelled, and there is an `io` table. -/
def Enters (hd : Handler) (i : Invocation) (w : World) (scope : StreamScope) (w₁ : World) : Prop :=
  (w.session i.session).closed = false ∧ w.signals.isCancelled i.context.signal = false ∧
    hd.run (StreamScope.enter (i.begin w).1.runtime (i.begin w).1.io
      (some (i.begin w).1.context.signal)) (i.begin w).2 = (.value scope, w₁)

theorem heap_begin (i : Invocation) (w : World) : (i.begin w).2.heap = w.heap := by
  unfold Invocation.begin
  dsimp only
  split <;> rfl

/-- The parts of a runtime do not change with its context. -/
theorem runtime_begin (i : Invocation) (w : World) (q : RuntimeRef) :
    ((i.begin w).2.runtime q).runtime = (w.runtime q).runtime := by
  have hr : (i.begin w).2.runtimes = w.runtimes.modify (w.session i.session).runtime.id
      fun s => { s with context? := some (i.begin w).1.context } := by
    unfold Invocation.begin
    dsimp only
    split <;> rfl
  rw [World.runtime, hr, Array.getElem?_modify, World.runtime]
  split
  · cases w.runtimes[q.id]? <;> rfl
  · rfl

/-- An invocation enters a scope over a global `io` that is a table. -/
theorem enters_of_global (hd : Handler) {i : Invocation} {w : World} {t : TableRef}
    (hopen : (w.session i.session).closed = false)
    (hwanted : w.signals.isCancelled i.context.signal = false)
    (ht : w.heap.field (w.runtime (w.session i.session).runtime).runtime.globals "io" = .table t) :
    hd.run (Guest.ioTable (i.begin w).1.runtime) (i.begin w).2 = (.value t, (i.begin w).2) ∧
      ∃ scope w₁, Enters hd i w scope w₁ := by
  have ht' : (i.begin w).2.heap.field
      ((i.begin w).2.runtime (i.begin w).1.runtime).runtime.globals "io" = .table t := by
    rw [runtime_begin, heap_begin]
    exact ht
  have hio := StreamScope.run_ioTable hd ht'
  obtain ⟨scope, w₁, hent⟩ := StreamScope.run_enter_of_ioTable (i.begin w).1.io
    (some (i.begin w).1.context.signal) hio
  exact ⟨hio, scope, w₁, hopen, hwanted, hent⟩

/-- Where an invocation that entered a scope returns, the scope has been left. -/
theorem invokeIn_left {n b : Nat} {r : RuntimeRef} {i : Invocation} {w w₁ w' : World}
    {result : Except BridgeError (List HostValue)} {scope : StreamScope}
    (hr : (handlerWithin n b r).invokeIn i w = (.value result, w'))
    (he : Enters (handlerWithin n b r) i w scope w₁) :
    ∃ w₂, w₁.Ages w₂ ∧ w'.heap = StreamScope.restored scope.io scope.streams
      (StreamScope.closed scope.streams w₂.heap) := by
  obtain ⟨hopen, hwanted, hent⟩ := he
  rw [Handler.invokeIn, hopen, hwanted] at hr
  simp only [Bool.false_eq_true, if_false] at hr
  have h1 := (handlerWithin n b r).invokeOpen_fst i w
  have h2 := (handlerWithin n b r).invokeOpen_snd i w
  rw [hr] at h1 h2
  cases hb : (handlerWithin n b r).run (i.body (i.begin w).1) (i.begin w).2 with
  | mk outcome w₃ =>
    rw [hb] at h1 h2
    dsimp only at h1 h2
    subst h1
    rcases StreamScope.run_callInScope hb with ⟨scope', w₁', w₂, hent', hages, rfl⟩ | hno
    · rw [hent] at hent'
      cases hent'
      exact ⟨w₂, hages, by rw [h2]; rfl⟩
    · exact absurd hent (hno scope w₁)

/-- What runs keep is kept until the streams are open. -/
theorem Kept.enters {R : World → World → Prop} (kept : Kept R) {n b : Nat} {r : RuntimeRef}
    {i : Invocation} {w w₁ : World} {scope : StreamScope} (hbegin : R w (i.begin w).2)
    (he : Enters (handlerWithin n b r) i w scope w₁) : R w w₁ := by
  have hopen := kept.run n b r (StreamScope.enter (i.begin w).1.runtime (i.begin w).1.io
    (some (i.begin w).1.context.signal)) (i.begin w).2
  rw [he.2.2] at hopen
  exact kept.trans hbegin hopen

theorem natives_of_enters {n b : Nat} {r : RuntimeRef} {i : Invocation} {w w₁ : World}
    {scope : StreamScope} (he : Enters (handlerWithin n b r) i w scope w₁) :
    w₁.natives = w.natives :=
  (World.Ages.kept.enters (World.Ages.begin w i) he).natives

/-- The streams of the scope are closed when the invocation returns. -/
theorem closed_of_invokeIn {n b : Nat} {r : RuntimeRef} {i : Invocation} {w w₁ w' : World}
    {result : Except BridgeError (List HostValue)} {scope : StreamScope}
    (hn : NativesGrow w.natives)
    (hr : (handlerWithin n b r).invokeIn i w = (.value result, w'))
    (he : Enters (handlerWithin n b r) i w scope w₁) {s : StreamName × UserRef × Value}
    (hs : s ∈ scope.streams) : w'.heap.IsClosed s.2.1 := by
  obtain ⟨w₂, hages, hheap⟩ := invokeIn_left hr he
  obtain ⟨w₀, -, ho⟩ := StreamScope.run_enter he.2.2
  have hn₁ : NativesGrow w₁.natives := by
    rw [natives_of_enters he]
    exact hn
  obtain ⟨x, hx, -⟩ := (hages.heap hn₁).stream _ _ (ho.stream s hs)
  obtain ⟨y, hy, hp⟩ := StreamScope.closed_of_mem hs hx
  refine ⟨y, ?_, hp⟩
  rw [hheap, Heap.user, StreamScope.users_restored]
  exact hy

/-- The fields of the table hold what they held when the scope was entered. -/
theorem field_of_invokeIn {n b : Nat} {r : RuntimeRef} {i : Invocation} {w w₁ w' : World}
    {result : Except BridgeError (List HostValue)} {scope : StreamScope}
    (hn : NativesGrow w.natives)
    (hr : (handlerWithin n b r).invokeIn i w = (.value result, w'))
    (he : Enters (handlerWithin n b r) i w scope w₁) :
    ∃ w₀, (handlerWithin n b r).run (Guest.ioTable (i.begin w).1.runtime) (i.begin w).2 =
        (.value scope.io, w₀) ∧
      ∀ name : StreamName,
        w'.heap.field scope.io name.field = w₀.heap.field scope.io name.field := by
  obtain ⟨w₂, hages, hheap⟩ := invokeIn_left hr he
  obtain ⟨w₀, hio, ho⟩ := StreamScope.run_enter he.2.2
  refine ⟨w₀, hio, fun name => ?_⟩
  have hn₁ : NativesGrow w₁.natives := by
    rw [natives_of_enters he]
    exact hn
  rw [hheap]
  refine StreamScope.field_after ho ?_ name
  rw [← ho.tables]
  exact ((hages.heap hn₁).trans (StreamScope.grows_closed _ _)).tables

/-- **Nothing of an invocation's streams outlives it.**  However an invocation returns, at whatever
depth and whatever the guest did meanwhile: a table that was the global `io` has in its three fields
what it had before; so has a table that the guest computed, compared with when it was found; and the
three streams that were opened are closed, so that in every state that can follow each use of them
fails without reading or writing a byte. -/
theorem invocations_isolate_streams (n b : Nat) (r : RuntimeRef) (i : Invocation) (w w' : World)
    (outcome : Outcome (Except BridgeError (List HostValue))) (hn : NativesGrow w.natives)
    (hr : (handlerWithin n b r).invokeIn i w = (outcome, w')) (hret : outcome.ended = true) :
    (∀ t, w.heap.field (w.runtime (w.session i.session).runtime).runtime.globals "io" = .table t →
      ∀ name : StreamName, w'.heap.field t name.field = w.heap.field t name.field) ∧
    ∀ scope w₁, Enters (handlerWithin n b r) i w scope w₁ →
      (∃ w₀, (handlerWithin n b r).run (Guest.ioTable (i.begin w).1.runtime) (i.begin w).2 =
          (.value scope.io, w₀) ∧
        ∀ name : StreamName,
          w'.heap.field scope.io name.field = w₀.heap.field scope.io name.field) ∧
      scope.streams.map (·.1) = StreamName.all ∧
      ∀ s ∈ scope.streams,
        w₁.heap.user s.2.1 = .stream
          (Stream.ofIo (i.begin w).1.io (some (i.begin w).1.context.signal) s.1) ∧
        ∀ w'', w'.Later w'' → w''.heap.IsClosed s.2.1 ∧
          ∀ (hd : Handler) (g : GuestFunction) (f : Guest.Function) (args : List Value)
            (r' : RuntimeRef) (sites : CallSites), w''.heap.function? g = some f →
              UsesStream w'' s.2.1 f args →
                Fails hd (Guest.bodyOf w'' r' (.func g) args sites).2 w'' := by
  cases outcome with
  | exhausted => cases hret
  | error v =>
    have hne := Handler.invokeIn_ne_error (handlerWithin_invoke_ne_error n b r) i w v
    rw [hr] at hne
    exact absurd rfl hne
  | value result =>
    have hages : w.Ages w' := by
      have hk := World.Ages.kept.invokeIn
        (fun i a w => World.Ages.kept.run n b r (i.body a) w) i w
      rw [hr] at hk
      exact hk
    refine ⟨fun t ht name => ?_, fun scope w₁ he => ⟨field_of_invokeIn hn hr he, ?_, ?_⟩⟩
    -- an invocation that is refused leaves the state as it is, and any other one enters a scope
    · cases hopen : (w.session i.session).closed with
      | true =>
        rw [Handler.invokeIn, hopen] at hr
        cases hr
        rfl
      | false =>
        cases hwanted : w.signals.isCancelled i.context.signal with
        | true =>
          rw [Handler.invokeIn, hopen, hwanted] at hr
          cases hr
          rfl
        | false =>
          obtain ⟨hio, scope, w₁, he⟩ := enters_of_global (handlerWithin n b r) hopen hwanted ht
          obtain ⟨w₀, hio', hfield⟩ := field_of_invokeIn hn hr he
          rw [hio] at hio'
          cases hio'
          rw [hfield name, heap_begin]
    · obtain ⟨_, -, ho⟩ := StreamScope.run_enter he.2.2
      exact ho.names
    · intro s hs
      obtain ⟨_, -, ho⟩ := StreamScope.run_enter he.2.2
      refine ⟨ho.stream s hs, fun w'' later => ?_⟩
      have hc := later.closed (by rw [hages.natives]; exact hn) (closed_of_invokeIn hn hr he hs)
      exact ⟨hc, fun hd g f args r' sites hg huse => fails_of_closed hc hg huse r' sites⟩

/-- A session whose `io.stdin` is a text of the guest's, in which a host function is called that
calls back into the session: both scopes are left, and the text is in its place again. -/
theorem field_after_nested_invocations :
    let io : Guest.Table :=
      { slots := [(.text "stdin", .text "kept")], distinct := List.pairwise_singleton _ _ }
    let globals : Guest.Table :=
      { slots := [(.text "io", .table ⟨1⟩)], distinct := List.pairwise_singleton _ _ }
    let inner : Invocation := ⟨⟨0⟩, ⟨0, default, none⟩, ⟨1⟩, []⟩
    let outer : Invocation := ⟨⟨0⟩, ⟨0, default, none⟩, ⟨0⟩, []⟩
    let w : World :=
      { heap := { tables := #[globals, io], functions := #[⟨⟨0⟩, .host ⟨0, false⟩⟩] }
        runtimes := #[{ runtime := { (default : Guest.Runtime) with globals := ⟨0⟩ } }]
        hostFunctions := #[(0, [])]
        hostCode := #[fun _ _ => .invoke inner fun _ => .done []] }
    let left := (handlerWithin 3 3 ⟨0⟩).invokeIn outer w
    NativesGrow w.natives ∧ left.1.ended = true ∧ left.2.heap.field ⟨1⟩ "stdin" = .text "kept" := by
  intro io globals inner outer w left
  have hn : NativesGrow w.natives := fun n form hf => by cases hf
  have hret : left.1.ended = true := by decide +kernel
  have hleft : (handlerWithin 3 3 ⟨0⟩).invokeIn outer w = (left.1, left.2) := (Prod.eta _).symm
  have hfield :=
    (invocations_isolate_streams 3 3 ⟨0⟩ outer w left.2 left.1 hn hleft hret).1 ⟨1⟩ rfl .stdin
  have hw : w.heap.field ⟨1⟩ StreamName.stdin.field = .text "kept" := rfl
  rw [hw] at hfield
  exact ⟨hn, hret, hfield⟩

end ScriptShell
