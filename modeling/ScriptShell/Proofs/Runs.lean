import ScriptShell.Execution

/-! # Runs of programs

What a run does is put together from what the runs of its parts do: `Handler.run_bind` takes a run
apart where one program goes on with the value of another, and `Handler.run_attempt_ok` where an
error is caught.  A relation between states that every single answer keeps is kept by every run, at
whatever depth: `Kept.run` is that induction, made once.  What it needs to know of an invocation is
one frame: the states before and after it are related if the run inside kept the relation.

A `Quiet` program raises no error of its own and passes none on.  Calling a guest function for the
host is one, so an invocation ends with a result or not at all
(`handlerWithin_invoke_ne_error`).
-/

namespace ScriptShell

open Guest (Value RuntimeRef)

variable {α β : Type}

/-! ## What single operations leave alone -/

namespace World

/-- Reading changes the inputs, and the signals if an interrupt is read. -/
theorem consume_eq (w : World) (i : InputRef) (rest : Bytes) :
    ∃ inputs signals, w.consume i rest = { w with inputs := inputs, signals := signals } := by
  unfold consume
  dsimp only
  split
  · exact ⟨_, _, rfl⟩
  · split
    · split
      · exact ⟨_, _, rfl⟩
      · exact ⟨_, _, rfl⟩
    · exact ⟨_, _, rfl⟩

theorem read_eq (w : World) (i : InputRef) (format : ReadFormat) :
    ∃ inputs signals, (w.read i format).2 = { w with inputs := inputs, signals := signals } :=
  w.consume_eq i (BufferedReader.inMemory.readItem format (w.input i).rest).2

/-- Writing a property changes the host's side only. -/
theorem updateHost_eq (w : World) (result : Except PropertyError HostState) :
    ∃ host, (w.updateHost result).2 = { w with host := host } := by
  cases result with
  | ok host => exact ⟨host, rfl⟩
  | error e => exact ⟨w.host, rfl⟩

/-- Closing a session changes that session and its hooks. -/
theorem closeSession_eq (w : World) (s : SessionRef) :
    ∃ sessions host, w.closeSession s = { w with sessions := sessions, host := host } := by
  unfold closeSession
  dsimp only
  split
  · exact ⟨w.sessions, w.host, rfl⟩
  · exact ⟨_, _, rfl⟩

/-- Changing the directory changes the files only. -/
theorem changeDirectory_eq (w : World) (path : String) :
    ∃ files, (w.answer (.changeDirectory path)).2 = { w with files := files } := by
  simp only [answer]
  split
  · exact ⟨_, rfl⟩
  · exact ⟨w.files, rfl⟩

/-- What an operation leaves alone. -/
structure Framed (w : World) (o : Operation) (w' : World) : Prop where
  /-- The runtimes. -/
  runtimes : w'.runtimes = w.runtimes
  /-- The pipes of the process. -/
  processIo : w'.processIo = w.processIo
  /-- What functions of the host do. -/
  hostCode : w'.hostCode = w.hostCode
  /-- The functions of the host, unless it adds one. -/
  hostFunctions : w'.hostFunctions = w.hostFunctions ∨
    ∃ code values withCall, o = .newHostFunction code values withCall
  /-- The sessions, unless it closes one. -/
  sessions : w'.sessions = w.sessions ∨ ∃ s, o = .closeSession s
  /-- The shells, unless it replaces the pipes of one. -/
  shells : w'.shells = w.shells ∨ ∃ s io, o = .setShellIo s io

theorem framed_answer (w : World) (o : Operation) : Framed w o (w.answer o).2 := by
  cases o with
  | read i format =>
    obtain ⟨_, _, h⟩ := w.read_eq i format
    show Framed w _ (w.read i format).2
    rw [h]
    exact ⟨rfl, rfl, rfl, .inl rfl, .inl rfl, .inl rfl⟩
  | setProperty t key v =>
    obtain ⟨_, h⟩ := w.updateHost_eq (t.set w.host key v)
    show Framed w _ (w.updateHost _).2
    rw [h]
    exact ⟨rfl, rfl, rfl, .inl rfl, .inl rfl, .inl rfl⟩
  | bindKey hooks key v =>
    obtain ⟨_, h⟩ := w.updateHost_eq (w.host.bindKey hooks key v)
    show Framed w _ (w.updateHost _).2
    rw [h]
    exact ⟨rfl, rfl, rfl, .inl rfl, .inl rfl, .inl rfl⟩
  | closeSession s =>
    obtain ⟨_, _, h⟩ := w.closeSession_eq s
    show Framed w _ (w.closeSession s)
    rw [h]
    exact ⟨rfl, rfl, rfl, .inl rfl, .inr ⟨s, rfl⟩, .inl rfl⟩
  | changeDirectory path =>
    obtain ⟨_, h⟩ := w.changeDirectory_eq path
    rw [h]
    exact ⟨rfl, rfl, rfl, .inl rfl, .inl rfl, .inl rfl⟩
  | setShellIo s io => exact ⟨rfl, rfl, rfl, .inl rfl, .inl rfl, .inr ⟨s, io, rfl⟩⟩
  | newHostFunction code values withCall =>
    exact ⟨rfl, rfl, rfl, .inr ⟨code, values, withCall, rfl⟩, .inl rfl, .inl rfl⟩
  | _ => exact ⟨rfl, rfl, rfl, .inl rfl, .inl rfl, .inl rfl⟩

end World

namespace Handler

variable (h : Handler)

/-! ## Parts of a run -/

theorem run_bind (p : Program α) (f : α → Program β) (w : World) :
    h.run (p.bind f) w =
      match h.run p w with
      | (.value a, w) => h.run (f a) w
      | (.error v, w) => (.error v, w)
      | (.exhausted, w) => (.exhausted, w) := by
  induction p generalizing w with
  | done a => rfl
  | raise v => rfl
  | exhausted => rfl
  | perform o k ih => exact ih _ _
  | call g args sites k ih =>
    simp only [Program.bind, run]
    cases hc : h.call g args sites w with
    | mk result w' =>
      cases result with
      | value vs => exact ih _ _
      | error v => exact ih _ _
      | exhausted => rfl
  | invoke i k ih =>
    simp only [Program.bind, run]
    cases hc : h.invoke i w with
    | mk result w' =>
      cases result with
      | value result => exact ih _ _
      | error v => rfl
      | exhausted => rfl

variable {h}

/-- A run of two programs, one after the other, that ends with a value. -/
theorem run_bind_value {p : Program α} {f : α → Program β} {w w' : World} {b : β}
    (hr : h.run (p >>= f) w = (.value b, w')) :
    ∃ a w₁, h.run p w = (.value a, w₁) ∧ h.run (f a) w₁ = (.value b, w') := by
  have hb : h.run (p.bind f) w = (.value b, w') := hr
  rw [run_bind] at hb
  cases hp : h.run p w with
  | mk result w₁ =>
    rw [hp] at hb
    cases result with
    | value a => exact ⟨a, w₁, rfl, hb⟩
    | error v => cases hb
    | exhausted => cases hb

/-- A run whose first part is known to end with a value. -/
theorem run_bind_of_value {p : Program α} {f : α → Program β} {w w₁ : World} {a : α}
    (hp : h.run p w = (.value a, w₁)) : h.run (p >>= f) w = h.run (f a) w₁ := by
  have hb : h.run (p >>= f) w = h.run (p.bind f) w := rfl
  rw [hb, run_bind, hp]

@[simp] theorem run_done (a : α) (w : World) : h.run (.done a) w = (.value a, w) := rfl

@[simp] theorem run_pure (a : α) (w : World) : h.run (pure a) w = (.value a, w) := rfl

@[simp] theorem run_ask (o : Operation) (w : World) :
    h.run (Program.ask o) w = (.value (w.answer o).1, (w.answer o).2) := rfl

/-- A run that begins with one operation. -/
@[simp] theorem run_ask_bind (o : Operation) (f : o.Answer → Program β) (w : World) :
    h.run (Program.ask o >>= f) w = h.run (f (w.answer o).1) (w.answer o).2 := rfl

/-- What is caught as a value is one. -/
theorem run_attempt_ok {p : Program α} {w w' : World} {a : α} :
    h.run p.attempt w = (.value (.ok a), w') ↔ h.run p w = (.value a, w') := by
  induction p generalizing w with
  | done b => simp [Program.attempt, run]
  | raise v => simp [Program.attempt, run]
  | exhausted => simp [Program.attempt, run]
  | perform o k ih => exact ih _
  | call g args sites k ih =>
    simp only [Program.attempt, run]
    cases hc : h.call g args sites w with
    | mk result w₁ =>
      cases result with
      | value vs => exact ih _
      | error v => exact ih _
      | exhausted => simp
  | invoke i k ih =>
    simp only [Program.attempt, run]
    cases hc : h.invoke i w with
    | mk result w₁ =>
      cases result with
      | value result => exact ih _
      | error v => simp
      | exhausted => simp

/-- An invocation ends as what runs in it does. -/
theorem invokeOpen_fst (h : Handler) (i : Invocation) (w : World) :
    (h.invokeOpen i w).1 = (h.run (i.body (i.begin w).1) (i.begin w).2).1 := by
  rw [invokeOpen]

/-- An invocation leaves what runs in it leaves, with the context put back. -/
theorem invokeOpen_snd (h : Handler) (i : Invocation) (w : World) :
    (h.invokeOpen i w).2 =
      (h.run (i.body (i.begin w).1) (i.begin w).2).2.setContext (w.session i.session).runtime
        (w.runtime (w.session i.session).runtime).context? := by
  rw [invokeOpen]
  rfl

end Handler

/-! ## Calls and the room for them -/

section Calls

variable {n b : Nat} {r : RuntimeRef} {f : Value} {args : List Value} {sites : CallSites}

/-- A call that does not nest too deep runs the body of the function. -/
theorem call_of_enters (w : World) (enters : (sites.isBoundary && b = 0) = false) :
    (handlerWithin (n + 1) b r).call f args sites w =
      (handlerWithin n (if sites.isBoundary then b - 1 else b)
        (Guest.bodyOf w r f args sites).1).run (Guest.bodyOf w r f args sites).2 w := by
  simp only [handlerWithin]
  rw [if_neg (by rw [enters]; exact Bool.false_ne_true)]

/-- A call that nests too deep ends in an error, and nothing happens. -/
theorem exists_error_of_tooDeep (w : World)
    (hdeep : n = 0 ∨ (sites.isBoundary && b = 0) = true) :
    ∃ e, (handlerWithin n b r).call f args sites w = (.error e, w) := by
  cases n with
  | zero => exact ⟨_, rfl⟩
  | succ n =>
    have hrefused := hdeep.resolve_left (Nat.succ_ne_zero n)
    simp only [handlerWithin, hrefused, if_true]
    exact ⟨_, rfl⟩

/-- There is room for a call, or it ends in an error. -/
theorem call_refused_or_runs (n b : Nat) (r : RuntimeRef) (f : Value) (args : List Value)
    (sites : CallSites) (w : World) :
    ((n = 0 ∨ b = 0) ∧ ∃ e, (handlerWithin n b r).call f args sites w = (.error e, w)) ∨
      ∃ n' b', (handlerWithin n b r).call f args sites w =
        (handlerWithin n' b' (Guest.bodyOf w r f args sites).1).run
          (Guest.bodyOf w r f args sites).2 w := by
  cases n with
  | zero => exact .inl ⟨.inl rfl, exists_error_of_tooDeep w (.inl rfl)⟩
  | succ n =>
    cases enters : (sites.isBoundary && decide (b = 0)) with
    | true =>
      refine .inl ⟨.inr ?_, exists_error_of_tooDeep w (.inr enters)⟩
      exact of_decide_eq_true (Bool.and_eq_true_iff.1 enters).2
    | false => exact .inr ⟨n, _, call_of_enters w enters⟩

end Calls

/-! ## Relations that runs keep -/

/-- A relation between the states before and after that holds over single answers, and over an
invocation if it holds over what runs in it. -/
structure Kept (R : World → World → Prop) : Prop where
  /-- It holds where nothing happens. -/
  refl : ∀ w, R w w
  /-- It holds over one stretch after another. -/
  trans : ∀ {a b c}, R a b → R b c → R a c
  /-- It holds over one operation. -/
  answer : ∀ w o, R w (w.answer o).2
  /-- It holds over an invocation. -/
  invokeOpen : ∀ (h : Handler) (i : Invocation) (w : World),
    (∀ a w, R w (h.run (i.body a) w).2) → R w (h.invokeOpen i w).2

namespace Kept

variable {R : World → World → Prop}

theorem run_of (kept : Kept R) {h : Handler} (hcall : ∀ f args sites w, R w (h.call f args sites w).2)
    (hinvoke : ∀ i w, R w (h.invoke i w).2) (p : Program α) (w : World) :
    R w (h.run p w).2 := by
  induction p generalizing w with
  | done a => exact kept.refl w
  | raise v => exact kept.refl w
  | exhausted => exact kept.refl w
  | perform o k ih => exact kept.trans (kept.answer w o) (ih _ _)
  | call g args sites k ih =>
    have hc := hcall g args sites w
    simp only [Handler.run]
    cases hr : h.call g args sites w with
    | mk result w' =>
      rw [hr] at hc
      cases result with
      | value vs => exact kept.trans hc (ih _ _)
      | error v => exact kept.trans hc (ih _ _)
      | exhausted => exact hc
  | invoke i k ih =>
    have hi := hinvoke i w
    simp only [Handler.run]
    cases hr : h.invoke i w with
    | mk result w' =>
      rw [hr] at hi
      cases result with
      | value result => exact kept.trans hi (ih _ _)
      | error v => exact hi
      | exhausted => exact hi

theorem invokeIn (kept : Kept R) {h : Handler} (hrun : ∀ (i : Invocation) a w,
    R w (h.run (i.body a) w).2) (i : Invocation) (w : World) : R w (h.invokeIn i w).2 := by
  unfold Handler.invokeIn
  split
  · exact kept.refl w
  · split
    · exact kept.refl w
    · exact kept.invokeOpen h i w (hrun i)

/-- **Every run keeps the relation**, whatever the program and however deep its calls nest. -/
theorem run (kept : Kept R) (n boundaries : Nat) (r : RuntimeRef) (p : Program α) (w : World) :
    R w ((handlerWithin n boundaries r).run p w).2 := by
  induction n generalizing α boundaries r p w with
  | zero => exact kept.run_of (fun _ _ _ w => kept.refl w) (fun _ w => kept.refl w) p w
  | succ n ih =>
    refine kept.run_of (fun f args sites w => ?_) (fun i w => ?_) p w
    · simp only [handlerWithin]
      split
      · exact kept.refl w
      · exact ih _ _ _ _
    · exact kept.invokeIn (fun i a w => ih _ _ _ _) i w

theorem invoke (kept : Kept R) (n boundaries : Nat) (r : RuntimeRef) (i : Invocation) (w : World) :
    R w ((handlerWithin n boundaries r).invoke i w).2 := by
  cases n with
  | zero => exact kept.refl w
  | succ n => exact kept.invokeIn (fun i a w => kept.run n boundaries _ (i.body a) w) i w

theorem call (kept : Kept R) (n boundaries : Nat) (r : RuntimeRef) (f : Value) (args : List Value)
    (sites : CallSites) (w : World) : R w ((handlerWithin n boundaries r).call f args sites w).2 := by
  cases n with
  | zero => exact kept.refl w
  | succ n =>
    simp only [handlerWithin]
    split
    · exact kept.refl w
    · exact kept.run _ _ _ _ _

end Kept

/-! ## Programs that raise no error -/

namespace Program

/-- A program that raises no error of its own and passes none on. -/
inductive Quiet : {α : Type} → Program α → Prop where
  | done {α : Type} (a : α) : Quiet (.done a)
  | exhausted {α : Type} : Quiet (.exhausted : Program α)
  | perform {α : Type} (o : Operation) (k : o.Answer → Program α) (h : ∀ x, Quiet (k x)) :
      Quiet (.perform o k)
  | call {α : Type} (f : Value) (args : List Value) (sites : CallSites)
      (k : Except Value (List Value) → Program α) (h : ∀ x, Quiet (k x)) :
      Quiet (.call f args sites k)
  | invoke {α : Type} (i : Invocation) (k : Except BridgeError (List HostValue) → Program α)
      (h : ∀ x, Quiet (k x)) : Quiet (.invoke i k)

namespace Quiet

theorem pure (a : α) : Quiet (Pure.pure a : Program α) := .done a

theorem ask (o : Operation) : Quiet (Program.ask o) := .perform o _ fun _ => .done _

theorem bind {p : Program α} (hp : p.Quiet) {f : α → Program β} (hf : ∀ a, (f a).Quiet) :
    Quiet (p >>= f) := by
  show Quiet (p.bind f)
  induction hp with
  | done a => exact hf a
  | exhausted => exact .exhausted
  | perform o k _ ih => exact .perform _ _ fun x => ih x
  | call g args sites k _ ih => exact .call _ _ _ _ fun x => ih x
  | invoke i k _ ih => exact .invoke _ _ fun x => ih x

/-- An error that is caught is not raised. -/
theorem attempt (p : Program α) : Quiet p.attempt := by
  induction p with
  | done a => exact .done _
  | raise v => exact .done _
  | exhausted => exact .exhausted
  | perform o k ih => exact .perform _ _ ih
  | call g args sites k ih => exact .call _ _ _ _ ih
  | invoke i k ih => exact .invoke _ _ ih

/-- A quiet program does not end with an error, unless an invocation in it does. -/
theorem run_ne_error {h : Handler} (hi : ∀ i w v, (h.invoke i w).1 ≠ .error v)
    {p : Program α} (hp : p.Quiet) (w : World) (v : Value) : (h.run p w).1 ≠ .error v := by
  induction hp generalizing w with
  | done a => simp
  | exhausted => simp [Handler.run]
  | perform o k _ ih => exact ih _ _
  | call g args sites k _ ih =>
    simp only [Handler.run]
    split
    · exact ih _ _
    · exact ih _ _
    · simp
  | invoke i k _ ih =>
    simp only [Handler.run]
    split
    · exact ih _ _
    · next u w' he =>
      have := hi i w u
      rw [he] at this
      exact absurd rfl this
    · simp

end Quiet
end Program

open Program (Quiet)

theorem failureWithin_quiet (here : Guest.Here) (n : Nat) (e : Value) :
    (Guest.failureWithin here n e).Quiet := by
  induction n generalizing e with
  | zero => exact .pure _
  | succ n ih =>
    unfold Guest.failureWithin
    split
    · exact .pure _
    · refine .bind (.ask _) fun u => ?_
      split
      · exact .pure _
      · refine .bind (.attempt _) fun x => ?_
        split
        · exact .pure _
        · exact ih _
    · refine .bind (.attempt _) fun x => ?_
      split
      · exact .pure _
      · exact ih _

theorem guestValues_quiet (r : RuntimeRef) (xs : List HostValue) :
    (Guest.guestValues r xs).Quiet := by
  induction xs with
  | nil => exact .pure _
  | cons x rest ih =>
    refine .bind (.ask _) fun v => ?_
    split
    · exact .pure _
    · refine .bind ih fun vs => ?_
      split <;> exact .pure _

theorem callForHost_quiet (r : RuntimeRef) (signal : Signal) (f : GuestFunction)
    (args : List HostValue) : (Guest.callForHost r signal f args).Quiet := by
  refine .bind (guestValues_quiet r args) fun vs => ?_
  split
  · exact .pure _
  · refine .bind (.attempt _) fun x => ?_
    split
    · exact .pure _
    · refine .bind (failureWithin_quiet _ _ _) fun failure => ?_
      refine .bind (.ask _) fun cancelled => ?_
      split
      · exact .pure _
      · exact .pure _

theorem closeStreams_quiet (streams : List (StreamName × Guest.UserRef × Value)) :
    (Guest.StreamScope.closeStreams streams).Quiet := by
  induction streams with
  | nil => exact .pure _
  | cons s rest ih => exact .bind (.ask _) fun _ => ih

theorem restoreFields_quiet (io : Guest.TableRef)
    (streams : List (StreamName × Guest.UserRef × Value)) :
    (Guest.StreamScope.restoreFields io streams).Quiet := by
  induction streams with
  | nil => exact .pure _
  | cons s rest ih => exact .bind (.ask _) fun _ => ih

theorem callInScope_quiet (r : RuntimeRef) (io : CommandIo) (signal : Signal) (f : GuestFunction)
    (args : List HostValue) : (Guest.callInScope r io signal f args).Quiet := by
  refine .bind (.attempt _) fun scope => ?_
  split
  · exact .bind (failureWithin_quiet _ _ _) fun _ => .pure _
  · refine .bind (callForHost_quiet r signal f args) fun result => ?_
    refine .bind (.bind (closeStreams_quiet _) fun _ =>
      .bind (restoreFields_quiet _ _) fun _ => .pure _) fun _ => ?_
    split
    · exact .pure _
    · refine .bind (.ask _) fun heap => ?_
      split <;> exact .pure _

theorem Handler.invokeIn_ne_error {h : Handler} (hi : ∀ i w v, (h.invoke i w).1 ≠ .error v)
    (i : Invocation) (w : World) (v : Value) : (h.invokeIn i w).1 ≠ .error v := by
  unfold Handler.invokeIn
  split
  · simp
  · split
    · simp
    · rw [Handler.invokeOpen_fst]
      exact Quiet.run_ne_error hi (callInScope_quiet _ _ _ _ _) _ v

/-- **No error of the guest leaves an invocation**: it ends with a result for its caller, or not at
all. -/
theorem handlerWithin_invoke_ne_error (n boundaries : Nat) (r : RuntimeRef) (i : Invocation)
    (w : World) (v : Value) : ((handlerWithin n boundaries r).invoke i w).1 ≠ .error v := by
  induction n generalizing boundaries r i w v with
  | zero => simp [handlerWithin]
  | succ n ih => exact Handler.invokeIn_ne_error (ih boundaries _) i w v

end ScriptShell
