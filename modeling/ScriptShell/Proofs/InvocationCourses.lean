import ScriptShell.Proofs.Moments
import ScriptShell.Proofs.StreamIsolation

/-! # How an invocation goes

An invocation that is not refused opens its streams, builds its arguments, calls the function and
closes the streams again.  It can fail at each of the first three steps; `Handler.course` is the way
that it goes up to there, and `Ending.result` what its result is then: where the streams cannot be
opened, the error of the guest, whatever the signals say; where the function fails, its error, or a
cancellation if the signal is cancelled by the time at which the error has come to the host.  A
function that returns has its results handed over.  An invocation ends if its way has an
end, and then it has that result (`course_of_invoke`, `invoke_of_course`).
-/

namespace ScriptShell

open Guest (Value RuntimeRef StreamScope)

namespace Handler

variable {α : Type} {h : Handler}

/-- What is caught as an error is one. -/
theorem run_attempt_error {p : Program α} {w w' : World} {v : Value}
    (hr : h.run p.attempt w = (.value (.error v), w')) : h.run p w = (.error v, w') := by
  induction p generalizing w with
  | done b => cases hr
  | raise u =>
    cases hr
    rfl
  | exhausted => cases hr
  | perform o k ih => exact ih _ hr
  | call g args sites k ih =>
    simp only [Program.attempt, run] at hr ⊢
    cases hc : h.call g args sites w with
    | mk result w₁ =>
      rw [hc] at hr
      cases result with
      | value vs => exact ih _ hr
      | error v => exact ih _ hr
      | exhausted => cases hr
  | invoke i k ih =>
    simp only [Program.attempt, run] at hr ⊢
    cases hc : h.invoke i w with
    | mk result w₁ =>
      rw [hc] at hr
      cases result with
      | value result => exact ih _ hr
      | error v => cases hr
      | exhausted => cases hr

/-- An error is caught, unless an invocation raises it. -/
theorem run_attempt_of_error (hne : ∀ i w v, (h.invoke i w).1 ≠ .error v) {p : Program α}
    {w w' : World} {v : Value} (hr : h.run p w = (.error v, w')) :
    h.run p.attempt w = (.value (.error v), w') := by
  induction p generalizing w with
  | done b => cases hr
  | raise u =>
    cases hr
    rfl
  | exhausted => cases hr
  | perform o k ih => exact ih _ hr
  | call g args sites k ih =>
    simp only [Program.attempt, run] at hr ⊢
    cases hc : h.call g args sites w with
    | mk result w₁ =>
      rw [hc] at hr
      cases result with
      | value vs => exact ih _ hr
      | error v => exact ih _ hr
      | exhausted => cases hr
  | invoke i k ih =>
    simp only [Program.attempt, run] at hr ⊢
    cases hc : h.invoke i w with
    | mk result w₁ =>
      rw [hc] at hr
      cases result with
      | value result => exact ih _ hr
      | error u =>
        have hu := hne i w u
        rw [hc] at hu
        exact absurd rfl hu
      | exhausted => cases hr

/-- A call whose error is caught ends as the call does. -/
theorem run_attempt_callValue (h : Handler) (f : Value) (args : List Value) (sites : CallSites)
    (w : World) :
    h.run (Program.callValue f args sites).attempt w =
      match h.call f args sites w with
      | (.value vs, w) => (.value (.ok vs), w)
      | (.error v, w) => (.value (.error v), w)
      | (.exhausted, w) => (.exhausted, w) := by
  cases hc : h.call f args sites w with
  | mk result w' => cases result <;> simp only [Program.callValue, Program.attempt, run, hc]

end Handler

/-- The ways in which an invocation can go. -/
inductive Ending where
  /-- Opening the streams has run code of the guest, which failed. -/
  | unopened (failure : Failure)
  /-- An argument has no guest form. -/
  | unfit (cause : MarshalError)
  /-- The function has failed. -/
  | raised (failure : Failure)
  /-- The function has returned. -/
  | returned (results : List Value)

/-- The result for the caller.  It depends on whether the signal is cancelled where the function has
failed, and on the heap that the invocation leaves. -/
def Ending.result (cancelled : Bool) (heap : Guest.Heap) :
    Ending → Except BridgeError (List HostValue)
  | unopened failure => .error (.ofFailure failure)
  | unfit cause => .error (.marshal cause)
  | raised failure => .error (if cancelled then .cancelled else .ofFailure failure)
  | returned results => (Marshal.listToHost heap results).mapError .marshal

/-- The errors in which an invocation can end: those of the guest and of marshalling, and where its
function has failed, a cancellation. -/
theorem Ending.result_error {ending : Ending} {cancelled : Bool} {heap : Guest.Heap}
    {e : BridgeError} (h : ending.result cancelled heap = .error e) :
    (∃ message, e = .runtime message) ∨ (∃ cause, e = .marshal cause) ∨
      e = .cancelled ∧ cancelled = true ∧ ∃ failure, ending = .raised failure := by
  cases ending with
  | unopened failure =>
    cases h
    exact .inl ⟨_, rfl⟩
  | unfit cause =>
    cases h
    exact .inr (.inl ⟨cause, rfl⟩)
  | raised failure =>
    cases cancelled with
    | false =>
      cases h
      exact .inl ⟨_, rfl⟩
    | true =>
      cases h
      exact .inr (.inr ⟨rfl, rfl, failure, rfl⟩)
  | returned results =>
    rw [result] at h
    cases hlist : Marshal.listToHost heap results with
    | ok xs =>
      rw [hlist] at h
      cases h
    | error cause =>
      rw [hlist] at h
      cases h
      exact .inr (.inl ⟨cause, rfl⟩)

namespace Handler

/-- An error of the guest as it comes to the host. -/
def arrival (hd : Handler) (r : RuntimeRef) (v : Value) (w : World) : Option (Failure × World) :=
  match hd.run (Guest.failureOf (Guest.hostSide r) v) w with
  | (.value failure, w) => some (failure, w)
  | _ => none

/-- The way that an invocation goes which begins in a state, and the state in which that is
settled: the function has returned, or an error has come to the host. -/
def course (hd : Handler) (i : Invocation) (w : World) : Option (Ending × World) :=
  let a := (i.begin w).1
  match hd.run (StreamScope.enter a.runtime a.io (some a.context.signal)) (i.begin w).2 with
  | (.error v, w) => (hd.arrival a.runtime v w).map fun (failure, w) => (.unopened failure, w)
  | (.value _, w) =>
    match hd.run (Guest.guestValues a.runtime i.args) w with
    | (.value (.error cause), w) => some (.unfit cause, w)
    | (.value (.ok vs), w) =>
      match hd.call (.func i.function) vs [.host] w with
      | (.error v, w) => (hd.arrival a.runtime v w).map fun (failure, w) => (.raised failure, w)
      | (.value results, w) => some (.returned results, w)
      | (.exhausted, _) => none
    | _ => none
  | (.exhausted, _) => none

end Handler

variable {hd : Handler}

/-- Calling a function for the host ends in one of three ways. -/
theorem run_callForHost {r : RuntimeRef} {signal : Signal} {f : GuestFunction}
    {args : List HostValue} {w w' : World} {result : Except BridgeError (List Value)}
    (hr : hd.run (Guest.callForHost r signal f args) w = (.value result, w')) :
    (∃ e, hd.run (Guest.guestValues r args) w = (.value (.error e), w') ∧
      result = .error (.marshal e)) ∨
    ∃ vs w₂, hd.run (Guest.guestValues r args) w = (.value (.ok vs), w₂) ∧
      ((∃ v w₃ failure, hd.call (.func f) vs [.host] w₂ = (.error v, w₃) ∧
          hd.arrival r v w₃ = some (failure, w') ∧
          result = .error (if w'.signals.isCancelled signal then .cancelled
            else .ofFailure failure)) ∨
        ∃ results, hd.call (.func f) vs [.host] w₂ = (.value results, w') ∧
          result = .ok results) := by
  obtain ⟨built, w₂, hbuilt, hr⟩ := Handler.run_bind_value hr
  cases built with
  | error e =>
    cases hr
    exact .inl ⟨e, hbuilt, rfl⟩
  | ok vs =>
    refine .inr ⟨vs, w₂, hbuilt, ?_⟩
    obtain ⟨outcome, w₃, hcall, hr⟩ := Handler.run_bind_value hr
    rw [Handler.run_attempt_callValue] at hcall
    cases hc : hd.call (.func f) vs [.host] w₂ with
    | mk ended w₄ =>
      rw [hc] at hcall
      cases ended with
      | exhausted => cases hcall
      | value results =>
        cases hcall
        cases hr
        exact .inr ⟨results, rfl, rfl⟩
      | error v =>
        cases hcall
        obtain ⟨failure, w₅, harrives, hr⟩ := Handler.run_bind_value hr
        have hanswer : w₅.answer (.isCancelled signal) =
          (w₅.signals.isCancelled signal, w₅) := rfl
        have harrival : hd.arrival r v w₃ = some (failure, w₅) := by
          rw [Handler.arrival, harrives]
        rw [Handler.run_ask_bind, hanswer] at hr
        dsimp only at hr
        by_cases hc : w₅.signals.isCancelled signal = true
        · rw [if_pos hc] at hr
          cases hr
          exact .inl ⟨v, w₃, failure, rfl, harrival, by rw [if_pos hc]⟩
        · rw [if_neg hc] at hr
          cases hr
          exact .inl ⟨v, w₃, failure, rfl, harrival, by rw [if_neg hc]⟩

/-- Handing results over to the host only reads the heap. -/
theorem run_handBack (hd : Handler) (results : List Value) (w : World) :
    hd.run (do
      match Marshal.listToHost (← Program.ask .heap) results with
      | .ok xs => return .ok xs
      | .error e => return .error (.marshal e) : Program (Except BridgeError (List HostValue))) w =
      (.value ((Marshal.listToHost w.heap results).mapError .marshal), w) := by
  have hheap : w.answer .heap = (w.heap, w) := rfl
  rw [Handler.run_ask_bind, hheap]
  dsimp only
  cases Marshal.listToHost w.heap results <;> rfl

/-- What runs in an invocation goes the way of the invocation, and has its result. -/
theorem course_of_run {i : Invocation} {w w' : World}
    {result : Except BridgeError (List HostValue)}
    (hr : hd.run (i.body (i.begin w).1) (i.begin w).2 = (.value result, w')) :
    ∃ ending w₁, hd.course i w = some (ending, w₁) ∧ result = ending.result
      (w₁.signals.isCancelled (i.begin w).1.context.signal) w'.heap := by
  obtain ⟨opened, w₁, hopen, hr⟩ := Handler.run_bind_value hr
  cases opened with
  | error v =>
    have hopens := Handler.run_attempt_error hopen
    obtain ⟨failure, w₂, harrives, hr⟩ := Handler.run_bind_value hr
    have harrival : hd.arrival (i.begin w).1.runtime v w₁ = some (failure, w₂) := by
      rw [Handler.arrival, harrives]
    cases hr
    refine ⟨.unopened failure, w', ?_, rfl⟩
    simp only [Handler.course, hopens, harrival, Option.map_some]
  | ok scope =>
    have hopens := Handler.run_attempt_ok.1 hopen
    obtain ⟨called, w₂, hcall, hr⟩ := Handler.run_bind_value hr
    obtain ⟨gone, w₃, hleave, hr⟩ := Handler.run_bind_value hr
    rw [StreamScope.run_leave] at hleave
    cases hleave
    rcases run_callForHost hcall with ⟨e, hbuilds, rfl⟩ |
      ⟨vs, w₃, hbuilds, ⟨v, w₄, failure, hcalls, harrival, rfl⟩ | ⟨results, hcalls, rfl⟩⟩
    · cases hr
      refine ⟨.unfit e, w₂, ?_, rfl⟩
      simp only [Handler.course, hopens, hbuilds]
    · cases hr
      refine ⟨.raised failure, w₂, ?_, rfl⟩
      simp only [Handler.course, hopens, hbuilds, hcalls, harrival, Option.map_some]
    · have hback := (run_handBack hd results _).symm.trans hr
      cases hback
      refine ⟨.returned results, w₂, ?_, rfl⟩
      simp only [Handler.course, hopens, hbuilds, hcalls]

theorem run_of_arrival {r : RuntimeRef} {v : Value} {w w' : World} {failure : Failure}
    (h : hd.arrival r v w = some (failure, w')) :
    hd.run (Guest.failureOf (Guest.hostSide r) v) w = (.value failure, w') := by
  unfold Handler.arrival at h
  split at h
  · next hr =>
    cases h
    exact hr
  · cases h

/-- A scope that is open is left again, whatever has come of the call. -/
theorem run_callInScope_of_call {r : RuntimeRef} {io : CommandIo} {signal : Signal}
    {f : GuestFunction} {args : List HostValue} {w w₁ w₂ : World} {scope : StreamScope}
    {called : Except BridgeError (List Value)}
    (hopens : hd.run (StreamScope.enter r io (some signal)) w = (.value scope, w₁))
    (hcall : hd.run (Guest.callForHost r signal f args) w₁ = (.value called, w₂)) :
    ∃ result w', hd.run (Guest.callInScope r io signal f args) w = (.value result, w') := by
  rw [Guest.callInScope, Handler.run_bind_of_value (Handler.run_attempt_ok.2 hopens)]
  dsimp only
  rw [Handler.run_bind_of_value hcall,
    Handler.run_bind_of_value (StreamScope.run_leave hd scope w₂)]
  cases called with
  | error e => exact ⟨_, _, rfl⟩
  | ok results => exact ⟨_, _, run_handBack hd results _⟩

/-- Where the function returns, its results are handed over once the scope is left. -/
theorem run_callInScope_of_returned {r : RuntimeRef} {io : CommandIo} {signal : Signal}
    {f : GuestFunction} {args : List HostValue} {w w₁ w₂ w₃ : World} {scope : StreamScope}
    {vs results : List Value}
    (hopens : hd.run (StreamScope.enter r io (some signal)) w = (.value scope, w₁))
    (hbuilds : hd.run (Guest.guestValues r args) w₁ = (.value (.ok vs), w₂))
    (hcalls : hd.call (.func f) vs [.host] w₂ = (.value results, w₃)) :
    let left := StreamScope.restored scope.io scope.streams
      (StreamScope.closed scope.streams w₃.heap)
    hd.run (Guest.callInScope r io signal f args) w =
      (.value ((Marshal.listToHost left results).mapError .marshal), { w₃ with heap := left }) := by
  have hattempt := Handler.run_attempt_callValue hd (.func f) vs [.host] w₂
  rw [hcalls] at hattempt
  have hcall : hd.run (Guest.callForHost r signal f args) w₁ = (.value (.ok results), w₃) := by
    rw [Guest.callForHost, Handler.run_bind_of_value hbuilds]
    dsimp only
    rw [Handler.run_bind_of_value hattempt]
    rfl
  rw [Guest.callInScope, Handler.run_bind_of_value (Handler.run_attempt_ok.2 hopens)]
  dsimp only
  rw [Handler.run_bind_of_value hcall,
    Handler.run_bind_of_value (StreamScope.run_leave hd scope w₃)]
  exact run_handBack hd results _

/-- What runs in an invocation ends if its way has an end. -/
theorem run_of_course (hne : ∀ i w v, (hd.invoke i w).1 ≠ .error v) {i : Invocation}
    {w w₁ : World} {ending : Ending} (h : hd.course i w = some (ending, w₁)) :
    ∃ result w', hd.run (i.body (i.begin w).1) (i.begin w).2 = (.value result, w') := by
  unfold Handler.course at h
  dsimp only at h
  split at h
  · next v w₂ hopens =>
    obtain ⟨⟨failure, w₃⟩, harrival, -⟩ := Option.map_eq_some_iff.1 h
    refine ⟨.error (.ofFailure failure), w₃, ?_⟩
    rw [Invocation.body, Guest.callInScope,
      Handler.run_bind_of_value (Handler.run_attempt_of_error hne hopens)]
    dsimp only
    rw [Handler.run_bind_of_value (run_of_arrival harrival)]
    rfl
  · next scope w₂ hopens =>
    suffices hcall : ∃ called w₃, hd.run (Guest.callForHost (i.begin w).1.runtime
        (i.begin w).1.context.signal i.function i.args) w₂ = (.value called, w₃) by
      obtain ⟨called, w₃, hcall⟩ := hcall
      exact run_callInScope_of_call hopens hcall
    rw [Guest.callForHost]
    split at h
    · next cause w₃ hbuilds =>
      rw [Handler.run_bind_of_value hbuilds]
      exact ⟨_, _, rfl⟩
    · next vs w₃ hbuilds =>
      have hattempt := Handler.run_attempt_callValue hd (.func i.function) vs [.host] w₃
      rw [Handler.run_bind_of_value hbuilds]
      dsimp only
      split at h
      · next v w₄ hcalls =>
        obtain ⟨⟨failure, w₅⟩, harrival, -⟩ := Option.map_eq_some_iff.1 h
        rw [hcalls] at hattempt
        rw [Handler.run_bind_of_value hattempt]
        dsimp only
        rw [Handler.run_bind_of_value (run_of_arrival harrival), Handler.run_ask_bind]
        cases (w₅.answer (.isCancelled (i.begin w).1.context.signal)).1 <;> exact ⟨_, _, rfl⟩
      · next results w₄ hcalls =>
        rw [hcalls] at hattempt
        rw [Handler.run_bind_of_value hattempt]
        exact ⟨_, _, rfl⟩
      · cases h
    · cases h
  · cases h

section Invocations

variable {n b : Nat} {r : RuntimeRef} {i : Invocation} {w w₁ : World} {ending : Ending}

/-- An invocation has the context that it was made for, as far as the signal goes. -/
theorem signal_begin (i : Invocation) (w : World) :
    (i.begin w).1.context.signal = i.context.signal := by
  unfold Invocation.begin
  dsimp only
  split <;> rfl

/-- What holds over runs and over the beginning of an invocation holds up to where the way of an
invocation is settled. -/
theorem Kept.course {R : World → World → Prop} (kept : Kept R)
    (hbegin : ∀ (w : World) (i : Invocation), R w (i.begin w).2)
    (h : (handlerWithin n b r).course i w = some (ending, w₁)) : R w w₁ := by
  have hrun {α : Type} {p : Program α} {w w' : World} {outcome : Outcome α}
      (hr : (handlerWithin n b r).run p w = (outcome, w')) : R w w' := by
    have hk := kept.run n b r p w
    rwa [hr] at hk
  have hcall {f : Value} {args : List Value} {sites : CallSites} {w w' : World}
      {outcome : Outcome (List Value)}
      (hr : (handlerWithin n b r).call f args sites w = (outcome, w')) : R w w' := by
    have hk := kept.call n b r f args sites w
    rwa [hr] at hk
  have harrival {q : RuntimeRef} {v : Value} {w w' : World} {failure : Failure}
      (ha : (handlerWithin n b r).arrival q v w = some (failure, w')) : R w w' :=
    hrun (run_of_arrival ha)
  unfold Handler.course at h
  dsimp only at h
  split at h
  · next v w₂ hopens =>
    obtain ⟨⟨failure, w₃⟩, ha, heq⟩ := Option.map_eq_some_iff.1 h
    cases heq
    exact kept.trans (kept.trans (hbegin w i) (hrun hopens)) (harrival ha)
  · next scope w₂ hopens =>
    have hopened := kept.trans (hbegin w i) (hrun hopens)
    split at h
    · next cause w₃ hbuilds =>
      cases h
      exact kept.trans hopened (hrun hbuilds)
    · next vs w₃ hbuilds =>
      have hbuilt := kept.trans hopened (hrun hbuilds)
      split at h
      · next v w₄ hcalls =>
        obtain ⟨⟨failure, w₅⟩, ha, heq⟩ := Option.map_eq_some_iff.1 h
        cases heq
        exact kept.trans (kept.trans hbuilt (hcall hcalls)) (harrival ha)
      · next results w₄ hcalls =>
        cases h
        exact kept.trans hbuilt (hcall hcalls)
      · cases h
    · cases h
  · cases h

/-- **An invocation that ends** has gone its way, and has the result of that. -/
theorem course_of_invoke {w' : World} {result : Except BridgeError (List HostValue)}
    (hopen : (w.session i.session).closed = false)
    (hwanted : w.signals.isCancelled i.context.signal = false)
    (hr : (handlerWithin (n + 1) b r).invoke i w = (.value result, w')) :
    ∃ ending w₁, (handlerWithin n b (w.session i.session).runtime).course i w =
        some (ending, w₁) ∧
      result = ending.result (w₁.signals.isCancelled i.context.signal) w'.heap := by
  rw [invoke_of_wanted hopen hwanted] at hr
  have hfst := Handler.invokeOpen_fst (handlerWithin n b (w.session i.session).runtime) i w
  have hsnd := Handler.invokeOpen_snd (handlerWithin n b (w.session i.session).runtime) i w
  rw [hr] at hfst hsnd
  cases hbody : (handlerWithin n b (w.session i.session).runtime).run (i.body (i.begin w).1)
    (i.begin w).2 with
  | mk outcome w₁ =>
    rw [hbody] at hfst hsnd
    dsimp only at hfst hsnd
    subst hfst hsnd
    obtain ⟨ending, w₂, hcourse, hresult⟩ := course_of_run hbody
    rw [signal_begin] at hresult
    exact ⟨ending, w₂, hcourse, hresult⟩

/-- **An invocation ends** if its way has an end, with the result of that. -/
theorem invoke_of_course (hopen : (w.session i.session).closed = false)
    (hwanted : w.signals.isCancelled i.context.signal = false)
    (h : (handlerWithin n b (w.session i.session).runtime).course i w = some (ending, w₁)) :
    ∃ w', (handlerWithin (n + 1) b r).invoke i w =
      (.value (ending.result (w₁.signals.isCancelled i.context.signal) w'.heap), w') := by
  obtain ⟨result, w₂, hbody⟩ := run_of_course (handlerWithin_invoke_ne_error n b _) h
  have hfst := Handler.invokeOpen_fst (handlerWithin n b (w.session i.session).runtime) i w
  rw [hbody] at hfst
  cases hr : (handlerWithin (n + 1) b r).invoke i w with
  | mk outcome w' =>
    have hvalue : outcome = .value result := by
      rw [invoke_of_wanted hopen hwanted] at hr
      rw [hr] at hfst
      exact hfst
    subst hvalue
    obtain ⟨ending', w₁', hcourse, hresult⟩ := course_of_invoke hopen hwanted hr
    rw [h] at hcourse
    cases hcourse
    exact ⟨w', by rw [← hresult]⟩

/-- An invocation whose streams are open and whose arguments are built calls its function next. -/
theorem reaches_call_of_enters {scope : StreamScope} {w₂ : World} {vs : List Value}
    (he : Enters (handlerWithin n b (w.session i.session).runtime) i w scope w₁)
    (hargs : (handlerWithin n b (w.session i.session).runtime).run
      (Guest.guestValues (i.begin w).1.runtime i.args) w₁ = (.value (.ok vs), w₂)) :
    ∃ m, Reaches (n + 1) b r (.invoke i .done) w m ∧ m.activations = [(i.begin w).1] ∧
      m.world = w₂ ∧ ∃ k, m.rest = .call (.func i.function) vs [.host] k := by
  obtain ⟨k, hbody⟩ : ∃ k, Reaches n b (w.session i.session).runtime (i.body (i.begin w).1)
      (i.begin w).2 ⟨[], (w.session i.session).runtime, Except BridgeError (List HostValue),
        .call (.func i.function) vs [.host] k, w₂⟩ := by
    apply Exists.intro
    apply Reaches.bind_right (Handler.run_attempt_ok.2 he.2.2)
    show Reaches n b _ (((Guest.guestValues _ i.args).bind _).bind _) w₁ _
    rw [Program.bind_assoc]
    exact .bind_right hargs .now
  exact ⟨_, .inInvocation he.1 he.2.1 hbody, rfl, rfl, k, rfl⟩

end Invocations

end ScriptShell
