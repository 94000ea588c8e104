import ScriptShell.Proofs.Runs

/-! # Moments of a run

A run nests: a call runs the body of a function, and an invocation runs a function of a session in a
context of its own.  `Reaches` says which moments a run comes through, in whatever frame: before the
next request of a program, inside the body of a function that it calls, inside an invocation that it
makes, and after each of these.  A `Moment` tells the invocations that have begun and not ended, so
a fact about nested invocations is a fact about all moments of one run.

The relation leaves nothing out: a run that ends has come through its last moment
(`reaches_value`, `reaches_error`).
-/

namespace ScriptShell

open Guest (Value RuntimeRef)

/-- A moment of a run. -/
structure Moment where
  /-- The invocations under way, innermost first. -/
  activations : List Activation
  /-- The runtime whose code runs. -/
  runtime : RuntimeRef
  /-- What the running body ends with. -/
  Result : Type
  /-- What is left of the running body. -/
  rest : Program Result
  /-- The state. -/
  world : World

/-- Whether an operation is asked for next. -/
def Moment.Asks (m : Moment) (o : Operation) : Prop := ∃ k, m.rest = .perform o k

/-- The moments that a run comes through, for calls that nest at most `n` deep. -/
inductive Reaches : Nat → Nat → RuntimeRef → {α : Type} → Program α → World → Moment → Prop where
  /-- The moment at which the run begins. -/
  | now {n b : Nat} {r : RuntimeRef} {α : Type} {p : Program α} {w : World} :
      Reaches n b r p w ⟨[], r, α, p, w⟩
  /-- A moment after an operation. -/
  | perform {n b : Nat} {r : RuntimeRef} {α : Type} {o : Operation} {k : o.Answer → Program α}
      {w : World} {m : Moment} (later : Reaches n b r (k (w.answer o).1) (w.answer o).2 m) :
      Reaches n b r (.perform o k) w m
  /-- A moment inside a called function. -/
  | inCall {n b : Nat} {r : RuntimeRef} {α : Type} {f : Value} {args : List Value}
      {sites : CallSites} {k : Except Value (List Value) → Program α} {w : World} {m : Moment}
      (enters : (sites.isBoundary && b = 0) = false)
      (inside : Reaches n (if sites.isBoundary then b - 1 else b) (Guest.bodyOf w r f args sites).1
        (Guest.bodyOf w r f args sites).2 w m) :
      Reaches (n + 1) b r (.call f args sites k) w m
  /-- A moment after a call that returned. -/
  | afterCall {n b : Nat} {r : RuntimeRef} {α : Type} {f : Value} {args : List Value}
      {sites : CallSites} {k : Except Value (List Value) → Program α} {w w' : World} {m : Moment}
      {vs : List Value} (returns : (handlerWithin n b r).call f args sites w = (.value vs, w'))
      (later : Reaches n b r (k (.ok vs)) w' m) : Reaches n b r (.call f args sites k) w m
  /-- A moment after a call that failed. -/
  | afterError {n b : Nat} {r : RuntimeRef} {α : Type} {f : Value} {args : List Value}
      {sites : CallSites} {k : Except Value (List Value) → Program α} {w w' : World} {m : Moment}
      {v : Value} (fails : (handlerWithin n b r).call f args sites w = (.error v, w'))
      (later : Reaches n b r (k (.error v)) w' m) : Reaches n b r (.call f args sites k) w m
  /-- A moment inside an invocation of an open session. -/
  | inInvocation {n b : Nat} {r : RuntimeRef} {α : Type} {i : Invocation}
      {k : Except BridgeError (List HostValue) → Program α} {w : World} {m : Moment}
      (isOpen : (w.session i.session).closed = false)
      (isWanted : w.signals.isCancelled i.context.signal = false)
      (inside : Reaches n b (w.session i.session).runtime (i.body (i.begin w).1) (i.begin w).2 m) :
      Reaches (n + 1) b r (.invoke i k) w
        { m with activations := m.activations ++ [(i.begin w).1] }
  /-- A moment after an invocation. -/
  | afterInvocation {n b : Nat} {r : RuntimeRef} {α : Type} {i : Invocation}
      {k : Except BridgeError (List HostValue) → Program α} {w w' : World} {m : Moment}
      {result : Except BridgeError (List HostValue)}
      (returns : (handlerWithin n b r).invoke i w = (.value result, w'))
      (later : Reaches n b r (k result) w' m) : Reaches n b r (.invoke i k) w m

variable {α : Type} {n b : Nat} {r : RuntimeRef}

/-- A run that ends with a value has come to its end. -/
theorem reaches_value {p : Program α} {w w' : World} {a : α}
    (hr : (handlerWithin n b r).run p w = (.value a, w')) :
    Reaches n b r p w ⟨[], r, α, .done a, w'⟩ := by
  induction p generalizing w with
  | done c =>
    cases hr
    exact .now
  | raise v => cases hr
  | exhausted => cases hr
  | perform o k ih => exact .perform (ih _ hr)
  | call f args sites k ih =>
    simp only [Handler.run] at hr
    split at hr
    · next vs w₁ hc => exact .afterCall hc (ih _ hr)
    · next v w₁ hc => exact .afterError hc (ih _ hr)
    · cases hr
  | invoke i k ih =>
    simp only [Handler.run] at hr
    split at hr
    · next result w₁ hi => exact .afterInvocation hi (ih _ hr)
    · cases hr
    · cases hr

/-- A run that ends with an error has come to where it is raised. -/
theorem reaches_error {p : Program α} {w w' : World} {v : Value}
    (hr : (handlerWithin n b r).run p w = (.error v, w')) :
    Reaches n b r p w ⟨[], r, α, .raise v, w'⟩ := by
  induction p generalizing w with
  | done c => cases hr
  | raise u =>
    cases hr
    exact .now
  | exhausted => cases hr
  | perform o k ih => exact .perform (ih _ hr)
  | call f args sites k ih =>
    simp only [Handler.run] at hr
    split at hr
    · next vs w₁ hc => exact .afterCall hc (ih _ hr)
    · next u w₁ hc => exact .afterError hc (ih _ hr)
    · cases hr
  | invoke i k ih =>
    simp only [Handler.run] at hr
    split at hr
    · next result w₁ hi => exact .afterInvocation hi (ih _ hr)
    · next u w₁ hi =>
      have hne := handlerWithin_invoke_ne_error n b r i w u
      rw [hi] at hne
      exact absurd rfl hne
    · cases hr

/-! ## Relations over moments -/

/-- A relation that runs keep, and that holds over the beginning of an invocation, relates the first
moment of a run to every other one. -/
theorem Kept.reaches {R : World → World → Prop} (kept : Kept R)
    (hbegin : ∀ (w : World) (i : Invocation), R w (i.begin w).2) {p : Program α} {w : World}
    {m : Moment} (hm : Reaches n b r p w m) : R w m.world := by
  induction hm with
  | now => exact kept.refl _
  | perform _ ih => exact kept.trans (kept.answer _ _) ih
  | inCall _ _ ih => exact ih
  | @afterCall n b r α f args sites k w w' m vs returns _ ih =>
    have hc := kept.call n b r f args sites w
    rw [returns] at hc
    exact kept.trans hc ih
  | @afterError n b r α f args sites k w w' m v fails _ ih =>
    have hc := kept.call n b r f args sites w
    rw [fails] at hc
    exact kept.trans hc ih
  | inInvocation _ _ _ ih => exact kept.trans (hbegin _ _) ih
  | @afterInvocation n b r α i k w w' m result returns _ ih =>
    have hi := kept.invoke n b r i w
    rw [returns] at hi
    exact kept.trans hi ih

/-- An invocation of an open session for a context that is not cancelled runs the function. -/
theorem invoke_of_wanted {i : Invocation} {w : World} (isOpen : (w.session i.session).closed = false)
    (isWanted : w.signals.isCancelled i.context.signal = false) :
    (handlerWithin (n + 1) b r).invoke i w =
      (handlerWithin n b (w.session i.session).runtime).invokeOpen i w := by
  simp only [handlerWithin, Handler.invokeIn, isOpen, isWanted, Bool.false_eq_true, if_false]

section After

variable {R : World → World → Prop} (kept : Kept R) {w : World}

include kept

/-- After a call a run goes on. -/
theorem Kept.after_call {f : Value} {args : List Value} {sites : CallSites}
    {k : Except Value (List Value) → Program α} :
    R ((handlerWithin n b r).call f args sites w).2
      ((handlerWithin n b r).run (.call f args sites k) w).2 := by
  rw [Handler.run]
  cases (handlerWithin n b r).call f args sites w with
  | mk outcome w' =>
    cases outcome with
    | value vs => exact kept.run ..
    | error v => exact kept.run ..
    | exhausted => exact kept.refl _

/-- After an invocation a run goes on. -/
theorem Kept.after_invoke {i : Invocation} {k : Except BridgeError (List HostValue) → Program α} :
    R ((handlerWithin n b r).invoke i w).2 ((handlerWithin n b r).run (.invoke i k) w).2 := by
  rw [Handler.run]
  cases (handlerWithin n b r).invoke i w with
  | mk outcome w' =>
    cases outcome with
    | value result => exact kept.run ..
    | error v => exact kept.refl _
    | exhausted => exact kept.refl _

/-- It relates a moment of a run to the end of the run, if it holds over the end of an invocation or
the moment is outside all of them. -/
theorem Kept.reaches_end_of {p : Program α} {m : Moment} (hm : Reaches n b r p w m)
    (hend : m.activations = [] ∨
      ∀ (w : World) (q : RuntimeRef) (c? : Option Context), R w (w.setContext q c?)) :
    R m.world ((handlerWithin n b r).run p w).2 := by
  induction hm with
  | now => exact kept.run ..
  | perform _ ih => exact ih hend
  | inCall enters _ ih =>
    refine kept.trans ?_ kept.after_call
    rw [call_of_enters _ enters]
    exact ih hend
  | @afterCall n b r α f args sites k w w' m vs returns _ ih =>
    rw [Handler.run, returns]
    exact ih hend
  | @afterError n b r α f args sites k w w' m v fails _ ih =>
    rw [Handler.run, fails]
    exact ih hend
  | inInvocation isOpen isWanted _ ih =>
    rcases hend with hout | hend
    · exact absurd hout (List.append_ne_nil_of_right_ne_nil _ (List.cons_ne_nil _ _))
    · refine kept.trans ?_ kept.after_invoke
      rw [invoke_of_wanted isOpen isWanted, Handler.invokeOpen_snd]
      exact kept.trans (ih (.inr hend)) (hend _ _ _)
  | @afterInvocation n b r α i k w w' m result returns _ ih =>
    rw [Handler.run, returns]
    exact ih hend

end After

/-- It relates a moment outside the invocations of a run to the end of the run. -/
theorem Kept.reaches_end {R : World → World → Prop} (kept : Kept R) {p : Program α} {w : World}
    {m : Moment} (hm : Reaches n b r p w m) (hout : m.activations = []) :
    R m.world ((handlerWithin n b r).run p w).2 := kept.reaches_end_of hm (.inl hout)

/-! ## Moments of parts -/

/-- Where operations alone lead a program. -/
def Program.advance : Program α → World → Program α × World
  | .perform o k, w => (k (w.answer o).1).advance (w.answer o).2
  | p, w => (p, w)

theorem Reaches.advance {p : Program α} {w : World} {m : Moment}
    (h : Reaches n b r (p.advance w).1 (p.advance w).2 m) : Reaches n b r p w m := by
  induction p generalizing w with
  | perform o k ih => exact .perform (ih _ h)
  | _ => exact h

/-- The same state at the same depth, with something else still to do. -/
def Moment.Beside (m m' : Moment) : Prop :=
  m'.activations = m.activations ∧ m'.world = m.world

/-- A moment of two programs, one after the other, is one of the first or, once that has ended with
a value, one of the second.  Inside an invocation it is the same moment: what is left to do there
does not depend on what comes after. -/
theorem reaches_bind {β : Type} {p : Program α} {f : α → Program β} {w : World} {m : Moment}
    (hm : Reaches n b r (p.bind f) w m) :
    (∃ m', Reaches n b r p w m' ∧ m.Beside m' ∧ (m.activations ≠ [] → m' = m)) ∨
      ∃ a w', (handlerWithin n b r).run p w = (.value a, w') ∧ Reaches n b r (f a) w' m := by
  have first (q : Program α) (q' : Program β) (w : World) : ∃ m', Reaches n b r q w m' ∧
      Moment.Beside ⟨[], r, β, q', w⟩ m' ∧ (([] : List Activation) ≠ [] → m' = ⟨[], r, β, q', w⟩) :=
    ⟨_, .now, ⟨rfl, rfl⟩, fun h => absurd rfl h⟩
  induction p generalizing w with
  | done a => exact .inr ⟨a, w, rfl, hm⟩
  | raise v =>
    cases hm
    exact .inl (first _ _ _)
  | exhausted =>
    cases hm
    exact .inl (first _ _ _)
  | perform o k ih =>
    cases hm with
    | now => exact .inl (first _ _ _)
    | perform later =>
      rcases ih _ later with ⟨m', hm', h⟩ | ⟨a, w', hr, hf⟩
      · exact .inl ⟨m', .perform hm', h⟩
      · exact .inr ⟨a, w', hr, hf⟩
  | call g args sites k ih =>
    cases hm with
    | now => exact .inl (first _ _ _)
    | inCall enters inside => exact .inl ⟨m, .inCall enters inside, ⟨rfl, rfl⟩, fun _ => rfl⟩
    | afterCall returns later =>
      rcases ih _ later with ⟨m', hm', h⟩ | ⟨a, w', hr, hf⟩
      · exact .inl ⟨m', .afterCall returns hm', h⟩
      · exact .inr ⟨a, w', by rw [Handler.run, returns]; exact hr, hf⟩
    | afterError fails later =>
      rcases ih _ later with ⟨m', hm', h⟩ | ⟨a, w', hr, hf⟩
      · exact .inl ⟨m', .afterError fails hm', h⟩
      · exact .inr ⟨a, w', by rw [Handler.run, fails]; exact hr, hf⟩
  | invoke i k ih =>
    cases hm with
    | now => exact .inl (first _ _ _)
    | inInvocation isOpen isWanted inside =>
      exact .inl ⟨_, .inInvocation isOpen isWanted inside, ⟨rfl, rfl⟩, fun _ => rfl⟩
    | afterInvocation returns later =>
      rcases ih _ later with ⟨m', hm', h⟩ | ⟨a, w', hr, hf⟩
      · exact .inl ⟨m', .afterInvocation returns hm', h⟩
      · exact .inr ⟨a, w', by rw [Handler.run, returns]; exact hr, hf⟩

/-- A moment of a program is one of it and what comes after it; inside an invocation, the same
one. -/
theorem Reaches.bind_left {β : Type} {p : Program α} (f : α → Program β) {w : World} {m : Moment}
    (hm : Reaches n b r p w m) :
    ∃ m', Reaches n b r (p.bind f) w m' ∧ m.Beside m' ∧ (∀ o, m.Asks o → m'.Asks o) ∧
      (m.activations ≠ [] → m' = m) := by
  have first (q : Program α) (w : World) : ∃ m', Reaches n b r (q.bind f) w m' ∧
      Moment.Beside ⟨[], r, α, q, w⟩ m' ∧ (∀ o, Moment.Asks ⟨[], r, α, q, w⟩ o → m'.Asks o) ∧
        (([] : List Activation) ≠ [] → m' = ⟨[], r, α, q, w⟩) := by
    refine ⟨_, .now, ⟨rfl, rfl⟩, fun o ho => ?_, fun h => absurd rfl h⟩
    obtain ⟨k, hk⟩ := ho
    dsimp only at hk
    exact ⟨fun x => (k x).bind f, by rw [hk]; rfl⟩
  induction p generalizing w with
  | done a =>
    cases hm
    exact first _ _
  | raise v =>
    cases hm
    exact first _ _
  | exhausted =>
    cases hm
    exact first _ _
  | perform o k ih =>
    cases hm with
    | now => exact first _ _
    | perform later =>
      obtain ⟨m', hm', h⟩ := ih _ later
      exact ⟨m', .perform hm', h⟩
  | call g args sites k ih =>
    cases hm with
    | now => exact first _ _
    | inCall enters inside =>
      exact ⟨m, .inCall enters inside, ⟨rfl, rfl⟩, fun _ ho => ho, fun _ => rfl⟩
    | afterCall returns later =>
      obtain ⟨m', hm', h⟩ := ih _ later
      exact ⟨m', .afterCall returns hm', h⟩
    | afterError fails later =>
      obtain ⟨m', hm', h⟩ := ih _ later
      exact ⟨m', .afterError fails hm', h⟩
  | invoke i k ih =>
    cases hm with
    | now => exact first _ _
    | inInvocation isOpen isWanted inside =>
      exact ⟨_, .inInvocation isOpen isWanted inside, ⟨rfl, rfl⟩, fun _ ho => ho, fun _ => rfl⟩
    | afterInvocation returns later =>
      obtain ⟨m', hm', h⟩ := ih _ later
      exact ⟨m', .afterInvocation returns hm', h⟩

/-- A moment of what comes after a program that has ended with a value. -/
theorem Reaches.bind_right {β : Type} {p : Program α} {f : α → Program β} {w w' : World} {a : α}
    {m : Moment} (hr : (handlerWithin n b r).run p w = (.value a, w'))
    (hm : Reaches n b r (f a) w' m) : Reaches n b r (p.bind f) w m := by
  induction p generalizing w with
  | done c =>
    cases hr
    exact hm
  | raise v => cases hr
  | exhausted => cases hr
  | perform o k ih => exact .perform (ih _ hr)
  | call g args sites k ih =>
    simp only [Handler.run] at hr
    split at hr
    · next hc => exact .afterCall hc (ih _ hr)
    · next hc => exact .afterError hc (ih _ hr)
    · cases hr
  | invoke i k ih =>
    simp only [Handler.run] at hr
    split at hr
    · next hi => exact .afterInvocation hi (ih _ hr)
    · cases hr
    · cases hr

/-- Inside an invocation, the moments of two programs, one after the other, are those of the first
and, once that has ended with a value, those of the second. -/
theorem reaches_bind_iff {β : Type} {p : Program α} {f : α → Program β} {w : World} {m : Moment}
    (inside : m.activations ≠ []) :
    Reaches n b r (p.bind f) w m ↔ Reaches n b r p w m ∨
      ∃ a w', (handlerWithin n b r).run p w = (.value a, w') ∧ Reaches n b r (f a) w' m := by
  constructor
  · intro hm
    rcases reaches_bind hm with ⟨m', hm', -, hsame⟩ | hafter
    · exact .inl (hsame inside ▸ hm')
    · exact .inr hafter
  · rintro (hm | ⟨a, w', hr, hm⟩)
    · obtain ⟨m', hm', -, -, hsame⟩ := hm.bind_left f
      exact hsame inside ▸ hm'
    · exact hm.bind_right hr

/-- A moment of a program whose errors are caught is one of the program. -/
theorem reaches_attempt {p : Program α} {w : World} {m : Moment}
    (hm : Reaches n b r p.attempt w m) : ∃ m', Reaches n b r p w m' ∧ m.Beside m' := by
  induction p generalizing w with
  | done a =>
    cases hm
    exact ⟨_, .now, rfl, rfl⟩
  | raise v =>
    cases hm
    exact ⟨_, .now, rfl, rfl⟩
  | exhausted =>
    cases hm
    exact ⟨_, .now, rfl, rfl⟩
  | perform o k ih =>
    cases hm with
    | now => exact ⟨_, .now, rfl, rfl⟩
    | perform later =>
      obtain ⟨m', hm', hb⟩ := ih _ later
      exact ⟨m', .perform hm', hb⟩
  | call g args sites k ih =>
    cases hm with
    | now => exact ⟨_, .now, rfl, rfl⟩
    | inCall enters inside => exact ⟨m, .inCall enters inside, rfl, rfl⟩
    | afterCall returns later =>
      obtain ⟨m', hm', hb⟩ := ih _ later
      exact ⟨m', .afterCall returns hm', hb⟩
    | afterError fails later =>
      obtain ⟨m', hm', hb⟩ := ih _ later
      exact ⟨m', .afterError fails hm', hb⟩
  | invoke i k ih =>
    cases hm with
    | now => exact ⟨_, .now, rfl, rfl⟩
    | inInvocation isOpen isWanted inside =>
      exact ⟨_, .inInvocation isOpen isWanted inside, rfl, rfl⟩
    | afterInvocation returns later =>
      obtain ⟨m', hm', hb⟩ := ih _ later
      exact ⟨m', .afterInvocation returns hm', hb⟩

end ScriptShell
