import ScriptShell.Proofs.Moments

/-! # What brings a change about

A property of the state that holds at first and not later on was lost somewhere in between.  If only
some operations take it away, and invocations begin and end with it, then one of these operations is
asked for at a moment of the run (`LostBy.occurs_run`), and this is so as well where the property is
missing at a moment inside the run (`LostBy.occurs_reaches`).  So who brings a change about is told
from what is asked for, and nothing needs to be known of all that is asked for besides.
-/

namespace ScriptShell

open Guest (Value RuntimeRef)

variable {α : Type} {n b : Nat} {r : RuntimeRef} {causes : Operation → Prop}

/-! ## Operations of a run -/

/-- One of some operations is asked for at a moment of a run. -/
def Occurs (causes : Operation → Prop) (n b : Nat) (r : RuntimeRef) (p : Program α) (w : World) :
    Prop := ∃ m o, Reaches n b r p w m ∧ m.Asks o ∧ causes o

namespace Occurs

variable {w w' : World}

theorem now {o : Operation} {k : o.Answer → Program α} (ho : causes o) :
    Occurs causes n b r (.perform o k) w := ⟨_, o, .now, ⟨k, rfl⟩, ho⟩

theorem perform {o : Operation} {k : o.Answer → Program α}
    (h : Occurs causes n b r (k (w.answer o).1) (w.answer o).2) :
    Occurs causes n b r (.perform o k) w := by
  obtain ⟨m, o', hm, h⟩ := h
  exact ⟨m, o', .perform hm, h⟩

section Calls

variable {f : Value} {args : List Value} {sites : CallSites}
  {k : Except Value (List Value) → Program α}

theorem inCall (enters : (sites.isBoundary && b = 0) = false)
    (h : Occurs causes n (if sites.isBoundary then b - 1 else b) (Guest.bodyOf w r f args sites).1
      (Guest.bodyOf w r f args sites).2 w) :
    Occurs causes (n + 1) b r (.call f args sites k) w := by
  obtain ⟨m, o, hm, h⟩ := h
  exact ⟨m, o, .inCall enters hm, h⟩

theorem afterCall {vs : List Value}
    (returns : (handlerWithin n b r).call f args sites w = (.value vs, w'))
    (h : Occurs causes n b r (k (.ok vs)) w') : Occurs causes n b r (.call f args sites k) w := by
  obtain ⟨m, o, hm, h⟩ := h
  exact ⟨m, o, .afterCall returns hm, h⟩

theorem afterError {v : Value}
    (fails : (handlerWithin n b r).call f args sites w = (.error v, w'))
    (h : Occurs causes n b r (k (.error v)) w') : Occurs causes n b r (.call f args sites k) w := by
  obtain ⟨m, o, hm, h⟩ := h
  exact ⟨m, o, .afterError fails hm, h⟩

end Calls

section Invocations

variable {i : Invocation} {k : Except BridgeError (List HostValue) → Program α}

theorem inInvocation (isOpen : (w.session i.session).closed = false)
    (isWanted : w.signals.isCancelled i.context.signal = false)
    (h : Occurs causes n b (w.session i.session).runtime (i.body (i.begin w).1) (i.begin w).2) :
    Occurs causes (n + 1) b r (.invoke i k) w := by
  obtain ⟨m, o, hm, hasks, ho⟩ := h
  exact ⟨_, o, .inInvocation isOpen isWanted hm, hasks, ho⟩

theorem afterInvocation {result : Except BridgeError (List HostValue)}
    (returns : (handlerWithin n b r).invoke i w = (.value result, w'))
    (h : Occurs causes n b r (k result) w') : Occurs causes n b r (.invoke i k) w := by
  obtain ⟨m, o, hm, h⟩ := h
  exact ⟨m, o, .afterInvocation returns hm, h⟩

end Invocations
end Occurs

/-! ## Properties that operations take away -/

/-- A property of the state that none but some operations take away. -/
structure LostBy (P : World → Prop) (causes : Operation → Prop) : Prop where
  /-- Other operations leave it. -/
  answer : ∀ (w : World) (o : Operation), ¬ causes o → P w → P (w.answer o).2
  /-- Invocations begin with it. -/
  begin : ∀ (i : Invocation) (w : World), P w → P (i.begin w).2
  /-- Invocations end with it. -/
  setContext : ∀ (w : World) (q : RuntimeRef) (c? : Option Context), P w → P (w.setContext q c?)

namespace LostBy

variable {P : World → Prop} {w : World} {f : Value} {args : List Value} {sites : CallSites}
  {i : Invocation}

/-- What is lost in a run is lost in one of its calls or invocations, or by an operation. -/
theorem occurs_of (lost : LostBy P causes)
    (hcall : ∀ f args sites w, P w → ¬ P ((handlerWithin n b r).call f args sites w).2 →
      ∀ k : Except Value (List Value) → Program α, Occurs causes n b r (.call f args sites k) w)
    (hinvoke : ∀ i w, P w → ¬ P ((handlerWithin n b r).invoke i w).2 →
      ∀ k : Except BridgeError (List HostValue) → Program α, Occurs causes n b r (.invoke i k) w)
    (p : Program α) (hw : P w) (hend : ¬ P ((handlerWithin n b r).run p w).2) :
    Occurs causes n b r p w := by
  induction p generalizing w with
  | done a => exact absurd hw hend
  | raise v => exact absurd hw hend
  | exhausted => exact absurd hw hend
  | perform o k ih =>
    by_cases ho : causes o
    · exact .now ho
    · exact .perform (ih _ (lost.answer w o ho hw) hend)
  | call f args sites k ih =>
    -- it is lost in the call, or still there after it and lost later
    by_cases hc : P ((handlerWithin n b r).call f args sites w).2
    · rw [Handler.run] at hend
      cases hr : (handlerWithin n b r).call f args sites w with
      | mk outcome w₁ =>
        rw [hr] at hc hend
        cases outcome with
        | value vs => exact .afterCall hr (ih _ hc hend)
        | error v => exact .afterError hr (ih _ hc hend)
        | exhausted => exact absurd hc hend
    · exact hcall f args sites w hw hc k
  | invoke i k ih =>
    by_cases hc : P ((handlerWithin n b r).invoke i w).2
    · rw [Handler.run] at hend
      cases hr : (handlerWithin n b r).invoke i w with
      | mk outcome w₁ =>
        rw [hr] at hc hend
        cases outcome with
        | value result => exact .afterInvocation hr (ih _ hc hend)
        | error v => exact absurd hc hend
        | exhausted => exact absurd hc hend
    · exact hinvoke i w hw hc k

section Deeper

-- what holds of runs that nest less deep
variable (hrun : ∀ {β : Type} (b : Nat) (r : RuntimeRef) (p : Program β)
  (w : World), P w → ¬ P ((handlerWithin n b r).run p w).2 → Occurs causes n b r p w)

include hrun

theorem occurs_call_of (hw : P w)
    (hend : ¬ P ((handlerWithin (n + 1) b r).call f args sites w).2)
    (k : Except Value (List Value) → Program α) :
    Occurs causes (n + 1) b r (.call f args sites k) w := by
  cases enters : sites.isBoundary && decide (b = 0) with
  | true =>
    simp only [handlerWithin, enters, if_true] at hend
    exact absurd hw hend
  | false =>
    rw [call_of_enters w enters] at hend
    exact .inCall enters (hrun _ _ _ _ hw hend)

theorem occurs_invoke_of (lost : LostBy P causes) (hw : P w) (hend : ¬ P ((handlerWithin (n + 1) b r).invoke i w).2)
    (k : Except BridgeError (List HostValue) → Program α) :
    Occurs causes (n + 1) b r (.invoke i k) w := by
  have hin : (handlerWithin (n + 1) b r).invoke i w =
    (handlerWithin n b (w.session i.session).runtime).invokeIn i w := rfl
  rw [hin, Handler.invokeIn] at hend
  split at hend
  · exact absurd hw hend
  · next isOpen =>
    split at hend
    · exact absurd hw hend
    · next isWanted =>
      rw [Handler.invokeOpen_snd] at hend
      refine .inInvocation (Bool.eq_false_iff.2 isOpen) (Bool.eq_false_iff.2 isWanted) ?_
      exact hrun _ _ _ _ (lost.begin i w hw) fun hbody => hend (lost.setContext _ _ _ hbody)

end Deeper

/-- **What is lost in a run is lost by an operation** that is asked for at a moment of it. -/
theorem occurs_run (lost : LostBy P causes) (n b : Nat) (r : RuntimeRef) (p : Program α) (w : World)
    (hw : P w) (hend : ¬ P ((handlerWithin n b r).run p w).2) : Occurs causes n b r p w := by
  -- the induction is on how deep calls nest: a moment inside a body is one of the whole run
  induction n generalizing α b r p w with
  | zero =>
    refine lost.occurs_of (fun f args sites w hw hc k => ?_) (fun i w hw hc k => ?_) p hw hend
    · exact absurd hw hc
    · exact absurd hw hc
  | succ n ih =>
    exact lost.occurs_of (fun _ _ _ _ hw hc k => occurs_call_of ih hw hc k)
      (fun _ _ hw hc k => occurs_invoke_of ih lost hw hc k) p hw hend

theorem occurs_call (lost : LostBy P causes) (hw : P w)
    (hend : ¬ P ((handlerWithin n b r).call f args sites w).2)
    (k : Except Value (List Value) → Program α) : Occurs causes n b r (.call f args sites k) w := by
  cases n with
  | zero => exact absurd hw hend
  | succ n => exact occurs_call_of (lost.occurs_run n) hw hend k

theorem occurs_invoke (lost : LostBy P causes) (hw : P w)
    (hend : ¬ P ((handlerWithin n b r).invoke i w).2)
    (k : Except BridgeError (List HostValue) → Program α) :
    Occurs causes n b r (.invoke i k) w := by
  cases n with
  | zero => exact absurd hw hend
  | succ n => exact occurs_invoke_of (lost.occurs_run n) lost hw hend k

/-- **What is missing at a moment of a run was lost by an operation** that is asked for in it. -/
theorem occurs_reaches (lost : LostBy P causes) {p : Program α} {m : Moment}
    (hm : Reaches n b r p w m) (hw : P w) (hlost : ¬ P m.world) : Occurs causes n b r p w := by
  induction hm with
  | now => exact absurd hw hlost
  | @perform n b r α o k w m later ih =>
    by_cases ho : causes o
    · exact .now ho
    · exact .perform (ih (lost.answer w o ho hw) hlost)
  | inCall enters inside ih => exact .inCall enters (ih hw hlost)
  | @afterCall n b r α f args sites k w w' m vs returns later ih =>
    by_cases hc : P w'
    · exact .afterCall returns (ih hc hlost)
    · exact lost.occurs_call hw (by rw [returns]; exact hc) k
  | @afterError n b r α f args sites k w w' m v fails later ih =>
    by_cases hc : P w'
    · exact .afterError fails (ih hc hlost)
    · exact lost.occurs_call hw (by rw [fails]; exact hc) k
  | inInvocation isOpen isWanted inside ih =>
    exact .inInvocation isOpen isWanted (ih (lost.begin _ _ hw) hlost)
  | @afterInvocation n b r α i k w w' m result returns later ih =>
    by_cases hc : P w'
    · exact .afterInvocation returns (ih hc hlost)
    · exact lost.occurs_invoke hw (by rw [returns]; exact hc) k

end LostBy
end ScriptShell
