import ScriptShell.Proofs.Runs

/-! # Cancelled signals

A signal is cancelled if it or an ancestor of it was (`Signals.Cancelled`).  The walk up from a
signal finds that out because parents come before their children (`Signals.Ordered`), so that no
walk is longer than the place of the signal where it begins (`Signals.isCancelled_iff`).  Signals are
only added and cancelled, over single operations as over whole runs (`World.Signalled.kept`): a
cancelled signal stays cancelled.
-/

namespace ScriptShell

namespace Signals

variable {s s' s'' : Signals} {x : Signal}

/-- Whether a signal or one of its ancestors was cancelled. -/
inductive Cancelled (s : Signals) : Signal → Prop where
  /-- The signal itself was. -/
  | own {x : Signal} {st : SignalState} (found : s.states[x.id]? = some st)
      (flag : st.cancelled = true) : Cancelled s x
  /-- Its parent or an ancestor of that was. -/
  | parent {x p : Signal} {st : SignalState} (found : s.states[x.id]? = some st)
      (link : st.parent? = some p) (above : Cancelled s p) : Cancelled s x

/-- Parents come before their children. -/
def Ordered (s : Signals) : Prop :=
  ∀ (i : Nat) (st : SignalState) (p : Signal),
    s.states[i]? = some st → st.parent? = some p → p.id < i

/-! ## The walk through the ancestors -/

theorem isCancelledWithin_succ (s : Signals) (n : Nat) {st : SignalState}
    (found : s.states[x.id]? = some st) :
    s.isCancelledWithin (n + 1) x =
      (st.cancelled || (st.parent?.elim false fun p => s.isCancelledWithin n p)) := by
  rw [isCancelledWithin, found]
  dsimp only
  cases st.parent? <;> rfl

/-- What the walk finds is there. -/
theorem cancelled_of_isCancelledWithin {n : Nat} (h : s.isCancelledWithin n x = true) :
    s.Cancelled x := by
  induction n generalizing x with
  | zero => cases h
  | succ n ih =>
    cases found : s.states[x.id]? with
    | none =>
      rw [isCancelledWithin, found] at h
      cases h
    | some st =>
      rw [isCancelledWithin_succ s n found] at h
      by_cases flag : st.cancelled = true
      · exact .own found flag
      · rw [Bool.eq_false_iff.2 flag, Bool.false_or] at h
        cases link : st.parent? with
        | none =>
          rw [link] at h
          cases h
        | some p =>
          rw [link] at h
          exact .parent found link (ih h)

/-- The walk finds what is there, if it is long enough. -/
theorem Cancelled.isCancelledWithin (ordered : s.Ordered) (h : s.Cancelled x) {n : Nat}
    (hn : x.id < n) : s.isCancelledWithin n x = true := by
  induction h generalizing n with
  | @own x st found flag =>
    obtain ⟨n, rfl⟩ : ∃ k, n = k + 1 := ⟨n - 1, by omega⟩
    rw [isCancelledWithin_succ s n found, flag, Bool.true_or]
  | @parent x p st found link _ ih =>
    obtain ⟨n, rfl⟩ : ∃ k, n = k + 1 := ⟨n - 1, by omega⟩
    have hp : p.id < n := by
      have hlt := ordered x.id st p found link
      omega
    rw [isCancelledWithin_succ s n found, link, Option.elim_some, ih hp, Bool.or_true]

/-- **A signal counts as cancelled** if it or one of its ancestors was cancelled, and only then. -/
theorem isCancelled_iff (ordered : s.Ordered) : s.isCancelled x = true ↔ s.Cancelled x := by
  constructor
  · intro h
    exact cancelled_of_isCancelledWithin h
  · intro h
    exact h.isCancelledWithin ordered (Nat.lt_succ_self _)

theorem isCancelled_eq_false_iff (ordered : s.Ordered) :
    s.isCancelled x = false ↔ ¬ s.Cancelled x := by
  rw [← isCancelled_iff ordered, Bool.not_eq_true]

/-! ## More signals, and more of them cancelled -/

/-- The later signals are the earlier ones and others, with more of them cancelled. -/
def Grows (s s' : Signals) : Prop :=
  ∀ (i : Nat) (st : SignalState), s.states[i]? = some st →
    ∃ st', s'.states[i]? = some st' ∧ st'.parent? = st.parent? ∧
      (st.cancelled = true → st'.cancelled = true)

theorem Grows.refl (s : Signals) : s.Grows s := fun _ st h => ⟨st, h, rfl, id⟩

theorem Grows.trans (h : s.Grows s') (h' : s'.Grows s'') : s.Grows s'' := by
  intro i st hst
  obtain ⟨st', hst', hparent, hflag⟩ := h i st hst
  obtain ⟨st'', hst'', hparent', hflag'⟩ := h' i st' hst'
  exact ⟨st'', hst'', hparent'.trans hparent, hflag' ∘ hflag⟩

/-- A cancelled signal stays cancelled. -/
theorem Cancelled.mono (h : s.Cancelled x) (grows : s.Grows s') : s'.Cancelled x := by
  induction h with
  | own found flag =>
    obtain ⟨_, found', -, hflag⟩ := grows _ _ found
    exact .own found' (hflag flag)
  | parent found link _ ih =>
    obtain ⟨_, found', hparent, -⟩ := grows _ _ found
    exact .parent found' (hparent.trans link) ih

theorem grows_push (s : Signals) (st : SignalState) : s.Grows ⟨s.states.push st⟩ := by
  intro i st' h
  have hi : i < s.states.size := (Array.getElem?_eq_some_iff.1 h).1
  refine ⟨st', ?_, rfl, id⟩
  rw [Array.getElem?_push, if_neg (by omega)]
  exact h

theorem grows_cancel (s : Signals) (x : Signal) : s.Grows (s.cancel x) := by
  intro i st h
  rw [cancel, Array.getElem?_modify]
  split
  · refine ⟨{ st with cancelled := true }, ?_, rfl, fun _ => rfl⟩
    rw [h]
    rfl
  · exact ⟨st, h, rfl, id⟩

/-- A signal that follows another one, which has been made before it, comes after it. -/
theorem ordered_push (ordered : s.Ordered) {st : SignalState}
    (before : ∀ p, st.parent? = some p → p.id < s.states.size) :
    Ordered ⟨s.states.push st⟩ := by
  intro i st' p found link
  rw [Array.getElem?_push] at found
  split at found
  · next hi =>
    cases found
    rw [hi]
    exact before p link
  · exact ordered i st' p found link

theorem ordered_cancel (ordered : s.Ordered) (x : Signal) : (s.cancel x).Ordered := by
  intro i st p found link
  rw [cancel, Array.getElem?_modify] at found
  split at found
  · cases hst : s.states[i]? with
    | none =>
      rw [hst] at found
      cases found
    | some st' =>
      rw [hst] at found
      cases found
      exact ordered i st' p hst link
  · exact ordered i st p found link

end Signals

/-! ## Signals over whole runs -/

/-- The later state has the signals of the earlier one and others, with more of them cancelled. -/
structure World.Signalled (w w' : World) : Prop where
  /-- Signals are added and cancelled. -/
  grows : w.signals.Grows w'.signals
  /-- Parents still come before their children. -/
  ordered : w.signals.Ordered → w'.signals.Ordered

namespace World.Signalled

variable {w w' w'' : World}

theorem of_eq (h : w'.signals = w.signals) : Signalled w w' := by
  constructor
  · rw [h]
    exact .refl _
  · rw [h]
    exact id

theorem trans (h : Signalled w w') (h' : Signalled w' w'') : Signalled w w'' :=
  ⟨h.grows.trans h'.grows, h'.ordered ∘ h.ordered⟩

theorem create (h : w'.signals = w.signals.create.2) : Signalled w w' := by
  constructor
  · rw [h]
    exact Signals.grows_push _ _
  · rw [h]
    exact fun ordered => Signals.ordered_push ordered fun p hp => by cases hp

theorem cancel (h : ∃ x, w'.signals = w.signals.cancel x) : Signalled w w' := by
  obtain ⟨x, h⟩ := h
  constructor
  · rw [h]
    exact Signals.grows_cancel _ _
  · rw [h]
    exact fun ordered => Signals.ordered_cancel ordered x

/-- Reading may fire an interrupt. -/
theorem consume (w : World) (i : InputRef) (rest : Bytes) : Signalled w (w.consume i rest) := by
  unfold World.consume
  dsimp only
  split
  · exact of_eq rfl
  · split
    · split
      · exact cancel ⟨_, rfl⟩
      · exact of_eq rfl
    · exact of_eq rfl

theorem answer (w : World) (o : Operation) : Signalled w (w.answer o).2 := by
  cases o with
  | read i format => exact consume w i _
  | newSignal => exact create rfl
  | beginCommand i => exact create rfl
  | cancel s => exact cancel ⟨s, rfl⟩
  | setProperty t key v =>
    obtain ⟨_, h⟩ := w.updateHost_eq (t.set w.host key v)
    exact of_eq (by show (w.updateHost _).2.signals = _; rw [h])
  | bindKey hooks key v =>
    obtain ⟨_, h⟩ := w.updateHost_eq (w.host.bindKey hooks key v)
    exact of_eq (by show (w.updateHost _).2.signals = _; rw [h])
  | closeSession s =>
    obtain ⟨_, _, h⟩ := w.closeSession_eq s
    exact of_eq (by show (w.closeSession s).signals = _; rw [h])
  | changeDirectory path =>
    obtain ⟨_, h⟩ := w.changeDirectory_eq path
    exact of_eq (by rw [h])
  | _ => exact of_eq rfl

theorem begin (w : World) (i : Invocation) : Signalled w (i.begin w).2 := by
  refine of_eq ?_
  unfold Invocation.begin
  dsimp only
  split <;> rfl

theorem setContext (w : World) (q : Guest.RuntimeRef) (c? : Option Context) :
    Signalled w (w.setContext q c?) := of_eq rfl

/-- Over a run signals are only added and cancelled. -/
theorem kept : Kept Signalled where
  refl _ := of_eq rfl
  trans := trans
  answer := answer
  invokeOpen h i w hrun := by
    rw [h.invokeOpen_snd]
    exact ((begin w i).trans (hrun _ _)).trans (setContext _ _ _)

end World.Signalled

end ScriptShell
