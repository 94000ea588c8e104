/-! # Cancellation signals

A signal is a flag that is set once and for all.  A child signal also counts as cancelled when its
parent does, so cancelling reaches a signal and all its descendants, those made later too.
`Signals` holds all signals ever made: a signal stays where it is after the last name for it is
gone, because its children still depend on it. -/

namespace ScriptShell

/-- A signal, by its place among all signals. -/
structure Signal where
  /-- Its place. -/
  id : Nat
  deriving DecidableEq, Repr, Inhabited

/-- What is known of one signal. -/
structure SignalState where
  /-- Whether this very signal was cancelled. -/
  cancelled : Bool := false
  /-- The signal whose cancellation reaches this one too. -/
  parent? : Option Signal := none
  deriving DecidableEq, Repr, Inhabited

/-- All signals ever made, in order; parents come before their children. -/
structure Signals where
  /-- The signals by place. -/
  states : Array SignalState := #[]
  deriving Inhabited

namespace Signals

/-- Makes a signal of its own. -/
def create (s : Signals) : Signal × Signals := (⟨s.states.size⟩, ⟨s.states.push {}⟩)

/-- Makes a signal that follows `parent`. -/
def child (s : Signals) (parent : Signal) : Signal × Signals :=
  (⟨s.states.size⟩, ⟨s.states.push { parent? := some parent }⟩)

/-- Cancels a signal, and with it its descendants. -/
def cancel (s : Signals) (signal : Signal) : Signals :=
  ⟨s.states.modify signal.id fun st => { st with cancelled := true }⟩

/-- Looks for a cancelled signal among `signal` and its next `n` ancestors. -/
def isCancelledWithin (s : Signals) : Nat → Signal → Bool
  | 0, _ => false
  | n + 1, signal =>
    match s.states[signal.id]? with
    | none => false
    | some st =>
      st.cancelled ||
        (match st.parent? with
          | some p => isCancelledWithin s n p
          | none => false)

/-- Whether a signal or one of its ancestors was cancelled. -/
def isCancelled (s : Signals) (signal : Signal) : Bool :=
  s.isCancelledWithin (signal.id + 1) signal

end Signals
end ScriptShell
