import ScriptShell.Signal

/-! # Handles on signals

Programs reach signals through handles.  Several handles can be on one signal: cloning a handle makes
another one, and each is dropped by itself.  What is known of a signal is kept as long as a handle or
a child refers to the signal; after the last of them it is given up, and with it what refers to the
parent. -/

namespace ScriptShell

/-- A handle, by its place among all handles ever made. -/
@[ext]
structure SignalHandle where
  /-- Its place. -/
  id : Nat
  deriving DecidableEq, Repr, Inhabited

/-- What is known of one handle. -/
structure HandleState where
  /-- The signal that the handle is on. -/
  signal : Signal
  /-- Whether the handle is still there. -/
  live : Bool := true
  deriving DecidableEq, Repr, Inhabited

/-- What programs do with handles. -/
inductive HandleUse where
  /-- Makes a signal of its own, and a handle on it. -/
  | create
  /-- Makes another handle on the same signal. -/
  | clone (h : SignalHandle)
  /-- Makes a signal that follows the one of the handle, and a handle on it. -/
  | child (h : SignalHandle)
  /-- Cancels the signal. -/
  | cancel (h : SignalHandle)
  /-- Drops the handle. -/
  | drop (h : SignalHandle)
  deriving DecidableEq, Repr, Inhabited

/-- Signals and the handles on them. -/
structure SignalHandles where
  /-- The signals. -/
  signals : Signals := {}
  /-- The handles by place. -/
  handles : Array HandleState := #[]
  deriving Inhabited

/-- Gives up what is known of a signal.  The signal keeps its place. -/
def Signals.forget (s : Signals) (x : Signal) : Signals := ⟨s.states.setIfInBounds x.id {}⟩

namespace SignalHandles

/-- The signal of a handle that is still there. -/
def signal? (s : SignalHandles) (h : SignalHandle) : Option Signal :=
  match s.handles[h.id]? with
  | some st => if st.live then some st.signal else none
  | none => none

/-- Whether a signal or one of its ancestors was cancelled, as a handle on it tells. -/
def isCancelled? (s : SignalHandles) (h : SignalHandle) : Option Bool :=
  (s.signal? h).map s.signals.isCancelled

/-- The handle that is made next. -/
def next (s : SignalHandles) : SignalHandle := ⟨s.handles.size⟩

/-- Makes a handle. -/
def add (s : SignalHandles) (x : Signal) : SignalHandles :=
  { s with handles := s.handles.push { signal := x } }

/-- Whether a handle or a child refers to a signal. -/
def refersTo (s : SignalHandles) (x : Signal) : Bool :=
  s.handles.any (fun st => st.live && st.signal == x) ||
    s.signals.states.any (·.parent? == some x)

/-- Gives up a signal that nothing refers to, and then its parent likewise, up to `n` signals. -/
def release (s : SignalHandles) : Nat → Signal → SignalHandles
  | 0, _ => s
  | n + 1, x =>
    if s.refersTo x then s
    else
      let s' := { s with signals := s.signals.forget x }
      match s.signals.states[x.id]?.bind (·.parent?) with
      | some p => release s' n p
      | none => s'

/-- What a use of a handle leads to; nothing if the handle is not there. -/
def use? (s : SignalHandles) : HandleUse → Option SignalHandles
  | .create =>
    let (x, signals) := s.signals.create
    some ({ s with signals := signals }.add x)
  | .clone h => (s.signal? h).map s.add
  | .child h =>
    (s.signal? h).map fun x =>
      let (y, signals) := s.signals.child x
      { s with signals := signals }.add y
  | .cancel h => (s.signal? h).map fun x => { s with signals := s.signals.cancel x }
  | .drop h =>
    (s.signal? h).map fun x =>
      { s with handles := s.handles.setIfInBounds h.id { signal := x, live := false } }.release
        (x.id + 1) x

/-- What uses of handles, one after the other, lead to. -/
def useAll? (s : SignalHandles) (us : List HandleUse) : Option SignalHandles := us.foldlM use? s

end SignalHandles
end ScriptShell
