import ScriptShell.Guest.HostCalls

/-! # Execution

Running a program answers its requests one after the other: operations by `World.answer`, calls by
running the body of the function, and invocations by calling the function inside a context and a
stream scope.  `handlerWithin` bounds how deep calls nest, so running is total: a call beyond the
bound is an error in the guest.  The context of a runtime is changed by invocations only, and every
invocation puts back the one that it found. -/

namespace ScriptShell

open Guest (Value RuntimeRef)

/-- How a run ended. -/
inductive Outcome (α : Type) where
  /-- With a value. -/
  | value (a : α)
  /-- With an error of the guest. -/
  | error (v : Value)
  /-- Not at all, within the bounds on loops. -/
  | exhausted
  deriving Inhabited

/-- Whether a run came to an end. -/
def Outcome.ended {α : Type} : Outcome α → Bool
  | value _ | error _ => true
  | exhausted => false

/-- How calls and invocations are answered. -/
structure Handler where
  /-- Calls a guest value. -/
  call : Value → List Value → CallSites → World → Outcome (List Value) × World
  /-- Runs a guest function in a session. -/
  invoke : Invocation → World → Outcome (Except BridgeError (List HostValue)) × World

/-- An invocation under way. -/
structure Activation where
  /-- The runtime in which the function runs. -/
  runtime : RuntimeRef
  /-- The context of the invocation. -/
  context : Context
  /-- The pipes of its streams. -/
  io : CommandIo

namespace Invocation

/-- Begins an invocation: its context becomes the one of the session's runtime.  The context gets
the session's shell, as long as that exists. -/
def begin (i : Invocation) (w : World) : Activation × World :=
  let session := w.session i.session
  let shell := w.shell session.shell
  let io := if shell.alive then shell.io else w.processIo
  let (context, w) :=
    if shell.alive then w.addContext i.context.signal (some session.shell) else (i.context, w)
  (⟨session.runtime, context, io⟩, w.setContext session.runtime (some context))

/-- What runs in an invocation. -/
def body (i : Invocation) (a : Activation) : Program (Except BridgeError (List HostValue)) :=
  Guest.callInScope a.runtime a.io a.context.signal i.function i.args

end Invocation

namespace Handler

/-- Runs a program. -/
def run {α : Type} (h : Handler) : Program α → World → Outcome α × World
  | .done a, w => (.value a, w)
  | .raise v, w => (.error v, w)
  | .exhausted, w => (.exhausted, w)
  | .perform o k, w =>
    match w.answer o with
    | (x, w) => h.run (k x) w
  | .call f args sites k, w =>
    match h.call f args sites w with
    | (.value vs, w) => h.run (k (.ok vs)) w
    | (.error v, w) => h.run (k (.error v)) w
    | (.exhausted, w) => (.exhausted, w)
  | .invoke i k, w =>
    match h.invoke i w with
    | (.value result, w) => h.run (k result) w
    | (.error v, w) => (.error v, w)
    | (.exhausted, w) => (.exhausted, w)

/-- Runs a guest function in a session that is open, for a context that is not cancelled. -/
def invokeOpen (h : Handler) (i : Invocation) (w : World) :
    Outcome (Except BridgeError (List HostValue)) × World :=
  let prior? := (w.runtime (w.session i.session).runtime).context?
  let (a, w) := i.begin w
  let (result, w) := h.run (i.body a) w
  -- the context goes back whatever has come of the call
  (result, w.setContext a.runtime prior?)

/-- Runs a guest function in a session. -/
def invokeIn (h : Handler) (i : Invocation) (w : World) :
    Outcome (Except BridgeError (List HostValue)) × World :=
  if (w.session i.session).closed then (.value (.error .closed), w)
  else if w.signals.isCancelled i.context.signal then (.value (.error .cancelled), w)
  else h.invokeOpen i w

end Handler

/-- Whether a call comes from the host or from inside an operator of the guest, which nest less deep
than calls of the guest. -/
def CallSite.isBoundary : CallSite → Bool
  | .host => true
  | .guest _ _ (some (kind, _)) _ => kind = "metamethod" || kind = "for iterator"
  | .guest _ _ none _ => false

/-- Whether the innermost call comes from the host or from inside an operator. -/
def CallSites.isBoundary (sites : CallSites) : Bool :=
  (sites.head?.map CallSite.isBoundary).getD true

/-- The handler for calls that nest at most `n` deep, of which at most `boundaries` come from the
host. -/
def handlerWithin : Nat → Nat → RuntimeRef → Handler
  | 0, _, _ =>
    { call := fun _ _ sites w => (overflow "stack overflow" sites, w)
      invoke := fun _ w => (.value (.error (.runtime "stack overflow")), w) }
  | n + 1, boundaries, r =>
    { call := fun f args sites w =>
        -- a call that crosses the boundary counts twice: as deep as any, and as one from the host
        if sites.isBoundary && boundaries = 0 then (overflow "C stack overflow" sites, w)
        else
          let (r, body) := Guest.bodyOf w r f args sites
          (handlerWithin n (if sites.isBoundary then boundaries - 1 else boundaries) r).run body w
      invoke := fun i w =>
        (handlerWithin n boundaries (w.session i.session).runtime).invokeIn i w }
where
  /-- The error of a call that nests too deep, blamed on the caller. -/
  overflow (message : String) (sites : CallSites) : Outcome (List Value) :=
    .error (.text (Guest.siteText sites.head? ++ message))

/-- How deep calls nest at most. -/
def maxCallDepth : Nat := 6000

/-- How many nested calls may come from the host. -/
def maxBoundaries : Nat := 199

/-- The handler for programs of a runtime. -/
def handler (r : RuntimeRef) : Handler := handlerWithin maxCallDepth maxBoundaries r

/-- Runs a program of a runtime. -/
def World.run {α : Type} (w : World) (r : RuntimeRef) (p : Program α) : Outcome α × World :=
  (handler r).run p w

end ScriptShell
