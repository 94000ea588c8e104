import ScriptShell.Proofs.Cancellation
import ScriptShell.Proofs.Closing

/-! # Script files

A session makes a script file a chunk first, which can fail in three ways and runs nothing
(`SessionRef.chunkAt`), and then calls the function that the chunk becomes: that is all that running
a file does (`SessionRef.run_runFile`).  So what holds of calls holds of files: a run that ends as
cancelled leaves the context cancelled (`SessionRef.cancelled_of_runFile`), and one that begins with
the context cancelled starts no code of the guest (`SessionRef.idle_of_cancelled`).
-/

namespace ScriptShell

open Guest (Value RuntimeRef Proto)

/-- Makes a chunk a function of a runtime, with the globals as its variable. -/
def World.addChunk (w : World) (r : RuntimeRef) (p : Proto) : GuestFunction × World :=
  let (cell, w) := w.answer (.newCell (.table (w.runtime r).runtime.globals))
  w.answer (.newFunction ⟨r, .closure p [cell]⟩)

/-- What a session makes of a script file before any of it runs: it has to be readable, the session
open, and the content a program. -/
def SessionRef.chunkAt (s : SessionRef) (w : World) (path : String) : Except BridgeError Proto :=
  match Scripts.read w.files path with
  | .error e => .error e
  | .ok source =>
    if (w.session s).closed then .error .closed
    else (Guest.compileNamed ("@" ++ path) source).mapError fun e => .ofFailure (.malformed e)

namespace SessionRef

section RunFile

variable {hd : Handler} {s : SessionRef} {context : Context} {path : String} {w : World}

theorem run_compile (hd : Handler) (name : String) (source : Bytes)
    (hopen : (w.session s).closed = false) :
    hd.run (s.compile name source).run w =
      match Guest.compileNamed name source with
      | .error e => (.value (.error (.ofFailure (.malformed e))), w)
      | .ok p => (.value (.ok (w.addChunk (w.session s).runtime p).1),
          (w.addChunk (w.session s).runtime p).2) := by
  have hruntime : hd.run s.runtime.run w = (.value (.ok (w.session s).runtime), w) := by
    rw [runtime, Handler.run_session_ask_bind]
    show hd.run (if (w.session s).closed then _ else _ : SessionProgram RuntimeRef).run w = _
    rw [hopen]
    rfl
  rw [compile, Handler.run_session_bind_of_ok hruntime]
  cases Guest.compileNamed name source <;> rfl

/-- **Running a file** is calling the function that it is compiled to, if it can be. -/
theorem run_runFile : hd.run (s.runFile context path).run w =
    match s.chunkAt w path with
    | .error e => (.value (.error e), w)
    | .ok p =>
      let (f, w) := w.addChunk (w.session s).runtime p
      hd.run (s.call context f []).run w := by
  have hfiles : w.answer .files = (w.files, w) := rfl
  rw [runFile, Handler.run_session_ask_bind, hfiles, chunkAt]
  dsimp only
  cases Scripts.read w.files path with
  | error e => rfl
  | ok source =>
    dsimp only
    cases hclosed : (w.session s).closed with
    | true =>
      have hcompile : hd.run (s.compile ("@" ++ path) source).run w =
          (.value (.error .closed), w) :=
        Handler.run_session_bind_of_error (run_runtime hclosed) _
      exact Handler.run_session_bind_of_error hcompile _
    | false =>
      have hcompile := run_compile hd ("@" ++ path) source hclosed
      cases hchunk : Guest.compileNamed ("@" ++ path) source with
      | error e =>
        rw [hchunk] at hcompile
        exact Handler.run_session_bind_of_error hcompile _
      | ok p =>
        rw [hchunk] at hcompile
        exact Handler.run_session_bind_of_ok hcompile _

theorem chunkAt_ne_cancelled : s.chunkAt w path ≠ .error .cancelled := by
  intro h
  unfold chunkAt at h
  split at h
  · next e hread =>
    cases h
    unfold Scripts.read at hread
    split at hread <;> cases hread
  · split at h
    · cases h
    · cases hchunk : Guest.compileNamed ("@" ++ path) ‹Bytes› <;> rw [hchunk] at h <;> cases h

end RunFile

section Runs

variable {n b : Nat} {r : RuntimeRef} {s : SessionRef} {context : Context} {path : String}
  {w w' : World}

/-! ## Moments -/

/-- A run that begins with an operation comes to where it goes on. -/
theorem reaches_ask_bind {α : Type} {o : Operation} {f : o.Answer → SessionProgram α} {m : Moment}
    (inside : m.activations ≠ []) :
    Reaches n b r (SessionProgram.ask o >>= f).run w m ↔
      Reaches n b r (f (w.answer o).1).run (w.answer o).2 m := by
  constructor
  · intro hm
    cases hm with
    | now => exact absurd rfl inside
    | perform later => exact later
  · intro hm
    exact .perform hm

/-- A script that can be made a chunk is called. -/
theorem reaches_runFile_of_call {p : Proto} (hchunk : s.chunkAt w path = .ok p)
    {m : Moment} (inside : m.activations ≠ [])
    (hm : Reaches n b r (s.call context (w.addChunk (w.session s).runtime p).1 []).run
      (w.addChunk (w.session s).runtime p).2 m) :
    Reaches n b r (s.runFile context path).run w m := by
  unfold chunkAt at hchunk
  have hfiles : w.answer .files = (w.files, w) := rfl
  rw [runFile, reaches_ask_bind inside, hfiles]
  dsimp only
  cases hread : Scripts.read w.files path with
  | error e =>
    rw [hread] at hchunk
    cases hchunk
  | ok source =>
    rw [hread] at hchunk
    dsimp only at hchunk
    split at hchunk
    · cases hchunk
    · next hopen =>
      cases hcompiled : Guest.compileNamed ("@" ++ path) source with
      | error e =>
        rw [hcompiled] at hchunk
        cases hchunk
      | ok q =>
        rw [hcompiled] at hchunk
        cases hchunk
        have hrun := run_compile (handlerWithin n b r) ("@" ++ path) source
          (Bool.eq_false_iff.2 hopen)
        rw [hcompiled] at hrun
        exact .bind_right hrun hm

/-! ## Cancelled runs -/

/-- A call in a scope that has been cancelled leaves the signal cancelled. -/
theorem cancelled_of_callInScope {hd : Handler} {io : CommandIo} {signal : Signal}
    {f : GuestFunction} {args : List HostValue}
    (hr : hd.run (Guest.callInScope r io signal f args) w = (.value (.error .cancelled), w')) :
    w'.signals.isCancelled signal = true := by
  obtain ⟨opened, w₁, -, hr⟩ := Handler.run_bind_value hr
  cases opened with
  | error v =>
    obtain ⟨failure, w₂, -, hr⟩ := Handler.run_bind_value hr
    cases hr
  | ok scope =>
    obtain ⟨called, w₂, hcall, hr⟩ := Handler.run_bind_value hr
    obtain ⟨gone, w₃, hleave, hr⟩ := Handler.run_bind_value hr
    rw [Guest.StreamScope.run_leave] at hleave
    cases hleave
    rcases run_callForHost hcall with ⟨e, -, rfl⟩ |
      ⟨vs, w₃, -, ⟨v, w₄, failure, -, -, rfl⟩ | ⟨results, -, rfl⟩⟩
    · cases hr
    · -- the signal is looked at where the error has come to the host; the scope is left after that
      by_cases hc : w₂.signals.isCancelled signal = true
      · rw [if_pos hc] at hr
        cases hr
        exact hc
      · rw [if_neg hc] at hr
        cases hr
    · have hback := (run_handBack hd results _).symm.trans hr
      cases hlist : Marshal.listToHost _ results with
      | ok xs =>
        rw [hlist] at hback
        cases hback
      | error cause =>
        rw [hlist] at hback
        cases hback

/-- A call that ends as cancelled leaves its context cancelled. -/
theorem cancelled_of_call {f : GuestFunction} {args : List HostValue}
    (hr : (handlerWithin n b r).run (s.call context f args).run w =
      (.value (.error .cancelled), w')) : w'.signals.isCancelled context.signal = true := by
  rw [run_call_iff] at hr
  cases n with
  | zero => cases hr
  | succ n =>
    simp only [handlerWithin, Handler.invokeIn] at hr
    split at hr
    · cases hr
    · split at hr
      · next hc =>
        cases hr
        exact hc
      · let i : Invocation := ⟨s, context, f, args⟩
        have hfst := Handler.invokeOpen_fst (handlerWithin n b (w.session s).runtime) i w
        have hsnd := Handler.invokeOpen_snd (handlerWithin n b (w.session s).runtime) i w
        rw [hr] at hfst hsnd
        cases hbody : (handlerWithin n b (w.session s).runtime).run (i.body (i.begin w).1)
          (i.begin w).2 with
        | mk outcome w₁ =>
          rw [hbody] at hfst hsnd
          dsimp only at hfst hsnd
          subst hfst hsnd
          have hcancelled := cancelled_of_callInScope hbody
          rw [signal_begin] at hcancelled
          exact hcancelled

/-- A script whose run ends as cancelled leaves the context cancelled. -/
theorem cancelled_of_runFile
    (hr : (handlerWithin n b r).run (s.runFile context path).run w =
      (.value (.error .cancelled), w')) : w'.signals.isCancelled context.signal = true := by
  rw [run_runFile] at hr
  split at hr
  · next e hchunk =>
    cases hr
    exact absurd hchunk chunkAt_ne_cancelled
  · exact cancelled_of_call hr

/-- For a cancelled context a file runs no guest code. -/
theorem idle_of_cancelled (ordered : w.signals.Ordered)
    (hcancelled : w.signals.Cancelled context.signal) {m : Moment}
    (hm : Reaches n b r (s.runFile context path).run w m) : m.Idle ∧ w.Untouched m.world := by
  have refuses : s.Refuses context w := .inr ((Signals.isCancelled_iff ordered).2 hcancelled)
  exact ((Use.runFile path).isIdle refuses).reaches hm

end Runs
end SessionRef
end ScriptShell
