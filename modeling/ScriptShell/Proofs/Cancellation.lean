import ScriptShell.Proofs.CallPipes
import ScriptShell.Proofs.IdleRuns
import ScriptShell.Proofs.InvocationCourses
import ScriptShell.Proofs.Signals
import ScriptShell.Proofs.Successors

/-! # Cancelled invocations

The signal of an invocation is looked at in three places.  Before it begins: then nothing happens at
all (`SessionRef.Use.isIdle`).  Where the error of its function has come to the host: then the error
counts as a cancellation, and nothing else does, since every other way in which an invocation can go
has a result of its own (`Ending.result_eq_cancelled_iff`).  An error of the guest while its streams
are opened is one of those others, whatever the signal says by then.  And whenever its input is read:
the stream carries the signal for as long as it lasts (`carries_of_follows`) and a cancelled signal
stays cancelled, so from then on every read fails.
-/

namespace ScriptShell

open Guest (Value RuntimeRef UserRef TableRef StreamScope LibraryCall)
open Guest.Heap (KeepsStreams)

/-! ## Results of calls -/

/-- Only the failure of the function can be a cancellation. -/
theorem Ending.result_eq_cancelled_iff (ending : Ending) (cancelled : Bool) (heap : Guest.Heap) :
    ending.result cancelled heap = .error .cancelled ↔
      (∃ failure, ending = .raised failure) ∧ cancelled = true := by
  constructor
  · intro h
    rcases Ending.result_error h with ⟨_, he⟩ | ⟨_, he⟩ | ⟨-, hc, hraised⟩
    · cases he
    · cases he
    · exact ⟨hraised, hc⟩
  · rintro ⟨⟨failure, rfl⟩, rfl⟩
    rfl

section Calls

variable {n b : Nat} {r : RuntimeRef} {s : SessionRef} {context : Context} {f : GuestFunction}
  {args : List HostValue} {w w' : World} {result : Except BridgeError (List HostValue)}

/-- Calling a function in a session is an invocation. -/
theorem run_call_iff : (handlerWithin n b r).run (s.call context f args).run w = (.value result, w') ↔
    (handlerWithin n b r).invoke ⟨s, context, f, args⟩ w = (.value result, w') := by
  show (handlerWithin n b r).run (.invoke ⟨s, context, f, args⟩ .done) w = _ ↔ _
  rw [Handler.run]
  cases (handlerWithin n b r).invoke ⟨s, context, f, args⟩ w with
  | mk outcome w₁ => cases outcome <;> simp

/-- For a cancelled context an open session is not called. -/
theorem run_call_of_cancelled (hopen : (w.session s).closed = false)
    (hcancelled : w.signals.isCancelled context.signal = true) :
    (handlerWithin (n + 1) b r).run (s.call context f args).run w =
      (.value (.error .cancelled), w) := by
  rw [run_call_iff]
  simp only [handlerWithin, Handler.invokeIn, hopen, hcancelled, Bool.false_eq_true, if_false,
    if_true]

/-- A call whose way has an end has the result of that. -/
theorem run_call_of_course {ending : Ending} {w₁ : World}
    (hopen : (w.session s).closed = false)
    (hwanted : w.signals.isCancelled context.signal = false)
    (hcourse : (handlerWithin n b (w.session s).runtime).course ⟨s, context, f, args⟩ w =
      some (ending, w₁)) :
    ∃ w', (handlerWithin (n + 1) b r).run (s.call context f args).run w =
      (.value (ending.result (w₁.signals.isCancelled context.signal) w'.heap), w') := by
  obtain ⟨w', hr⟩ := invoke_of_course (i := ⟨s, context, f, args⟩) hopen hwanted hcourse
  exact ⟨w', run_call_iff.2 hr⟩

/-- **A call is cancelled** if its context was when it was made, or if its function has failed and
the context is cancelled by the time at which the error has come to the host. -/
theorem call_cancelled_iff (ordered : w.signals.Ordered) (hopen : (w.session s).closed = false)
    (hr : (handlerWithin (n + 1) b r).run (s.call context f args).run w = (.value result, w')) :
    result = .error .cancelled ↔ w.signals.Cancelled context.signal ∨
      ∃ failure w₁, (handlerWithin n b (w.session s).runtime).course ⟨s, context, f, args⟩ w =
        some (.raised failure, w₁) ∧ w₁.signals.Cancelled context.signal := by
  by_cases hentry : w.signals.Cancelled context.signal
  · rw [run_call_of_cancelled hopen ((Signals.isCancelled_iff ordered).2 hentry)] at hr
    cases hr
    simp [hentry]
  · have hwanted := (Signals.isCancelled_eq_false_iff ordered).2 hentry
    obtain ⟨ending, w₁, hcourse, hresult⟩ :=
      course_of_invoke (i := ⟨s, context, f, args⟩) hopen hwanted (run_call_iff.1 hr)
    have hlater : w₁.signals.isCancelled context.signal = true ↔
        w₁.signals.Cancelled context.signal :=
      Signals.isCancelled_iff
        ((World.Signalled.kept.course World.Signalled.begin hcourse).ordered ordered)
    rw [hresult, Ending.result_eq_cancelled_iff]
    constructor
    · rintro ⟨⟨failure, rfl⟩, hc⟩
      exact .inr ⟨failure, w₁, hcourse, hlater.1 hc⟩
    · rintro (hc | ⟨failure, w₂, hcourse', hc⟩)
      · exact absurd hc hentry
      · rw [hcourse] at hcourse'
        cases hcourse'
        exact ⟨⟨failure, rfl⟩, hlater.2 hc⟩

end Calls

/-! ## Reading from a cancelled stream -/

/-- The calls that read from a stream: its method, the steps of an iterator over its lines, and the
function of the `io` library where the stream is in the field of `io`. -/
inductive ReadsStream (w : World) (u : UserRef) : Guest.Function → List Value → Prop where
  /-- Its method. -/
  | method {r : RuntimeRef} (args : List Value) :
      ReadsStream w u ⟨r, .library .streamRead⟩ (.user u :: args)
  /-- A step of an iterator over its lines. -/
  | step {r : RuntimeRef} (formats args : List Value) :
      ReadsStream w u ⟨r, .lines (.user u) formats⟩ args
  /-- `io.read`, where `io.stdin` is the stream. -/
  | ioRead {r : RuntimeRef} {io : TableRef} (args : List Value)
      (hio : w.heap.field (w.runtime r).runtime.globals "io" = .table io)
      (hu : w.heap.field io StreamName.stdin.field = .user u) :
      ReadsStream w u ⟨r, .library .ioRead⟩ args

/-- Reading from a stream whose signal is cancelled fails, and nothing is read. -/
theorem fails_of_cancelled {hd : Handler} {w : World} {u : UserRef} {s : Stream} {signal : Signal}
    (hu : w.heap.user u = .stream s) (hs : s.cancel? = some signal)
    (hc : w.signals.isCancelled signal = true) {g : GuestFunction} {f : Guest.Function}
    (hg : w.heap.function? g = some f) {args : List Value} (hreads : ReadsStream w u f args)
    (r : RuntimeRef) (sites : CallSites) :
    Fails hd (Guest.bodyOf w r (.func g) args sites).2 w := by
  have hread (formats : List Value) : Fails hd (Guest.readStream s formats) w := by
    have hanswer : hd.run (Program.ask (.isCancelled signal)) w = (.value true, w) := by
      rw [← hc]
      rfl
    rw [Guest.readStream, hs]
    exact .of_run hanswer (.bind (.raiseFailure _) _)
  rw [Guest.bodyOf, hg]
  cases hreads with
  | method args =>
    dsimp only
    rw [Guest.callBody, hg]
    exact fails_streamRead hu hread rfl
  | step formats args =>
    dsimp only
    rw [Guest.callBody, hg]
    exact fails_linesStep hu hread formats
  | ioRead args hio hf =>
    dsimp only
    rw [Guest.callBody, hg]
    exact fails_ioRead hu hread hio hf

/-- What the host may do of its own while streams are in use: it leaves them as they are or closes
them, and it takes no cancellation back. -/
def World.KeepsCancelling (w w' : World) : Prop :=
  w.Signalled w' ∧ World.Evolves KeepsStreams w w'

/-- A stream carries its signal for as long as it lasts. -/
theorem carries_of_follows {w w' : World} (hn : NativesEvolve KeepsStreams w.natives)
    (h : World.Follows World.KeepsCancelling w w') {u : UserRef} {s : Stream}
    (hu : w.heap.user u = .stream s) :
    ∃ s', w'.heap.user u = .stream s' ∧ s'.cancel? = s.cancel? := by
  have he : World.Evolves KeepsStreams w w' :=
    h.relates (World.Evolves.kept KeepsStreams.evolves) (World.Evolves.begin KeepsStreams.evolves)
      (World.Evolves.setContext KeepsStreams.evolves) fun _ _ step => step.2
  rcases he.heap hn u s hu with h | h
  · exact ⟨s, h, rfl⟩
  · exact ⟨s.close, h, rfl⟩

theorem signalled_of_follows {w w' : World} (h : World.Follows World.KeepsCancelling w w') :
    w.Signalled w' :=
  h.relates World.Signalled.kept World.Signalled.begin World.Signalled.setContext fun _ _ step => step.1

/-! ## The main result -/

/-- **What cancelling does to invocations.**  Where the signal of a context or an ancestor of it is
cancelled, whatever the shell does with a session for that context starts no code of the guest and
leaves everything in its place.  An open session that is called answers so if the context is
cancelled then, or if the function fails and the context is cancelled by the time at which the error
has come to the host, and in no other case: results are handed over whatever has been cancelled
meanwhile, and an error of the guest while the streams are opened is an error of the guest.  Once the
signal of an invocation is cancelled, all that reads from the stream of its input fails and leaves
the input alone. -/
theorem cancelled_contexts (n b : Nat) (r : RuntimeRef) (s : SessionRef) (context : Context)
    (w : World) (ordered : w.signals.Ordered) (hn : NativesEvolve KeepsStreams w.natives) :
    (w.signals.Cancelled context.signal → ∀ {α : Type} (p : SessionProgram α), s.Use context p →
      (∀ m, Reaches n b r p.run w m → m.Idle ∧ w.Untouched m.world) ∧
        w.Untouched ((handlerWithin n b r).run p.run w).2) ∧
    (∀ (f : GuestFunction) (args : List HostValue), (w.session s).closed = false →
      (w.signals.Cancelled context.signal →
        (handlerWithin (n + 1) b r).run (s.call context f args).run w =
          (.value (.error .cancelled), w)) ∧
      (∀ result w',
        (handlerWithin (n + 1) b r).run (s.call context f args).run w = (.value result, w') →
          (result = .error .cancelled ↔ w.signals.Cancelled context.signal ∨
            ∃ failure w₁,
              (handlerWithin n b (w.session s).runtime).course ⟨s, context, f, args⟩ w =
                some (.raised failure, w₁) ∧ w₁.signals.Cancelled context.signal)) ∧
      (¬ w.signals.Cancelled context.signal →
        (∀ results w₁,
          (handlerWithin n b (w.session s).runtime).course ⟨s, context, f, args⟩ w =
            some (.returned results, w₁) →
          ∃ w', (handlerWithin (n + 1) b r).run (s.call context f args).run w =
            (.value ((Marshal.listToHost w'.heap results).mapError .marshal), w')) ∧
        ∀ failure w₁,
          (handlerWithin n b (w.session s).runtime).course ⟨s, context, f, args⟩ w =
            some (.unopened failure, w₁) →
          ∃ w', (handlerWithin (n + 1) b r).run (s.call context f args).run w =
            (.value (.error (.runtime failure.message)), w'))) ∧
    ∀ (i : Invocation) (scope : StreamScope) (w₁ : World),
      Enters (handlerWithin n b r) i w scope w₁ → ∀ e ∈ scope.streams, e.1 = .stdin →
        ∀ w₂, World.Follows World.KeepsCancelling w₁ w₂ →
          w₂.signals.Cancelled i.context.signal →
          ∀ (hd : Handler) (g : GuestFunction) (fn : Guest.Function) (args : List Value)
            (r' : RuntimeRef) (sites : CallSites), w₂.heap.function? g = some fn →
              ReadsStream w₂ e.2.1 fn args →
                Fails hd (Guest.bodyOf w₂ r' (.func g) args sites).2 w₂ := by
  refine ⟨fun hcancelled α p use => ?_, fun f args hopen => ⟨fun hcancelled => ?_,
    fun result w' hr => call_cancelled_iff ordered hopen hr, fun hentry => ?_⟩,
    fun i scope w₁ he e hmem hname w₂ hfollows hcancelled hd g fn args r' sites hg hreads => ?_⟩
  · have hidle := use.isIdle (.inr ((Signals.isCancelled_iff ordered).2 hcancelled))
    exact ⟨fun m hm => hidle.reaches hm, hidle.run n b r⟩
  · exact run_call_of_cancelled hopen ((Signals.isCancelled_iff ordered).2 hcancelled)
  · have hwanted := (Signals.isCancelled_eq_false_iff ordered).2 hentry
    refine ⟨fun results w₁ hcourse => ?_, fun failure w₁ hcourse => ?_⟩
    · exact run_call_of_course hopen hwanted hcourse
    · exact run_call_of_course hopen hwanted hcourse
  · obtain ⟨_, -, ho⟩ := StreamScope.run_enter he.2.2
    have hopened := ho.stream e hmem
    rw [hname] at hopened
    have hentered : (i.begin w).2.Signalled w₁ := by
      have hk := World.Signalled.kept.run n b r (StreamScope.enter (i.begin w).1.runtime
        (i.begin w).1.io (some (i.begin w).1.context.signal)) (i.begin w).2
      rwa [he.2.2] at hk
    have hsignals := ((World.Signalled.begin w i).trans hentered).trans
      (signalled_of_follows hfollows)
    obtain ⟨stream, hstream, hsignal⟩ :=
      carries_of_follows (by rw [natives_of_enters he]; exact hn) hfollows hopened
    -- so it has the signal that it was opened with
    have hown : stream.cancel? = some i.context.signal := by
      rw [hsignal, ← signal_begin i w]
      rfl
    exact fails_of_cancelled hstream hown
      ((Signals.isCancelled_iff (hsignals.ordered ordered)).2 hcancelled) hg hreads r' sites

/-- Whether opening the streams has failed. -/
def Ending.isUnopened : Ending → Bool
  | unopened _ => true
  | _ => false

/-- A session whose guest looks up its `io` table by a function that cancels the context and fails:
the context is cancelled when the error comes to the host, and yet the call ends with an error of the
guest, because the streams are not open. -/
theorem error_before_streams_open :
    let cancel : Guest.Function := ⟨⟨0⟩, .host ⟨0, false⟩⟩
    -- `cancel()()`, which cancels and then calls what is no function
    let lookup : Guest.Proto := .mk ⟨"io", 1, 0, true, [(.own 0, "cancel")]⟩
      [.call (.call (.call (.variable (.captured 0) "cancel") [] 1) [] 1)]
    let chain : Guest.Table := ({} : Guest.Table).set (.text "__index") (.func ⟨1⟩)
    let context : Context := ⟨0, ⟨0⟩, none⟩
    let w : World :=
      { heap :=
          { tables := #[{ metatable? := some ⟨1⟩ }, chain]
            cells := #[.func ⟨0⟩]
            functions := #[cancel, ⟨⟨0⟩, .closure lookup [⟨0⟩]⟩] }
        runtimes := #[{ runtime := { (default : Guest.Runtime) with globals := ⟨0⟩ } }]
        signals := { states := #[{}] }
        sessions := #[default]
        hostCode := #[fun _ _ => do
          Program.ask (.cancel ⟨0⟩)
          return []]
        hostFunctions := #[(0, [])] }
    let left := (handlerWithin 5 5 ⟨0⟩).run (SessionRef.call ⟨0⟩ context ⟨0⟩ []).run w
    w.signals.Ordered ∧ NativesEvolve KeepsStreams w.natives ∧
      (∃ message, left.1 = .value (.error (.runtime message))) ∧
      left.2.signals.isCancelled context.signal = true := by
  intro cancel lookup chain context w left
  have ordered : w.signals.Ordered := by
    intro i state p hstate hparent
    match i with
    | 0 =>
      cases hstate
      cases hparent
    | i + 1 => cases hstate
  have natives : NativesEvolve KeepsStreams w.natives := by
    intro i form hform
    cases hform
  refine ⟨ordered, natives, ?_, by decide +kernel⟩
  obtain ⟨-, hcalls, -⟩ := cancelled_contexts 4 5 ⟨0⟩ ⟨0⟩ context w ordered natives
  have fresh : ¬ w.signals.Cancelled context.signal :=
    (Signals.isCancelled_eq_false_iff ordered).1 (by decide +kernel)
  have hway : ((handlerWithin 4 5 ⟨0⟩).course ⟨⟨0⟩, context, ⟨0⟩, []⟩ w).any
      (·.1.isUnopened) = true := by decide +kernel
  obtain ⟨⟨ending, w₁⟩, hcourse, hunopened⟩ := (Option.any_eq_true _ _).1 hway
  cases ending with
  | unopened failure =>
    obtain ⟨w', hr⟩ := ((hcalls ⟨0⟩ [] rfl).2.2 fresh).2 failure w₁ hcourse
    exact ⟨failure.message, congrArg Prod.fst hr⟩
  | unfit cause => cases hunopened
  | raised failure => cases hunopened
  | returned results => cases hunopened

end ScriptShell
