import ScriptShell.Bridge
import ScriptShell.Proofs.Cancellation
import ScriptShell.Proofs.GuestImages
import ScriptShell.Proofs.HookCalls
import ScriptShell.Proofs.LinesIterators
import ScriptShell.Proofs.StartupRuns
import ScriptShell.Proofs.TextLists

/-! # Hooks that change nothing

The words of a command go to their hook as a table and come back through the host form of what the
hook returns, a map in which the positions are keys again.  A hook that hands its argument back
changes nothing all the same: the table is new when the function is called, so leaving the streams
does not touch it (`run_call_of_returned`), and it is read as the words wherever it stands
(`exists_call_of_givesBack`).  With a hook for completions it is the same for the table in one field
of the request.

Whatever else a hook comes to, the event has words: it takes those of the hook if it can read any
(`run_filterArgs`) and keeps its own if not (`run_onArgs`).
-/

namespace ScriptShell

open Guest (Heap Value RuntimeRef TableRef StreamScope)

/-! ## Calls that give back a part of their argument -/

namespace Invocation

/-- An invocation opens its streams, over a table of the heap. -/
def Opens (hd : Handler) (i : Invocation) (w : World) : Prop :=
  ∃ scope w₁, Enters hd i w scope w₁ ∧ scope.io.id < w₁.heap.tables.size

/-- What the function of an invocation is called with, and in which state: the streams are open, and
the one argument has become a guest value. -/
def CallsWith (hd : Handler) (i : Invocation) (w : World) (v : Value) (w₁ : World) : Prop :=
  ∃ scope w₀, Enters hd i w scope w₀ ∧
    hd.run (Guest.guestValues (i.begin w).1.runtime i.args) w₀ = (.value (.ok [v]), w₁)

/-- The function of an invocation returns a part of its argument and nothing else, and leaves what
is in that part as it is. -/
def GivesBack (hd : Handler) (i : Invocation) (w : World) (part : Heap → Value → Value) : Prop :=
  ∀ v w₁, i.CallsWith hd w v w₁ → ∃ w₂,
    hd.call (.func i.function) [v] [.host] w₁ = (.value [part w₁.heap v], w₂) ∧
      ∀ t, part w₁.heap v = .table t → w₂.heap.table t = w₁.heap.table t

end Invocation

/-- The argument itself. -/
def wholeArgument (_ : Heap) (v : Value) : Value := v

/-- The field `list` of the argument. -/
def listOfArgument (h : Heap) : Value → Value
  | .table t => h.field t "list"
  | _ => .nil

/-- A part of the guest form of a value is a new table that is read as a sequence of texts. -/
def Marshal.GivesTexts (x : HostValue) (part : Heap → Value → Value) (words : List String) : Prop :=
  ∀ (natives : Array NativeForm) (r : RuntimeRef) (h : Heap), ∃ v h' t,
    toGuest natives r x h = (.ok v, h') ∧ part h' v = .table t ∧ h.tables.size ≤ t.id ∧
      (h'.table t).ReadsTexts words

theorem Marshal.givesTexts_list {words : List String} (hlen : words.length < 2 ^ 63) :
    GivesTexts (SessionRef.ofTexts words) wholeArgument words := by
  intro natives r h
  obtain ⟨h', hg, -, -, hreads⟩ := exists_toGuest_texts natives r hlen h
  exact ⟨_, h', _, hg, rfl, Nat.le_refl _, hreads⟩

theorem Marshal.givesTexts_request {candidates : List String} (hlen : candidates.length < 2 ^ 63)
    (text word : String) :
    GivesTexts (SessionRef.completionRequest text word candidates) listOfArgument candidates := by
  intro natives r h
  obtain ⟨t, list, h', hg, hlist, hnew, hreads⟩ :=
    exists_toGuest_request natives r hlen text word h
  exact ⟨_, h', list, hg, hlist, hnew, hreads⟩

/-- The guest forms of arguments, one after the other. -/
theorem run_guestValues (hd : Handler) (r : RuntimeRef) (xs : List HostValue) (w : World) :
    hd.run (Guest.guestValues r xs) w =
      (.value (Marshal.listToGuest w.natives r xs w.heap).1,
        { w with heap := (Marshal.listToGuest w.natives r xs w.heap).2 }) := by
  induction xs generalizing w with
  | nil => rfl
  | cons x rest ih =>
    have ha : w.answer (.toGuest r x) = ((Marshal.toGuest w.natives r x w.heap).1,
      { w with heap := (Marshal.toGuest w.natives r x w.heap).2 }) := rfl
    rw [Guest.guestValues, Handler.run_ask_bind, ha, Marshal.listToGuest]
    obtain ⟨answer, h⟩ := Marshal.toGuest w.natives r x w.heap
    cases answer with
    | error e => rfl
    | ok v =>
      dsimp only
      rw [Handler.run_bind_of_value (ih { w with heap := h })]
      dsimp only
      obtain ⟨answers, h'⟩ := Marshal.listToGuest w.natives r rest h
      cases answers <;> rfl

/-- The guest form of a single argument. -/
theorem run_guestValues_single (hd : Handler) {r : RuntimeRef} {x : HostValue} {w : World}
    {v : Value} {h : Heap} (hg : Marshal.toGuest w.natives r x w.heap = (.ok v, h)) :
    hd.run (Guest.guestValues r [x]) w = (.value (.ok [v]), { w with heap := h }) := by
  rw [run_guestValues, Marshal.listToGuest, hg]
  rfl

section Calls

variable {n b : Nat} {r : RuntimeRef} {s : SessionRef} {context : Context} {f : GuestFunction}
  {w : World}

/-- A function that returns has its results handed over, and all that changes on the way is that the
streams are left. -/
theorem run_call_of_returned {args : List HostValue} {scope : StreamScope} {w₀ w₁ w₂ : World}
    {vs results : List Value}
    (he : Enters (handlerWithin n b (w.session s).runtime) ⟨s, context, f, args⟩ w scope w₀)
    (hbuilds : (handlerWithin n b (w.session s).runtime).run (Guest.guestValues
      ((Invocation.mk s context f args).begin w).1.runtime args) w₀ = (.value (.ok vs), w₁))
    (hcalls : (handlerWithin n b (w.session s).runtime).call (.func f) vs [.host] w₁ =
      (.value results, w₂)) :
    ∃ w', (handlerWithin (n + 1) b r).run (s.call context f args).run w =
        (.value ((Marshal.listToHost w'.heap results).mapError .marshal), w') ∧
      w'.heap = StreamScope.restored scope.io scope.streams
        (StreamScope.closed scope.streams w₂.heap) := by
  let i : Invocation := ⟨s, context, f, args⟩
  have hbody := run_callInScope_of_returned he.2.2 hbuilds hcalls
  have hfst := Handler.invokeOpen_fst (handlerWithin n b (w.session s).runtime) i w
  have hsnd := Handler.invokeOpen_snd (handlerWithin n b (w.session s).runtime) i w
  rw [Invocation.body, hbody] at hfst hsnd
  exact ⟨_, run_call_iff.2 ((invoke_of_wanted he.1 he.2.1).trans (Prod.ext hfst hsnd)), rfl⟩

/-- **A function that gives back a list of texts** has it come to the host as a sequence of these
texts. -/
theorem exists_call_of_givesBack {x : HostValue} {part : Heap → Value → Value}
    {words : List String}
    (hopens : (Invocation.mk s context f [x]).Opens (handlerWithin n b (w.session s).runtime) w)
    (hgives : (Invocation.mk s context f [x]).GivesBack
      (handlerWithin n b (w.session s).runtime) w part)
    (htexts : Marshal.GivesTexts x part words) :
    ∃ y w', (handlerWithin (n + 1) b r).run (s.call context f [x]).run w =
        (.value (.ok [y]), w') ∧ y.sequence? = some (words.map .text) := by
  obtain ⟨scope, w₀, he, hlt⟩ := hopens
  obtain ⟨v, h, t, hg, hpart, hnew, hreads⟩ := htexts w₀.natives
    ((Invocation.mk s context f [x]).begin w).1.runtime w₀.heap
  have hbuilds := run_guestValues_single (handlerWithin n b (w.session s).runtime) hg
  obtain ⟨w₂, hcalls, hkept⟩ := hgives v { w₀ with heap := h } ⟨scope, w₀, he, hbuilds⟩
  obtain ⟨w', hr, hheap⟩ := run_call_of_returned (r := r) he hbuilds hcalls
  -- the table is newer than that of the streams
  have hne : scope.io ≠ t := by
    rintro rfl
    omega
  have htable : w'.heap.table t = w₂.heap.table t := by
    rw [hheap, StreamScope.table_restored hne, StreamScope.table_closed]
  obtain ⟨y, hy, hseq⟩ := hreads w'.heap t (htable.trans (hkept t hpart))
  have hlist : Marshal.listToHost w'.heap [part h v] = .ok [y] := by
    rw [hpart, Marshal.listToHost, List.mapM_cons, hy]
    rfl
  refine ⟨y, w', ?_, hseq⟩
  rw [hr, hlist]
  rfl

end Calls

/-! ## Functions of the guest that give something back -/

section Closures

open Guest (CellRef Expr Frame Header)
open Guest.Heap (KeepsReaders)

variable {header : Header} {e : Expr} {captures : List CellRef}

/-- A function of one parameter whose body is a `return` returns the values of the expression. -/
theorem run_closure_return {hd : Handler} (hp : header.parameters = 1) {q : RuntimeRef} {v : Value}
    {sites : CallSites} {w w' : World} {vs : List Value}
    (heval : ∀ frame : Frame, frame.slots = #[⟨w.heap.cells.size⟩] →
      hd.run (Guest.evalOpen frame true e) { w with heap := (w.heap.addCell v).2 } =
        (.value vs, w')) :
    hd.run (Guest.runClosure q (.mk header [.ret [e]]) captures [v] sites) w = (.value vs, w') := by
  let start : Frame := {
    runtime := q, chunk := header.chunk, slots := #[], captures := captures.toArray
    varargs := if header.variadic then [v].drop header.parameters else []
    sites := Guest.dropTail sites }
  let frame : Frame := { start with slots := #[⟨w.heap.cells.size⟩] }
  have hargs : Guest.adjust (Guest.Proto.mk header [.ret [e]]).header.parameters [v] = [v] := by
    show Guest.adjust header.parameters [v] = [v]
    rw [hp]
    rfl
  have hdeclare : hd.run (start.declareAll [v]) w =
      (.value frame, { w with heap := (w.heap.addCell v).2 }) := rfl
  have hexec : hd.run (Guest.exec frame (.ret [e])) { w with heap := (w.heap.addCell v).2 } =
      (.value (.ret vs), w') := by
    rw [Guest.exec]
    exact Handler.run_bind_of_value (heval frame rfl)
  have hblock : hd.run (Guest.execBlock frame [.ret [e]])
      { w with heap := (w.heap.addCell v).2 } = (.value (.ret vs), w') := by
    show hd.run (Guest.exec frame (.ret [e]) >>= _) _ = _
    exact Handler.run_bind_of_value hexec
  rw [Guest.runClosure, hargs]
  exact (Handler.run_bind_of_value hdeclare).trans (Handler.run_bind_of_value hblock)

/-- The function of an invocation is there when it is called. -/
theorem function?_of_callsWith {n b : Nat} {r : RuntimeRef} {i : Invocation} {w w₁ : World}
    {v : Value} (hn : NativesEvolve KeepsReaders w.natives)
    (hcalls : i.CallsWith (handlerWithin n b r) w v w₁) {f : GuestFunction} {fn : Guest.Function}
    (hf : w.heap.function? f = some fn) : w₁.heap.function? f = some fn := by
  obtain ⟨scope, w₀, he, hbuilds⟩ := hcalls
  have hkept := World.Evolves.kept KeepsReaders.evolves
  have hopen := hkept.enters (World.Evolves.begin KeepsReaders.evolves w i) he
  have hbuild := hkept.run n b r (Guest.guestValues (i.begin w).1.runtime i.args) w₀
  rw [hbuilds] at hbuild
  exact ((hkept.trans hopen hbuild).heap hn).function? hf

/-- Where its body is a `return` of a part of the parameter, a function gives that back. -/
theorem givesBack_of_closure {n b : Nat} {r q : RuntimeRef} {i : Invocation} {w : World}
    {part : Heap → Value → Value} (hn : NativesEvolve KeepsReaders w.natives)
    (hf : w.heap.function? i.function = some ⟨q, .closure (.mk header [.ret [e]]) captures⟩)
    (hp : header.parameters = 1)
    (heval : ∀ v w₁, i.CallsWith (handlerWithin (n + 1) (b + 1) r) w v w₁ →
      ∀ (hd : Handler) (frame : Frame), frame.slots = #[⟨w₁.heap.cells.size⟩] →
        hd.run (Guest.evalOpen frame true e) { w₁ with heap := (w₁.heap.addCell v).2 } =
          (.value [part w₁.heap v], { w₁ with heap := (w₁.heap.addCell v).2 })) :
    i.GivesBack (handlerWithin (n + 1) (b + 1) r) w part := by
  intro v w₁ hcalls
  refine ⟨{ w₁ with heap := (w₁.heap.addCell v).2 }, ?_, fun _ _ => rfl⟩
  have hfn := function?_of_callsWith hn hcalls hf
  have hbody : Guest.bodyOf w₁ r (.func i.function) [v] [.host] =
      (q, Guest.runClosure q (.mk header [.ret [e]]) captures [v] [.host]) := by
    rw [Guest.bodyOf, hfn]
    dsimp only
    rw [Guest.callBody, hfn]
  rw [call_of_enters w₁ rfl, hbody]
  exact run_closure_return hp fun frame hframe => heval v w₁ hcalls _ frame hframe

variable {n b : Nat} {r q : RuntimeRef} {w : World} {name : String}

/-- The value of the variable that was made last. -/
theorem run_ownVariable (hd : Handler) {frame : Frame}
    (hframe : frame.slots = #[⟨w.heap.cells.size⟩]) (tail : Bool) (v : Value) :
    hd.run (Guest.evalOpen frame tail (.variable (.own 0) name))
        { w with heap := (w.heap.addCell v).2 } =
      (.value [v], { w with heap := (w.heap.addCell v).2 }) := by
  have hcell : frame.cell (.own 0) = ⟨w.heap.cells.size⟩ := by
    rw [Frame.cell, hframe]
    rfl
  have hvalue : (w.heap.addCell v).2.cell ⟨w.heap.cells.size⟩ = v := by
    simp [Heap.cell, Heap.addCell]
  show (Outcome.value [(w.heap.addCell v).2.cell (frame.cell (.own 0))], _) = _
  rw [hcell, hvalue]

/-- The function `function(a) return a end` gives back its argument. -/
theorem givesBack_argument {i : Invocation} (hn : NativesEvolve KeepsReaders w.natives)
    (hf : w.heap.function? i.function =
      some ⟨q, .closure (.mk header [.ret [.variable (.own 0) name]]) captures⟩)
    (hp : header.parameters = 1) :
    i.GivesBack (handlerWithin (n + 1) (b + 1) r) w wholeArgument :=
  givesBack_of_closure hn hf hp fun v _ _ hd _ hframe => run_ownVariable hd hframe true v

/-- The function `function(a) return a.list end` gives back the candidates of a request. -/
theorem givesBack_candidates {s : SessionRef} {context : Context} {f : GuestFunction} {line : Nat}
    {text word : String} {candidates : List String} (hlen : candidates.length < 2 ^ 63)
    (hn : NativesEvolve KeepsReaders w.natives)
    (hf : w.heap.function? f = some ⟨q, .closure (.mk header
      [.ret [.index (.variable (.own 0) name) (.str (Utf8.encode "list")) line]]) captures⟩)
    (hp : header.parameters = 1) :
    (Invocation.mk s context f [SessionRef.completionRequest text word candidates]).GivesBack
      (handlerWithin (n + 1) (b + 1) r) w listOfArgument := by
  refine givesBack_of_closure hn hf hp fun v w₁ hcalls hd frame hframe => ?_
  obtain ⟨scope, w₀, -, hbuilds⟩ := hcalls
  obtain ⟨t, list, h, hg, hlist, -, -⟩ := Marshal.exists_toGuest_request w₀.natives
    ((Invocation.mk s context f [SessionRef.completionRequest text word candidates]).begin
      w).1.runtime hlen text word w₀.heap
  cases hbuilds.symm.trans (run_guestValues_single _ hg)
  let w₂ : World := { w₀ with heap := (h.addCell (.table t)).2 }
  have hobject : hd.run (Guest.single (Guest.evalOpen frame false (.variable (.own 0) name))) w₂ =
      (.value (.table t), w₂) :=
    Handler.run_bind_of_value (@run_ownVariable { w₀ with heap := h } name hd frame hframe false _)
  have hfield : (w₂.heap.table t).get (.text "list") = .table list := hlist
  have hindex : hd.run ((frame.here line).index (some ("local", name)) (.table t)
      (.str (Utf8.encode "list"))) w₂ = (.value (.table list), w₂) := by
    rw [← hfield]
    exact Handler.run_index_of_present _ _ rfl (by rw [hfield]; exact Value.noConfusion)
  have hpart : listOfArgument h (.table t) = .table list := hlist
  rw [hpart]
  exact Handler.run_bind_of_value (Handler.run_bind_of_value hobject |>.trans hindex)

end Closures

/-! ## What becomes of the results -/

/-- The words in what the call of a hook comes to, if the first result is a sequence of texts. -/
def wordsOf? : Except BridgeError (List HostValue) → Option (List String)
  | .ok (v :: _) => v.sequence?.bind fun items => (items.mapM HostValue.toText).toOption
  | _ => none

theorem mapM_toText (words : List String) :
    (words.map HostValue.text).mapM HostValue.toText = .ok words := by
  induction words with
  | nil => rfl
  | cons word rest ih =>
    rw [List.map_cons, List.mapM_cons, ih]
    rfl

section Hooks

variable {hd : Handler} {s : SessionRef} {context : Context} {f : GuestFunction} {w w₁ : World}

/-- Reading the texts of a sequence changes nothing. -/
theorem run_textsOf (hd : Handler) (complaint : String) (v : HostValue) (w : World) :
    ∃ answer, hd.run (SessionRef.textsOf complaint v).run w = (.value answer, w) ∧
      answer.toOption =
        v.sequence?.bind fun items => (items.mapM HostValue.toText).toOption := by
  rw [SessionRef.textsOf]
  cases v.sequence? with
  | none => exact ⟨_, rfl, rfl⟩
  | some items =>
    dsimp only [Option.bind_some]
    cases items.mapM HostValue.toText with
    | ok words => exact ⟨_, rfl, rfl⟩
    | error e => exact ⟨_, rfl, rfl⟩

/-- An event with a registered function comes to what the call of that comes to. -/
theorem run_invokeHook_of_call {point : HookPoint} {args : List HostValue}
    {result : Except BridgeError (List HostValue)}
    (hf : (w.host.registry (w.session s).hooks).get? point = some f)
    (hr : hd.run (s.call context f args).run w = (.value result, w₁)) :
    hd.run (s.invokeHook context point args).run w = (.value (result.map some), w₁) := by
  rw [SessionRef.run_invokeHook, hf]
  show hd.run ((s.call context f args).run.bind _) w = _
  rw [Handler.run_bind, hr]
  cases result <;> rfl

/-- The hook for the words of a command is called with them, and what it comes to is read as
words. -/
theorem run_filterArgs {words : List String} {result : Except BridgeError (List HostValue)}
    (hf : (w.host.registry (w.session s).hooks).get? .argsFilter = some f)
    (hr : hd.run (s.call context f [SessionRef.ofTexts words]).run w = (.value result, w₁)) :
    ∃ answer, hd.run (s.filterArgs context words).run w = (.value answer, w₁) ∧
      answer.toOption.join = wordsOf? result := by
  have hhook := run_invokeHook_of_call hf hr
  rw [SessionRef.filterArgs]
  cases result with
  | error e => exact ⟨.error e, Handler.run_session_bind_of_error hhook _, rfl⟩
  | ok results =>
    rw [Handler.run_session_bind_of_ok hhook]
    match results with
    | [] => exact ⟨.ok none, rfl, rfl⟩
    | v :: rest =>
      obtain ⟨answer, hread, hwords⟩ :=
        run_textsOf hd "argsfilter must return a sequence of strings" v w₁
      cases v with
      | nil => exact ⟨.ok none, rfl, rfl⟩
      | _ =>
        dsimp only
        cases answer with
        | ok words =>
          rw [Handler.run_session_bind_of_ok hread]
          exact ⟨.ok (some words), rfl, hwords⟩
        | error e => exact ⟨.error e, Handler.run_session_bind_of_error hread _, hwords⟩

/-- With a sequence of texts as its first result the hook has changed the words to these. -/
theorem run_filterArgs_of_texts {words given : List String} {y : HostValue} {rest : List HostValue}
    (hf : (w.host.registry (w.session s).hooks).get? .argsFilter = some f)
    (hr : hd.run (s.call context f [SessionRef.ofTexts words]).run w =
      (.value (.ok (y :: rest)), w₁))
    (hy : y.sequence? = some (given.map .text)) :
    hd.run (s.filterArgs context words).run w = (.value (.ok (some given)), w₁) := by
  obtain ⟨answer, hfilter, hwords⟩ := run_filterArgs hf hr
  rw [wordsOf?, hy, Option.bind_some, mapM_toText] at hwords
  cases answer with
  | error e => cases hwords
  | ok answer =>
    cases answer with
    | none => cases hwords
    | some words' =>
      cases hwords
      exact hfilter

/-- An event of the shell takes the words of the hook, and its own if the hook has none. -/
theorem run_onArgs (d : EventDispatcher) {shell : ShellRef} {words : List String}
    {answer : Except BridgeError (Option (List String))} (htag : (w.shell shell).tag? = some s)
    (hr : hd.run (s.filterArgs context words).run w = (.value answer, w₁)) :
    ∃ w', hd.run (d.onArgs shell context words) w =
      (.value (answer.toOption.join.getD words), w') := by
  have hsession : (w.shell shell).session = .ok s := by rw [ShellState.session, htag]
  have ha : w.answer (.shell shell) = (w.shell shell, w) := rfl
  rw [EventDispatcher.onArgs, Handler.run_ask_bind, ha]
  dsimp only
  rw [hsession]
  dsimp only
  rw [Handler.run_bind_of_value hr]
  cases answer with
  | ok words? => exact ⟨w₁, by cases words? <;> rfl⟩
  | error e =>
    dsimp only
    rw [Handler.run_bind_of_value (SessionRef.run_report hd s _ w₁)]
    exact ⟨_, rfl⟩

/-- What a hook for completions comes to: with `nil` or without a result to the candidates of the
shell, and with a sequence of texts to these. -/
theorem run_complete {text word : String} {candidates : List String} {results : List HostValue}
    (hf : (w.host.registry (w.session s).hooks).get? .completion = some f)
    (hr : hd.run (s.call context f [SessionRef.completionRequest text word candidates]).run w =
      (.value (.ok results), w₁)) :
    (results.headD .nil = .nil →
      hd.run (s.complete context text word candidates).run w =
        (.value (.ok (some candidates)), w₁)) ∧
    ∀ given : List String, (results.headD .nil).sequence? = some (given.map .text) →
      hd.run (s.complete context text word candidates).run w =
        (.value (.ok (some given)), w₁) := by
  have hhook := run_invokeHook_of_call hf hr
  rw [SessionRef.completionRequest] at hhook
  unfold SessionRef.complete
  dsimp only
  rw [Handler.run_session_bind_of_ok hhook]
  match results with
  | [] => exact ⟨fun _ => rfl, fun given hgiven => nomatch hgiven⟩
  | v :: rest =>
    constructor
    · rintro rfl
      rfl
    · intro given hgiven
      obtain ⟨answer, hread, hwords⟩ :=
        run_textsOf hd "completion_hook must return a sequence" v w₁
      rw [show v.sequence? = some (given.map .text) from hgiven, Option.bind_some,
        mapM_toText] at hwords
      cases answer with
      | error e => cases hwords
      | ok words =>
        cases hwords
        cases v with
        | nil => cases hgiven
        | _ => exact Handler.run_session_bind_of_ok hread _

end Hooks

/-! ## The main result -/

/-- The words that an invocation comes to: those in the host form of the first result, if the
function has returned and that is a sequence of texts. -/
def Ending.words? (heap : Heap) : Ending → Option (List String)
  | .returned results => wordsOf? ((Marshal.listToHost heap results).mapError .marshal)
  | _ => none

theorem wordsOf?_result (ending : Ending) (cancelled : Bool) (heap : Heap) :
    wordsOf? (ending.result cancelled heap) = ending.words? heap := by
  cases ending <;> rfl

/-- An invocation opens its streams over a global `io` that is a table of the heap. -/
theorem opens_of_global {hd : Handler} {i : Invocation} {w : World} {t : TableRef}
    (hopen : (w.session i.session).closed = false)
    (hwanted : w.signals.isCancelled i.context.signal = false)
    (ht : w.heap.field (w.runtime (w.session i.session).runtime).runtime.globals "io" = .table t)
    (hlt : t.id < w.heap.tables.size) : i.Opens hd w := by
  obtain ⟨hio, scope, w₁, he⟩ := enters_of_global hd hopen hwanted ht
  obtain ⟨w₀, hio', hopened⟩ := StreamScope.run_enter he.2.2
  cases hio.symm.trans hio'
  exact ⟨scope, w₁, he, by rw [hopened.tables, heap_begin]; exact hlt⟩

theorem exists_forms_of_nil {results : List Value} (hresults : results = [] ∨ results = [.nil])
    (cancelled : Bool) (heap : Heap) :
    ∃ forms : List HostValue, Ending.result cancelled heap (.returned results) = .ok forms ∧
      forms.headD .nil = .nil := by
  rcases hresults with rfl | rfl
  · exact ⟨[], rfl, rfl⟩
  · refine ⟨[.nil], ?_, rfl⟩
    rw [Ending.result, Marshal.listToHost, List.mapM_cons, Marshal.toHost, Marshal.toHostWithin]
    rfl

/-- **Hooks that change nothing.**  In an open session, for a context that is not cancelled, a hook
for the words of a command that returns its argument leaves the words as they are: filtering gives
them back, and so does the event of the shell.  It has to be called for that, so the streams of the
invocation have to be opened.  Whichever way a hook goes, the event has words: those of the hook, if
it has returned and its first result has the host form of a sequence of texts, and the old ones if
it has failed or has returned `nil` or anything else.  A hook for completions that returns the list
in its request, or nothing or `nil`, leaves the candidates as they are.  Lists that are handed over
are shorter than `2 ^ 63`, as all are in memory. -/
theorem identity_hooks (n b : Nat) (r : RuntimeRef) (s : SessionRef) (context : Context)
    (f : GuestFunction) (w : World) (hopen : (w.session s).closed = false)
    (hwanted : w.signals.isCancelled context.signal = false) :
    let within := handlerWithin n b (w.session s).runtime
    let hd := handlerWithin (n + 1) b r
    let hooks := w.host.registry (w.session s).hooks
    (hooks.get? .argsFilter = some f → ∀ words : List String,
      let i : Invocation := ⟨s, context, f, [SessionRef.ofTexts words]⟩
      (words.length < 2 ^ 63 → i.Opens within w → i.GivesBack within w wholeArgument →
        (∃ w', hd.run (s.filterArgs context words).run w = (.value (.ok (some words)), w')) ∧
        ∀ (d : EventDispatcher) (shell : ShellRef), (w.shell shell).tag? = some s →
          ∃ w', hd.run (d.onArgs shell context words) w = (.value words, w')) ∧
      ∀ ending w₁, within.course i w = some (ending, w₁) → ∃ w₂,
        hd.run (s.call context f i.args).run w =
          (.value (ending.result (w₁.signals.isCancelled context.signal) w₂.heap), w₂) ∧
        ∀ (d : EventDispatcher) (shell : ShellRef), (w.shell shell).tag? = some s →
          ∃ w', hd.run (d.onArgs shell context words) w =
            (.value ((ending.words? w₂.heap).getD words), w')) ∧
    (hooks.get? .completion = some f → ∀ (text word : String) (candidates : List String),
      let i : Invocation := ⟨s, context, f, [SessionRef.completionRequest text word candidates]⟩
      (candidates.length < 2 ^ 63 → i.Opens within w → i.GivesBack within w listOfArgument →
        ∃ w', hd.run (s.complete context text word candidates).run w =
          (.value (.ok (some candidates)), w')) ∧
      ∀ results w₁, within.course i w = some (.returned results, w₁) →
        results = [] ∨ results = [.nil] →
        ∃ w', hd.run (s.complete context text word candidates).run w =
          (.value (.ok (some candidates)), w')) := by
  intro within hd hooks
  refine ⟨fun hf words => ⟨fun hlen hopens hgives => ?_, fun ending w₁ hcourse => ?_⟩,
    fun hf text word candidates => ⟨fun hlen hopens hgives => ?_,
      fun results w₁ hcourse hresults => ?_⟩⟩
  · obtain ⟨y, w', hr, hy⟩ :=
      exists_call_of_givesBack (r := r) hopens hgives (Marshal.givesTexts_list hlen)
    have hfilter := run_filterArgs_of_texts hf hr hy
    exact ⟨⟨w', hfilter⟩, fun d shell htag => run_onArgs d htag hfilter⟩
  -- whatever the ending, the event settles what filtering makes of it
  · obtain ⟨w₂, hr⟩ := run_call_of_course (r := r) hopen hwanted hcourse
    obtain ⟨answer, hfilter, hwords⟩ := run_filterArgs hf hr
    rw [wordsOf?_result] at hwords
    refine ⟨w₂, hr, fun d shell htag => ?_⟩
    rw [← hwords]
    exact run_onArgs d htag hfilter
  · obtain ⟨y, w', hr, hy⟩ :=
      exists_call_of_givesBack (r := r) hopens hgives (Marshal.givesTexts_request hlen text word)
    exact ⟨w', (run_complete hf hr).2 candidates hy⟩
  · obtain ⟨w', hr⟩ := run_call_of_course (r := r) hopen hwanted hcourse
    obtain ⟨forms, hforms, hhead⟩ := exists_forms_of_nil hresults
      (w₁.signals.isCancelled context.signal) w'.heap
    rw [hforms] at hr
    exact ⟨w', (run_complete hf hr).1 hhead⟩

/-- Whether the function has returned, and with no result. -/
def Ending.isEmpty : Ending → Bool
  | .returned [] => true
  | _ => false

theorem exists_course_of_isEmpty {hd : Handler} {i : Invocation} {w : World}
    (h : (hd.course i w).any (·.1.isEmpty) = true) :
    ∃ w₁, hd.course i w = some (.returned [], w₁) := by
  obtain ⟨⟨ending, w₁⟩, hcourse, hempty⟩ := (Option.any_eq_true _ _).1 h
  cases ending with
  | returned results =>
    cases results with
    | nil => exact ⟨w₁, hcourse⟩
    | cons v rest => cases hempty
  | unopened failure | unfit cause | raised failure => cases hempty

/-- A session with hooks that return their argument, the list of their request and nothing. -/
theorem identity_hooks_keep :
    let keep : Guest.Proto := .mk ⟨"hook", 1, 1, false, []⟩ [.ret [.variable (.own 0) "a"]]
    let list : Guest.Proto := .mk ⟨"hook", 1, 1, false, []⟩
      [.ret [.index (.variable (.own 0) "a") (.str (Utf8.encode "list")) 1]]
    let nothing : Guest.Proto := .mk ⟨"hook", 1, 0, false, []⟩ []
    let globals : Guest.Table :=
      { slots := [(.text "io", .table ⟨1⟩)], distinct := List.pairwise_singleton _ _ }
    let context : Context := ⟨0, default, none⟩
    let words := ["b", "", "a"]
    let world (args completion : GuestFunction) : World :=
      { heap :=
          { tables := #[globals, {}]
            functions := #[⟨⟨0⟩, .closure keep []⟩, ⟨⟨0⟩, .closure list []⟩,
              ⟨⟨0⟩, .closure nothing []⟩] }
        runtimes := #[{ runtime := { (default : Guest.Runtime) with globals := ⟨0⟩ } }]
        shells := #[{ io := default, tag? := some ⟨0⟩ }]
        sessions := #[default]
        host := { registries := #[⟨[(.argsFilter, args), (.completion, completion)]⟩] } }
    let hd := handlerWithin 2 1 ⟨0⟩
    let s : SessionRef := ⟨0⟩
    (∃ w', hd.run (s.filterArgs context words).run (world ⟨0⟩ ⟨1⟩) =
      (.value (.ok (some words)), w')) ∧
    (∃ w', hd.run (s.complete context "x" "x" words).run (world ⟨0⟩ ⟨1⟩) =
      (.value (.ok (some words)), w')) ∧
    (∃ w', hd.run (({} : EventDispatcher).onArgs ⟨0⟩ context words) (world ⟨2⟩ ⟨2⟩) =
      (.value words, w')) ∧
    ∃ w', hd.run (s.complete context "x" "x" words).run (world ⟨2⟩ ⟨2⟩) =
      (.value (.ok (some words)), w') := by
  intro keep list nothing globals context words world hd s
  have hn (args completion : GuestFunction) :
      NativesEvolve Guest.Heap.KeepsReaders (world args completion).natives :=
    fun i form hform => nomatch hform
  have hlen : words.length < 2 ^ 63 := by decide
  have hargs (f completion : GuestFunction) := (identity_hooks 1 1 ⟨0⟩ s context f
    (world f completion) rfl rfl).1 rfl words
  have hcompletion (args f : GuestFunction) := (identity_hooks 1 1 ⟨0⟩ s context f
    (world args f) rfl rfl).2 rfl "x" "x" words
  refine ⟨?_, ?_, ?_, ?_⟩
  · exact ((hargs ⟨0⟩ ⟨1⟩).1 hlen (opens_of_global rfl rfl rfl (by decide))
      (givesBack_argument (hn _ _) rfl rfl)).1
  · exact (hcompletion ⟨0⟩ ⟨1⟩).1 hlen (opens_of_global rfl rfl rfl (by decide))
      (givesBack_candidates hlen (hn _ _) rfl rfl)
  · obtain ⟨w₁, hcourse⟩ := @exists_course_of_isEmpty (handlerWithin 1 1 ⟨0⟩)
      ⟨s, context, ⟨2⟩, [SessionRef.ofTexts words]⟩ (world ⟨2⟩ ⟨2⟩) (by decide +kernel)
    obtain ⟨w₂, -, hkept⟩ := (hargs ⟨2⟩ ⟨2⟩).2 (.returned []) w₁ hcourse
    exact hkept {} ⟨0⟩ rfl
  · obtain ⟨w₁, hcourse⟩ := @exists_course_of_isEmpty (handlerWithin 1 1 ⟨0⟩)
      ⟨s, context, ⟨2⟩, [SessionRef.completionRequest "x" "x" words]⟩ (world ⟨2⟩ ⟨2⟩)
      (by decide +kernel)
    exact (hcompletion ⟨2⟩ ⟨2⟩).2 [] w₁ hcourse (.inl rfl)

theorem exists_error_of_value? {ε α : Type} {left : Outcome (Except ε α) × World}
    (h : left.1.value?.any (fun answer => !answer.isOk) = true) :
    ∃ e w, left = (.value (.error e), w) := by
  obtain ⟨outcome, w⟩ := left
  cases outcome with
  | value answer =>
    cases answer with
    | ok a => cases h
    | error e => exact ⟨e, w, rfl⟩
  | error v => cases h
  | exhausted => cases h

/-- A session without an `io` table: its hook returns its argument, but it is not even called, and
filtering the words ends in an error. -/
theorem words_lost_without_streams :
    let keep : Guest.Proto := .mk ⟨"hook", 1, 1, false, []⟩ [.ret [.variable (.own 0) "a"]]
    let context : Context := ⟨0, default, none⟩
    let w : World :=
      { heap := { tables := #[{}], functions := #[⟨⟨0⟩, .closure keep []⟩] }
        runtimes := #[{ runtime := { (default : Guest.Runtime) with globals := ⟨0⟩ } }]
        sessions := #[default]
        host := { registries := #[⟨[(.argsFilter, ⟨0⟩)]⟩] } }
    (w.session ⟨0⟩).closed = false ∧ w.signals.isCancelled context.signal = false ∧
      (w.host.registry (w.session ⟨0⟩).hooks).get? .argsFilter = some ⟨0⟩ ∧
      ∃ e w', (handlerWithin 3 1 ⟨0⟩).run (SessionRef.filterArgs ⟨0⟩ context ["a"]).run w =
        (.value (.error e), w') := by
  intro keep context w
  refine ⟨rfl, rfl, rfl, ?_⟩
  exact exists_error_of_value? (by decide +kernel)

end ScriptShell
