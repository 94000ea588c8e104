import ScriptShell.Proofs.AskedOperations
import ScriptShell.Proofs.CallPipes
import ScriptShell.Proofs.GuestImages
import ScriptShell.Proofs.IdentityHooks

/-! # Calls of host functions

A guest that calls a function of the host has all arguments converted before the function runs, and
all results after it has run.  One argument without a host form keeps the function from running
(`run_hostBody_of_error`), and one result without a guest form keeps all results from the guest
(`run_guestResults`).

A session can call such a function as any other.  The arguments then cross twice before it runs and
the results twice after it, in states that other code may have changed in between; but what has been
converted is settled (`Marshal.exists_images`), so the function gets images of the arguments and the
caller images of the results (`exists_call_of_computes`).
-/

namespace ScriptShell

open Guest (Heap Value UserRef TableRef RuntimeRef StreamScope LibraryCall)
open Marshal (IsConvertible IsImage Survives listToGuest)

/-! ## Heaps to which something is added -/

/-- Tables and objects do not go away, and functions stay what they are. -/
structure Guest.Heap.Adds (h h' : Heap) : Prop where
  /-- The tables. -/
  tables : h.tables.size ≤ h'.tables.size
  /-- The objects. -/
  users : h.users.size ≤ h'.users.size
  /-- The functions. -/
  functions : StartsWith h.functions h'.functions

namespace Guest.Heap.Adds

variable {h h' : Heap}

theorem evolves : Heap.Evolves Adds where
  trans k k' := ⟨Nat.le_trans k.tables k'.tables, Nat.le_trans k.users k'.users,
    k.functions.trans k'.functions⟩
  of_keeps k := ⟨k.tables.size, k.users.size, k.functions⟩
  of_users ht hu hf := ⟨ht, Nat.le_of_eq (by rw [hu]), by rw [hf]; exact .refl _⟩
  closeUser _ _ := ⟨Nat.le_refl _, Nat.le_of_eq Array.size_modify.symm, .refl _⟩
  setFileRest _ _ _ := ⟨Nat.le_refl _, Nat.le_of_eq Array.size_modify.symm, .refl _⟩

theorem function? (k : Adds h h') {g : GuestFunction} {f : Guest.Function}
    (hg : h.function? g = some f) : h'.function? g = some f :=
  Heap.function?_of_startsWith k.functions hg

end Guest.Heap.Adds

open Guest.Heap (Adds AgreesFrom)

/-! ## Conversions in a run -/

section Conversions

variable (hd : Handler)

theorem run_guestValue_of_error (c : LibraryCall) {x : HostValue} {w : World} {e : MarshalError}
    {h : Heap} (hx : Marshal.toGuest w.natives c.runtime x w.heap = (.error e, h)) :
    hd.run (c.guestValue x) w =
      (.error (.user ⟨h.users.size⟩), World.raised { w with heap := h } (.marshal e)) := by
  have ha : w.answer (.toGuest c.runtime x) = (.error e, { w with heap := h }) := by
    show World.withHeap w (Marshal.toGuest w.natives c.runtime x) = _
    rw [World.withHeap]
    dsimp only
    rw [hx]
  rw [LibraryCall.guestValue, Handler.run_ask_bind, ha]
  rfl

/-- The results of a function of the host are converted one after the other; the first one without a
guest form is raised as a failure. -/
theorem run_guestResults (c : LibraryCall) (ys : List HostValue) (w : World) :
    hd.run (Program.forAll c.guestValue ys) w =
      match listToGuest w.natives c.runtime ys w.heap with
      | (.ok vs, h) => (.value vs, { w with heap := h })
      | (.error e, h) =>
        (.error (.user ⟨h.users.size⟩), World.raised { w with heap := h } (.marshal e)) := by
  induction ys generalizing w with
  | nil => rfl
  | cons y rest ih =>
    rw [Program.forAll, listToGuest]
    cases hy : Marshal.toGuest w.natives c.runtime y w.heap with
    | mk answer h =>
      cases answer with
      | error e => exact Handler.run_bind_of_error (run_guestValue_of_error hd c hy)
      | ok v =>
        rw [Handler.run_bind_of_value (Handler.run_guestValue c hy)]
        have hrest := ih { w with heap := h }
        dsimp only at hrest ⊢
        cases hys : listToGuest w.natives c.runtime rest h with
        | mk answers h' =>
          rw [hys] at hrest
          cases answers with
          | error e => exact Handler.run_bind_of_error hrest
          | ok vs =>
            rw [Handler.run_bind_of_value hrest]
            rfl

end Conversions

namespace Marshal

variable {h : Heap} {args : List Value} {xs : List HostValue}

theorem listToHost_eq_ok_iff :
    listToHost h args = .ok xs ↔ List.Forall₂ (fun v x => toHost h v = .ok x) args xs := by
  induction args generalizing xs with
  | nil =>
    rw [List.forall₂_nil_left_iff]
    exact ⟨fun hxs => (Except.ok.inj hxs).symm, fun hxs => congrArg Except.ok hxs.symm⟩
  | cons v rest ih =>
    rw [listToHost, List.mapM_cons, ← listToHost, List.forall₂_cons_left_iff]
    constructor
    · intro hxs
      cases hv : toHost h v with
      | error e =>
        rw [hv] at hxs
        cases hxs
      | ok x =>
        cases hrest : listToHost h rest with
        | error e =>
          rw [hv, hrest] at hxs
          cases hxs
        | ok others =>
          rw [hv, hrest] at hxs
          cases hxs
          exact ⟨x, others, rfl, ih.1 hrest, rfl⟩
    · rintro ⟨x, others, hv, hothers, rfl⟩
      rw [hv, ih.2 hothers]
      rfl

/-- Values that all have host forms have them together. -/
theorem exists_forms (hargs : ∀ v ∈ args, IsConvertible h v) :
    ∃ xs, List.Forall₂ (fun v x => toHost h v = .ok x) args xs := by
  induction args with
  | nil => exact ⟨[], .nil⟩
  | cons v rest ih =>
    obtain ⟨x, hx⟩ := hargs v List.mem_cons_self
    obtain ⟨xs, hxs⟩ := ih fun w hw => hargs w (List.mem_cons_of_mem v hw)
    exact ⟨x :: xs, .cons hx hxs⟩

/-- One value without a host form is enough for an error. -/
theorem exists_error_of_not_convertible {v : Value} (hv : v ∈ args) (hnot : ¬ IsConvertible h v) :
    ∃ e, listToHost h args = .error e := by
  cases hxs : listToHost h args with
  | error e => exact ⟨e, rfl⟩
  | ok xs =>
    obtain ⟨x, -, hx⟩ := exists_related (listToHost_eq_ok_iff.1 hxs) hv
    exact absurd ⟨x, hx⟩ hnot

/-- Values that have been converted together have been converted each, in their order. -/
theorem forall₂_of_listToGuest {natives : Array NativeForm} {r : RuntimeRef}
    {ys : List HostValue} {vs : List Value} {h' : Heap}
    (hys : listToGuest natives r ys h = (.ok vs, h')) :
    List.Forall₂ (fun y v => ∃ h₁ h₂, toGuest natives r y h₁ = (.ok v, h₂)) ys vs := by
  induction ys generalizing h vs with
  | nil =>
    cases hys
    exact .nil
  | cons y rest ih =>
    rw [listToGuest] at hys
    cases hy : toGuest natives r y h with
    | mk answer h₁ =>
      rw [hy] at hys
      cases answer with
      | error e => cases hys
      | ok v =>
        dsimp only at hys
        cases hrest : listToGuest natives r rest h₁ with
        | mk answers h₂ =>
          rw [hrest] at hys
          cases answers with
          | error e => cases hys
          | ok others =>
            cases hys
            exact .cons ⟨h, h₁, hy⟩ (ih hrest)

end Marshal

/-! ## Calls by the guest -/

/-- What the guest gets from what a function of the host has come to. -/
structure HandsOver (q : RuntimeRef) (ran : Outcome (List HostValue) × World)
    (left : Outcome (List Value) × World) : Prop where
  /-- The guest forms of all results, in their order. -/
  results : ∀ ys w' vs h, ran = (.value ys, w') →
    listToGuest w'.natives q ys w'.heap = (.ok vs, h) →
    List.Forall₂ (fun y v => ∃ h₁ h₂, Marshal.toGuest w'.natives q y h₁ = (.ok v, h₂)) ys vs ∧
      left = (.value vs, { w' with heap := h })
  /-- An error, if one result has no guest form. -/
  refused : ∀ ys w' e h, ran = (.value ys, w') →
    listToGuest w'.natives q ys w'.heap = (.error e, h) →
    left = (.error (.user ⟨h.users.size⟩), World.raised { w' with heap := h } (.marshal e))
  /-- The error of the function, if it has failed. -/
  failed : ∀ v w', ran = (.error v, w') → left = (.error v, w')

/-- An argument without a host form is raised as a failure, and nothing else happens. -/
theorem run_hostBody_of_error (hd : Handler) (code : HostCall → Program (List HostValue))
    (c : LibraryCall) {w : World} {e : MarshalError}
    (hargs : Marshal.listToHost w.heap c.args = .error e) :
    hd.run (Guest.hostBody code c) w =
      (.error (.user ⟨w.heap.users.size⟩), w.raised (.marshal e)) := by
  have ha : Marshal.listToHost (w.answer .heap).1 c.args = .error e := hargs
  rw [Guest.hostBody, Handler.run_ask_bind, ha]
  rfl

section Calls

variable {n b : Nat} {r q : RuntimeRef} {w : World} {g : GuestFunction} {f : HostFunction}
  {args : List Value} {sites : CallSites}

/-- A call of a function of the host runs in the runtime of the function. -/
theorem call_host (hg : w.heap.function? g = some ⟨q, .host f⟩)
    (enters : (sites.isBoundary && b = 0) = false) :
    (handlerWithin (n + 1) b r).call (.func g) args sites w =
      (handlerWithin n (if sites.isBoundary then b - 1 else b) q).run
        (Guest.hostBody (w.bodyOfHost f) ⟨q, sites, "?", args⟩) w := by
  have hbody : Guest.bodyOf w r (.func g) args sites =
      (q, Guest.hostBody (w.bodyOfHost f) ⟨q, sites, "?", args⟩) := by rw [Guest.bodyOf, hg]
  rw [call_of_enters w enters, hbody]

/-- With arguments that have host forms the function runs once, and its results are handed over. -/
theorem handsOver_of_forms (hg : w.heap.function? g = some ⟨q, .host f⟩)
    (enters : (sites.isBoundary && b = 0) = false) {xs : List HostValue}
    (hxs : List.Forall₂ (fun v x => Marshal.toHost w.heap v = .ok x) args xs) :
    HandsOver q
      ((handlerWithin n (if sites.isBoundary then b - 1 else b) q).run (w.bodyOfHost f
        { args := xs, io := w.ioFor (w.runtime q).context?,
          context? := (w.runtime q).context? }) w)
      ((handlerWithin (n + 1) b r).call (.func g) args sites w) := by
  let c : LibraryCall := ⟨q, sites, "?", args⟩
  rw [call_host hg enters, run_hostBody _ _ c (Marshal.listToHost_eq_ok_iff.2 hxs)]
  refine ⟨fun ys w' vs h hran hys => ⟨Marshal.forall₂_of_listToGuest hys, ?_⟩,
    fun ys w' e h hran hys => ?_, fun v w' hran => Handler.run_bind_of_error hran⟩
  · rw [Handler.run_bind_of_value hran, run_guestResults, hys]
  · rw [Handler.run_bind_of_value hran, run_guestResults, hys]

/-- With one that has none the function does not run. -/
theorem call_of_not_convertible (hg : w.heap.function? g = some ⟨q, .host f⟩)
    (enters : (sites.isBoundary && b = 0) = false) {v : Value} (hv : v ∈ args)
    (hnot : ¬ IsConvertible w.heap v) :
    ∃ e, (handlerWithin (n + 1) b r).call (.func g) args sites w =
      (.error (.user ⟨w.heap.users.size⟩), w.raised (.marshal e)) := by
  obtain ⟨e, he⟩ := Marshal.exists_error_of_not_convertible hv hnot
  rw [call_host hg enters]
  exact ⟨e, run_hostBody_of_error _ _ ⟨q, sites, "?", args⟩ he⟩

end Calls

/-! ## Calls through a session -/

/-- A function of the host returns results that depend on nothing but its arguments. -/
def Handler.Computes (hd : Handler) (code : HostCall → Program (List HostValue))
    (φ : List HostValue → List HostValue) : Prop :=
  ∀ call w, ∃ w', hd.run (code call) w = (.value (φ call.args), w')

/-- Leaving a scope touches its table and its streams only. -/
theorem agreesFrom_left {scope : StreamScope} {base users : Nat} (hio : scope.io.id < base)
    (hstreams : ∀ e ∈ scope.streams, e.2.1.id < users) (h : Heap) :
    AgreesFrom base users h
      (StreamScope.restored scope.io scope.streams (StreamScope.closed scope.streams h)) := by
  obtain ⟨htables, husers⟩ := StreamScope.sizes_closed scope.streams h
  refine ⟨?_, fun t ht _ => ?_, ?_, fun u hu _ => ?_⟩
  · rw [StreamScope.size_restored, htables]
  · have hne : scope.io ≠ t := by
      rintro rfl
      omega
    rw [StreamScope.table_restored hne, StreamScope.table_closed]
  · rw [StreamScope.users_restored, husers]
  · have hne : ∀ e ∈ scope.streams, e.2.1.id ≠ u.id := by
      intro e he heq
      have := hstreams e he
      omega
    have hleft := StreamScope.user_closed_of_ne hne h
    rw [Heap.user] at hleft ⊢
    rwa [StreamScope.users_restored]

section Sessions

variable {n b : Nat} {r q : RuntimeRef} {s : SessionRef} {context : Context} {w : World}
  {g : GuestFunction} {f : HostFunction} {args : List HostValue}
  {φ : List HostValue → List HostValue}

/-- Where its arguments are read as `xs`, such a function hands over guest forms of what it computes
from them, and these are read as images in every later state that agrees. -/
theorem exists_results_of_computes (hg : w.heap.function? g = some ⟨q, .host f⟩)
    (hcomputes : (handlerWithin n b q).Computes (w.bodyOfHost f) φ) {vs : List Value}
    {xs : List HostValue} (hxs : Marshal.listToHost w.heap vs = .ok xs)
    (hresults : ∀ y ∈ φ xs, Survives y) :
    ∃ rs w' h ys, (handlerWithin (n + 1) (b + 1) r).call (.func g) vs [.host] w =
        (.value rs, { w' with heap := h }) ∧ World.Evolves Adds w w' ∧
      List.Forall₂ (IsImage w'.natives q) (φ xs) ys ∧
      ∀ h', AgreesFrom w'.heap.tables.size w'.heap.users.size h h' →
        Marshal.listToHost h' rs = .ok ys := by
  let call : HostCall :=
    { args := xs, io := w.ioFor (w.runtime q).context?, context? := (w.runtime q).context? }
  obtain ⟨w', hran⟩ := hcomputes call w
  have hevolves := (World.Evolves.kept Adds.evolves).run n b q (w.bodyOfHost f call) w
  rw [hran] at hevolves
  obtain ⟨rs, h, ys, hrs, -, himages, hreads⟩ :=
    Marshal.exists_images hresults w'.natives q w'.heap
  have hhands : HandsOver q ((handlerWithin n b q).run (w.bodyOfHost f call) w)
      ((handlerWithin (n + 1) (b + 1) r).call (.func g) vs [.host] w) :=
    @handsOver_of_forms n (b + 1) r q w g f vs [.host] hg rfl xs
      (Marshal.listToHost_eq_ok_iff.1 hxs)
  exact ⟨rs, w', h, ys, (hhands.results _ _ _ _ hran hrs).2, hevolves, himages, hreads⟩

/-- **A function of the host that a session calls** gets images of the arguments, and if its results
depend on nothing else, the caller gets images of what it computes from them. -/
theorem exists_call_of_computes (hg : w.heap.function? g = some ⟨q, .host f⟩)
    (hf : f.id < w.hostFunctions.size) (hnatives : NativesEvolve Adds w.natives)
    (hcomputes : (handlerWithin n b q).Computes (w.bodyOfHost f) φ)
    (hopens : (Invocation.mk s context g args).Opens
      (handlerWithin (n + 1) (b + 1) (w.session s).runtime) w)
    (hargs : ∀ v ∈ args, Survives v) :
    ∃ xs, List.Forall₂ (IsImage w.natives (w.session s).runtime) args xs ∧
      ((∀ y ∈ φ xs, Survives y) → ∃ ys w',
        (handlerWithin (n + 2) (b + 1) r).run (s.call context g args).run w =
          (.value (.ok ys), w') ∧ List.Forall₂ (IsImage w.natives q) (φ xs) ys) := by
  let i : Invocation := ⟨s, context, g, args⟩
  obtain ⟨scope, w₀, he, hio⟩ := hopens
  obtain ⟨_, _, hopened⟩ := StreamScope.run_enter he.2.2
  -- the function is still there when the streams are open, and does the same
  have hevolves : World.Evolves Adds w w₀ :=
    (World.Evolves.kept Adds.evolves).enters (.begin Adds.evolves w i) he
  have hfunctions : StartsWith w.hostFunctions w₀.hostFunctions :=
    World.kept_hostFunctions.enters (by rw [i.begin_hostFunctions w]; exact .refl _) he
  have hbody : w₀.bodyOfHost f = w.bodyOfHost f :=
    World.bodyOfHost_eq (World.kept_hostCode.enters (i.begin_hostCode w) he) hfunctions hf
  have hg₀ := (hevolves.heap hnatives).function? hg
  -- the arguments
  obtain ⟨vs, h₁, xs, hvs, kept₁, himages, hreads⟩ :=
    Marshal.exists_images hargs w₀.natives (i.begin w).1.runtime w₀.heap
  have hbuilds : (handlerWithin (n + 1) (b + 1) (w.session s).runtime).run
      (Guest.guestValues (i.begin w).1.runtime args) w₀ =
        (.value (.ok vs), { w₀ with heap := h₁ }) := by rw [run_guestValues, hvs]
  rw [hevolves.natives] at himages
  refine ⟨xs, himages, fun hresults => ?_⟩
  -- the results
  let w₁ : World := { w₀ with heap := h₁ }
  have hcomputes₁ : (handlerWithin n b q).Computes (w₁.bodyOfHost f) φ := by
    rw [show w₁.bodyOfHost f = w.bodyOfHost f from hbody]
    exact hcomputes
  have hg₁ : w₁.heap.function? g = some ⟨q, .host f⟩ :=
    (Adds.evolves.of_keeps kept₁).function? hg₀
  obtain ⟨rs, w₂, h₃, ys, hcall, hgrown, himages', hreads'⟩ :=
    exists_results_of_computes (w := w₁) (r := (w.session s).runtime) hg₁ hcomputes₁
      (hreads h₁ (.refl ..)) hresults
  have hsizes := hgrown.heap (by rw [hevolves.natives]; exact hnatives)
  obtain ⟨w', hr, hheap⟩ := run_call_of_returned (r := r) he hbuilds hcall
  -- the streams are older than the results
  have hagrees : AgreesFrom w₂.heap.tables.size w₂.heap.users.size h₃ w'.heap := by
    rw [hheap]
    refine agreesFrom_left ?_ (fun e hm => ?_) h₃
    · exact Nat.lt_of_lt_of_le hio (Nat.le_trans kept₁.tables.size hsizes.tables)
    · have hlt := Heap.Grows.user_lt (hopened.stream e hm)
      exact Nat.lt_of_lt_of_le hlt (Nat.le_trans kept₁.users.size hsizes.users)
  rw [hgrown.natives, hevolves.natives] at himages'
  refine ⟨ys, w', ?_, himages'⟩
  rw [hr, hreads' w'.heap hagrees]
  rfl

end Sessions

/-! ## The main result -/

/-- **Functions of the host, called by the guest and through a session.**  A function of the host
that is passed to a guest comes back as a callable.  A guest that calls it with arguments that all
have host forms runs it once, with these in their order, and gets the guest forms of all results, or
an error if one of them has none; with an argument that has no host form the function does not run,
and nothing has happened but that a failure was raised.  A call that nests too deep is an error
before that.  A session whose streams can be opened calls a function whose results depend on nothing
but its arguments with images of its own arguments, and gets images of the results. -/
theorem host_functions :
    (∀ (natives : Array Marshal.NativeForm) (r : RuntimeRef) (f : HostFunction) (h : Heap),
      ∃ g h', Marshal.toGuest natives r (.function f) h = (.ok (.func g), h') ∧
        Marshal.toHost h' (.func g) = .ok (.callable g) ∧
        h'.function? g = some ⟨r, .host f⟩) ∧
    ∀ (w : World) (g : GuestFunction) (q : RuntimeRef) (f : HostFunction),
      w.heap.function? g = some ⟨q, .host f⟩ →
      (∀ (n b : Nat) (r : RuntimeRef) (args : List Value) (sites : CallSites),
        (n = 0 ∨ (sites.isBoundary && b = 0) = true) →
        ∃ e, (handlerWithin n b r).call (.func g) args sites w = (.error e, w)) ∧
      (∀ (n b : Nat) (r : RuntimeRef) (args : List Value) (sites : CallSites),
        (sites.isBoundary && b = 0) = false →
        let context? := (w.runtime q).context?
        let ran (xs : List HostValue) :=
          (handlerWithin n (if sites.isBoundary then b - 1 else b) q).run
            (w.bodyOfHost f { args := xs, io := w.ioFor context?, context? := context? }) w
        let left := (handlerWithin (n + 1) b r).call (.func g) args sites w
        ((∀ v ∈ args, IsConvertible w.heap v) →
          ∃ xs, List.Forall₂ (fun v x => Marshal.toHost w.heap v = .ok x) args xs ∧
            HandsOver q (ran xs) left) ∧
        ((∃ v ∈ args, ¬ IsConvertible w.heap v) →
          ∃ e, left = (.error (.user ⟨w.heap.users.size⟩), w.raised (.marshal e)))) ∧
      ∀ (n b : Nat) (r : RuntimeRef) (s : SessionRef) (context : Context) (args : List HostValue)
        (φ : List HostValue → List HostValue),
        f.id < w.hostFunctions.size → NativesEvolve Adds w.natives →
        (handlerWithin n b q).Computes (w.bodyOfHost f) φ →
        (Invocation.mk s context g args).Opens
          (handlerWithin (n + 1) (b + 1) (w.session s).runtime) w →
        (∀ v ∈ args, Survives v) →
        ∃ xs, List.Forall₂ (IsImage w.natives (w.session s).runtime) args xs ∧
          ((∀ y ∈ φ xs, Survives y) → ∃ ys w',
            (handlerWithin (n + 2) (b + 1) r).run (s.call context g args).run w =
              (.value (.ok ys), w') ∧ List.Forall₂ (IsImage w.natives q) (φ xs) ys) := by
  refine ⟨fun natives r f h => ⟨⟨h.functions.size⟩, _, rfl, ?_, ?_⟩, fun w g q f hg =>
    ⟨fun n b r args sites hdeep => exists_error_of_tooDeep w hdeep,
      fun n b r args sites enters => ⟨fun hargs => ?_, ?_⟩,
      fun n b r s context args φ hf hnatives hcomputes hopens hargs =>
        exists_call_of_computes hg hf hnatives hcomputes hopens hargs⟩⟩
  · rw [Marshal.toHost, Marshal.toHostWithin]
  · exact Array.getElem?_push_size
  · obtain ⟨xs, hxs⟩ := Marshal.exists_forms hargs
    exact ⟨xs, hxs, handsOver_of_forms hg enters hxs⟩
  · rintro ⟨v, hv, hnot⟩
    exact call_of_not_convertible hg enters hv hnot

/-- A function that turns its arguments around, in a session with an `io` table: called by the guest
with two numbers, with one of the guest's coroutines, and by the session with two numbers. -/
theorem host_functions_reverse :
    let globals : Guest.Table :=
      { slots := [(.text "io", .table ⟨1⟩)], distinct := List.pairwise_singleton _ _ }
    let w : World :=
      { heap :=
          { tables := #[globals, {}], functions := #[⟨⟨0⟩, .host ⟨0, false⟩⟩] }
        runtimes := #[{ runtime := { (default : Guest.Runtime) with globals := ⟨0⟩ } }]
        shells := #[{ io := default }]
        sessions := #[default]
        hostCode := #[fun _ call => .done call.args.reverse]
        hostFunctions := #[(0, [])] }
    let calls (args : List Value) := (handlerWithin 1 1 ⟨0⟩).call (.func ⟨0⟩) args [.host] w
    (∃ w', calls [.int 1, .int 2] = (.value [.int 2, .int 1], w')) ∧
    (∃ e, calls [.int 1, .thread ⟨0⟩] = (.error (.user ⟨0⟩), w.raised (.marshal e))) ∧
    ∃ w', (handlerWithin 2 1 ⟨0⟩).run (SessionRef.call ⟨0⟩ ⟨0, default, none⟩ ⟨0⟩
      [.int 1, .int 2]).run w = (.value (.ok [.int 2, .int 1]), w') := by
  intro globals w calls
  obtain ⟨-, hcalls, hsession⟩ := host_functions.2 w ⟨0⟩ ⟨0⟩ ⟨0, false⟩ rfl
  have hnatives : NativesEvolve Adds w.natives := fun i form hform => nomatch hform
  have hform (i : Int64) : Marshal.toHost w.heap (.int i) = .ok (.int i) := by
    rw [Marshal.toHost, Marshal.toHostWithin]
  have himage {i : Int64} {x : HostValue} (hx : IsImage w.natives ⟨0⟩ (.int i) x) : x = .int i := by
    obtain ⟨h, hx⟩ := hx
    rw [Marshal.throughGuest_int] at hx
    exact (Except.ok.inj hx).symm
  have hsurvives (i j : Int64) : ∀ v ∈ [HostValue.int i, .int j], Survives v :=
    List.forall_mem_cons.2 ⟨⟨rfl, rfl, Nat.zero_le _⟩,
      List.forall_mem_singleton.2 ⟨rfl, rfl, Nat.zero_le _⟩⟩
  refine ⟨?_, ?_, ?_⟩
  · obtain ⟨xs, hxs, hhands⟩ := (hcalls 0 1 ⟨0⟩ [.int 1, .int 2] [.host] rfl).1
      (List.forall_mem_cons.2 ⟨⟨_, hform 1⟩, List.forall_mem_singleton.2 ⟨_, hform 2⟩⟩)
    obtain _ | ⟨h₁, _ | ⟨h₂, _ | _⟩⟩ := hxs
    cases (hform 1).symm.trans h₁
    cases (hform 2).symm.trans h₂
    exact ⟨_, (hhands.results [.int 2, .int 1] w [.int 2, .int 1] w.heap rfl rfl).2⟩
  · refine (hcalls 0 1 ⟨0⟩ [.int 1, .thread ⟨0⟩] [.host] rfl).2 ⟨.thread ⟨0⟩, by simp, ?_⟩
    rintro ⟨x, hx⟩
    rw [Marshal.toHost, Marshal.toHostWithin] at hx
    cases hx
  · obtain ⟨xs, hxs, hresults⟩ := hsession 0 0 ⟨0⟩ ⟨0⟩ ⟨0, default, none⟩ [.int 1, .int 2]
      List.reverse (by decide) hnatives (fun call w' => ⟨w', rfl⟩)
      (opens_of_global rfl rfl rfl (by decide)) (hsurvives 1 2)
    obtain _ | ⟨h₁, _ | ⟨h₂, _ | _⟩⟩ := hxs
    cases himage h₁
    cases himage h₂
    obtain ⟨ys, w', hr, hys⟩ := hresults (hsurvives 2 1)
    obtain _ | ⟨h₂, _ | ⟨h₁, _ | _⟩⟩ := hys
    cases himage h₁
    cases himage h₂
    exact ⟨w', hr⟩

/-- A session without an `io` table: the function returns its arguments, but calling it ends in an
error. -/
theorem host_function_unopened :
    let w : World :=
      { heap := { tables := #[{}], functions := #[⟨⟨0⟩, .host ⟨0, false⟩⟩] }
        runtimes := #[{ runtime := { (default : Guest.Runtime) with globals := ⟨0⟩ } }]
        shells := #[{ io := default }]
        sessions := #[default]
        hostCode := #[fun _ call => .done call.args]
        hostFunctions := #[(0, [])] }
    let context : Context := ⟨0, default, none⟩
    (w.session ⟨0⟩).closed = false ∧ w.signals.isCancelled context.signal = false ∧
      w.heap.function? ⟨0⟩ = some ⟨⟨0⟩, .host ⟨0, false⟩⟩ ∧
      (∀ hd : Handler, hd.Computes (w.bodyOfHost ⟨0, false⟩) id) ∧
      Survives (.int 1) ∧
      ∃ e w', (handlerWithin 3 1 ⟨0⟩).run
        (SessionRef.call ⟨0⟩ context ⟨0⟩ [.int 1]).run w = (.value (.error e), w') := by
  intro w context
  refine ⟨rfl, rfl, rfl, fun hd call w' => ⟨w', rfl⟩, ⟨rfl, rfl, by decide⟩, ?_⟩
  exact exists_error_of_value? (by decide +kernel)

end ScriptShell
