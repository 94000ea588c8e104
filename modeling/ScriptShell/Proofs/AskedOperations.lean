import ScriptShell.Proofs.Causes
import ScriptShell.Proofs.GuestCalls
import ScriptShell.Proofs.HeapGrowth

/-! # What a run asks for

Whatever runs in the end is the body of a function: guest code, a function of the library or one of
the host.  The first two ask for what guest code asks for, so a run asks for nothing but that, what
its own program asks for and what the functions of the host ask for (`Reaches.allowed`).  There are no
new functions of the host while programs run, so the last is fixed by the state in which the run
begins.  A property that none of these operations takes away is there at every moment and in the end
(`LostBy.holds_reaches`, `LostBy.holds_run`).
-/

namespace ScriptShell

open Guest (Value RuntimeRef)

variable {α : Type} {n b : Nat} {r : RuntimeRef} {asks : Operation → Prop}

/-! ## Functions of the host -/

theorem World.hostCode_setContext (w : World) (q : RuntimeRef) (c? : Option Context) :
    (w.setContext q c?).hostCode = w.hostCode := rfl

theorem Invocation.begin_hostCode (i : Invocation) (w : World) :
    (i.begin w).2.hostCode = w.hostCode := by
  unfold Invocation.begin
  dsimp only
  split
  · rfl
  · rfl

theorem World.hostFunctions_setContext (w : World) (q : RuntimeRef) (c? : Option Context) :
    (w.setContext q c?).hostFunctions = w.hostFunctions := rfl

theorem Invocation.begin_hostFunctions (i : Invocation) (w : World) :
    (i.begin w).2.hostFunctions = w.hostFunctions := by
  unfold Invocation.begin
  dsimp only
  split
  · rfl
  · rfl

/-- Runs keep what functions of the host do. -/
theorem World.kept_hostCode : Kept fun w w' => w'.hostCode = w.hostCode where
  refl _ := rfl
  trans h h' := Eq.trans h' h
  answer w o := (w.framed_answer o).hostCode
  invokeOpen h i w hbody := by
    have hw := (hbody (i.begin w).1 (i.begin w).2).trans (i.begin_hostCode w)
    rw [h.invokeOpen_snd]
    exact (World.hostCode_setContext ..).trans hw

/-- And which of them there are. -/
theorem World.kept_hostFunctions :
    Kept fun w w' => StartsWith w.hostFunctions w'.hostFunctions where
  refl w := .refl _
  trans h h' := h.trans h'
  answer w o := by
    rcases (w.framed_answer o).hostFunctions with h | ⟨code, values, withCall, rfl⟩
    · rw [h]
      exact .refl _
    · exact (StartsWith.refl _).push _
  invokeOpen h i w hbody := by
    have hw := hbody (i.begin w).1 (i.begin w).2
    rw [i.begin_hostFunctions w] at hw
    rw [h.invokeOpen_snd, World.hostFunctions_setContext]
    exact hw

/-- A function of the host does the same in the end of a run. -/
theorem World.bodyOfHost_eq {w w' : World} (hcode : w'.hostCode = w.hostCode)
    (hfunctions : StartsWith w.hostFunctions w'.hostFunctions) {f : HostFunction}
    (hf : f.id < w.hostFunctions.size) : w'.bodyOfHost f = w.bodyOfHost f := by
  funext call
  rw [World.bodyOfHost, World.bodyOfHost, hfunctions.get _ hf, hcode]

/-- Whether the functions of the host ask for nothing but what they may ask for. -/
def World.HostAsksOnly (asks : Operation → Prop) (w : World) : Prop :=
  ∀ code ∈ w.hostCode, ∀ values call, (code values call).AsksOnly asks

theorem World.HostAsksOnly.of_eq {w w' : World} (h : w.HostAsksOnly asks)
    (hw : w'.hostCode = w.hostCode) : w'.HostAsksOnly asks := by
  rw [World.HostAsksOnly, hw]
  exact h

/-! ## Bodies of functions -/

section Bodies

-- what may be asked for includes all that guest code asks for
variable (guest : ∀ o : Operation, o.isGuest = true → asks o)

include guest

theorem Guest.asksOnly_hostBody {code : HostCall → Program (List HostValue)}
    (hcode : ∀ call, (code call).AsksOnly asks) (c : Guest.LibraryCall) :
    (Guest.hostBody code c).AsksOnly asks := by
  have hvalue (x : HostValue) : (c.guestValue x).AsksOnly asks := (c.isGuest_guestValue x).mono guest
  refine .bind ⟨guest _ rfl, fun _ => trivial⟩ fun heap => ?_
  split
  · exact (Guest.isGuest_raiseFailure _).mono guest
  · refine .bind ⟨guest _ rfl, fun _ => trivial⟩ fun context? => ?_
    refine .bind ((Guest.isGuest_ioOf _).mono guest) fun io => ?_
    exact .bind (hcode _) fun results => .forAll hvalue _

/-- What calling a value does is done by guest code, the library or the host. -/
theorem Guest.asksOnly_bodyOf {w : World} (host : w.HostAsksOnly asks) (f : Value)
    (args : List Value) (sites : CallSites) : (Guest.bodyOf w r f args sites).2.AsksOnly asks := by
  have hbody (q : RuntimeRef) (v : Value) : (Guest.callBody w.heap q v args sites).AsksOnly asks :=
    (Guest.isGuest_callBody ..).mono guest
  have hcode (g : HostFunction) (call : HostCall) : (w.bodyOfHost g call).AsksOnly asks := by
    unfold World.bodyOfHost
    split
    · trivial
    · split
      · trivial
      · next hcode => exact host _ (Array.mem_of_getElem? hcode) _ _
  unfold Guest.bodyOf
  split
  · split
    · exact Guest.asksOnly_hostBody guest (hcode _) _
    · next g _ q _ _ _ => exact hbody q (.func g)
    · trivial
  · exact hbody r _

/-- **What a run asks for at any moment is something that its program, the functions of the host or
guest code may ask for.** -/
theorem Reaches.asksOnly {p : Program α} {w : World} {m : Moment} (hm : Reaches n b r p w m)
    (hp : p.AsksOnly asks) (host : w.HostAsksOnly asks) : m.rest.AsksOnly asks := by
  induction hm with
  | now => exact hp
  | perform _ ih => exact ih (hp.2 _) (host.of_eq (World.framed_answer _ _).hostCode)
  | inCall _ _ ih => exact ih (Guest.asksOnly_bodyOf guest host _ _ _) host
  | @afterCall n b r α f args sites k w w' m vs returns _ ih =>
    have hkept := World.kept_hostCode.call n b r f args sites w
    rw [returns] at hkept
    exact ih (hp _) (host.of_eq hkept)
  | @afterError n b r α f args sites k w w' m v fails _ ih =>
    have hkept := World.kept_hostCode.call n b r f args sites w
    rw [fails] at hkept
    exact ih (hp _) (host.of_eq hkept)
  | @inInvocation n b r α i k w m isOpen isWanted _ ih =>
    exact ih ((Guest.isGuest_callInScope ..).mono guest) (host.of_eq (i.begin_hostCode w))
  | @afterInvocation n b r α i k w w' m result returns _ ih =>
    have hkept := World.kept_hostCode.invoke n b r i w
    rw [returns] at hkept
    exact ih (hp _) (host.of_eq hkept)

theorem Reaches.allowed {p : Program α} {w : World} {m : Moment} (hm : Reaches n b r p w m)
    (hp : p.AsksOnly asks) (host : w.HostAsksOnly asks) {o : Operation} (hasks : m.Asks o) :
    asks o := by
  obtain ⟨k, hk⟩ := hasks
  have hrest := hm.asksOnly guest hp host
  rw [hk] at hrest
  exact hrest.1

/-! ## Properties that are kept -/

section Kept

variable {P : World → Prop} (lost : LostBy P (¬ asks ·)) {p : Program α} {w : World}
  (hp : p.AsksOnly asks) (host : w.HostAsksOnly asks)

include lost hp host

theorem LostBy.holds_run (n b : Nat) (r : RuntimeRef) (hw : P w) :
    P ((handlerWithin n b r).run p w).2 := by
  refine Classical.byContradiction fun hend => ?_
  obtain ⟨m, o, hm, hasks, ho⟩ := lost.occurs_run n b r p w hw hend
  exact ho (hm.allowed guest hp host hasks)

theorem LostBy.holds_reaches {m : Moment} (hm : Reaches n b r p w m) (hw : P w) : P m.world := by
  refine Classical.byContradiction fun hlost => ?_
  obtain ⟨m', o, hm', hasks, ho⟩ := lost.occurs_reaches hm hw hlost
  exact ho (hm'.allowed guest hp host hasks)

end Kept
end Bodies
end ScriptShell
