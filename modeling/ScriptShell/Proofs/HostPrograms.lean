import ScriptShell.Proofs.Moments
import ScriptShell.Session.Scripts

/-! # Programs of the host

What the host does of its own handles every error and comes to the guest by invocations only.  Such a
program is confined to what it may ask for and to the invocations that it may make
(`Program.Confined`), whatever it is answered.  Being confined is read off the program alone, it is
kept by every way to put programs together, and it allows more where more is allowed
(`Confined.mono`), so a program is gone through once and what follows from it is told from there: no
error of the guest gets past it (`Confined.run_ne_error`), and what it asks for outside all
invocations is one of the operations that it may ask for (`Confined.allowed`).
-/

namespace ScriptShell

open Guest (Value RuntimeRef)

namespace Program

variable {α β : Type} {asks asks' : Operation → Prop} {invokes invokes' : Invocation → Prop}

/-- Whether a program runs guest code by invocations only and handles all errors, asks for nothing
but what it may ask for, and makes no invocations but those that it may make. -/
def Confined (asks : Operation → Prop) (invokes : Invocation → Prop) : Program α → Prop
  | .done _ => True
  | .perform o k => asks o ∧ ∀ x, (k x).Confined asks invokes
  | .invoke i k => invokes i ∧ ∀ result, (k result).Confined asks invokes
  | .raise _ | .exhausted | .call .. => False

namespace Confined

/-- It is confined where more is allowed. -/
theorem mono {p : Program α} (hp : p.Confined asks invokes) (ha : ∀ o, asks o → asks' o)
    (hi : ∀ i, invokes i → invokes' i) : p.Confined asks' invokes' := by
  induction p with
  | done a => trivial
  | raise v => exact hp
  | exhausted => exact hp
  | perform o k ih => exact ⟨ha o hp.1, fun x => ih x (hp.2 x)⟩
  | call f args sites k ih => exact hp
  | invoke i k ih => exact ⟨hi i hp.1, fun result => ih result (hp.2 result)⟩

/-! ## Programs made of others -/

theorem ask {o : Operation} (ho : asks o) : (Program.ask o).Confined asks invokes :=
  ⟨ho, fun _ => trivial⟩

theorem andThen {p : Program α} {f : α → Program β} (hp : p.Confined asks invokes)
    (hf : ∀ a, (f a).Confined asks invokes) : (p >>= f).Confined asks invokes := by
  show (p.bind f).Confined asks invokes
  induction p with
  | done a => exact hf a
  | raise v => exact hp
  | exhausted => exact hp
  | perform o k ih => exact ⟨hp.1, fun x => ih x (hp.2 x)⟩
  | call f args sites k ih => exact hp
  | invoke i k ih => exact ⟨hp.1, fun result => ih result (hp.2 result)⟩

/-- It asks for something that it may ask for, and goes on. -/
theorem asking {o : Operation} (ho : asks o) {f : o.Answer → Program β}
    (hf : ∀ x, (f x).Confined asks invokes) : (Program.ask o >>= f).Confined asks invokes := ⟨ho, hf⟩

theorem forAll {f : α → Program β} (hf : ∀ a, (f a).Confined asks invokes) (as : List α) :
    (Program.forAll f as).Confined asks invokes := by
  induction as with
  | nil => trivial
  | cons a rest ih => exact (hf a).andThen fun _ => ih.andThen fun _ => trivial

/-- Programs of a session go on with a value and end with an error. -/
theorem thenDo {p : SessionProgram α} {f : α → SessionProgram β} (hp : p.run.Confined asks invokes)
    (hf : ∀ a, (f a).run.Confined asks invokes) : (p >>= f).run.Confined asks invokes := by
  refine andThen hp fun result => ?_
  cases result with
  | ok a => exact hf a
  | error e => trivial

theorem lift {p : Program α} (hp : p.Confined asks invokes) :
    (ExceptT.lift p : SessionProgram α).run.Confined asks invokes := hp.andThen fun _ => trivial

theorem sessionAsk {o : Operation} (ho : asks o) :
    (SessionProgram.ask o).run.Confined asks invokes := lift (ask ho)

/-- It asks for something that it may ask for, and goes on. -/
theorem sessionAsking {o : Operation} (ho : asks o) {f : o.Answer → SessionProgram β}
    (hf : ∀ x, (f x).run.Confined asks invokes) :
    (SessionProgram.ask o >>= f).run.Confined asks invokes := ⟨ho, hf⟩

/-! ## Runs -/

section Runs

variable {n b : Nat} {r : RuntimeRef} {p : Program α} {w : World}

/-- It handles what its invocations come back with. -/
theorem quiet (hp : p.Confined asks invokes) : p.Quiet := by
  induction p with
  | done a => exact .done a
  | raise v => exact hp.elim
  | exhausted => exact hp.elim
  | perform o k ih => exact .perform o k fun x => ih x (hp.2 x)
  | call f args sites k ih => exact hp.elim
  | invoke i k ih => exact .invoke i k fun result => ih result (hp.2 result)

/-- No error of the guest gets past it. -/
theorem run_ne_error (hp : p.Confined asks invokes) (v : Value) :
    ((handlerWithin n b r).run p w).1 ≠ .error v :=
  Quiet.run_ne_error (handlerWithin_invoke_ne_error n b r) hp.quiet w v

/-- **What it asks for by itself, it may ask for**: a moment at which anything else is asked for is
inside an invocation. -/
theorem allowed (hp : p.Confined asks invokes) {m : Moment} (hm : Reaches n b r p w m)
    (hout : m.activations = []) {o : Operation} (hasks : m.Asks o) : asks o := by
  induction p generalizing w with
  | done a =>
    cases hm
    obtain ⟨_, he⟩ := hasks
    cases he
  | raise v => exact hp.elim
  | exhausted => exact hp.elim
  | perform o' k ih =>
    cases hm with
    | now =>
      obtain ⟨k', he⟩ := hasks
      cases he
      exact hp.1
    | perform later => exact ih _ (hp.2 _) later
  | call f args sites k ih => exact hp.elim
  | invoke i k ih =>
    cases hm with
    | now =>
      obtain ⟨_, he⟩ := hasks
      cases he
    | inInvocation isOpen isWanted inside =>
      exact absurd hout (List.append_ne_nil_of_right_ne_nil _ (List.cons_ne_nil _ _))
    | afterInvocation returns later => exact ih _ (hp.2 _) later

end Runs
end Confined
end Program
end ScriptShell
