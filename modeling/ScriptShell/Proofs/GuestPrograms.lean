import ScriptShell.Guest.Evaluator

/-! # Programs of the guest

Guest code asks for operations on the heap, on its pipes and on the properties of the shell, and for
nothing else: it takes no part in how the shell runs commands.  `Operation.isGuest` says which
operations these are.  `Program.AsksOnly` follows a program through everything that it can be
answered, so what holds of the operations in it holds in every run.  Here are the ways to put
programs together, the operators and metamethods, and the evaluation of syntax.

A proof follows its program: `bind` at each step, a case for each branch, and at the end the lemma
of the program that is asked for.  Where a definition recurses, so does the proof.
-/

namespace ScriptShell

open Guest (Value)

/-- Whether an operation is one of those that guest code comes to ask for: those on its heap, on its
pipes and files, and on the properties of the shell.  Not among them is what the shell does around a
command. -/
def Operation.isGuest : Operation → Bool
  | .tick | .heap | .newTable _ | .table _ | .setSlot .. | .setMetatable .. | .growArray ..
  | .newCell _ | .cell _ | .setCell .. | .newFunction _ | .function _ | .newUser _ | .user _
  | .closeUser _ | .setFileRest .. | .newThread _ | .toGuest .. | .runtime _ | .context _
  | .write .. | .read .. | .processIo | .isCancelled _ | .host | .setProperty .. | .bindKey ..
  | .shell _ | .files => true
  | _ => false

namespace Program

variable {α β : Type} {asks asks' : Operation → Prop}

/-- Whether a program asks for nothing but what it may ask for, whatever it is answered.  What the
functions that it calls ask for is not its own. -/
def AsksOnly (asks : Operation → Prop) : Program α → Prop
  | .done _ | .raise _ | .exhausted => True
  | .perform o k => asks o ∧ ∀ x, (k x).AsksOnly asks
  | .call _ _ _ k => ∀ x, (k x).AsksOnly asks
  | .invoke _ k => ∀ x, (k x).AsksOnly asks

namespace AsksOnly

theorem mono {p : Program α} (hp : p.AsksOnly asks) (ha : ∀ o, asks o → asks' o) :
    p.AsksOnly asks' := by
  induction p with
  | done a => trivial
  | raise v => trivial
  | exhausted => trivial
  | perform o k ih => exact ⟨ha o hp.1, fun x => ih x (hp.2 x)⟩
  | call f args sites k ih => exact fun x => ih x (hp x)
  | invoke i k ih => exact fun x => ih x (hp x)

theorem bind {p : Program α} {f : α → Program β} (hp : p.AsksOnly asks)
    (hf : ∀ a, (f a).AsksOnly asks) : (p >>= f).AsksOnly asks := by
  show (p.bind f).AsksOnly asks
  induction p with
  | done a => exact hf a
  | raise v => trivial
  | exhausted => trivial
  | perform o k ih => exact ⟨hp.1, fun x => ih x (hp.2 x)⟩
  | call g args sites k ih => exact fun x => ih x (hp x)
  | invoke i k ih => exact fun x => ih x (hp x)

theorem attempt {p : Program α} (hp : p.AsksOnly asks) : p.attempt.AsksOnly asks := by
  induction p with
  | done a => trivial
  | raise v => trivial
  | exhausted => trivial
  | perform o k ih => exact ⟨hp.1, fun x => ih x (hp.2 x)⟩
  | call g args sites k ih => exact fun x => ih x (hp x)
  | invoke i k ih => exact fun x => ih x (hp x)

theorem forAll {f : α → Program β} (hf : ∀ a, (f a).AsksOnly asks) (as : List α) :
    (Program.forAll f as).AsksOnly asks := by
  induction as with
  | nil => trivial
  | cons a rest ih => exact bind (hf a) fun _ => bind ih fun _ => trivial

end AsksOnly

/-- A program that asks for nothing but what guest code asks for. -/
def IsGuest (p : Program α) : Prop := p.AsksOnly (·.isGuest = true)

namespace IsGuest

theorem pure (a : α) : (Pure.pure a : Program α).IsGuest := trivial

theorem raise (v : Value) : (Program.raise v : Program α).IsGuest := trivial

theorem exhausted : (Program.exhausted : Program α).IsGuest := trivial

theorem ask {o : Operation} (ho : o.isGuest = true) : (Program.ask o).IsGuest :=
  ⟨ho, fun _ => trivial⟩

theorem bind {p : Program α} {f : α → Program β} (hp : p.IsGuest)
    (hf : ∀ a, (f a).IsGuest) : (p >>= f).IsGuest := AsksOnly.bind hp hf

/-- A check, and then the rest. -/
theorem checked {c : Prop} [Decidable c] {p : Program α} {q : Program β} (hp : p.IsGuest)
    (hq : q.IsGuest) : (if c then p >>= fun _ => q else q).IsGuest := by
  split
  · exact bind hp fun _ => hq
  · exact hq

/-- One of two programs, and then the rest. -/
theorem either {c : Prop} [Decidable c] {p q : Program α} {f : α → Program β} (hp : p.IsGuest)
    (hq : q.IsGuest) (hf : ∀ a, (f a).IsGuest) :
    (if c then p >>= f else q >>= f).IsGuest := by
  split
  · exact bind hp hf
  · exact bind hq hf

theorem attempt {p : Program α} (hp : p.IsGuest) : p.attempt.IsGuest :=
  AsksOnly.attempt hp

theorem forAll {f : α → Program β} (as : List α) (hf : ∀ a, (f a).IsGuest) :
    (Program.forAll f as).IsGuest := AsksOnly.forAll hf as

theorem call {f : Value} {args : List Value} {sites : CallSites}
    {k : Except Value (List Value) → Program α} (hk : ∀ x, (k x).IsGuest) :
    (Program.call f args sites k).IsGuest := hk

theorem callValue (f : Value) (args : List Value) (sites : CallSites) :
    (Program.callValue f args sites).IsGuest := by
  intro x
  cases x with
  | ok vs => trivial
  | error v => trivial

/-- Programs in a list, one after the other. -/
theorem forAll_id {ps : List (Program α)} (hp : ∀ p ∈ ps, p.IsGuest) :
    (Program.forAll id ps).IsGuest := by
  induction ps with
  | nil => trivial
  | cons p rest ih =>
    exact bind (hp p (List.mem_cons_self ..)) fun _ =>
      bind (ih fun q hq => hp q (List.mem_cons_of_mem _ hq)) fun _ => trivial

end IsGuest

/-- Whether every value that a program ends with has a property, whatever it is answered. -/
def Gives (Q : α → Prop) : Program α → Prop
  | .done a => Q a
  | .raise _ | .exhausted => True
  | .perform _ k => ∀ x, (k x).Gives Q
  | .call _ _ _ k => ∀ x, (k x).Gives Q
  | .invoke _ k => ∀ x, (k x).Gives Q

namespace Gives

variable {Q : α → Prop} {Q' : β → Prop}

theorem pure {a : α} (ha : Q a) : (Pure.pure a : Program α).Gives Q := ha

theorem bind {p : Program α} {f : α → Program β} (hp : p.Gives Q)
    (hf : ∀ a, Q a → (f a).Gives Q') : (p >>= f).Gives Q' := by
  show (p.bind f).Gives Q'
  induction p with
  | done a => exact hf a hp
  | raise v => trivial
  | exhausted => trivial
  | perform o k ih => exact fun x => ih x (hp x)
  | call g args sites k ih => exact fun x => ih x (hp x)
  | invoke i k ih => exact fun x => ih x (hp x)

theorem of_forall {p : Program α} (hQ : ∀ a, Q a) : p.Gives Q := by
  induction p with
  | done a => exact hQ a
  | raise v => trivial
  | exhausted => trivial
  | perform o k ih => exact ih
  | call g args sites k ih => exact ih
  | invoke i k ih => exact ih

/-- What comes after a program that gives any value. -/
theorem after {p : Program α} {f : α → Program β} (hf : ∀ a, (f a).Gives Q') :
    (p >>= f).Gives Q' := bind (Q := fun _ => True) (of_forall fun _ => trivial) fun a _ => hf a

theorem pureBind {a : α} {f : α → Program β} (hf : (f a).Gives Q') :
    (Pure.pure a >>= f : Program β).Gives Q' := hf

/-- What comes after a program of the guest need only be one for the values that this gives. -/
theorem isGuest_bind {p : Program α} {f : α → Program β} (hp : p.IsGuest) (hQ : p.Gives Q)
    (hf : ∀ a, Q a → (f a).IsGuest) : (p >>= f).IsGuest := by
  show (p.bind f).IsGuest
  induction p with
  | done a => exact hf a hQ
  | raise v => trivial
  | exhausted => trivial
  | perform o k ih => exact ⟨hp.1, fun x => ih x (hp.2 x) (hQ x)⟩
  | call g args sites k ih => exact fun x => ih x (hp x) (hQ x)
  | invoke i k ih => exact fun x => ih x (hp x) (hQ x)

end Gives
end Program

open Program (IsGuest Gives)

namespace Guest

/-! ## Operators -/

theorem isGuest_metatable? (r : RuntimeRef) (v : Value) : (metatable? r v).IsGuest := by
  unfold metatable?
  split
  · exact .bind (.ask rfl) fun _ => .pure _
  · exact .bind (.ask rfl) fun _ => .pure _
  · refine .bind (.ask rfl) fun _ => .bind (.ask rfl) fun _ => ?_
    split <;> exact .pure _
  · exact .pure _

theorem isGuest_metamethod (r : RuntimeRef) (v : Value) (event : String) :
    (metamethod r v event).IsGuest := by
  unfold metamethod
  refine .bind (isGuest_metatable? _ _) fun _ => ?_
  split
  · exact .bind (.ask rfl) fun _ => .pure _
  · exact .pure _

theorem isGuest_objectTypeName (r : RuntimeRef) (v : Value) :
    (objectTypeName r v).IsGuest := by
  unfold objectTypeName
  split
  · refine .bind (isGuest_metamethod _ _ _) fun _ => ?_
    split <;> exact .pure _
  · refine .bind (isGuest_metamethod _ _ _) fun _ => ?_
    split <;> exact .pure _
  · exact .pure _

namespace Here

variable (here : Here) (name? name'? : Option (String × String))

theorem isGuest_fail {α : Type} (message : String) :
    (here.fail message : Program α).IsGuest := IsGuest.raise _

theorem isGuest_failType {α : Type} (what : String) (v : Value) :
    (here.failType what v name? : Program α).IsGuest := by
  unfold failType
  exact .bind (isGuest_objectTypeName _ _) fun _ => here.isGuest_fail _

theorem isGuest_callFirst (event : String) (f : Value) (args : List Value) :
    (here.callFirst event f args).IsGuest := by
  unfold callFirst
  exact .bind (.callValue _ _ _) fun _ => .pure _

theorem isGuest_indexWithin (n : Nat) (v k : Value) : (here.indexWithin name? n v k).IsGuest := by
  induction n generalizing name? v k with
  | zero => exact isGuest_fail here _
  | succ n ih =>
    unfold indexWithin
    split
    · dsimp only
      refine .bind (.ask rfl) fun _ => ?_
      split
      all_goals
        split
        · exact .pure _
        · split
          · exact .pure _
          · refine .bind (.ask rfl) fun _ => ?_
            split
            · exact .pure _
            · refine .bind (.pure _) fun _ => ?_
              split
              · exact here.isGuest_callFirst _ _ _
              · exact ih _ _ _
    · dsimp only
      refine .bind (isGuest_metamethod _ _ _) fun _ => ?_
      refine .checked (here.isGuest_failType _ _ _) ?_
      refine .bind (.pure _) fun _ => ?_
      split
      · exact here.isGuest_callFirst _ _ _
      · exact ih _ _ _

theorem isGuest_index (v k : Value) : (here.index name? v k).IsGuest :=
  isGuest_indexWithin here name? _ v k

theorem isGuest_rawSet (t : TableRef) (k v : Value) : (here.rawSet t k v).IsGuest := by
  unfold rawSet
  split
  · exact .ask rfl
  · exact here.isGuest_fail _

theorem isGuest_setIndexWithin (n : Nat) (o k v : Value) :
    (here.setIndexWithin name? n o k v).IsGuest := by
  induction n generalizing name? o k v with
  | zero => exact isGuest_fail here _
  | succ n ih =>
    unfold setIndexWithin
    split
    · refine IsGuest.bind (IsGuest.ask rfl) fun _ => ?_
      dsimp only
      split
      all_goals
        split
        · exact .bind (here.isGuest_rawSet _ _ _) fun _ => .pure _
        · split
          · exact .bind (here.isGuest_rawSet _ _ _) fun _ => .pure _
          · refine .bind (.ask rfl) fun _ => ?_
            split
            · exact .bind (here.isGuest_rawSet _ _ _) fun _ => .pure _
            · refine .bind (.pure _) fun _ => ?_
              split
              · exact .bind (here.isGuest_callFirst _ _ _) fun _ => .pure _
              · exact ih _ _ _ _
    · dsimp only
      refine .bind (isGuest_metamethod _ _ _) fun _ => ?_
      refine .checked (here.isGuest_failType _ _ _) ?_
      refine .bind (.pure _) fun _ => ?_
      split
      · exact .bind (here.isGuest_callFirst _ _ _) fun _ => .pure _
      · exact ih _ _ _ _

theorem isGuest_setIndex (o k v : Value) : (here.setIndex name? o k v).IsGuest :=
  isGuest_setIndexWithin here name? _ o k v

theorem isGuest_binaryHandler (a b : Value) (event : String) :
    (here.binaryHandler a b event).IsGuest := by
  unfold binaryHandler
  refine .bind (isGuest_metamethod _ _ _) fun _ => ?_
  split
  · exact isGuest_metamethod _ _ _
  · exact .pure _

theorem isGuest_arithmetic (op : BinaryOp) (a b : Value) :
    (here.arithmetic op a b name? name'?).IsGuest := by
  unfold arithmetic
  split
  · exact .pure _
  · exact here.isGuest_fail _
  · refine .bind (here.isGuest_binaryHandler _ _ _) fun _ => ?_
    split
    · exact here.isGuest_callFirst _ _ _
    · dsimp only
      split
      · split
        · exact here.isGuest_fail _
        · exact here.isGuest_failType _ _ _
      · exact here.isGuest_failType _ _ _

theorem isGuest_concat (a b : Value) : (here.concat a b name? name'?).IsGuest := by
  unfold concat
  split
  · exact .pure _
  · refine .bind (here.isGuest_binaryHandler _ _ _) fun _ => ?_
    split
    · exact here.isGuest_callFirst _ _ _
    · split <;> exact here.isGuest_failType _ _ _

theorem isGuest_equal (a b : Value) : (here.equal a b).IsGuest := by
  unfold equal
  split
  · exact .pure _
  · split
    · refine .bind (here.isGuest_binaryHandler _ _ _) fun _ => ?_
      split
      · exact .pure _
      · exact .bind (here.isGuest_callFirst _ _ _) fun _ => .pure _
    · refine .bind (here.isGuest_binaryHandler _ _ _) fun _ => ?_
      split
      · exact .pure _
      · exact .bind (here.isGuest_callFirst _ _ _) fun _ => .pure _
    · exact .pure _

theorem isGuest_ordered (strict : Bool) (a b : Value) :
    (here.ordered strict a b).IsGuest := by
  unfold ordered
  dsimp only
  split
  · exact .pure _
  · split
    · exact .pure _
    · refine .bind (here.isGuest_binaryHandler _ _ _) fun _ => ?_
      split
      · exact .bind (here.isGuest_callFirst _ _ _) fun _ => .pure _
      · refine .bind (isGuest_objectTypeName _ _) fun _ =>
          .bind (isGuest_objectTypeName _ _) fun _ => ?_
        split <;> exact here.isGuest_fail _

theorem isGuest_binary (op : BinaryOp) (a b : Value) :
    (here.binary op a b name? name'?).IsGuest := by
  unfold binary
  split
  · exact .bind (here.isGuest_equal _ _) fun _ => .pure _
  · exact .bind (here.isGuest_equal _ _) fun _ => .pure _
  · exact .bind (here.isGuest_ordered _ _ _) fun _ => .pure _
  · exact .bind (here.isGuest_ordered _ _ _) fun _ => .pure _
  · exact .bind (here.isGuest_ordered _ _ _) fun _ => .pure _
  · exact .bind (here.isGuest_ordered _ _ _) fun _ => .pure _
  · exact here.isGuest_concat _ _ _ _
  · exact here.isGuest_arithmetic _ _ _ _ _

theorem isGuest_length (a : Value) : (here.length a name?).IsGuest := by
  unfold length
  split
  · exact .pure _
  · refine .bind (isGuest_metamethod _ _ _) fun _ => ?_
    split
    · exact .bind (.ask rfl) fun _ => .pure _
    · exact here.isGuest_callFirst _ _ _
  · refine .bind (isGuest_metamethod _ _ _) fun _ => ?_
    split
    · exact here.isGuest_failType _ _ _
    · exact here.isGuest_callFirst _ _ _

theorem isGuest_unary (op : UnaryOp) (a : Value) : (here.unary op a name?).IsGuest := by
  unfold unary negate complement
  split
  · split
    · exact .pure _
    · exact .pure _
    · refine .bind (isGuest_metamethod _ _ _) fun _ => ?_
      split
      · exact here.isGuest_failType _ _ _
      · exact here.isGuest_callFirst _ _ _
  · split
    · exact .pure _
    · refine .bind (isGuest_metamethod _ _ _) fun _ => ?_
      split
      · exact here.isGuest_callFirst _ _ _
      · split
        · exact here.isGuest_fail _
        · exact here.isGuest_failType _ _ _
  · exact here.isGuest_length _ _
  · exact .pure _

theorem isGuest_toText (v : Value) : (here.toText v).IsGuest := by
  unfold toText
  refine .bind (isGuest_metamethod _ _ _) fun _ => ?_
  split
  · refine .bind (here.isGuest_callFirst _ _ _) fun _ => ?_
    split
    · exact .pure _
    · exact .pure _
    · exact .pure _
    · exact Here.isGuest_fail _ _
  · split
    · exact .pure _
    · exact .pure _
    · exact .pure _
    · exact .pure _
    · exact .pure _
    · exact .bind (isGuest_objectTypeName _ _) fun _ => .pure _

end Here

/-! ## Evaluation -/

theorem isGuest_iterate {σ : Type} {step : σ → Program (Flow ⊕ σ)}
    (hstep : ∀ s, (step s).IsGuest) (n : Nat) (s : σ) : (iterate step n s).IsGuest := by
  induction n generalizing s with
  | zero => exact IsGuest.exhausted
  | succ n ih =>
    unfold iterate
    refine .bind (hstep _) fun _ => ?_
    split
    · exact .pure _
    · exact .bind (.ask rfl) fun _ => ih _

theorem isGuest_single {p : Program (List Value)} (hp : p.IsGuest) :
    (single p).IsGuest := by
  unfold single
  exact .bind hp fun _ => .pure _

theorem isGuest_one {p : Program Value} (hp : p.IsGuest) : (one p).IsGuest := by
  unfold one
  exact .bind hp fun _ => .pure _

theorem isGuest_fill (t : TableRef) (n : Nat) (vs : List Value) :
    (fill t n vs).IsGuest := by
  induction vs generalizing n with
  | nil => exact IsGuest.pure _
  | cons v rest ih =>
    unfold fill
    exact .bind (.ask rfl) fun _ => ih _

theorem isGuest_flush (b : Building) : b.flush.IsGuest := by
  unfold Building.flush
  exact .bind (isGuest_fill _ _ _) fun _ => .pure _

theorem isGuest_push (b : Building) (v : Value) : (b.push v).IsGuest := by
  unfold Building.push
  dsimp only
  exact .either (isGuest_flush _) (.pure _) fun _ => .pure _

theorem isGuest_loopFloat (here : Here) (what : String) (v : Value) :
    (loopFloat here what v).IsGuest := by
  unfold loopFloat
  split
  · exact .pure _
  · exact .bind (isGuest_objectTypeName _ _) fun _ => here.isGuest_fail _

theorem isGuest_countInts (here : Here) (start step : Int64) (stop : Value) :
    (countInts here start step stop).IsGuest := by
  unfold countInts
  dsimp only
  refine .checked (here.isGuest_fail _) ?_
  split
  · exact .pure _
  · repeat' split
    all_goals exact .pure _
  · exact .bind (isGuest_loopFloat _ _ _) fun _ => .pure _

theorem isGuest_countFrom (here : Here) (start stop step : Value) :
    (countFrom here start stop step).IsGuest := by
  unfold countFrom
  split
  · exact isGuest_countInts _ _ _ _
  · refine .bind (isGuest_loopFloat _ _ _) fun _ => .bind (isGuest_loopFloat _ _ _) fun _ =>
      .bind (isGuest_loopFloat _ _ _) fun _ => ?_
    dsimp only
    refine .checked (here.isGuest_fail _) ?_
    repeat' split
    all_goals exact .pure _

namespace Frame

theorem isGuest_declare (f : Frame) (v : Value) : (f.declare v).IsGuest := by
  unfold declare
  exact .bind (.ask rfl) fun _ => .pure _

theorem isGuest_declareAll (f : Frame) (vs : List Value) :
    (f.declareAll vs).IsGuest := by
  induction vs generalizing f with
  | nil => exact IsGuest.pure f
  | cons v rest ih =>
    unfold declareAll
    exact .bind (f.isGuest_declare _) fun _ => ih _

theorem isGuest_closure (f : Frame) (p : Proto) : (f.closure p).IsGuest := by
  unfold closure
  exact .bind (.ask rfl) fun _ => .pure _

end Frame

theorem isGuest_assignAll (f : Frame) (ds : List (Destination × Value)) :
    (assignAll f ds).IsGuest := by
  induction ds with
  | nil => exact IsGuest.pure _
  | cons d rest ih =>
    unfold assignAll
    refine .bind ih fun _ => ?_
    split
    · exact .ask rfl
    · exact Here.isGuest_setIndex _ _ _ _ _

mutual

theorem isGuest_evalOpen (f : Frame) (tail : Bool) (e : Expr) :
    (evalOpen f tail e).IsGuest := by
  cases e with
  | index object key line =>
    -- the parts are evaluated in either order, depending on the first
    have ho := isGuest_evalOpen f false object
    have hk := isGuest_evalOpen f false key
    unfold evalOpen
    refine isGuest_one ?_
    split
    · exact .bind (isGuest_single hk) fun _ => .bind (isGuest_single ho) fun _ =>
        Here.isGuest_index _ _ _ _
    · exact .bind (isGuest_single ho) fun _ => .bind (isGuest_single hk) fun _ =>
        Here.isGuest_index _ _ _ _
  | call callee args line =>
    have hc := isGuest_evalOpen f false callee
    have ha := isGuest_evalAll f args
    unfold evalOpen
    exact .bind (isGuest_single hc) fun _ => .bind ha fun _ => .callValue _ _ _
  | method object name args line =>
    have ho := isGuest_evalOpen f false object
    have ha := isGuest_evalAll f args
    unfold evalOpen
    exact .bind (isGuest_single ho) fun _ => .bind (Here.isGuest_index _ _ _ _) fun _ =>
      .bind ha fun _ => .callValue _ _ _
  | binary op a b line =>
    have ha := isGuest_evalOpen f false a
    have hb := isGuest_evalOpen f false b
    unfold evalOpen
    refine isGuest_one ?_
    split
    · exact .bind (isGuest_single hb) fun _ => .bind (isGuest_single ha) fun _ =>
        Here.isGuest_binary _ _ _ _ _ _
    · exact .bind (isGuest_single ha) fun _ => .bind (isGuest_single hb) fun _ =>
        Here.isGuest_binary _ _ _ _ _ _
  | unary op a line =>
    have ha := isGuest_evalOpen f false a
    unfold evalOpen
    exact isGuest_one (.bind (isGuest_single ha) fun _ => Here.isGuest_unary _ _ _ _)
  | both a b =>
    have ha := isGuest_evalOpen f false a
    have hb := isGuest_evalOpen f false b
    unfold evalOpen
    refine isGuest_one ?_
    refine .bind (isGuest_single ha) fun _ => ?_
    split
    · exact isGuest_single hb
    · exact .pure _
  | either a b =>
    have ha := isGuest_evalOpen f false a
    have hb := isGuest_evalOpen f false b
    unfold evalOpen
    refine isGuest_one ?_
    refine .bind (isGuest_single ha) fun _ => ?_
    split
    · exact .pure _
    · exact isGuest_single hb
  | paren e =>
    have he := isGuest_evalOpen f false e
    unfold evalOpen
    exact isGuest_one (isGuest_single he)
  | table fields line =>
    have hf := fun b => isGuest_evalFields f line b fields
    unfold evalOpen
    exact isGuest_one (.bind (.ask rfl) fun _ => .bind (hf _) fun _ =>
      .bind (isGuest_flush _) fun _ => .pure _)
  | nil | bool | int | num | str =>
    unfold evalOpen
    exact isGuest_one (.pure _)
  | varargs =>
    unfold evalOpen
    exact .pure _
  | «variable» v name =>
    unfold evalOpen
    exact isGuest_one (.ask rfl)
  | function p =>
    unfold evalOpen
    exact isGuest_one (f.isGuest_closure _)
termination_by structural e

theorem isGuest_evalAll (f : Frame) (es : List Expr) : (evalAll f es).IsGuest := by
  cases es with
  | nil =>
    unfold evalAll
    exact .pure _
  | cons e rest =>
    have he := isGuest_evalOpen f false e
    have hrest := isGuest_evalAll f rest
    unfold evalAll
    cases rest with
    | nil => exact he
    | cons e' rest => exact .bind (isGuest_single he) fun _ => .bind hrest fun _ => .pure _
termination_by structural es

theorem isGuest_evalFields (f : Frame) (line : Nat) (b : Building)
    (fields : List Field) : (evalFields f line b fields).IsGuest := by
  cases fields with
  | nil =>
    unfold evalFields
    exact .pure _
  | cons field rest =>
    have hrest := fun b => isGuest_evalFields f line b rest
    cases field with
    | item e =>
      have he := isGuest_evalOpen f false e
      unfold evalFields
      cases rest with
      | nil =>
        refine .bind he fun _ => ?_
        split
        · exact .bind (isGuest_flush _) fun _ => .bind (.ask rfl) fun _ =>
            .bind (isGuest_fill _ _ _) fun _ => .pure _
        · exact isGuest_push _ _
      | cons field rest =>
        exact .bind (isGuest_single he) fun _ => .bind (isGuest_push _ _) fun _ => hrest _
    | entry key value =>
      have hk := isGuest_evalOpen f false key
      have hv := isGuest_evalOpen f false value
      unfold evalFields
      exact .bind (isGuest_single hk) fun _ => .bind (isGuest_single hv) fun _ =>
        .bind (Here.isGuest_rawSet _ _ _ _) fun _ => hrest _
termination_by structural fields

end

theorem isGuest_evalExpr (f : Frame) (e : Expr) : (evalExpr f e).IsGuest :=
  isGuest_single (isGuest_evalOpen f false e)

theorem isGuest_evalStep (f : Frame) (e? : Option Expr) : (evalStep f e?).IsGuest := by
  unfold evalStep
  split
  · exact .pure _
  · exact isGuest_evalExpr _ _

theorem isGuest_evalTarget (f : Frame) (t : Target) : (evalTarget f t).IsGuest := by
  unfold evalTarget
  split
  · exact .pure _
  · split
    · dsimp only
      split
      · exact .bind (.pure _) fun _ => .bind (.pure _) fun _ => .pure _
      · exact .bind (isGuest_evalExpr _ _) fun _ => .bind (.pure _) fun _ =>
          .bind (.pure _) fun _ => .pure _
    · dsimp only
      split
      · exact .bind (.pure _) fun _ => .bind (isGuest_evalExpr _ _) fun _ =>
          .bind (.pure _) fun _ => .pure _
      · exact .bind (isGuest_evalExpr _ _) fun _ => .bind (.pure _) fun _ =>
          .bind (isGuest_evalExpr _ _) fun _ => .bind (.pure _) fun _ => .pure _

theorem isGuest_evalTargets (f : Frame) (ts : List Target) :
    (evalTargets f ts).IsGuest := by
  induction ts with
  | nil => exact IsGuest.pure _
  | cons t rest ih =>
    unfold evalTargets
    exact .bind (isGuest_evalTarget _ _) fun _ => .bind ih fun _ => .pure _

/-- A target gives a program that finds its place later on, which is one of the guest too. -/
theorem gives_evalTarget (f : Frame) (t : Target) : (evalTarget f t).Gives Program.IsGuest := by
  have hcell (v : Variable) : (Program.ask (.cell (f.cell v))).IsGuest := IsGuest.ask rfl
  have hfield {o k : Program Value} {line : Nat} {name? : Option (String × String)}
      (ho : o.IsGuest) (hk : k.IsGuest) :
      Gives Program.IsGuest (pure do return Destination.field (← o) (← k) line name?) :=
    Gives.pure (IsGuest.bind ho fun _ => IsGuest.bind hk fun _ => IsGuest.pure _)
  unfold evalTarget
  split
  · exact Gives.pure (IsGuest.pure _)
  · next object key line =>
    dsimp only
    -- a part that is an own variable is read later on, any other one is evaluated now
    cases ownVariable? object with
    | some slot =>
      cases ownVariable? key with
      | some slot' => exact .pureBind (.pureBind (hfield (hcell _) (hcell _)))
      | none => exact .pureBind (.after fun k => .pureBind (hfield (hcell _) (.pure k)))
    | none =>
      refine .after fun o => .pureBind ?_
      cases ownVariable? key with
      | some slot' => exact .pureBind (hfield (.pure o) (hcell _))
      | none => exact .after fun k => .pureBind (hfield (.pure o) (.pure k))

theorem gives_evalTargets (f : Frame) (ts : List Target) :
    (evalTargets f ts).Gives fun ds => ∀ d ∈ ds, d.IsGuest := by
  induction ts with
  | nil => exact Gives.pure fun d hd => absurd hd List.not_mem_nil
  | cons t rest ih =>
    refine Gives.bind (gives_evalTarget f t) fun d hd => Gives.bind ih fun ds hds => ?_
    exact Gives.pure (List.forall_mem_cons.2 ⟨hd, hds⟩)

/-- One turn of a loop back to a label. -/
theorem isGuest_round {p : Program Flow} (hp : p.IsGuest) (l : String) :
    ∀ _ : Unit, Program.IsGuest do
      match ← p with
      | .jump l' => if l' = l then return .inr () else return .inl (.jump l')
      | flow => return (.inl flow : Flow ⊕ Unit) := by
  intro _
  refine .bind hp fun _ => ?_
  split
  · split <;> exact .pure _
  · exact .pure _

mutual

theorem isGuest_exec (f : Frame) (s : Stat) : (exec f s).IsGuest := by
  cases s with
  | assign targets values =>
    unfold exec
    refine Gives.isGuest_bind (isGuest_evalTargets f targets) (gives_evalTargets f targets)
      fun ds hds => ?_
    have hplaces := IsGuest.forAll_id hds
    exact .bind (isGuest_evalAll _ _) fun _ => .bind hplaces fun _ =>
      .bind (isGuest_assignAll _ _) fun _ => .pure _
  | block body =>
    have hb := isGuest_execBlock f body
    unfold exec
    exact hb
  | conditional cond yes no =>
    have hy := isGuest_execBlock f yes
    have hn := isGuest_execBlock f no
    unfold exec
    refine .bind (isGuest_evalExpr _ _) fun _ => ?_
    split
    · exact hy
    · exact hn
  | whileLoop cond body =>
    have hb := isGuest_execBlock f body
    unfold exec
    refine isGuest_iterate (fun s => ?_) _ _
    refine .bind (isGuest_evalExpr _ _) fun _ => ?_
    split
    · refine .bind hb fun _ => ?_
      split <;> exact .pure _
    · exact .pure _
  | repeatLoop body =>
    have hb := isGuest_execBlock f body
    unfold exec
    refine isGuest_iterate (fun s => ?_) _ _
    refine .bind hb fun _ => ?_
    split <;> exact .pure _
  | numericFor start stop step body line =>
    have hb := fun f => isGuest_execBlock f body
    unfold exec
    refine IsGuest.bind (isGuest_evalExpr f start) fun _ =>
      IsGuest.bind (isGuest_evalExpr f stop) fun _ =>
        IsGuest.bind (isGuest_evalStep f step) fun _ => ?_
    refine .bind (isGuest_countFrom _ _ _ _) fun count => ?_
    refine isGuest_iterate (fun s => ?_) _ _
    split
    · exact .pure _
    · refine .bind (f.isGuest_declare _) fun _ => .bind (hb _) fun _ => ?_
      split <;> exact .pure _
  | genericFor count values body line =>
    have hb := fun f => isGuest_execBlock f body
    unfold exec
    refine .bind (isGuest_evalAll _ _) fun _ => ?_
    dsimp only
    refine isGuest_iterate (fun s => ?_) _ _
    refine .bind (.callValue _ _ _) fun _ => ?_
    split
    · exact .pure _
    · refine .bind (f.isGuest_declareAll _) fun _ => .bind (hb _) fun _ => ?_
      split <;> exact .pure _
  | call e =>
    unfold exec
    exact .bind (isGuest_evalOpen _ _ _) fun _ => .pure _
  | untilTrue cond =>
    unfold exec
    refine .bind (isGuest_evalExpr _ _) fun _ => ?_
    split <;> exact .pure _
  | ret values =>
    unfold exec
    split
    · exact .bind (isGuest_evalOpen _ _ _) fun _ => .pure _
    · exact .bind (isGuest_evalAll _ _) fun _ => .pure _
  | locals | localFunction | leave | jump | label =>
    unfold exec
    exact .pure _
termination_by structural s

theorem isGuest_execBlock (f : Frame) (ss : List Stat) : (execBlock f ss).IsGuest := by
  cases ss with
  | nil =>
    unfold execBlock
    exact .pure _
  | cons s rest =>
    have hr := fun f => isGuest_execBlock f rest
    have hs := isGuest_exec f s
    have ha := fun f l => isGuest_execAfter f l rest
    unfold execBlock
    split
    · exact .pure _
    · next values names line rest' heq =>
      cases heq
      refine IsGuest.bind (isGuest_evalAll f values) fun _ =>
        IsGuest.bind (Frame.isGuest_declareAll f _) fun inner => ?_
      split
      · exact hr inner
      · dsimp only
        split
        · exact hr inner
        · refine IsGuest.bind (isGuest_metamethod ..) fun _ => ?_
          refine .checked (Here.isGuest_fail _ _) ?_
          refine .bind (.attempt (hr _)) fun _ => .bind (isGuest_metamethod _ _ _) fun _ => ?_
          split
          · exact .bind (Here.isGuest_callFirst _ _ _ _) fun _ => .pure _
          · exact .bind (Here.isGuest_callFirst _ _ _ _) fun _ => .raise _
    · next heq =>
      cases heq
      exact .bind (Frame.isGuest_declare _ _) fun _ => .bind (Frame.isGuest_closure _ _) fun _ =>
        .bind (.ask rfl) fun _ => hr _
    · next heq =>
      cases heq
      exact isGuest_iterate (isGuest_round (hr f) _) _ _
    · next heq =>
      cases heq
      refine .bind hs fun _ => ?_
      split
      · exact hr f
      · exact ha f _
      · exact .pure _
termination_by structural ss

theorem isGuest_execAfter (f : Frame) (l : String) (ss : List Stat) :
    (execAfter f l ss).IsGuest := by
  cases ss with
  | nil =>
    unfold execAfter
    exact .pure _
  | cons s rest =>
    have hr := fun f => isGuest_execBlock f rest
    have ha := fun f l => isGuest_execAfter f l rest
    unfold execAfter
    split
    · next heq => cases heq
    · next heq =>
      cases heq
      split
      · exact isGuest_iterate (isGuest_round (hr f) _) _ _
      · exact ha f l
    · next heq =>
      cases heq
      exact ha f l
termination_by structural ss

end

theorem isGuest_runClosure (r : RuntimeRef) (p : Proto) (captures : List CellRef)
    (args : List Value) (sites : CallSites) : (runClosure r p captures args sites).IsGuest := by
  unfold runClosure
  dsimp only
  refine .bind (Frame.isGuest_declareAll _ _) fun _ => .bind (isGuest_execBlock _ _) fun _ => ?_
  split <;> exact .pure _

end Guest
end ScriptShell
