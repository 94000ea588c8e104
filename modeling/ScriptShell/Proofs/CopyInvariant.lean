import ScriptShell.Proofs.NewSessions
import ScriptShell.Proofs.References
import ScriptShell.Session.Copy

/-! # What holds of a copy under way

A copy starts from a state in which the counterparts in the new session are known (`Copying.Ready`)
and makes tables and functions from there on.  Every value that gets into the new session stands
for a value of the old one (`Copying.Given`) or was built with the session, and `Copying.Sound`
collects what holds of the tables, the functions and the variables that were made, at every moment.

The delicate part is the functions.  A function gets its counterpart before its variables are
copied, so that it can refer to itself, and loses it again when one of them cannot be copied.  A
copy of it that has been handed out by then stays where it is, with what loading put into its
variables (`Copying.Unset`).  What makes the difference is who can have received such a copy: while
a function waits for its variables, everything that is copied is something that it refers to, so
whoever holds the function then is on a cycle with it.

A variable may hold the copy of what is in the original before it is set: the globals of the copy
stand for those of the original, and nothing for nothing.  So what goes on through a copy is not
that a variable keeps what is in it, but that one which holds a copy goes on to hold one
(`Copying.KeepsVariables`).
-/

namespace ScriptShell

open Guest

namespace Copying

variable (s c : Copying)

/-! ## Values and their copies -/

/-- The second value stands for the first one. -/
def Pairs : Value → Value → Prop
  | .table t, v' => ∃ u, c.tables.lookup t = some u ∧ v' = .table u
  | .func f, v' => ∃ g, (f, some g) ∈ c.functions ∧ v' = .func g
  | .user x, v' =>
    ∃ y handle, c.source.user x = .handle handle ∧ c.heap.user y = .handle handle ∧ v' = .user y
  | .thread _, _ | .light _, _ => False
  | v, v' => v' = v

/-- A function has a counterpart, and in each variable of this one is the copy of what is in the
variable of that one. -/
structure Bound (f g : GuestFunction) : Prop where
  /-- It is the counterpart. -/
  lookup : c.functions.lookup f = some (some g)
  /-- The variables are set. -/
  cell : ∀ e ∈ c.cellPairs f g, c.Pairs (c.source.cell e.1) (c.heap.cell e.2)

/-- The second value stands for the first one, and will: if it is a function that was made, it is
finished or has been handed out on a cycle. -/
structure Given (v v' : Value) : Prop where
  /-- It stands for it. -/
  pairs : c.Pairs v v'
  /-- A function is finished or on a cycle. -/
  settled : ∀ f g, v = .func f → v' = .func g → s.heap.functions.size ≤ g.id →
    s.source.OnCycle f ∨ c.Bound f g

/-- A value that may be in the new session. -/
def Placed (v' : Value) : Prop := (∃ v, s.Given c v v') ∨ s.source.IsNew s.heap v'

/-- What loading a function puts into its variables. -/
def loaded (i : Nat) : Value := if i = 0 then .table c.globals else .nil

/-- A variable of a copy holds what loading put there. -/
def Unset (f g : GuestFunction) (e : CellRef × CellRef) : Prop :=
  ∃ i, (c.cellPairs f g)[i]? = some e ∧ c.heap.cell e.2 = c.loaded i

/-- What cannot be copied: coroutines, addresses, objects other than handles, functions other than
closures, and closures over something that cannot be copied. -/
inductive Stuck : Value → Prop where
  /-- A coroutine. -/
  | thread (t : ThreadRef) : Stuck (.thread t)
  /-- An address. -/
  | light (n : Nat) : Stuck (.light n)
  /-- An object that is no handle. -/
  | user {x : UserRef} (hx : ∀ handle, s.source.user x ≠ .handle handle) : Stuck (.user x)
  /-- A function that is no closure and has no counterpart. -/
  | code {f : GuestFunction} (hf : s.functions.lookup f = none)
    (hc : ∀ r p cells, s.source.function? f ≠ some ⟨r, .closure p cells⟩) : Stuck (.func f)
  /-- A closure without a counterpart that has captured something that cannot be copied. -/
  | capture {f : GuestFunction} {a : CellRef} (hf : s.functions.lookup f = none)
    (ha : a ∈ s.source.captures f) (hs : Stuck (s.source.cell a)) : Stuck (.func f)

/-- A copy is not whole: what is in a variable of the original cannot be copied, and the variable of
the copy holds what loading put there, which is not the copy of it. -/
def Half (f g : GuestFunction) : Prop :=
  ∃ e, c.Unset f g e ∧ s.Stuck (c.source.cell e.1) ∧
    ¬c.Pairs (c.source.cell e.1) (c.heap.cell e.2)

/-- Everything in a table was there at the start or is the copy of a pair of another table. -/
def From (t into : TableRef) : Prop :=
  ∀ k', (c.heap.table into).get k' ≠ .nil →
    (s.heap.table into).get k' ≠ .nil ∨
      ∃ k, s.Given c k.toValue k'.toValue ∧
        s.Given c ((c.source.table t).get k) ((c.heap.table into).get k')

/-! ## Later states -/

theorem Pairs.mono {c c' : Copying} {v v' : Value} (h : c.Pairs v v') (hs : c'.source = c.source)
    (ht : ∀ t u, c.tables.lookup t = some u → c'.tables.lookup t = some u)
    (hm : ∀ e, e ∈ c.functions → e ∈ c'.functions)
    (hu : ∀ y handle, c.heap.user y = .handle handle → c'.heap.user y = .handle handle) :
    c'.Pairs v v' := by
  cases v with
  | table t =>
    obtain ⟨u, hl, rfl⟩ := h
    exact ⟨u, ht t u hl, rfl⟩
  | func f =>
    obtain ⟨g, hg, rfl⟩ := h
    exact ⟨g, hm _ hg, rfl⟩
  | user y =>
    obtain ⟨z, handle, hy, hz, rfl⟩ := h
    exact ⟨z, handle, by rw [hs]; exact hy, hu z handle hz, rfl⟩
  | thread _ | light _ => exact h.elim
  | _ => exact h

/-- The later state has everything that the earlier one has. -/
structure Extends (c c' : Copying) : Prop where
  /-- The same is copied. -/
  source : c'.source = c.source
  /-- It is copied to the same place. -/
  target : c'.target = c.target
  /-- The globals there are the same. -/
  globals : c'.globals = c.globals
  /-- No table goes away. -/
  size : c.heap.tables.size ≤ c'.heap.tables.size
  /-- Functions stay. -/
  functions : StartsWith c.heap.functions c'.heap.functions
  /-- Handles stay. -/
  user : ∀ y handle, c.heap.user y = .handle handle → c'.heap.user y = .handle handle
  /-- What is in a table stays there. -/
  slot : ∀ u k, (c.heap.table u).get k ≠ .nil →
    (c'.heap.table u).get k = (c.heap.table u).get k
  /-- A table keeps its metatable. -/
  metatable : ∀ u m, (c.heap.table u).metatable? = some m → (c'.heap.table u).metatable? = some m
  /-- Tables keep their counterparts. -/
  lookupTable : ∀ t u, c.tables.lookup t = some u → c'.tables.lookup t = some u
  /-- What has become of a function stays so. -/
  lookupFunction : ∀ f x, c.functions.lookup f = some x → c'.functions.lookup f = some x
  /-- Which copies there are of a function stays so. -/
  mem : ∀ e, e ∈ c.functions → e ∈ c'.functions

namespace Extends

variable {s c c' c'' : Copying}

theorem refl (c : Copying) : Extends c c where
  source := rfl
  target := rfl
  globals := rfl
  size := Nat.le_refl _
  functions := .refl _
  user _ _ h := h
  slot _ _ _ := rfl
  metatable _ _ h := h
  lookupTable _ _ h := h
  lookupFunction _ _ h := h
  mem _ h := h

theorem trans (x : Extends c c') (x' : Extends c' c'') : Extends c c'' where
  source := x'.source.trans x.source
  target := x'.target.trans x.target
  globals := x'.globals.trans x.globals
  size := Nat.le_trans x.size x'.size
  functions := x.functions.trans x'.functions
  user y handle h := x'.user y handle (x.user y handle h)
  slot u k h := by
    have h' := x.slot u k h
    rw [x'.slot u k (by rwa [h']), h']
  metatable u m h := x'.metatable u m (x.metatable u m h)
  lookupTable t u h := x'.lookupTable t u (x.lookupTable t u h)
  lookupFunction f v h := x'.lookupFunction f v (x.lookupFunction f v h)
  mem e h := x'.mem e (x.mem e h)

theorem pairs (x : Extends c c') {v v' : Value} (h : c.Pairs v v') : c'.Pairs v v' :=
  h.mono x.source x.lookupTable x.mem x.user

/-- A function that was there has captured the same variables. -/
theorem captures (x : Extends c c') {g : GuestFunction} (hg : g.id < c.heap.functions.size) :
    c'.heap.captures g = c.heap.captures g := by
  rw [Heap.captures, Heap.captures, Heap.function?, Heap.function?, x.functions.get _ hg]

end Extends

/-- Only no value stands for no value. -/
theorem Pairs.ne_nil {c : Copying} {v v' : Value} (h : c.Pairs v v') (hv : v ≠ .nil) :
    v' ≠ .nil := by
  cases v with
  | nil => exact absurd rfl hv
  | table t => obtain ⟨u, -, rfl⟩ := h; exact Value.noConfusion
  | func f => obtain ⟨g, -, rfl⟩ := h; exact Value.noConfusion
  | user x => obtain ⟨y, handle, -, -, rfl⟩ := h; exact Value.noConfusion
  | thread _ | light _ => exact h.elim
  | _ => subst h; exact hv

/-! ## The invariant -/

variable (s c : Copying)

/-- A function that was made from another one. -/
structure Copy (f g : GuestFunction) : Prop where
  /-- It had no counterpart at the start. -/
  fresh : s.functions.lookup f = none
  /-- It has the same body, and as many variables. -/
  mirrors : ∃ r p as bs, c.source.function? f = some ⟨r, .closure p as⟩ ∧
    c.heap.function? g = some ⟨c.target, .closure p bs⟩ ∧ as.length = bs.length
  /-- It is the counterpart, or was given up before it was finished. -/
  state : c.functions.lookup f = some (some g) ∨
    c.functions.lookup f = some none ∧ s.Half c f g

/-- What holds of the tables. -/
structure TablesSound : Prop where
  /-- Counterparts exist, and were known at the start or made. -/
  table : ∀ t u, c.tables.lookup t = some u → u.id < c.heap.tables.size ∧
    (s.tables.lookup t = some u ∨ s.heap.tables.size ≤ u.id)
  /-- What was made stands for one table only. -/
  injective : ∀ t t' u, s.heap.tables.size ≤ u.id → c.tables.lookup t = some u →
    c.tables.lookup t' = some u → t = t'
  /-- What was made holds copies of pairs. -/
  origin : ∀ t u, s.heap.tables.size ≤ u.id → c.tables.lookup t = some u → s.From c t u
  /-- What was made has a copy as its metatable. -/
  metatable : ∀ t u m', s.heap.tables.size ≤ u.id → c.tables.lookup t = some u →
    (c.heap.table u).metatable? = some m' →
      ∃ m, (c.source.table t).metatable? = some m ∧ c.tables.lookup m = some m'
  /-- The tables of the new session hold what belongs there. -/
  slots : ∀ u k, s.source.tables.size ≤ u.id → (c.heap.table u).get k ≠ .nil →
    s.Placed c k.toValue ∧ s.Placed c ((c.heap.table u).get k)
  /-- So do their metatables. -/
  metatables : ∀ u m, s.source.tables.size ≤ u.id → (c.heap.table u).metatable? = some m →
    s.Placed c (.table m)

/-- What holds of the functions and their variables. -/
structure FunctionsSound : Prop where
  /-- Counterparts exist, and were known at the start or made. -/
  function : ∀ f g, (f, some g) ∈ c.functions → g.id < c.heap.functions.size ∧
    ((f, some g) ∈ s.functions ∨ s.heap.functions.size ≤ g.id)
  /-- What was made is a copy. -/
  copy : ∀ f g, s.heap.functions.size ≤ g.id → (f, some g) ∈ c.functions → s.Copy c f g
  /-- What was made is a copy of one function only. -/
  injective : ∀ f f' g, s.heap.functions.size ≤ g.id → (f, some g) ∈ c.functions →
    (f', some g) ∈ c.functions → f = f'
  /-- The closures of the new session were made. -/
  closure : ∀ g r p cells, s.source.functions.size ≤ g.id →
    c.heap.function? g = some ⟨r, .closure p cells⟩ →
      s.heap.functions.size ≤ g.id ∧ ∃ f, (f, some g) ∈ c.functions
  /-- What was made has variables of its own. -/
  owner : ∀ f f' g g', s.heap.functions.size ≤ g.id → s.heap.functions.size ≤ g'.id →
    (f, some g) ∈ c.functions → (f', some g') ∈ c.functions → ∀ e ∈ c.cellPairs f g,
      ∀ e' ∈ c.cellPairs f' g', e.2 = e'.2 → g = g' ∧ e = e'
  /-- These are new ones. -/
  ownCell : ∀ g b, s.heap.functions.size ≤ g.id → b ∈ c.heap.captures g →
    s.source.cells.size ≤ b.id ∧ b.id < c.heap.cells.size
  /-- The variables of the new session hold what belongs there. -/
  cells : ∀ b, s.source.cells.size ≤ b.id → s.Placed c (c.heap.cell b)
  /-- What was given up cannot be copied. -/
  stuck : ∀ f, c.functions.lookup f = some none → s.Stuck (.func f)

/-- What holds at every moment of a copy. -/
structure Sound : Prop where
  /-- The new session was built behind the old one. -/
  start : s.source.tables.size ≤ s.heap.tables.size
  /-- So were its globals. -/
  globals : s.source.IsNew s.heap (.table s.globals)
  /-- What was there at the start is there. -/
  later : s.Extends c
  /-- The old session is as it was. -/
  keeps : s.source.Keeps c.heap
  /-- What holds of the tables. -/
  tables : s.TablesSound c
  /-- What holds of the functions. -/
  functions : s.FunctionsSound c

/-- A variable of a function that was made holds the copy of what is in the original in the later
state if it does in the earlier one. -/
def KeepsVariables (c c' : Copying) : Prop :=
  ∀ f g, s.heap.functions.size ≤ g.id → (f, some g) ∈ c.functions → ∀ e ∈ c.cellPairs f g,
    c.Pairs (c.source.cell e.1) (c.heap.cell e.2) →
      c'.Pairs (c'.source.cell e.1) (c'.heap.cell e.2)

variable {s c c' c'' : Copying}

theorem mem_of_lookup {α β : Type} [BEq α] [LawfulBEq α] {k : α} {v : β} {es : List (α × β)}
    (h : es.lookup k = some v) : (k, v) ∈ es := by
  obtain ⟨before, after, rfl, -⟩ := List.lookup_eq_some_iff.1 h
  exact List.mem_append_right _ (List.mem_cons_self ..)

/-- The variables of a function and its copy stay the same ones. -/
theorem Extends.cellPairs (x : Extends c c') (h : s.FunctionsSound c) {f f' g : GuestFunction}
    (hm : (f', some g) ∈ c.functions) : c'.cellPairs f g = c.cellPairs f g := by
  rw [Copying.cellPairs, Copying.cellPairs, x.source, x.captures (h.function f' g hm).1]

namespace KeepsVariables

theorem refl (s c : Copying) : s.KeepsVariables c c := fun _ _ _ _ _ _ hp => hp

theorem trans (k : s.KeepsVariables c c') (k' : s.KeepsVariables c' c'') (x : Extends c c')
    (h : s.FunctionsSound c) : s.KeepsVariables c c'' := by
  intro f g hg hm e he hp
  refine k' f g hg (x.mem _ hm) e ?_ (k f g hg hm e he hp)
  rwa [x.cellPairs h hm]

/-- Variables that hold the same hold copies as before. -/
theorem of_cell (x : Extends c c') (hc : ∀ f g, s.heap.functions.size ≤ g.id →
      (f, some g) ∈ c.functions → ∀ e ∈ c.cellPairs f g, c'.heap.cell e.2 = c.heap.cell e.2) :
    s.KeepsVariables c c' := by
  intro f g hg hm e he hp
  rw [hc f g hg hm e he, x.source]
  exact x.pairs hp

end KeepsVariables

/-- A finished function stays finished. -/
theorem Bound.mono {f g : GuestFunction} (hb : c.Bound f g) (hg : s.heap.functions.size ≤ g.id)
    (x : Extends c c') (h : s.FunctionsSound c) (k : s.KeepsVariables c c') : c'.Bound f g := by
  have hm := mem_of_lookup hb.lookup
  refine ⟨x.lookupFunction f _ hb.lookup, fun e he => ?_⟩
  rw [x.cellPairs h hm] at he
  exact k f g hg hm e he (hb.cell e he)

/-- A copy that may be handed out stays one. -/
theorem Given.mono {v v' : Value} (hv : s.Given c v v') (x : Extends c c')
    (h : s.FunctionsSound c) (k : s.KeepsVariables c c') : s.Given c' v v' := by
  refine ⟨x.pairs hv.pairs, fun f g hf hg hmade => ?_⟩
  rcases hv.settled f g hf hg hmade with hcycle | hbound
  · exact .inl hcycle
  · exact .inr (hbound.mono hmade x h k)

theorem Placed.mono {v' : Value} (hv : s.Placed c v')
    (hg : ∀ v v', s.Given c v v' → s.Given c' v v') : s.Placed c' v' := by
  rcases hv with ⟨v, hv⟩ | hnew
  · exact .inl ⟨v, hg v v' hv⟩
  · exact .inr hnew

/-- A step that leaves the variables alone leaves them all their copies. -/
theorem Extends.keepsVariables (x : Extends c c') (hc : c'.heap.cells = c.heap.cells) :
    s.KeepsVariables c c' :=
  .of_cell x fun _ _ _ _ _ _ => by rw [Heap.cell, hc, Heap.cell]

/-- So it leaves every copy as it is. -/
theorem given_of_same (h : s.FunctionsSound c) (x : Extends c c')
    (hc : c'.heap.cells = c.heap.cells) (v v' : Value) (hv : s.Given c v v') : s.Given c' v v' :=
  hv.mono x h (x.keepsVariables hc)

/-- Plain values and tables are copied as such, whatever becomes of functions. -/
theorem Given.of_pairs {v v' : Value} (h : c.Pairs v v') (hf : ∀ f, v ≠ .func f) : s.Given c v v' :=
  ⟨h, fun f _ he => absurd he (hf f)⟩

/-! ## Functions that are not whole -/

/-- What cannot be copied and has a copy all the same is a function. -/
theorem Stuck.exists_of_pairs {v v' : Value} (h : s.Stuck v) (hsource : c.source = s.source)
    (hp : c.Pairs v v') : ∃ f g, v = .func f ∧ v' = .func g ∧ s.functions.lookup f = none ∧
      (f, some g) ∈ c.functions := by
  cases h with
  | thread t => exact hp.elim
  | light n => exact hp.elim
  | @user x hx =>
    obtain ⟨y, handle, hx', -, -⟩ := hp
    rw [hsource] at hx'
    exact absurd hx' (hx handle)
  | @code f hf _ | @capture f _ hf _ _ =>
    obtain ⟨g, hm, rfl⟩ := hp
    exact ⟨f, g, rfl, rfl, hf, hm⟩

theorem loaded_ne_func (c : Copying) (i : Nat) (g : GuestFunction) : c.loaded i ≠ .func g := by
  unfold loaded
  split <;> exact Value.noConfusion

/-- What loading put into a variable stays there where the variable stays as it is. -/
theorem Unset.of_cell {f g : GuestFunction} {e : CellRef × CellRef} (hu : c.Unset f g e)
    (hg : c'.globals = c.globals) (hp : c'.cellPairs f g = c.cellPairs f g)
    (hc : c'.heap.cell e.2 = c.heap.cell e.2) : c'.Unset f g e := by
  obtain ⟨i, hi, hcell⟩ := hu
  refine ⟨i, by rw [hp, hi], ?_⟩
  rw [hc, hcell, loaded, loaded, hg]

theorem Unset.mem {f g : GuestFunction} {e : CellRef × CellRef} (hu : c.Unset f g e) :
    e ∈ c.cellPairs f g := by
  obtain ⟨_, hi, _⟩ := hu
  exact List.mem_of_getElem? hi

/-- It is no copy of what cannot be copied. -/
theorem Half.of_stuck {f g : GuestFunction} {e : CellRef × CellRef} (hu : c.Unset f g e)
    (hs : s.Stuck (c.source.cell e.1)) (hsource : c.source = s.source) : s.Half c f g := by
  refine ⟨e, hu, hs, fun hp => ?_⟩
  obtain ⟨i, -, hcell⟩ := hu
  obtain ⟨_, g', -, hg', -⟩ := hs.exists_of_pairs hsource hp
  exact loaded_ne_func c i g' (hcell.symm.trans hg')

/-- A copy that is not whole stays so where its variables stay as they are. -/
theorem Half.of_cell {f g : GuestFunction} (h : s.Half c f g) (hstart : s.Extends c)
    (hs : c'.source = c.source) (hg : c'.globals = c.globals)
    (hp : c'.cellPairs f g = c.cellPairs f g)
    (hc : ∀ e ∈ c.cellPairs f g, c'.heap.cell e.2 = c.heap.cell e.2) : s.Half c' f g := by
  obtain ⟨e, hunset, hstuck, -⟩ := h
  exact .of_stuck (hunset.of_cell hg hp (hc e hunset.mem)) (by rwa [hs]) (hs.trans hstart.source)

/-- It is not finished. -/
theorem Half.not_bound {f g : GuestFunction} (h : s.Half c f g) : ¬c.Bound f g := by
  obtain ⟨e, hunset, -, hnot⟩ := h
  exact fun hb => hnot (hb.cell e hunset.mem)

/-! ## Steps that leave one side alone -/

theorem From.mono {t into : TableRef} (h : s.From c t into)
    (hget : ∀ k, (c'.heap.table into).get k = (c.heap.table into).get k)
    (hs : c'.source = c.source) (hg : ∀ v v', s.Given c v v' → s.Given c' v v') :
    s.From c' t into := by
  intro k' hk'
  rw [hget] at hk'
  rcases h k' hk' with hold | ⟨k, hkey, hval⟩
  · exact .inl hold
  · refine .inr ⟨k, hg _ _ hkey, ?_⟩
    rw [hs, hget]
    exact hg _ _ hval

/-- A step that leaves the tables alone. -/
theorem TablesSound.of_same (h : s.TablesSound c) (ht : c'.heap.tables = c.heap.tables)
    (hm : c'.tables = c.tables) (hs : c'.source = c.source)
    (hg : ∀ v v', s.Given c v v' → s.Given c' v v') : s.TablesSound c' := by
  have htable (u : TableRef) : c'.heap.table u = c.heap.table u := by
    rw [Heap.table, ht, Heap.table]
  exact {
    table := by
      rw [hm, ht]
      exact h.table
    injective := by
      rw [hm]
      exact h.injective
    origin := fun t u hu hl => by
      rw [hm] at hl
      exact (h.origin t u hu hl).mono (fun k => by rw [htable]) hs hg
    metatable := fun t u m' hu hl hmeta => by
      rw [hm] at hl ⊢
      rw [htable] at hmeta
      rw [hs]
      exact h.metatable t u m' hu hl hmeta
    slots := fun u k hu hk => by
      rw [htable] at hk ⊢
      exact ⟨(h.slots u k hu hk).1.mono hg, (h.slots u k hu hk).2.mono hg⟩
    metatables := fun u m hu hmeta => by
      rw [htable] at hmeta
      exact (h.metatables u m hu hmeta).mono hg }

/-- A step that leaves the functions and the variables alone. -/
theorem FunctionsSound.of_same (h : s.FunctionsSound c)
    (hf : c'.heap.functions = c.heap.functions) (hc : c'.heap.cells = c.heap.cells)
    (hm : c'.functions = c.functions) (hstart : s.Extends c) (x : Extends c c')
    (hg : ∀ v v', s.Given c v v' → s.Given c' v v') : s.FunctionsSound c' := by
  have hs := x.source
  have hfun (g : GuestFunction) : c'.heap.function? g = c.heap.function? g := by
    rw [Heap.function?, hf, Heap.function?]
  have hcap (g : GuestFunction) : c'.heap.captures g = c.heap.captures g := by
    rw [Heap.captures, hfun, Heap.captures]
  have hcell (b : CellRef) : c'.heap.cell b = c.heap.cell b := by
    rw [Heap.cell, hc, Heap.cell]
  have hvar (f g : GuestFunction) : c'.cellPairs f g = c.cellPairs f g := by
    rw [cellPairs, cellPairs, hs, hcap]
  exact {
    function := by
      rw [hm, hf]
      exact h.function
    copy := fun f g hmade hmem => by
      rw [hm] at hmem
      obtain ⟨hfresh, hmirrors, hstate⟩ := h.copy f g hmade hmem
      refine ⟨hfresh, ?_, ?_⟩
      · rw [hs, x.target, hfun]
        exact hmirrors
      · rw [hm]
        exact hstate.imp_right fun hhalf =>
          ⟨hhalf.1, hhalf.2.of_cell hstart hs x.globals (hvar f g) fun e _ => hcell e.2⟩
    injective := by
      rw [hm]
      exact h.injective
    closure := fun g r p cells hmade hcl => by
      rw [hfun] at hcl
      rw [hm]
      exact h.closure g r p cells hmade hcl
    owner := fun f f' g g' hmade hmade' hmem hmem' e he e' he' => by
      rw [hm] at hmem hmem'
      rw [hvar] at he he'
      exact h.owner f f' g g' hmade hmade' hmem hmem' e he e' he'
    ownCell := fun g b hmade hb => by
      rw [hcap] at hb
      rw [hc]
      exact h.ownCell g b hmade hb
    cells := fun b hb => by
      rw [hcell]
      exact (h.cells b hb).mono hg
    stuck := by
      rw [hm]
      exact h.stuck }

end Copying
end ScriptShell
