import Mathlib.Logic.Relation
import ScriptShell.Proofs.CapabilityContents
import ScriptShell.Proofs.DelegatedTables

/-! # Call forms and table forms

Guests reach the aliases and the keys in two ways: through a table, and through functions that do
the same as reading and writing it.  The functions go straight to the shell.  The table goes there
through its metatable, and only for a key under which it holds nothing itself, so the two ways can
part where something got into the table.  What gets there stands under a key that the shell cannot
make a name of, and it stays so (`Heap.Nameless`); tables, which can gain or lose their host form,
are left out of account.  That is the invariant, `CallForms.Ready`: reads and calls keep it because
they leave all tables alone (`Handler.KeepsHeap`), and assignments because of what
`Delegates.assign_cases` says about them (`CallForms.Ready.step`).

With it both ways end in the same write, `PropertyTable.set`, whose result they tell differently:
`World.asAssigned` and `World.asCalled`.
-/

namespace ScriptShell

open Guest

variable {α β : Type}

/-! ## What the shell cannot make a name of -/

namespace Guest.Heap

variable {h h' : Heap} {k : Value} {key : Key}

/-- Tables, and what exists and has no host form. -/
def Nameless (h : Heap) : Value → Prop
  | .table _ | .thread _ | .light _ => True
  | .user u => u.id < h.users.size ∧ ∃ e, Marshal.toHost h (.user u) = .error e
  | _ => False

/-- The value refers to no object that does not exist. -/
def HasUser (h : Heap) : Value → Prop
  | .user u => u.id < h.users.size
  | _ => True

theorem nameless_of_error {e : MarshalError} (hk : Marshal.toHost h k = .error e)
    (huser : h.HasUser k) : h.Nameless k := by
  cases k with
  | table _ | thread _ | light _ => trivial
  | user u => exact ⟨huser, e, hk⟩
  | str s =>
    rw [Marshal.toHost, Marshal.maxDepth, Marshal.toHostWithin] at hk
    split at hk <;> cases hk
  | _ =>
    rw [Marshal.toHost, Marshal.maxDepth, Marshal.toHostWithin] at hk
    cases hk

theorem not_nameless {x : HostValue} (hk : Marshal.toHost h k = .ok x)
    (htable : ∀ t, k ≠ .table t) : ¬ h.Nameless k := by
  intro hn
  cases k with
  | table t => exact htable t rfl
  | user u =>
    obtain ⟨-, e, he⟩ := hn
    rw [hk] at he
    cases he
  | thread _ | light _ =>
    rw [Marshal.toHost, Marshal.maxDepth, Marshal.toHostWithin] at hk
    cases hk
  | _ => exact hn

/-- A key stands for the values that are this key. -/
theorem nameless_toValue (hkey : Key.ofValue k = .ok key) :
    h.Nameless key.toValue ↔ h.Nameless k := by
  cases k with
  | nil => cases hkey
  | num x =>
    rw [Key.ofValue] at hkey
    split at hkey
    · cases hkey
      exact Iff.rfl
    · split at hkey <;> cases hkey
      exact Iff.rfl
  | _ =>
    cases hkey
    exact Iff.rfl

theorem Nameless.mono (hn : h.Nameless k) (hu : StartsWith h.users h'.users) : h'.Nameless k := by
  cases k with
  | user u =>
    obtain ⟨hlt, e, he⟩ := hn
    refine ⟨Nat.lt_of_lt_of_le hlt hu.size, e, ?_⟩
    have heq : h'.user u = h.user u := by rw [Heap.user, hu.get _ hlt, Heap.user]
    rw [← he, Marshal.toHost, Marshal.toHost, Marshal.maxDepth, Marshal.toHostWithin,
      Marshal.toHostWithin, heq]
  | _ => exact hn

end Guest.Heap

/-! ## Programs that leave the heap as it is -/

namespace Handler

variable {hd : Handler}

/-- The program leaves everything that guest values refer to as it is. -/
def KeepsHeap (hd : Handler) (p : Program α) : Prop :=
  ∀ w : World, w.heap.Keeps (hd.run p w).2.heap

namespace KeepsHeap

theorem pure (a : α) : hd.KeepsHeap (Pure.pure a : Program α) := fun w => .refl w.heap

theorem bind {p : Program α} {f : α → Program β} (hp : hd.KeepsHeap p)
    (hf : ∀ a, hd.KeepsHeap (f a)) : hd.KeepsHeap (p >>= f) := by
  intro w
  have hkeeps := hp w
  show w.heap.Keeps (hd.run (p.bind f) w).2.heap
  rw [run_bind]
  cases hr : hd.run p w with
  | mk result w' =>
    rw [hr] at hkeeps
    cases result with
    | value a => exact hkeeps.trans (hf a w')
    | error v => exact hkeeps
    | exhausted => exact hkeeps

/-- It asks for one thing first. -/
theorem asking {o : Operation} {f : o.Answer → Program β}
    (ho : ∀ w : World, w.heap.Keeps (w.answer o).2.heap) (hf : ∀ a, hd.KeepsHeap (f a)) :
    hd.KeepsHeap (Program.ask o >>= f) := fun w => (ho w).trans (hf _ _)

/-- It has a look first. -/
theorem looking {o : Operation} {f : o.Answer → Program β} (ho : ∀ w : World, (w.answer o).2 = w)
    (hf : ∀ a, hd.KeepsHeap (f a)) : hd.KeepsHeap (Program.ask o >>= f) :=
  asking (fun w => by rw [ho]; exact .refl _) hf

theorem raiseFailure (f : Failure) : hd.KeepsHeap (Guest.raiseFailure f : Program α) :=
  fun w => (Heap.Keeps.refl w.heap).addUser _

theorem hostValue (v : Value) : hd.KeepsHeap (LibraryCall.hostValue v) :=
  looking (fun _ => rfl) fun h => by
    cases Marshal.toHost h v with
    | ok x => exact pure x
    | error e => exact raiseFailure _

theorem conversionOf (v : Value) (wanted : String) (detail : Option String) :
    hd.KeepsHeap (Guest.conversionOf v wanted detail) := by
  refine bind ?_ fun _ => pure _
  cases v with
  | user u =>
    refine looking (fun _ => rfl) fun user => ?_
    cases user <;> exact pure _
  | _ => exact pure _

theorem keyName (c : LibraryCall) : hd.KeepsHeap c.keyName := by
  unfold LibraryCall.keyName
  split
  · split
    · exact pure _
    · exact raiseFailure _
  · split
    · exact pure _
    · exact bind (conversionOf _ _ _) fun _ => raiseFailure _

/-- Texts and functions of the guest are guest values already. -/
theorem guestValue (c : LibraryCall) {x : HostValue}
    (hx : (∃ s, x = .text s) ∨ ∃ f, x = .callable f) : hd.KeepsHeap (c.guestValue x) := by
  obtain ⟨s, rfl⟩ | ⟨f, rfl⟩ := hx
  · exact fun w => .refl w.heap
  · exact fun w => .refl w.heap

/-- The shell's side is not in the heap. -/
theorem written {o : Operation} (ho : ∀ w : World, ∃ host, (w.answer o).2 = { w with host := host })
    (f : o.Answer → List Value) : hd.KeepsHeap (Program.ask o >>= fun a => Pure.pure (f a)) :=
  asking (fun w => by obtain ⟨_, h⟩ := ho w; rw [h]; exact .refl _) fun _ => pure _

end KeepsHeap
end Handler

/-! ## The two forms -/

/-- The tables of which there is a call form. -/
inductive FormTable where
  /-- The aliases. -/
  | aliases
  /-- The keys. -/
  | keys

namespace FormTable

/-- Where the table leads. -/
def property (hooks : RegistryRef) : FormTable → PropertyTable
  | aliases => .collection .aliases
  | keys => .keys hooks

/-- Its field in the capability table. -/
def field : FormTable → String
  | aliases => "alias"
  | keys => "key"

theorem claimsAll (hooks : RegistryRef) (form : FormTable) : (form.property hooks).ClaimsAll := by
  cases form with
  | aliases => exact claimsAll_collection _
  | keys => exact claimsAll_keys hooks

/-- Behind both are texts and functions of the guest. -/
theorem shown (hooks : RegistryRef) (form : FormTable) {host : HostState} {key x : HostValue}
    (hx : (form.property hooks).get host key = some x) :
    (∃ s, x = .text s) ∨ ∃ f, x = .callable f := by
  cases form with
  | aliases =>
    obtain ⟨s, -, rfl⟩ := Option.map_eq_some_iff.1 hx
    exact .inl ⟨s, rfl⟩
  | keys =>
    simp only [property, PropertyTable.get] at hx
    split at hx
    · rw [boundTo?] at hx
      split at hx
      · cases hx
        exact .inr ⟨_, rfl⟩
      · obtain ⟨s, -, rfl⟩ := Option.map_eq_some_iff.1 hx
        exact .inl ⟨s, rfl⟩
    · cases hx

end FormTable

/-- The functions that are call forms. -/
inductive FormFunction where
  /-- Reads an alias. -/
  | getAlias
  /-- Writes an alias. -/
  | setAlias
  /-- Binds a key. -/
  | bindKey

namespace FormFunction

/-- The code of the function. -/
def code (hooks : RegistryRef) : FormFunction → Code
  | getAlias => .getAlias
  | setAlias => .setAlias
  | bindKey => .bindKey hooks

/-- What a call of it does. -/
def body (hooks : RegistryRef) (c : LibraryCall) : FormFunction → Program (List Value)
  | getAlias => c.getAlias
  | setAlias => c.setAlias
  | bindKey => c.bindKey hooks

/-- Its field in the capability table. -/
def field : FormFunction → String
  | getAlias => "getalias"
  | setAlias => "setalias"
  | bindKey => "bindkey"

end FormFunction

namespace Handler.KeepsHeap

variable {hd : Handler}

theorem body (hooks : RegistryRef) (c : LibraryCall) (form : FormFunction) :
    hd.KeepsHeap (form.body hooks c) := by
  cases form with
  | getAlias =>
    refine bind (hostValue _) fun name => looking (fun _ => rfl) fun host => ?_
    cases hx : (PropertyTable.collection .aliases).get host name with
    | none => exact pure _
    | some x =>
      exact bind (guestValue c (FormTable.shown hooks .aliases hx))
        fun _ => pure _
  | setAlias =>
    refine bind (hostValue _) fun name => bind (hostValue _) fun value => ?_
    exact written (o := .setProperty (.collection .aliases) name value) (fun w => w.updateHost_eq _)
      LibraryCall.written
  | bindKey =>
    refine bind (keyName c) fun key => bind (hostValue _) fun value => ?_
    exact written (o := .bindKey hooks key value) (fun w => w.updateHost_eq _) LibraryCall.written

theorem propertyGet (c : LibraryCall) {t : TableRef} (ht : c.arg 1 = .table t)
    (hooks : RegistryRef) (form : FormTable) :
    hd.KeepsHeap (c.propertyGet (form.property hooks)) := by
  have htable : hd.KeepsHeap c.hostTable := by
    rw [LibraryCall.hostTable, ht]
    exact pure t
  refine bind htable fun _ => bind (hostValue _) fun key => looking (fun _ => rfl) fun host => ?_
  cases hx : (form.property hooks).get host key with
  | none => exact pure _
  | some x => exact bind (guestValue c (FormTable.shown _ _ hx)) fun _ => pure _

end Handler.KeepsHeap

/-- Where a session has the two forms. -/
structure CallForms where
  /-- The registry of the functions that keys run. -/
  hooks : RegistryRef
  /-- The tables. -/
  table : FormTable → TableRef
  /-- The functions. -/
  function : FormFunction → GuestFunction

namespace CallForms

variable {forms : CallForms} {w w' : World} {h h' : Heap}

/-- The tables lead to the shell and hold nothing under what could be a name, and the functions are
those of the shell. -/
structure Ready (forms : CallForms) (h : Heap) : Prop where
  /-- The tables lead to the shell. -/
  offers : ∀ form, h.Offers (forms.table form) (form.property forms.hooks)
  /-- What they hold is under keys that are no names. -/
  nameless : ∀ form key, (h.table (forms.table form)).get key ≠ .nil → h.Nameless key.toValue
  /-- The functions are those of the shell. -/
  function : ∀ form, ∃ r, h.function? (forms.function form) = some ⟨r, form.code forms.hooks⟩

/-- A stretch in which other things happen.  The two tables stay as they are, and what could not be
made a name of cannot be made one now. -/
structure Apart (forms : CallForms) (h h' : Heap) : Prop where
  /-- The tables stay. -/
  tables : ∀ form, Heap.KeepsTable (forms.table form) h h'
  /-- What is no name does not become one. -/
  nameless : ∀ v, h.Nameless v → h'.Nameless v

/-! ## One step -/

namespace Ready

theorem apart (hr : forms.Ready h) (ha : forms.Apart h h') : forms.Ready h' where
  offers form := (ha.tables form).offers (hr.offers form)
  nameless form key hkey := by
    rw [(ha.tables form).fields] at hkey
    exact ha.nameless _ (hr.nameless form key hkey)
  function form := by
    obtain ⟨r, hf⟩ := hr.function form
    have hlt : (forms.function form).id < h.functions.size := (Array.getElem?_eq_some_iff.1 hf).1
    refine ⟨r, ?_⟩
    rw [Heap.function?, (ha.tables .aliases).functions.get _ hlt]
    exact hf

theorem keeps (hr : forms.Ready h) (hk : h.Keeps h') : forms.Ready h' :=
  hr.apart ⟨fun form => .of_keeps hk (hr.offers form), fun _ hn => hn.mono hk.users⟩

/-- A table takes a value under a key that is no name. -/
theorem setSlot (hr : forms.Ready h) (form : FormTable) {key : Key}
    (hkey : h.Nameless key.toValue) (v : Value) :
    forms.Ready (h.setSlot (forms.table form) key v) where
  offers form' := by
    obtain ⟨m, hm, hlt, hmeta, hleads⟩ := hr.offers form'
    -- a metatable has functions under names, so it is neither of the tables
    have hne : forms.table form ≠ m := by
      rintro rfl
      obtain ⟨f, -, hfield, -⟩ := hleads.index
      refine hr.nameless form (.text "__index") ?_
      rw [← Heap.field, hfield]
      exact Value.noConfusion
    refine Heap.Offers.mono ⟨m, hm, hlt, hmeta, hleads⟩
      (Nat.le_of_eq (Heap.size_modifyTable ..).symm) (Heap.metatable_setSlot ..)
      (fun m' hm' k _ => ?_) (.refl _)
    rw [hmeta] at hm'
    cases hm'
    rw [Heap.setSlot, Heap.table_modifyTable, if_neg fun he => hne he.1]
  nameless form' key' hget := by
    have hmono (v' : Value) (hn : h.Nameless v') :
        (h.setSlot (forms.table form) key v).Nameless v' := hn.mono (.refl _)
    by_cases hk : key = key'
    · exact hk ▸ hmono _ hkey
    · rw [Heap.get_setSlot_of_ne _ _ hk] at hget
      exact hmono _ (hr.nameless form' key' hget)
  function := hr.function

/-- Under what could be a name a table holds nothing. -/
theorem rawGet (hr : forms.Ready w.heap) (form : FormTable) {k : Value}
    (hk : ¬ w.heap.Nameless k) : w.heap.rawGet (forms.table form) k = .nil := by
  cases hkey : Key.ofValue k with
  | error e => rw [Heap.rawGet, hkey]
  | ok key =>
    rw [Heap.rawGet_eq _ _ hkey]
    by_contra hne
    exact hk ((Heap.nameless_toValue hkey).1 (hr.nameless form key hne))

variable {n b : Nat} {r : RuntimeRef}

/-- A call of one of the functions, if there is room for it. -/
theorem call_cases (hr : forms.Ready w.heap) (form : FormFunction) (args : List Value)
    (sites : CallSites) :
    ((n = 0 ∨ b = 0) ∧ ∃ e, (handlerWithin n b r).call (.func (forms.function form)) args sites w =
      (.error e, w)) ∨
    ∃ n' b' r', (handlerWithin n b r).call (.func (forms.function form)) args sites w =
      (handlerWithin n' b' r').run (form.body forms.hooks ⟨r', sites, "?", args⟩) w := by
  rcases call_refused_or_runs n b r (.func (forms.function form)) args sites w with
    hdeep | ⟨n', b', hcall⟩
  · exact .inl hdeep
  · obtain ⟨r', hf⟩ := hr.function form
    have hbody : bodyOf w r (.func (forms.function form)) args sites =
        (r', form.body forms.hooks ⟨r', sites, "?", args⟩) := by
      rw [bodyOf, hf]
      cases form <;>
      · dsimp only [FormFunction.code]
        rw [callBody, hf]
        rfl
    exact .inr ⟨n', b', r', by rw [hcall, hbody]⟩

/-- A read leaves the heap as it is. -/
theorem keeps_index (hr : forms.Ready w.heap) (form : FormTable) (here : Here)
    (name? : Option (String × String)) (k : Value) :
    w.heap.Keeps ((handlerWithin n b r).run
      (here.index name? (.table (forms.table form)) k) w).2.heap := by
  by_cases habsent : w.heap.rawGet (forms.table form) k = .nil
  · by_cases hdeep : n = 0 ∨ b = 0
    · obtain ⟨e, he⟩ := run_index_of_tooDeep (r := r) (hr.offers form) habsent hdeep here name?
      rw [he]
      exact .refl _
    · obtain ⟨n, b, rfl, rfl⟩ := exists_room hdeep
      obtain ⟨r', hrun⟩ := exists_run_index (hr.offers form) habsent
      rw [hrun]
      exact Handler.KeepsHeap.propertyGet _ rfl forms.hooks form w
  · cases hkey : Key.ofValue k with
    | error fault => exact absurd (by rw [Heap.rawGet, hkey]) habsent
    | ok key =>
      rw [Heap.rawGet_eq _ _ hkey] at habsent
      rw [Handler.run_index_of_present here name? hkey habsent]
      exact .refl _

end Ready

/-- What can happen to the two forms.  Guests read, assign and call, under any names, from anywhere
and with whatever outcome; and other things happen. -/
inductive Step (forms : CallForms) : World → World → Prop
  /-- A guest reads one of the tables. -/
  | read {w w' : World} {outcome : Outcome Value} (form : FormTable) (n b : Nat) (r : RuntimeRef)
      (here : Here) (name? : Option (String × String)) (k : Value)
      (run : (handlerWithin n b r).run (here.index name? (.table (forms.table form)) k) w =
        (outcome, w')) : Step forms w w'
  /-- A guest assigns to one of them. -/
  | assign {w w' : World} {outcome : Outcome Unit} (form : FormTable) (n b : Nat) (r : RuntimeRef)
      (here : Here) (name? : Option (String × String)) (k v : Value) (known : w.heap.HasUser k)
      (run : (handlerWithin n b r).run (here.setIndex name? (.table (forms.table form)) k v) w =
        (outcome, w')) : Step forms w w'
  /-- A guest calls one of the functions. -/
  | call {w w' : World} {outcome : Outcome (List Value)} (form : FormFunction) (n b : Nat)
      (r : RuntimeRef) (args : List Value) (sites : CallSites)
      (run : (handlerWithin n b r).call (.func (forms.function form)) args sites w =
        (outcome, w')) : Step forms w w'
  /-- Something else happens. -/
  | other {w w' : World} (apart : forms.Apart w.heap w'.heap) : Step forms w w'

theorem Ready.step (hr : forms.Ready w.heap) (hs : forms.Step w w') : forms.Ready w'.heap := by
  cases hs with
  | @read outcome form n b r here name? k run =>
    have hkeeps := hr.keeps_index (n := n) (b := b) (r := r) form here name? k
    rw [run] at hkeeps
    exact hr.keeps hkeeps
  | @assign outcome form n b r here name? k v known run =>
    have hd : Delegates (form.property forms.hooks) (forms.table form) w
        fun key => (w.heap.table (forms.table form)).get key := ⟨hr.offers form, fun _ => rfl⟩
    rcases hd.assign_cases (n := n) (b := b) (r := r) here name? (form.claimsAll _) k v with
      ⟨-, -, e, he⟩ | ⟨-, x, -, hw⟩ | ⟨key, hkey, hn, hw⟩
    · rw [run] at he
      cases he
      exact hr
    · rw [run] at hw
      obtain rfl : w' = _ := congrArg Prod.snd hw
      exact hr.keeps (keeps_delegate ..)
    · rw [run] at hw
      cases hw
      -- the key has no host form, or the table held something under it before
      refine hr.setSlot form ?_ v
      by_cases hform : ∃ x, Marshal.toHost w.heap k = .ok x
      · exact hr.nameless form key fun hnil => hn ⟨hform, hnil⟩
      · cases hk : Marshal.toHost w.heap k with
        | ok x => exact absurd ⟨x, hk⟩ hform
        | error e => exact (Heap.nameless_toValue hkey).2 (Heap.nameless_of_error hk known)
  | @call outcome form n b r args sites run =>
    rcases hr.call_cases (n := n) (b := b) (r := r) form args sites with
      ⟨-, e, he⟩ | ⟨n', b', r', hw⟩
    · rw [run] at he
      cases he
      exact hr
    · rw [run] at hw
      obtain rfl : w' = _ := congrArg Prod.snd hw
      exact hr.keeps (Handler.KeepsHeap.body _ _ form w)
  | other apart => exact hr.apart apart

/-- The invariant holds at every point of every history. -/
theorem Ready.steps (hr : forms.Ready w.heap) (hs : Relation.ReflTransGen forms.Step w w') :
    forms.Ready w'.heap := by
  induction hs with
  | refl => exact hr
  | tail _ last ih => exact ih.step last

end CallForms

/-! ## One write, told in two ways -/

namespace World

/-- How an assignment tells what became of a write: a refused one is raised. -/
def asAssigned (w : World) : Except PropertyError HostState → Outcome Unit × World
  | .ok host => (.value (), { w with host := host })
  | .error e => (.error (.user ⟨w.heap.users.size⟩), w.raised (.property e))

/-- How a function tells what became of a write: a refused one is `nil` and a message. -/
def asCalled (w : World) : Except PropertyError HostState → Outcome (List Value) × World
  | .ok host => (.value [.bool true, .nil], { w with host := host })
  | .error e => (.value [.nil, .text e.message], w)

/-- What there is under the name of an alias. -/
def aliasValue (w : World) (name : HostValue) : Value :=
  match w.host.collections.aliases.get name with
  | some (.text body) => .text body
  | _ => .nil

variable {w : World}

theorem host_asCalled (w : World) (result : Except PropertyError HostState) :
    (w.asCalled result).2.host = (w.asAssigned result).2.host := by
  cases result <;> rfl

theorem asCalled_iff (w : World) (result : Except PropertyError HostState) :
    (∃ message, (w.asCalled result).1 = .value [.nil, .text message]) ↔
      ∃ e, (w.asAssigned result).1 = .error e := by
  cases result with
  | ok host =>
    constructor
    · rintro ⟨message, h⟩
      cases h
    · rintro ⟨e, h⟩
      cases h
  | error e => exact ⟨fun _ => ⟨_, rfl⟩, fun _ => ⟨_, rfl⟩⟩

end World

namespace CallForms

variable {forms : CallForms} {w w' : World} {k v : Value} {x y : HostValue}

/-- A write to a table and a call of a function come to the same write of the shell, wherever there
is room for a metamethod.  Without it the assignment fails and nothing happens, and the call may
fail as well. -/
structure WritesAlike (forms : CallForms) (w : World) (form : FormTable) (function : FormFunction)
    (k v : Value) (result : Except PropertyError HostState) : Prop where
  /-- The assignment. -/
  assigned : ∀ (n b : Nat) (r : RuntimeRef) (here : Here) (name? : Option (String × String)),
    (handlerWithin (n + 1) (b + 1) r).run
      (here.setIndex name? (.table (forms.table form)) k v) w = w.asAssigned result
  /-- The call. -/
  called : ∀ (n b : Nat) (r : RuntimeRef) (sites : CallSites) (rest : List Value),
    (handlerWithin (n + 1) (b + 1) r).call (.func (forms.function function)) (k :: v :: rest) sites
      w = w.asCalled result
  /-- The call says that it was refused if the assignment raises an error. -/
  refused : (∃ message, (w.asCalled result).1 = .value [.nil, .text message]) ↔
    ∃ e, (w.asAssigned result).1 = .error e
  /-- Both do the same to the shell. -/
  host : (w.asCalled result).2.host = (w.asAssigned result).2.host
  /-- There may be no room for the assignment. -/
  assignedTooDeep : ∀ (n b : Nat) (r : RuntimeRef) (here : Here) (name? : Option (String × String)),
    n = 0 ∨ b = 0 → ∃ e, (handlerWithin n b r).run
      (here.setIndex name? (.table (forms.table form)) k v) w = (.error e, w)
  /-- There may be no room for the call. -/
  calledTooDeep : ∀ (n b : Nat) (r : RuntimeRef) (sites : CallSites) (rest : List Value),
    (∃ e, (handlerWithin n b r).call (.func (forms.function function)) (k :: v :: rest) sites w =
      (.error e, w)) ∨
    (handlerWithin n b r).call (.func (forms.function function)) (k :: v :: rest) sites w =
      w.asCalled result

/-- A read of the alias table and a call of the function for it give the same value and leave
everything as it is. -/
structure ReadsAlike (forms : CallForms) (w : World) (k value : Value) : Prop where
  /-- The read. -/
  read : ∀ (n b : Nat) (r : RuntimeRef) (here : Here) (name? : Option (String × String)),
    (handlerWithin (n + 1) (b + 1) r).run (here.index name? (.table (forms.table .aliases)) k) w =
      (.value value, w)
  /-- The call. -/
  called : ∀ (n b : Nat) (r : RuntimeRef) (sites : CallSites) (rest : List Value),
    (handlerWithin (n + 1) (b + 1) r).call (.func (forms.function .getAlias)) (k :: rest) sites w =
      (.value [value], w)
  /-- There may be no room for the read. -/
  readTooDeep : ∀ (n b : Nat) (r : RuntimeRef) (here : Here) (name? : Option (String × String)),
    n = 0 ∨ b = 0 → ∃ e, (handlerWithin n b r).run
      (here.index name? (.table (forms.table .aliases)) k) w = (.error e, w)
  /-- There may be no room for the call. -/
  calledTooDeep : ∀ (n b : Nat) (r : RuntimeRef) (sites : CallSites) (rest : List Value),
    (∃ e, (handlerWithin n b r).call (.func (forms.function .getAlias)) (k :: rest) sites w =
      (.error e, w)) ∨
    (handlerWithin n b r).call (.func (forms.function .getAlias)) (k :: rest) sites w =
      (.value [value], w)

/-! ### What the functions do -/

section Functions

variable {hd : Handler} (r : RuntimeRef) (sites : CallSites) (rest : List Value)

theorem run_getAlias (hk : Marshal.toHost w.heap k = .ok x) :
    hd.run (LibraryCall.getAlias ⟨r, sites, "?", k :: rest⟩) w = (.value [w.aliasValue x], w) := by
  have harg : LibraryCall.arg ⟨r, sites, "?", k :: rest⟩ 1 = k := rfl
  have hget : (PropertyTable.collection .aliases).get (w.answer .host).1 x =
      w.host.collections.aliases.get x := rfl
  rw [LibraryCall.getAlias, harg, Handler.run_bind_of_value (Handler.run_hostValue hk),
    Handler.run_ask_bind, World.aliasValue, hget]
  cases hx : w.host.collections.aliases.get x with
  | none => rfl
  | some value =>
    obtain ⟨s, -, rfl⟩ := Option.map_eq_some_iff.1 hx
    rfl

theorem run_setAlias (hk : Marshal.toHost w.heap k = .ok x) (hv : Marshal.toHost w.heap v = .ok y) :
    hd.run (LibraryCall.setAlias ⟨r, sites, "?", k :: v :: rest⟩) w =
      w.asCalled ((PropertyTable.collection .aliases).set w.host x y) := by
  have hname : LibraryCall.arg ⟨r, sites, "?", k :: v :: rest⟩ 1 = k := rfl
  have hbody : LibraryCall.arg ⟨r, sites, "?", k :: v :: rest⟩ 2 = v := rfl
  rw [LibraryCall.setAlias, hname, hbody, Handler.run_bind_of_value (Handler.run_hostValue hk),
    Handler.run_bind_of_value (Handler.run_hostValue hv), Handler.run_ask_bind]
  have ha : w.answer (.setProperty (.collection .aliases) x y) =
      w.updateHost ((PropertyTable.collection .aliases).set w.host x y) := rfl
  rw [ha]
  cases (PropertyTable.collection .aliases).set w.host x y <;> rfl

theorem run_bindKey (hooks : RegistryRef) (key : String) (hv : Marshal.toHost w.heap v = .ok y) :
    hd.run (LibraryCall.bindKey ⟨r, sites, "?", .text key :: v :: rest⟩ hooks) w =
      w.asCalled ((PropertyTable.keys hooks).set w.host (.text key) y) := by
  rw [ReachesKeys.run_bindKey r sites key (v :: rest) hv]
  show _ = w.asCalled (w.host.bindKey hooks key y)
  cases w.host.bindKey hooks key y <;> rfl

end Functions

namespace Ready

/-- With room for it, a call runs the function. -/
theorem call_of_room (hr : forms.Ready w.heap) (form : FormFunction) (args : List Value)
    {outcome : Outcome (List Value) × World}
    (hbody : ∀ (hd : Handler) (r : RuntimeRef) (sites : CallSites),
      hd.run (form.body forms.hooks ⟨r, sites, "?", args⟩) w = outcome)
    (n b : Nat) (r : RuntimeRef) (sites : CallSites) :
    (handlerWithin (n + 1) (b + 1) r).call (.func (forms.function form)) args sites w = outcome := by
  rcases hr.call_cases (n := n + 1) (b := b + 1) (r := r) form args sites with
    ⟨hdeep, -⟩ | ⟨n', b', r', hw⟩
  · exact absurd hdeep (by omega)
  · rw [hw, hbody]

/-- Without it, the call fails or runs the function all the same. -/
theorem call_or_error (hr : forms.Ready w.heap) (form : FormFunction) (args : List Value)
    {outcome : Outcome (List Value) × World}
    (hbody : ∀ (hd : Handler) (r : RuntimeRef) (sites : CallSites),
      hd.run (form.body forms.hooks ⟨r, sites, "?", args⟩) w = outcome)
    (n b : Nat) (r : RuntimeRef) (sites : CallSites) :
    (∃ e, (handlerWithin n b r).call (.func (forms.function form)) args sites w = (.error e, w)) ∨
      (handlerWithin n b r).call (.func (forms.function form)) args sites w = outcome := by
  rcases hr.call_cases (n := n) (b := b) (r := r) form args sites with ⟨-, he⟩ | ⟨n', b', r', hw⟩
  · exact .inl he
  · exact .inr (by rw [hw, hbody])

/-- A table and a function write alike where the function makes the write that the table claims. -/
theorem writesAlike (hr : forms.Ready w.heap) (form : FormTable) (function : FormFunction)
    (htable : ∀ t, k ≠ .table t) (hk : Marshal.toHost w.heap k = .ok x)
    (hv : Marshal.toHost w.heap v = .ok y)
    (hbody : ∀ (hd : Handler) (r : RuntimeRef) (sites : CallSites) (rest : List Value),
      hd.run (function.body forms.hooks ⟨r, sites, "?", k :: v :: rest⟩) w =
        w.asCalled ((form.property forms.hooks).set w.host x y)) :
    forms.WritesAlike w form function k v ((form.property forms.hooks).set w.host x y) where
  assigned n b r here name? := by
    have hrun := run_setIndex_of_claims (n := n) (b := b) (r := r) (hr.offers form)
      (hr.rawGet form (Heap.not_nameless hk htable)) hk (form.claimsAll _ x) hv here name?
    rw [hrun]
    cases (form.property forms.hooks).set w.host x y <;> rfl
  called n b r sites rest :=
    hr.call_of_room function _ (fun hd r sites => hbody hd r sites rest) n b r sites
  refused := w.asCalled_iff _
  host := w.host_asCalled _
  assignedTooDeep n b r here name? hdeep :=
    run_setIndex_of_tooDeep (hr.offers form) (hr.rawGet form (Heap.not_nameless hk htable)) hdeep
      here name? v
  calledTooDeep n b r sites rest :=
    hr.call_or_error function _ (fun hd r sites => hbody hd r sites rest) n b r sites

theorem readsAlike (hr : forms.Ready w.heap) (htable : ∀ t, k ≠ .table t)
    (hk : Marshal.toHost w.heap k = .ok x) : forms.ReadsAlike w k (w.aliasValue x) where
  read n b r here name? := by
    have habsent := hr.rawGet .aliases (Heap.not_nameless hk htable)
    rw [World.aliasValue]
    cases hx : w.host.collections.aliases.get x with
    | none => exact run_index_of_none (hr.offers .aliases) habsent hk hx here name?
    | some value =>
      obtain ⟨s, -, rfl⟩ := Option.map_eq_some_iff.1 hx
      exact run_index_of_some (hr.offers .aliases) habsent hk hx (fun _ => rfl) here name?
  called n b r sites rest :=
    hr.call_of_room .getAlias _ (fun _ r sites => run_getAlias r sites rest hk) n b r sites
  readTooDeep n b r here name? hdeep :=
    run_index_of_tooDeep (hr.offers .aliases) (hr.rawGet .aliases (Heap.not_nameless hk htable))
      hdeep here name?
  calledTooDeep n b r sites rest :=
    hr.call_or_error .getAlias _ (fun _ r sites => run_getAlias r sites rest hk) n b r sites

end Ready
end CallForms

/-! ## New sessions -/

/-- Valid capabilities with aliases and keys. -/
structure Capabilities.OffersForms (capabilities : Capabilities) : Prop where
  /-- The capabilities are valid. -/
  valid : capabilities.validate = .ok ()
  /-- There are aliases. -/
  aliases : .aliases ∈ capabilities.collections
  /-- There are keys. -/
  keys : capabilities.keys = true

namespace World

variable (w : World) (shell : ShellRef) (capabilities : Capabilities) (config : Config)

/-- A new session has the two forms in its capability table. -/
theorem exists_callForms (hoffers : capabilities.OffersForms) :
    ∃ forms : CallForms, forms.hooks = w.addRegistry.1 ∧
      (∀ form, (w.placeSession shell capabilities config).2.heap.field
        (w.nextCapabilities capabilities).1 form.field = .table (forms.table form)) ∧
      (∀ form, (w.placeSession shell capabilities config).2.heap.field
        (w.nextCapabilities capabilities).1 form.field = .func (forms.function form)) ∧
      forms.Ready (w.placeSession shell capabilities config).2.heap := by
  have hholds := w.holds_placeSession shell config hoffers.valid
  obtain ⟨a, ha, hapart⟩ := hholds _ _ (.collection hoffers.aliases)
  obtain ⟨c, hc, hcpart⟩ := hholds _ _ (.keys hoffers.keys)
  obtain ⟨g, rg, hg, hgcode⟩ := hholds _ _ (.getAlias hoffers.aliases)
  obtain ⟨s, rs, hs, hscode⟩ := hholds _ _ (.setAlias hoffers.aliases)
  obtain ⟨b, rb, hb, hbcode⟩ := hholds _ _ (.bindKey hoffers.keys)
  refine ⟨⟨w.addRegistry.1, fun | .aliases => a | .keys => c,
    fun | .getAlias => g | .setAlias => s | .bindKey => b⟩, rfl, fun form => ?_, fun form => ?_,
    ⟨fun form => ?_, fun form key hne => ?_, fun form => ?_⟩⟩
  · cases form with
    | aliases => exact ha
    | keys => exact hc
  · cases form with
    | getAlias => exact hg
    | setAlias => exact hs
    | bindKey => exact hb
  · cases form with
    | aliases => exact hapart.offers
    | keys => exact hcpart.offers
  · -- both tables begin empty
    cases form with
    | aliases => exact absurd (hapart.empty key) hne
    | keys => exact absurd (hcpart.empty key) hne
  · cases form with
    | getAlias => exact ⟨rg, hgcode⟩
    | setAlias => exact ⟨rs, hscode⟩
    | bindKey => exact ⟨rb, hbcode⟩

/-- **The call forms do what the table forms do.**  A session whose shell has aliases and keys can
be added.  At every point of every history of reads, assignments and calls of both kinds, with
whatever names, values and outcomes, it is the same to write a value with a host form under a name
with a host form that is no table through the alias table or through `setalias`, to read such a name
through the table or through `getalias`, and to bind any text through the key table or through
`bindkey`: the shell makes one and the same write, and where that is refused the assignment raises
the error whose message the function returns after `nil`. -/
theorem call_forms_agree (hoffers : capabilities.OffersForms) :
    ∃ session new t, ∃ forms : CallForms,
      w.addSession shell capabilities config = .ok (session, new) ∧
      (config.namespaceName ≠ "share" →
        new.heap.field (new.globals session) config.namespaceName = .table t) ∧
      forms.hooks = (new.session session).hooks ∧
      (∀ form, new.heap.field t form.field = .table (forms.table form)) ∧
      (∀ form, new.heap.field t form.field = .func (forms.function form)) ∧
      ∀ w', Relation.ReflTransGen forms.Step new w' →
        (∀ (k v : Value) (x y : HostValue), (∀ u, k ≠ .table u) →
          Marshal.toHost w'.heap k = .ok x → Marshal.toHost w'.heap v = .ok y →
          forms.WritesAlike w' .aliases .setAlias k v
            ((PropertyTable.collection .aliases).set w'.host x y)) ∧
        (∀ (k : Value) (x : HostValue), (∀ u, k ≠ .table u) →
          Marshal.toHost w'.heap k = .ok x → forms.ReadsAlike w' k (w'.aliasValue x)) ∧
        ∀ (key : String) (v : Value) (y : HostValue), Marshal.toHost w'.heap v = .ok y →
          forms.WritesAlike w' .keys .bindKey (.text key) v
            ((PropertyTable.keys forms.hooks).set w'.host (.text key) y) := by
  have hadd : w.addSession shell capabilities config =
      .ok (w.placeSession shell capabilities config) := by
    rw [addSession, hoffers.valid]
  obtain ⟨-, -, -, hfield⟩ := w.nextCapabilities_placeSession shell capabilities config
  obtain ⟨forms, hhooks, htables, hfunctions, hready⟩ :=
    w.exists_callForms shell capabilities config hoffers
  have hsession := w.session_placeSession shell capabilities config
  have hruntime := w.runtime_placeSession shell capabilities config
  generalize w.placeSession shell capabilities config = placed
    at hadd hfield htables hfunctions hready hsession hruntime
  obtain ⟨session, new⟩ := placed
  refine ⟨session, new, (w.nextCapabilities capabilities).1, forms, hadd, ?_⟩
  rw [globals, hsession, hruntime]
  refine ⟨hfield, hhooks, htables, hfunctions, fun w' hsteps => ?_⟩
  -- no step of a history takes the forms out of their places
  have hr : forms.Ready w'.heap := hready.steps hsteps
  refine ⟨fun k v x y htable hk hv => ?_, fun k x htable hk => hr.readsAlike htable hk,
    fun key v y hv => ?_⟩
  · exact hr.writesAlike .aliases .setAlias htable hk hv fun hd r sites rest =>
      CallForms.run_setAlias r sites rest hk hv
  · exact hr.writesAlike .keys .bindKey (fun _ => Value.noConfusion)
      (ReachesKeys.toHost_key w'.heap key) hv fun hd r sites rest =>
        CallForms.run_bindKey r sites rest forms.hooks key hv

/-- A shell with aliases and keys. -/
def formsOffer : Capabilities := { collections := [.aliases], keys := true }

/-- After an alias was assigned both forms read it.  A flag is no name of an alias: the assignment
raises an error, and the function returns `nil` and the message. -/
theorem alias_in_both_forms :
    ∃ session new, ∃ forms : CallForms, addSession {} ⟨0⟩ formsOffer {} = .ok (session, new) ∧
      ∀ (r : RuntimeRef) (here : Here) (name? : Option (String × String)) (sites : CallSites),
        ∃ w', (handler r).run (here.setIndex name? (.table (forms.table .aliases)) (.text "ll")
            (.text "ls -l")) new = (.value (), w') ∧
          (handler r).run (here.index name? (.table (forms.table .aliases)) (.text "ll")) w' =
            (.value (.text "ls -l"), w') ∧
          (handler r).call (.func (forms.function .getAlias)) [.text "ll"] sites w' =
            (.value [.text "ls -l"], w') ∧
          (handler r).run (here.setIndex name? (.table (forms.table .aliases)) (.bool true)
            (.text "ls")) w' = (.error (.user ⟨w'.heap.users.size⟩),
              w'.raised (.property ⟨"Bool(true)", "key must be a string"⟩)) ∧
          (handler r).call (.func (forms.function .setAlias)) [.bool true, .text "ls"] sites w' =
            (.value [.nil, .text "Bool(true): key must be a string"], w') := by
  obtain ⟨session, new, t, forms, hadd, -, -, -, -, hagree⟩ :=
    call_forms_agree {} ⟨0⟩ formsOffer {} ⟨rfl, List.mem_cons_self, rfl⟩
  refine ⟨session, new, forms, hadd, fun r here name? sites => ?_⟩
  have hassign := ((hagree new .refl).1 (.text "ll") (.text "ls -l") _ _
    (fun _ => Value.noConfusion) (ReachesKeys.toHost_key _ _) (ReachesKeys.toHost_key _ _)).assigned
      5999 198 r here name?
  obtain ⟨host, hset, hget⟩ : ∃ host,
      (PropertyTable.collection .aliases).set new.host (.text "ll") (.text "ls -l") = .ok host ∧
        host.collections.aliases.get (.text "ll") = some (.text "ls -l") :=
    ⟨_, rfl, congrArg (Option.map HostValue.text) (TextMap.get?_insert_self ..)⟩
  rw [hset] at hassign
  refine ⟨{ new with host := host }, hassign, ?_⟩
  obtain ⟨hwrite, hread, -⟩ := hagree { new with host := host } (.tail .refl
    (.assign .aliases 6000 199 r here name? (.text "ll") (.text "ls -l") trivial hassign))
  have hflagForm : Marshal.toHost new.heap (.bool true) = .ok (.bool true) := by
    rw [Marshal.toHost, Marshal.maxDepth, Marshal.toHostWithin]
  have hll := hread (.text "ll") _ (fun _ => Value.noConfusion) (ReachesKeys.toHost_key _ _)
  have hflag := hwrite (.bool true) (.text "ls") _ _ (fun _ => Value.noConfusion) hflagForm
    (ReachesKeys.toHost_key _ _)
  have hvalue : aliasValue { new with host := host } (.text "ll") = .text "ls -l" := by
    rw [aliasValue, hget]
  rw [hvalue] at hll
  exact ⟨hll.read 5999 198 r here name?, hll.called 5999 198 r sites [],
    hflag.assigned 5999 198 r here name?, hflag.called 5999 198 r sites []⟩

end World
end ScriptShell
