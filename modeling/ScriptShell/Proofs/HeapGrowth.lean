import ScriptShell.Proofs.Runs

/-! # How the heap changes

Two relations between an earlier and a later heap.  `Heap.Keeps` is what holds while the host
builds something new, such as the runtime of a session: all that was there is as it was.
`Heap.Grows` is what holds over every run: no table goes away, and a stream stays a stream and, once
it is closed, stays closed.

A relation that holds over every single change of the heap holds over every run: `Heap.Evolves` says
which changes there are, and `World.Evolves.kept` makes the step from one to all of them.  Objects
that convert themselves may do with the heap what the host's code does, so that they keep to the
relation is the one thing that has to be known of them (`NativesEvolve`, `NativesGrow`).
-/

namespace ScriptShell

/-! ## Arrays that begin alike -/

section StartsWith

variable {α : Type}

/-- The second array begins with the elements of the first one. -/
structure StartsWith (a b : Array α) : Prop where
  /-- It is at least as long. -/
  size : a.size ≤ b.size
  /-- It has the same elements, as far as the first one goes. -/
  get : ∀ i, i < a.size → b[i]? = a[i]?

namespace StartsWith

variable {a b c : Array α}

theorem refl (a : Array α) : StartsWith a a := ⟨Nat.le_refl _, fun _ _ => rfl⟩

theorem trans (h : StartsWith a b) (h' : StartsWith b c) : StartsWith a c :=
  ⟨Nat.le_trans h.size h'.size, fun i hi => by
    rw [h'.get i (Nat.lt_of_lt_of_le hi h.size), h.get i hi]⟩

theorem push (h : StartsWith a b) (x : α) : StartsWith a (b.push x) := by
  refine ⟨?_, fun i hi => ?_⟩
  · rw [Array.size_push]
    exact Nat.le_succ_of_le h.size
  · have hne : i ≠ b.size := Nat.ne_of_lt (Nat.lt_of_lt_of_le hi h.size)
    rw [Array.getElem?_push, if_neg hne, h.get i hi]

/-- A change behind the common part does not show in it. -/
theorem modify (h : StartsWith a b) {j : Nat} (hj : a.size ≤ j) (f : α → α) :
    StartsWith a (b.modify j f) := by
  refine ⟨?_, fun i hi => ?_⟩
  · rw [Array.size_modify]
    exact h.size
  · rw [Array.getElem?_modify, if_neg (by omega), h.get i hi]

theorem setIfInBounds (h : StartsWith a b) {j : Nat} (hj : a.size ≤ j) (x : α) :
    StartsWith a (b.setIfInBounds j x) := by
  refine ⟨?_, fun i hi => ?_⟩
  · rw [Array.size_setIfInBounds]
    exact h.size
  · rw [Array.getElem?_setIfInBounds_ne (by omega), h.get i hi]

end StartsWith
end StartsWith

namespace Guest.Heap

/-! ## Heaps that keep all there was -/

/-- The later heap has everything of the earlier one as it was. -/
structure Keeps (h h' : Heap) : Prop where
  /-- The tables. -/
  tables : StartsWith h.tables h'.tables
  /-- The variables. -/
  cells : StartsWith h.cells h'.cells
  /-- The functions. -/
  functions : StartsWith h.functions h'.functions
  /-- The objects of the host. -/
  users : StartsWith h.users h'.users
  /-- The coroutines. -/
  threads : StartsWith h.threads h'.threads

namespace Keeps

variable {h h' h'' : Heap}

theorem refl (h : Heap) : Keeps h h := ⟨.refl _, .refl _, .refl _, .refl _, .refl _⟩

theorem trans (k : Keeps h h') (k' : Keeps h' h'') : Keeps h h'' :=
  ⟨k.tables.trans k'.tables, k.cells.trans k'.cells, k.functions.trans k'.functions,
    k.users.trans k'.users, k.threads.trans k'.threads⟩

theorem table (k : Keeps h h') {t : TableRef} (ht : t.id < h.tables.size) :
    h'.table t = h.table t := by
  rw [Heap.table, k.tables.get _ ht, Heap.table]

theorem cell (k : Keeps h h') {c : CellRef} (hc : c.id < h.cells.size) :
    h'.cell c = h.cell c := by
  rw [Heap.cell, k.cells.get _ hc, Heap.cell]

theorem addTable (k : Keeps h h') (t : Table) : Keeps h (h'.addTable t).2 :=
  { k with tables := k.tables.push t }

theorem addCell (k : Keeps h h') (v : Value) : Keeps h (h'.addCell v).2 :=
  { k with cells := k.cells.push v }

theorem addFunction (k : Keeps h h') (f : Function) : Keeps h (h'.addFunction f).2 :=
  { k with functions := k.functions.push f }

theorem addUser (k : Keeps h h') (u : User) : Keeps h (h'.addUser u).2 :=
  { k with users := k.users.push u }

/-- A new table may be changed. -/
theorem modifyTable (k : Keeps h h') {t : TableRef} (ht : h.tables.size ≤ t.id)
    (f : Table → Table) : Keeps h (h'.modifyTable t f) :=
  { k with tables := k.tables.modify ht f }

theorem setSlot (k : Keeps h h') {t : TableRef} (ht : h.tables.size ≤ t.id) (key : Key)
    (v : Value) : Keeps h (h'.setSlot t key v) := k.modifyTable ht _

theorem setField (k : Keeps h h') {t : TableRef} (ht : h.tables.size ≤ t.id) (name : String)
    (v : Value) : Keeps h (h'.setField t name v) := k.setSlot ht _ v

theorem setMetatable (k : Keeps h h') {t : TableRef} (ht : h.tables.size ≤ t.id)
    (m : Option TableRef) : Keeps h (h'.setMetatable t m) := k.modifyTable ht _

/-- A new variable may be changed. -/
theorem setCell (k : Keeps h h') {c : CellRef} (hc : h.cells.size ≤ c.id) (v : Value) :
    Keeps h (h'.setCell c v) :=
  { k with cells := k.cells.setIfInBounds hc v }

end Keeps

/-- A function that there is stays what it is. -/
theorem function?_of_startsWith {h h' : Heap} (k : StartsWith h.functions h'.functions)
    {g : GuestFunction} {f : Function} (hg : h.function? g = some f) : h'.function? g = some f := by
  obtain ⟨hlt, -⟩ := Array.getElem?_eq_some_iff.1 hg
  rw [Heap.function?, k.get _ hlt]
  exact hg

/-- The later heap has everything of the earlier one as it was, one table apart. -/
structure KeepsBut (into : TableRef) (h h' : Heap) : Prop where
  /-- No table goes away. -/
  size : h.tables.size ≤ h'.tables.size
  /-- The other tables. -/
  tables : ∀ i, i ≠ into.id → i < h.tables.size → h'.tables[i]? = h.tables[i]?
  /-- The variables. -/
  cells : StartsWith h.cells h'.cells
  /-- The functions. -/
  functions : StartsWith h.functions h'.functions
  /-- The objects of the host. -/
  users : StartsWith h.users h'.users
  /-- The coroutines. -/
  threads : StartsWith h.threads h'.threads

namespace KeepsBut

variable {into : TableRef} {h h' h'' : Heap}

theorem of_keeps (k : Keeps h h') (into : TableRef) : KeepsBut into h h' :=
  ⟨k.tables.size, fun i _ => k.tables.get i, k.cells, k.functions, k.users, k.threads⟩

theorem trans (k : KeepsBut into h h') (k' : KeepsBut into h' h'') : KeepsBut into h h'' :=
  ⟨Nat.le_trans k.size k'.size,
    fun i hi hlt => (k'.tables i hi (Nat.lt_of_lt_of_le hlt k.size)).trans (k.tables i hi hlt),
    k.cells.trans k'.cells, k.functions.trans k'.functions, k.users.trans k'.users,
    k.threads.trans k'.threads⟩

theorem setSlot (h : Heap) (into : TableRef) (key : Key) (v : Value) :
    KeepsBut into h (h.setSlot into key v) := by
  refine ⟨Nat.le_of_eq (size_modifyTable ..).symm, fun i hi _ => ?_, .refl _, .refl _, .refl _,
    .refl _⟩
  rw [Heap.setSlot, Heap.modifyTable, Array.getElem?_modify, if_neg hi.symm]

theorem table (k : KeepsBut into h h') {t : TableRef} (ht : t ≠ into)
    (hlt : t.id < h.tables.size) : h'.table t = h.table t := by
  rw [Heap.table, k.tables t.id (fun he => ht (TableRef.ext he)) hlt, Heap.table]

/-- A heap that ends before the table is kept as a whole. -/
theorem keeps {h₀ : Heap} (k : KeepsBut into h h') (hk : Keeps h₀ h)
    (hi : h₀.tables.size ≤ into.id) : Keeps h₀ h' := by
  refine ⟨⟨Nat.le_trans hk.tables.size k.size, fun i hlt => ?_⟩, hk.cells.trans k.cells,
    hk.functions.trans k.functions, hk.users.trans k.users, hk.threads.trans k.threads⟩
  rw [k.tables i (by omega) (Nat.lt_of_lt_of_le hlt hk.tables.size), hk.tables.get i hlt]

end KeepsBut

/-! ## Heaps that only grow -/

/-- What is left of the earlier heap in the later one, whatever has run in between. -/
structure Grows (h h' : Heap) : Prop where
  /-- Tables are added. -/
  tables : h.tables.size ≤ h'.tables.size
  /-- Streams stay streams, and a closed one stays closed. -/
  stream : ∀ u s, h.user u = .stream s →
    ∃ s', h'.user u = .stream s' ∧ (s.pipe? = none → s'.pipe? = none)

namespace Grows

variable {h h' h'' : Heap}

theorem refl (h : Heap) : Grows h h := ⟨Nat.le_refl _, fun _ s hs => ⟨s, hs, id⟩⟩

theorem trans (g : Grows h h') (g' : Grows h' h'') : Grows h h'' := by
  refine ⟨Nat.le_trans g.tables g'.tables, fun u s hs => ?_⟩
  obtain ⟨s', hs', hc⟩ := g.stream u s hs
  obtain ⟨s'', hs'', hc'⟩ := g'.stream u s' hs'
  exact ⟨s'', hs'', hc' ∘ hc⟩

/-- A change that leaves the objects of the host alone. -/
theorem of_users (ht : h.tables.size ≤ h'.tables.size) (hu : h'.users = h.users) : Grows h h' :=
  ⟨ht, fun u s hs => ⟨s, by rw [Heap.user, hu]; exact hs, id⟩⟩

theorem user_lt {u : UserRef} {s : Stream} (hs : h.user u = .stream s) : u.id < h.users.size := by
  rcases Nat.lt_or_ge u.id h.users.size with hlt | hge
  · exact hlt
  · rw [Heap.user, Array.getElem?_eq_none hge] at hs
    cases hs

theorem of_keeps (k : Keeps h h') : Grows h h' :=
  ⟨k.tables.size, fun u s hs => ⟨s, by rw [Heap.user, k.users.get _ (user_lt hs)]; exact hs, id⟩⟩

theorem modifyTable (h : Heap) (t : TableRef) (f : Table → Table) : Grows h (h.modifyTable t f) :=
  of_users (Nat.le_of_eq Array.size_modify.symm) rfl

/-- Closing a stream closes it and no other one. -/
theorem user_closeUser (h : Heap) (u v : UserRef) (s : Stream) (hs : h.user v = .stream s) :
    (h.closeUser u).user v = .stream (if u = v then s.close else s) := by
  have hlt := user_lt hs
  have hv : h.users[v.id]? = some (.stream s) := by
    rw [Heap.user] at hs
    cases he : h.users[v.id]? with
    | none => rw [he] at hs; cases hs
    | some x =>
      rw [he] at hs
      exact congrArg some hs
  rw [Heap.user, Heap.closeUser, Array.getElem?_modify, hv]
  by_cases huv : u = v
  · rw [if_pos (congrArg UserRef.id huv), if_pos huv]
    rfl
  · have hid : u.id ≠ v.id := fun he => huv (by cases u; cases v; exact congrArg UserRef.mk he)
    rw [if_neg hid, if_neg huv]
    rfl

theorem closeUser (h : Heap) (u : UserRef) : Grows h (h.closeUser u) := by
  refine ⟨Nat.le_refl _, fun v s hs => ⟨_, user_closeUser h u v s hs, fun hc => ?_⟩⟩
  split
  · rfl
  · exact hc

/-- Reading from an open file does not touch a stream. -/
theorem user_setFileRest (h : Heap) (u v : UserRef) (rest : Bytes) {s : Stream}
    (hs : h.user v = .stream s) : (h.setFileRest u rest).user v = .stream s := by
  rw [Heap.user] at hs ⊢
  rw [Heap.setFileRest, Array.getElem?_modify]
  split
  · cases he : h.users[v.id]? with
    | none => rw [he] at hs; cases hs
    | some x =>
      rw [he, Option.getD_some] at hs
      subst hs
      rfl
  · exact hs

theorem setFileRest (h : Heap) (u : UserRef) (rest : Bytes) : Grows h (h.setFileRest u rest) :=
  ⟨Nat.le_refl _, fun v s hs => ⟨s, user_setFileRest h u v rest hs, id⟩⟩

end Grows
end Guest.Heap

/-! ## What single changes keep -/

/-- A relation between an earlier and a later heap that holds over everything that programs can do
to a heap. -/
structure Guest.Heap.Evolves (R : Guest.Heap → Guest.Heap → Prop) : Prop where
  /-- It holds over one stretch after another. -/
  trans : ∀ {a b c}, R a b → R b c → R a c
  /-- Anything may be added. -/
  of_keeps : ∀ {h h'}, Keeps h h' → R h h'
  /-- Tables, variables and coroutines may change, but tables do not go away. -/
  of_users : ∀ {h h'}, h.tables.size ≤ h'.tables.size → h'.users = h.users →
    h'.functions = h.functions → R h h'
  /-- Streams and open files may be closed. -/
  closeUser : ∀ h u, R h (h.closeUser u)
  /-- Open files may be read. -/
  setFileRest : ∀ h u rest, R h (h.setFileRest u rest)

open Guest (Heap RuntimeRef TableRef)
open Guest.Heap (Evolves Grows)

theorem Guest.Heap.Grows.evolves : Evolves Grows where
  trans := trans
  of_keeps := of_keeps
  of_users ht hu _ := of_users ht hu
  closeUser := closeUser
  setFileRest := setFileRest

namespace Guest.Heap.Evolves

variable {R : Heap → Heap → Prop}

theorem refl (hR : Evolves R) (h : Heap) : R h h := hR.of_keeps (.refl h)

theorem modifyTable (hR : Evolves R) (h : Heap) (t : TableRef) (f : Guest.Table → Guest.Table) :
    R h (h.modifyTable t f) :=
  hR.of_users (Nat.le_of_eq Array.size_modify.symm) rfl rfl

end Guest.Heap.Evolves

/-- The relation holds over what the objects do that convert themselves. -/
def NativesEvolve (R : Heap → Heap → Prop) (natives : Array Marshal.NativeForm) : Prop :=
  ∀ (n : Nat) (form : Marshal.NativeForm), natives[n]? = some form → ∀ r h, R h (form r h).2

namespace Marshal

variable {natives : Array NativeForm} {R : Heap → Heap → Prop}

mutual

theorem evolves_toGuest (hR : Evolves R) (hn : NativesEvolve R natives) (r : RuntimeRef) :
    ∀ (v : HostValue) (h : Heap), R h (toGuest natives r v h).2
  | .nil, h | .bool _, h | .int _, h | .text _, h | .error _, h | .bytes _, h | .callable _, h =>
    hR.refl h
  | .handle x, h => hR.of_keeps ((Heap.Keeps.refl h).addUser _)
  | .function f, h => hR.of_keeps ((Heap.Keeps.refl h).addFunction _)
  | .seq items, h => by
    have ht : R h (h.addTable {}).2 := hR.of_keeps ((Heap.Keeps.refl h).addTable _)
    have hi := evolves_toGuestItems hR hn r (h.addTable {}).1 1 items (h.addTable {}).2
    unfold toGuest
    dsimp only
    split
    · next he =>
      rw [he] at hi
      exact hR.trans ht hi
    · next he =>
      rw [he] at hi
      exact hR.trans ht hi
  | .map entries, h => by
    have ht : R h (h.addTable {}).2 := hR.of_keeps ((Heap.Keeps.refl h).addTable _)
    have hi := evolves_toGuestEntries hR hn r (h.addTable {}).1 entries (h.addTable {}).2
    unfold toGuest
    dsimp only
    split
    · next he =>
      rw [he] at hi
      exact hR.trans ht hi
    · next he =>
      rw [he] at hi
      exact hR.trans ht hi
  | .native n, h => by
    unfold toGuest
    split
    · next form hf => exact hn n.id form hf r h
    · exact hR.refl h
termination_by structural v => v

theorem evolves_toGuestItems (hR : Evolves R) (hn : NativesEvolve R natives) (r : RuntimeRef)
    (t : TableRef) (n : Nat) :
    ∀ (items : List HostValue) (h : Heap), R h (toGuestItems natives r t n items h).2
  | [], h => hR.refl h
  | v :: rest, h => by
    have hv := evolves_toGuest hR hn r v h
    unfold toGuestItems
    split
    · next v' h' he =>
      rw [he] at hv
      exact hR.trans (hR.trans hv (hR.modifyTable h' t _))
        (evolves_toGuestItems hR hn r t (n + 1) rest _)
    · next he =>
      rw [he] at hv
      exact hv
termination_by structural items => items

theorem evolves_toGuestEntries (hR : Evolves R) (hn : NativesEvolve R natives) (r : RuntimeRef)
    (t : TableRef) :
    ∀ (entries : List (HostValue × HostValue)) (h : Heap),
      R h (toGuestEntries natives r t entries h).2
  | [], h => hR.refl h
  | (k, v) :: rest, h => by
    have hk := evolves_toGuest hR hn r k h
    unfold toGuestEntries
    split
    · next he =>
      rw [he] at hk
      exact hk
    · next k' h' he =>
      rw [he] at hk
      split
      · exact hk
      · next key hkey =>
        have hv := evolves_toGuest hR hn r v h'
        split
        · next v' h'' he' =>
          rw [he'] at hv
          exact hR.trans (hR.trans (hR.trans hk hv) (hR.modifyTable h'' t _))
            (evolves_toGuestEntries hR hn r t rest _)
        · next he' =>
          rw [he'] at hv
          exact hR.trans hk hv
termination_by structural entries => entries

end
end Marshal

/-! ## What runs keep -/

/-- The later state has the same ways for objects to convert themselves, and a heap that is related
to the earlier one. -/
structure World.Evolves (R : Heap → Heap → Prop) (w w' : World) : Prop where
  /-- Objects convert themselves as before. -/
  natives : w'.natives = w.natives
  /-- The heaps are related. -/
  heap : NativesEvolve R w.natives → R w.heap w'.heap

namespace World.Evolves

variable {R : Heap → Heap → Prop} {w w' w'' : World}

theorem trans (hR : Heap.Evolves R) (e : World.Evolves R w w') (e' : World.Evolves R w' w'') :
    World.Evolves R w w'' :=
  ⟨e'.natives.trans e.natives, fun hn => hR.trans (e.heap hn) (e'.heap (by rwa [e.natives]))⟩

/-- A change outside the heap. -/
theorem of_heap (hR : Heap.Evolves R) (hn : w'.natives = w.natives) (hh : w'.heap = w.heap) :
    World.Evolves R w w' :=
  ⟨hn, fun _ => hh ▸ hR.refl _⟩

theorem answer (hR : Heap.Evolves R) (w : World) (o : Operation) :
    World.Evolves R w (w.answer o).2 := by
  have of_change {h : Heap} (hh : R w.heap h) : World.Evolves R w { w with heap := h } :=
    ⟨rfl, fun _ => hh⟩
  have same := Heap.Keeps.refl w.heap
  cases o with
  | newTable t => exact of_change (hR.of_keeps (same.addTable t))
  | newCell v => exact of_change (hR.of_keeps (same.addCell v))
  | newFunction f => exact of_change (hR.of_keeps (same.addFunction f))
  | newUser u => exact of_change (hR.of_keeps (same.addUser u))
  | newThread f => exact of_change (hR.of_users (Nat.le_refl _) rfl rfl)
  | setSlot t k v => exact of_change (hR.modifyTable _ t _)
  | setMetatable t m => exact of_change (hR.modifyTable _ t _)
  | growArray t size => exact of_change (hR.modifyTable _ t _)
  | setCell c v => exact of_change (hR.of_users (Nat.le_refl _) rfl rfl)
  | closeUser u => exact of_change (hR.closeUser _ u)
  | setFileRest u rest => exact of_change (hR.setFileRest _ u rest)
  | toGuest r v => exact ⟨rfl, fun hn => Marshal.evolves_toGuest hR hn r v w.heap⟩
  | read i format =>
    obtain ⟨_, _, h⟩ := w.read_eq i format
    show World.Evolves R w (w.read i format).2
    rw [h]
    exact of_heap hR rfl rfl
  | setProperty t key v =>
    obtain ⟨_, h⟩ := w.updateHost_eq (t.set w.host key v)
    show World.Evolves R w (w.updateHost _).2
    rw [h]
    exact of_heap hR rfl rfl
  | bindKey hooks key v =>
    obtain ⟨_, h⟩ := w.updateHost_eq (w.host.bindKey hooks key v)
    show World.Evolves R w (w.updateHost _).2
    rw [h]
    exact of_heap hR rfl rfl
  | closeSession s =>
    obtain ⟨_, _, h⟩ := w.closeSession_eq s
    show World.Evolves R w (w.closeSession s)
    rw [h]
    exact of_heap hR rfl rfl
  | changeDirectory path =>
    obtain ⟨_, h⟩ := w.changeDirectory_eq path
    rw [h]
    exact of_heap hR rfl rfl
  -- the others do not touch the heap
  | _ => exact of_heap hR rfl rfl

theorem begin (hR : Heap.Evolves R) (w : World) (i : Invocation) :
    World.Evolves R w (i.begin w).2 := by
  unfold Invocation.begin
  dsimp only
  split <;> exact of_heap hR rfl rfl

theorem setContext (hR : Heap.Evolves R) (w : World) (r : RuntimeRef) (c? : Option Context) :
    World.Evolves R w (w.setContext r c?) := of_heap hR rfl rfl

/-- What holds over every single change holds over every run. -/
theorem kept (hR : Heap.Evolves R) : Kept (World.Evolves R) where
  refl w := of_heap hR rfl rfl
  trans := trans hR
  answer := answer hR
  invokeOpen h i w hrun := by
    rw [h.invokeOpen_snd]
    exact trans hR (trans hR (begin hR w i) (hrun _ _)) (setContext hR _ _ _)

end World.Evolves

/-! ## Runs let the heap grow -/

/-- Objects that convert themselves only add to the heap and fill tables. -/
def NativesGrow (natives : Array Marshal.NativeForm) : Prop :=
  ∀ (n : Nat) (form : Marshal.NativeForm), natives[n]? = some form → ∀ r h, Grows h (form r h).2

/-- The later state has a heap that has grown, and the same ways for objects to convert
themselves. -/
structure World.Ages (w w' : World) : Prop where
  /-- Objects convert themselves as before. -/
  natives : w'.natives = w.natives
  /-- The heap has only grown. -/
  heap : NativesGrow w.natives → Grows w.heap w'.heap

namespace World.Ages

theorem eq_evolves : World.Ages = World.Evolves Grows := by
  funext w w'
  exact propext ⟨fun a => ⟨a.natives, a.heap⟩, fun e => ⟨e.natives, e.heap⟩⟩

theorem begin (w : World) (i : Invocation) : w.Ages (i.begin w).2 := by
  rw [eq_evolves]
  exact .begin Grows.evolves w i

/-- Every run lets the heap grow. -/
theorem kept : Kept World.Ages := by
  rw [eq_evolves]
  exact World.Evolves.kept Grows.evolves

end World.Ages

end ScriptShell
