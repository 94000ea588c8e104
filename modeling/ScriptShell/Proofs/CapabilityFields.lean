import Mathlib.Logic.Function.Basic
import ScriptShell.Proofs.CapabilityKeys
import ScriptShell.Proofs.InstalledFields
import ScriptShell.Proofs.PropertyAccess
import ScriptShell.Session.Copy

/-! # The fields of a capability table over time

What a guest finds in a field of the capability table is kept in three places: scalar properties
are in cells of the shell, hooks are in the registry of the session, and all else is in the table
itself.  A read or a write gets to the shell only while the table itself has nothing under the name,
so one value under the name of a scalar property or a hook would cut the shell off for good.
`Reflects` says that there is none, and that the three places together hold what was last written
from either side (`LastWritten`).  Everything that guests can do with ordinary reads and assignments
keeps it (`Reflects.run_index`, `Reflects.setIndex_cases`), and so does everything that the shell
does with the cells and the registry; `FieldHistory.reflects` is the induction over all of this, and
`World.capability_fields` says what it means for the guest.
-/

namespace ScriptShell

open Guest

variable {p : ScalarProperties} {hooks : RegistryRef} {t : TableRef} {w w' : World}

/-- Each scalar property has a cell of its own. -/
def ScalarProperties.Separate (p : ScalarProperties) : Prop :=
  ∀ name name' cell, TextMap.get? p name = some cell → TextMap.get? p name' = some cell →
    name = name'

/-! ## What was written last -/

/-- What was last written to the fields of a capability table, by the guest or by the shell. -/
structure LastWritten where
  /-- The content of each scalar property. -/
  scalar : String → ScalarCell
  /-- The function of each hook. -/
  hook : HookPoint → Option GuestFunction
  /-- The table's own fields. -/
  own : Bytes → Value

namespace LastWritten

/-- What is there when nothing has been written yet: the contents of the cells, no hooks, and the
fields that the table has. -/
def start (p : ScalarProperties) (t : TableRef) (w : World) : LastWritten where
  scalar name := ((TextMap.get? p name).map w.host.scalar).getD default
  hook _ := none
  own s := (w.heap.table t).get (.str s)

/-- Another content of a scalar property. -/
def setScalar (last : LastWritten) (name : String) (content : ScalarCell) : LastWritten :=
  { last with scalar := Function.update last.scalar name content }

/-- Another function of a hook, or none. -/
def setHook (last : LastWritten) (point : HookPoint) (f : Option GuestFunction) : LastWritten :=
  { last with hook := Function.update last.hook point f }

/-- What is there after an assignment that is not refused.  Scalar properties get what the value is
to the shell. -/
def assign (last : LastWritten) (p : ScalarProperties) (h : Heap) (s : Bytes) (v : Value) :
    LastWritten :=
  match p.fieldKind s with
  | .scalar name =>
    match (Marshal.toHost h v).toOption.bind ScalarCell.ofValue? with
    | some content => last.setScalar name content
    | none => last
  | .hook point =>
    match v with
    | .func f => last.setHook point (some f)
    | _ => last.setHook point none
  | .own => { last with own := Function.update last.own s v }

/-- What a guest reads. -/
def read (last : LastWritten) (p : ScalarProperties) (s : Bytes) : Value :=
  match p.fieldKind s with
  | .scalar name => (last.scalar name).form
  | .hook point => ((last.hook point).map Value.func).getD .nil
  | .own => last.own s

/-- An assignment is refused: a scalar property takes values of its kind, a hook takes a function or
`nil`, and both take only what can cross to the shell. -/
def Refuses (last : LastWritten) (p : ScalarProperties) (h : Heap) (s : Bytes) (v : Value) : Prop :=
  (∃ name x, p.fieldKind s = .scalar name ∧ Marshal.toHost h v = .ok x ∧
    x.kindName ≠ (last.scalar name).value.kindName) ∨
  (∃ point, p.fieldKind s = .hook point ∧ v ≠ .nil ∧ ∀ f, v ≠ .func f) ∨
  (p.fieldKind s ≠ .own ∧ ∃ e, Marshal.toHost h v = .error e)

section Refuses

variable {last : LastWritten} {h : Heap} {s : Bytes} {v : Value} {x : HostValue}

theorem refuses_scalar {name : String} (hs : p.fieldKind s = .scalar name)
    (hx : Marshal.toHost h v = .ok x) :
    last.Refuses p h s v ↔ x.kindName ≠ (last.scalar name).value.kindName := by
  constructor
  · rintro (⟨name', x', hs', hx', hne⟩ | ⟨point, hs', -⟩ | ⟨-, e, he⟩)
    · cases hs.symm.trans hs'
      cases hx.symm.trans hx'
      exact hne
    · cases hs.symm.trans hs'
    · cases hx.symm.trans he
  · intro hne
    exact .inl ⟨name, x, hs, hx, hne⟩

theorem refuses_hook {point : HookPoint} (hs : p.fieldKind s = .hook point)
    (hx : Marshal.toHost h v = .ok x) :
    last.Refuses p h s v ↔ v ≠ .nil ∧ ∀ f, v ≠ .func f := by
  constructor
  · rintro (⟨name, x', hs', -⟩ | ⟨point', -, hv⟩ | ⟨-, e, he⟩)
    · cases hs.symm.trans hs'
    · exact hv
    · cases hx.symm.trans he
  · intro hv
    exact .inr (.inl ⟨point, hs, hv⟩)

theorem not_refuses_own (hs : p.fieldKind s = .own) : ¬last.Refuses p h s v := by
  rintro (⟨name, x', hs', -⟩ | ⟨point, hs', -⟩ | ⟨hne, -⟩)
  · cases hs.symm.trans hs'
  · cases hs.symm.trans hs'
  · exact hne hs

/-- Scalar properties keep their kinds. -/
theorem kind_assign (hn : ¬last.Refuses p h s v) (name : String) :
    ((last.assign p h s v).scalar name).value.kindName = (last.scalar name).value.kindName := by
  rw [assign]
  cases hs : p.fieldKind s with
  | own => rfl
  | hook point => cases v <;> rfl
  | scalar name' =>
    dsimp only
    cases hx : Marshal.toHost h v with
    | error e => rfl
    | ok x =>
      have hkind : x.kindName = (last.scalar name').value.kindName :=
        Decidable.of_not_not fun hne => hn ((refuses_scalar hs hx).2 hne)
      cases hc : ScalarCell.ofValue? x with
      | none => simp only [Except.toOption, Option.bind_some, hc]
      | some content =>
        simp only [Except.toOption, Option.bind_some, hc, setScalar]
        by_cases he : name = name'
        · rw [he, Function.update_self, ← hkind, ScalarCell.kindName_of_ofValue? hc]
        · rw [Function.update_of_ne he]

end Refuses
end LastWritten

/-! ## The three places -/

/-- The cells, the registry and the table together hold what was last written, and the table has
nothing in the place of the others. -/
structure Reflects (p : ScalarProperties) (hooks : RegistryRef) (t : TableRef) (w : World)
    (last : LastWritten) : Prop where
  /-- The table exists. -/
  lt : t.id < w.heap.tables.size
  /-- It leads to the shell. -/
  offers : w.heap.Offers t (.capabilities p hooks)
  /-- The registry exists. -/
  registry_lt : hooks.id < w.host.registries.size
  /-- The cells exist. -/
  cell_lt : ∀ name cell, TextMap.get? p name = some cell → cell.id < w.host.scalars.size
  /-- The table has nothing under the names of scalar properties and hooks. -/
  storage : ∀ s, p.fieldKind s ≠ .own → (w.heap.table t).get (.str s) = .nil
  /-- It holds all other fields. -/
  own : ∀ s, p.fieldKind s = .own → (w.heap.table t).get (.str s) = last.own s
  /-- The cells hold the scalar properties. -/
  scalar : ∀ name cell, TextMap.get? p name = some cell → w.host.scalar cell = last.scalar name
  /-- The registry holds the hooks. -/
  hook : ∀ point, (w.host.registry hooks).get? point = last.hook point

/-- A stretch in which other things happen: the fields of a capability table, what is behind them
and the way there stay as they are. -/
structure Apart (p : ScalarProperties) (hooks : RegistryRef) (t : TableRef) (w w' : World) :
    Prop where
  /-- No table goes away. -/
  tables : w.heap.tables.size ≤ w'.heap.tables.size
  /-- Functions stay what they are. -/
  functions : StartsWith w.heap.functions w'.heap.functions
  /-- The table keeps its fields. -/
  fields : ∀ s, (w'.heap.table t).get (.str s) = (w.heap.table t).get (.str s)
  /-- It keeps its metatable. -/
  metatable : (w'.heap.table t).metatable? = (w.heap.table t).metatable?
  /-- The metatable keeps what it has. -/
  methods : ∀ m, (w.heap.table t).metatable? = some m → ∀ k, (w.heap.table m).get k ≠ .nil →
    (w'.heap.table m).get k = (w.heap.table m).get k
  /-- No cell goes away. -/
  cells : w.host.scalars.size ≤ w'.host.scalars.size
  /-- The cells of the scalar properties keep their contents. -/
  scalar : ∀ name cell, TextMap.get? p name = some cell → w'.host.scalar cell = w.host.scalar cell
  /-- No registry goes away. -/
  registries : w.host.registries.size ≤ w'.host.registries.size
  /-- The registry keeps its functions. -/
  registry : w'.host.registry hooks = w.host.registry hooks

/-- How an assignment ends: it is refused and raises a failure, which is all that it does, or it is
not refused and does what it says. -/
def IsAssigned (p : ScalarProperties) (hooks : RegistryRef) (t : TableRef) (w : World)
    (last : LastWritten) (s : Bytes) (v : Value) (result : Outcome Unit × World) : Prop :=
  (last.Refuses p w.heap s v ∧
    ∃ f, result = (.error (.user ⟨w.heap.users.size⟩), w.raised f)) ∨
  (¬last.Refuses p w.heap s v ∧
    ∃ w', result = (.value (), w') ∧ Reflects p hooks t w' (last.assign p w.heap s v))

/-- New things may be added to the heap. -/
theorem Apart.of_keeps {last : LastWritten} (hr : Reflects p hooks t w last)
    (hk : w.heap.Keeps w'.heap) (hh : w'.host = w.host) : Apart p hooks t w w' where
  tables := hk.tables.size
  functions := hk.functions
  fields s := by rw [hk.table hr.lt]
  metatable := by rw [hk.table hr.lt]
  methods m hm k _ := by
    obtain ⟨m', -, hlt, hm', -⟩ := hr.offers
    rw [hm] at hm'
    cases hm'
    rw [hk.table hlt]
  cells := Nat.le_of_eq (by rw [hh])
  scalar _ _ _ := by rw [hh]
  registries := Nat.le_of_eq (by rw [hh])
  registry := by rw [hh]

namespace Reflects

variable {last : LastWritten} {s : Bytes} {v : Value}

/-! ### One step -/

/-- Nothing changes while other things happen. -/
theorem apart (hr : Reflects p hooks t w last) (ha : Apart p hooks t w w') :
    Reflects p hooks t w' last where
  lt := Nat.lt_of_lt_of_le hr.lt ha.tables
  offers := hr.offers.mono ha.tables ha.metatable ha.methods ha.functions
  registry_lt := Nat.lt_of_lt_of_le hr.registry_lt ha.registries
  cell_lt name cell hc := Nat.lt_of_lt_of_le (hr.cell_lt name cell hc) ha.cells
  storage s hs := (ha.fields s).trans (hr.storage s hs)
  own s hs := (ha.fields s).trans (hr.own s hs)
  scalar name cell hc := (ha.scalar name cell hc).trans (hr.scalar name cell hc)
  hook point := by rw [ha.registry, hr.hook]

/-- A failure that is raised is a new object. -/
theorem raised (hr : Reflects p hooks t w last) (f : Failure) :
    Reflects p hooks t (w.raised f) last :=
  hr.apart (.of_keeps hr ((Heap.Keeps.refl w.heap).addUser _) rfl)

/-- A cell gets another content.  No other property has the same cell. -/
theorem setScalar (hr : Reflects p hooks t w last) (hsep : p.Separate) {name : String}
    {cell : ScalarRef} (hc : TextMap.get? p name = some cell) (content : ScalarCell) :
    Reflects p hooks t { w with host := w.host.setScalar cell content }
      (last.setScalar name content) where
  lt := hr.lt
  offers := hr.offers
  registry_lt := hr.registry_lt
  cell_lt name' cell' hc' := by
    show cell'.id < (w.host.scalars.setIfInBounds cell.id content).size
    rw [Array.size_setIfInBounds]
    exact hr.cell_lt name' cell' hc'
  storage := hr.storage
  own := hr.own
  scalar name' cell' hc' := by
    show (w.host.scalars.setIfInBounds cell.id content)[cell'.id]?.getD default =
      Function.update last.scalar name content name'
    by_cases hn : name' = name
    · subst hn
      rw [hc'] at hc
      cases hc
      rw [Array.getElem?_setIfInBounds_self_of_lt (hr.cell_lt name' cell hc'),
        Function.update_self]
      rfl
    · -- one cell behind two names would make them one
      have hne : cell.id ≠ cell'.id := by
        intro he
        obtain ⟨i⟩ := cell
        obtain ⟨j⟩ := cell'
        cases he
        exact hn (hsep name' name ⟨i⟩ hc' hc)
      rw [Array.getElem?_setIfInBounds_ne hne, Function.update_of_ne hn]
      exact hr.scalar name' cell' hc'
  hook := hr.hook

/-- The registry becomes another one. -/
theorem setRegistry (hr : Reflects p hooks t w last) {registry : HookRegistry}
    {hook : HookPoint → Option GuestFunction} (hh : ∀ point, registry.get? point = hook point) :
    Reflects p hooks t (w.setRegistry hooks registry) { last with hook := hook } where
  lt := hr.lt
  offers := hr.offers
  registry_lt := by
    show hooks.id < (w.host.registries.setIfInBounds hooks.id registry).size
    rw [Array.size_setIfInBounds]
    exact hr.registry_lt
  cell_lt := hr.cell_lt
  storage := hr.storage
  own := hr.own
  scalar := hr.scalar
  hook point := by
    show ((w.host.registries.setIfInBounds hooks.id registry)[hooks.id]?.getD {}).get? point = _
    rw [Array.getElem?_setIfInBounds_self_of_lt hr.registry_lt]
    exact hh point

theorem register (hr : Reflects p hooks t w last) (point : HookPoint) (f : GuestFunction) :
    Reflects p hooks t (w.setRegistry hooks ((w.host.registry hooks).register point f))
      (last.setHook point (some f)) := by
  refine hr.setRegistry fun q => ?_
  rw [HookRegistry.get?_register, Function.update_apply, hr.hook]

theorem unregister (hr : Reflects p hooks t w last) (point : HookPoint) :
    Reflects p hooks t (w.setRegistry hooks ((w.host.registry hooks).unregister point))
      (last.setHook point none) := by
  refine hr.setRegistry fun q => ?_
  rw [HookRegistry.get?_unregister, Function.update_apply, hr.hook]

/-- A field of the table's own is set in the table. -/
theorem setOwn (hr : Reflects p hooks t w last) (hs : p.fieldKind s = .own) (v : Value) :
    Reflects p hooks t { w with heap := w.heap.setSlot t (.str s) v }
      { last with own := Function.update last.own s v } where
  lt := by
    show t.id < (w.heap.setSlot t (.str s) v).tables.size
    rw [Heap.setSlot, Heap.size_modifyTable]
    exact hr.lt
  offers := hr.offers.setSlot (.str s) v
  registry_lt := hr.registry_lt
  cell_lt := hr.cell_lt
  storage s' hs' := by
    have hne : s ≠ s' := fun he => hs' (he ▸ hs)
    show ((w.heap.setSlot t (.str s) v).table t).get (.str s') = .nil
    rw [Heap.get_setSlot_of_ne _ _ (fun he => hne (Key.str.inj he))]
    exact hr.storage s' hs'
  own s' hs' := by
    show ((w.heap.setSlot t (.str s) v).table t).get (.str s') =
      Function.update last.own s v s'
    by_cases he : s' = s
    · rw [he, Heap.get_setSlot w.heap hr.lt, if_pos ⟨rfl, rfl⟩, Function.update_self]
    · rw [Heap.get_setSlot_of_ne _ _ (fun hk => he (Key.str.inj hk).symm),
        Function.update_of_ne he]
      exact hr.own s' hs'
  scalar := hr.scalar
  hook := hr.hook

/-! ### Reads -/

variable {n b : Nat} {r : RuntimeRef} (here : Here) (name? : Option (String × String))

/-- The shell's fields are not in the table. -/
theorem rawGet_of_ne_own (hr : Reflects p hooks t w last) (hs : p.fieldKind s ≠ .own) :
    w.heap.rawGet t (.str s) = .nil := by
  rw [Heap.rawGet_eq _ _ rfl]
  exact hr.storage s hs

/-- A guest reads what was last written. -/
theorem run_index (hr : Reflects p hooks t w last) (s : Bytes) :
    (handlerWithin (n + 1) (b + 1) r).run (here.index name? (.table t) (.str s)) w =
      (.value (last.read p s), w) := by
  have hkey := toHost_str w.heap s
  rw [LastWritten.read]
  cases hs : p.fieldKind s with
  | scalar name =>
    obtain ⟨-, cell, hc⟩ := fieldKind_eq_scalar hs
    have habsent := hr.rawGet_of_ne_own (s := s) (by rw [hs]; exact FieldKind.noConfusion)
    have hget := get_keyOf_scalar hooks w.host hs hc
    rw [hr.scalar name cell hc] at hget
    exact run_index_of_some hr.offers habsent hkey hget
      (fun r => ScalarCell.toGuest_value _ _ r _) here name?
  | hook point =>
    have habsent := hr.rawGet_of_ne_own (s := s) (by rw [hs]; exact FieldKind.noConfusion)
    have hget := get_keyOf_hook hooks w.host hs
    rw [hr.hook] at hget
    dsimp only
    cases hf : last.hook point with
    | none =>
      rw [hf] at hget
      exact run_index_of_none hr.offers habsent hkey hget here name?
    | some f =>
      rw [hf] at hget
      exact run_index_of_some hr.offers habsent hkey hget (fun _ => rfl) here name?
  | own =>
    have hown := hr.own s hs
    by_cases hv : last.own s = .nil
    · -- the function for reads has nothing either
      have habsent : w.heap.rawGet t (.str s) = .nil := by
        rw [Heap.rawGet_eq _ _ rfl, hown, hv]
      dsimp only
      rw [hv]
      exact run_index_of_none hr.offers habsent hkey (get_keyOf_own hooks w.host hs) here name?
    · rw [← hown] at hv ⊢
      exact Handler.run_index_of_present here name? rfl hv

/-- Reading changes nothing, even if there is no room for it. -/
theorem index_snd (hr : Reflects p hooks t w last) (s : Bytes) :
    ((handlerWithin n b r).run (here.index name? (.table t) (.str s)) w).2 = w := by
  by_cases hdeep : n = 0 ∨ b = 0
  · by_cases hv : (w.heap.table t).get (.str s) = .nil
    · have habsent : w.heap.rawGet t (.str s) = .nil := by rw [Heap.rawGet_eq _ _ rfl, hv]
      obtain ⟨e, he⟩ := run_index_of_tooDeep (r := r) hr.offers habsent hdeep here name?
      rw [he]
    · rw [Handler.run_index_of_present here name? rfl hv]
  · obtain ⟨n, b, rfl, rfl⟩ := exists_room hdeep
    rw [hr.run_index here name? s]

/-! ### Assignments -/

/-- An assignment to a scalar property stores a value of its kind and refuses all others. -/
theorem setIndex_scalar (hr : Reflects p hooks t w last) (hsep : p.Separate) {name : String}
    (hs : p.fieldKind s = .scalar name) (v : Value) :
    IsAssigned p hooks t w last s v ((handlerWithin (n + 1) (b + 1) r).run
      (here.setIndex name? (.table t) (.str s) v) w) := by
  have hown : p.fieldKind s ≠ .own := by rw [hs]; exact FieldKind.noConfusion
  have habsent := hr.rawGet_of_ne_own hown
  have hkey := toHost_str w.heap s
  have hclaims := (claims_keyOf p hooks s).2 hown
  obtain ⟨-, cell, hc⟩ := fieldKind_eq_scalar hs
  cases hx : Marshal.toHost w.heap v with
  | error e =>
    refine .inl ⟨.inr (.inr ⟨hown, e, hx⟩), .marshal e, ?_⟩
    exact run_setIndex_of_error hr.offers habsent hkey hclaims hx here name?
  | ok x =>
    have hrun := run_setIndex_of_claims (n := n) (b := b) (r := r) hr.offers habsent hkey hclaims hx
      here name?
    rw [set_keyOf_scalar hooks w.host hs hc, hr.scalar name cell hc] at hrun
    rcases (last.scalar name).store_cases name x with ⟨hkind, content, hcontent, hstore⟩ |
      ⟨hkind, e, hstore⟩
    · rw [hstore] at hrun
      have hassign : last.assign p w.heap s v = last.setScalar name content := by
        simp only [LastWritten.assign, hs, hx, Except.toOption, Option.bind_some, hcontent]
      refine .inr ⟨fun h => (LastWritten.refuses_scalar hs hx).1 h hkind, _, hrun, ?_⟩
      rw [hassign]
      exact hr.setScalar hsep hc content
    · rw [hstore] at hrun
      exact .inl ⟨(LastWritten.refuses_scalar hs hx).2 hkind, .property e, hrun⟩

/-- An assignment to a hook field takes a function or `nil`. -/
theorem setIndex_hook (hr : Reflects p hooks t w last) {point : HookPoint}
    (hs : p.fieldKind s = .hook point) (v : Value) :
    IsAssigned p hooks t w last s v ((handlerWithin (n + 1) (b + 1) r).run
      (here.setIndex name? (.table t) (.str s) v) w) := by
  have hown : p.fieldKind s ≠ .own := by rw [hs]; exact FieldKind.noConfusion
  have habsent := hr.rawGet_of_ne_own hown
  have hkey := toHost_str w.heap s
  have hclaims := (claims_keyOf p hooks s).2 hown
  cases hx : Marshal.toHost w.heap v with
  | error e =>
    refine .inl ⟨.inr (.inr ⟨hown, e, hx⟩), .marshal e, ?_⟩
    exact run_setIndex_of_error hr.offers habsent hkey hclaims hx here name?
  | ok x =>
    -- the host sees a function or `nil` only where the guest has given one
    obtain ⟨hfunc, hnil⟩ := Marshal.toHost_func_or_nil hx
    have hrun := run_setIndex_of_claims (n := n) (b := b) (r := r) hr.offers habsent hkey hclaims hx
      here name?
    have hrefuses : last.Refuses p w.heap s v ↔ v ≠ .nil ∧ ∀ f, v ≠ .func f :=
      LastWritten.refuses_hook hs hx
    rcases set_keyOf_hook hooks w.host hs x with ⟨f, hf, hset⟩ | ⟨hxnil, hset⟩ |
      ⟨hf, hxnil, e, hset⟩
    · rw [hset] at hrun
      have hv := (hfunc f).1 hf
      refine .inr ⟨fun h => (hrefuses.1 h).2 f hv, _, hrun, ?_⟩
      have hassign : last.assign p w.heap s v = last.setHook point (some f) := by
        simp only [LastWritten.assign, hs, hv]
      rw [hassign]
      exact hr.register point f
    · rw [hset] at hrun
      have hv := hnil.1 hxnil
      refine .inr ⟨fun h => (hrefuses.1 h).1 hv, _, hrun, ?_⟩
      have hassign : last.assign p w.heap s v = last.setHook point none := by
        simp only [LastWritten.assign, hs, hv]
      rw [hassign]
      exact hr.unregister point
    · rw [hset] at hrun
      refine .inl ⟨hrefuses.2 ⟨fun hv => hxnil (hnil.2 hv), fun f hv => ?_⟩, _, hrun⟩
      exact hf f ((hfunc f).2 hv)

/-- All other assignments set the table's own field.  Only a new field needs the shell, which leaves
it to the table. -/
theorem setIndex_own (hr : Reflects p hooks t w last) (hs : p.fieldKind s = .own) (v : Value)
    (hroom : (w.heap.table t).get (.str s) ≠ .nil ∨ ¬(n = 0 ∨ b = 0)) :
    ∃ w', (handlerWithin n b r).run (here.setIndex name? (.table t) (.str s) v) w = (.value (), w') ∧
      Reflects p hooks t w' (last.assign p w.heap s v) := by
  have hassign : last.assign p w.heap s v =
      { last with own := Function.update last.own s v } := by
    simp only [LastWritten.assign, hs]
  refine ⟨{ w with heap := w.heap.setSlot t (.str s) v }, ?_, ?_⟩
  · by_cases hv : (w.heap.table t).get (.str s) = .nil
    · obtain ⟨n, b, rfl, rfl⟩ := exists_room (hroom.resolve_left fun h => h hv)
      have habsent : w.heap.rawGet t (.str s) = .nil := by rw [Heap.rawGet_eq _ _ rfl, hv]
      refine run_setIndex_of_own hr.offers habsent rfl (fun x hx => ?_) here name?
      rw [toHost_str] at hx
      cases hx
      exact Bool.eq_false_iff.2 fun hc => (claims_keyOf p hooks s).1 hc hs
    · exact Handler.run_setIndex_of_present here name? v rfl hv
  · rw [hassign]
    exact hr.setOwn hs v

/-- What an assignment can do: nothing for want of room, nothing but raise a failure if it is
refused, and otherwise what it says. -/
theorem setIndex_cases (hr : Reflects p hooks t w last) (hsep : p.Separate) (s : Bytes) (v : Value) :
    ((n = 0 ∨ b = 0) ∧ ∃ e, (handlerWithin n b r).run
      (here.setIndex name? (.table t) (.str s) v) w = (.error e, w)) ∨
    IsAssigned p hooks t w last s v ((handlerWithin n b r).run
      (here.setIndex name? (.table t) (.str s) v) w) := by
  by_cases hroom : (w.heap.table t).get (.str s) = .nil ∧ (n = 0 ∨ b = 0)
  · obtain ⟨hv, hdeep⟩ := hroom
    have habsent : w.heap.rawGet t (.str s) = .nil := by rw [Heap.rawGet_eq _ _ rfl, hv]
    exact .inl ⟨hdeep, run_setIndex_of_tooDeep hr.offers habsent hdeep here name? v⟩
  · by_cases hown : p.fieldKind s = .own
    · have hroom' := not_and_or.1 hroom
      exact .inr (.inr ⟨LastWritten.not_refuses_own hown, hr.setIndex_own here name? hown v hroom'⟩)
    · -- the shell's fields are absent, so there is room for the metamethod
      obtain ⟨n, b, rfl, rfl⟩ := exists_room fun hdeep => hroom ⟨hr.storage s hown, hdeep⟩
      cases hs : p.fieldKind s with
      | own => exact absurd hs hown
      | scalar name => exact .inr (hr.setIndex_scalar here name? hsep hs v)
      | hook point => exact .inr (hr.setIndex_hook here name? hs v)

end Reflects

/-! ## Whole histories -/

/-- What can happen to the fields of a capability table from some state on, with what was last
written on the way.  Guests read and assign under strings, from anywhere; the shell stores into the
cells and changes the registry; and other things happen in between. -/
inductive FieldHistory (p : ScalarProperties) (hooks : RegistryRef) (t : TableRef) (w₀ : World) :
    World → LastWritten → Prop
  /-- Nothing has happened yet. -/
  | start : FieldHistory p hooks t w₀ w₀ (.start p t w₀)
  /-- A guest reads a field. -/
  | read {w w' : World} {last : LastWritten} (h : FieldHistory p hooks t w₀ w last) (n b : Nat)
      (r : RuntimeRef) (here : Here) (name? : Option (String × String)) (s : Bytes)
      (outcome : Outcome Value)
      (run : (handlerWithin n b r).run (here.index name? (.table t) (.str s)) w = (outcome, w')) :
      FieldHistory p hooks t w₀ w' last
  /-- A guest assigns to a field. -/
  | assign {w w' : World} {last : LastWritten} (h : FieldHistory p hooks t w₀ w last) (n b : Nat)
      (r : RuntimeRef) (here : Here) (name? : Option (String × String)) (s : Bytes) (v : Value)
      (run : (handlerWithin n b r).run (here.setIndex name? (.table t) (.str s) v) w =
        (.value (), w')) :
      FieldHistory p hooks t w₀ w' (last.assign p w.heap s v)
  /-- An assignment of a guest fails. -/
  | fail {w w' : World} {last : LastWritten} (h : FieldHistory p hooks t w₀ w last) (n b : Nat)
      (r : RuntimeRef) (here : Here) (name? : Option (String × String)) (s : Bytes) (v e : Value)
      (run : (handlerWithin n b r).run (here.setIndex name? (.table t) (.str s) v) w =
        (.error e, w')) :
      FieldHistory p hooks t w₀ w' last
  /-- The shell stores into a cell, which keeps its kind. -/
  | store {w : World} {last : LastWritten} (h : FieldHistory p hooks t w₀ w last) (name : String)
      (cell : ScalarRef) (content : ScalarCell) (hc : TextMap.get? p name = some cell)
      (hkind : content.value.kindName = (last.scalar name).value.kindName) :
      FieldHistory p hooks t w₀ { w with host := w.host.setScalar cell content }
        (last.setScalar name content)
  /-- The shell registers a function for a hook. -/
  | register {w : World} {last : LastWritten} (h : FieldHistory p hooks t w₀ w last)
      (point : HookPoint) (f : GuestFunction) :
      FieldHistory p hooks t w₀
        (w.setRegistry hooks ((w.host.registry hooks).register point f))
        (last.setHook point (some f))
  /-- The shell removes the function of a hook. -/
  | unregister {w : World} {last : LastWritten} (h : FieldHistory p hooks t w₀ w last)
      (point : HookPoint) :
      FieldHistory p hooks t w₀ (w.setRegistry hooks ((w.host.registry hooks).unregister point))
        (last.setHook point none)
  /-- The shell removes all functions. -/
  | clear {w : World} {last : LastWritten} (h : FieldHistory p hooks t w₀ w last) :
      FieldHistory p hooks t w₀ (w.setRegistry hooks (w.host.registry hooks).clear)
        { last with hook := fun _ => none }
  /-- Something else happens. -/
  | other {w w' : World} {last : LastWritten} (h : FieldHistory p hooks t w₀ w last)
      (apart : Apart p hooks t w w') : FieldHistory p hooks t w₀ w' last

/-- At every point of a history the three places hold what was last written. -/
theorem FieldHistory.reflects {w₀ : World} (hsep : p.Separate)
    (hstart : Reflects p hooks t w₀ (.start p t w₀)) {last : LastWritten}
    (h : FieldHistory p hooks t w₀ w last) : Reflects p hooks t w last := by
  -- the outcome of a guest's step tells which of the cases of an assignment it was
  induction h with
  | start => exact hstart
  | read _ n b r here name? s outcome run ih =>
    have hw := ih.index_snd (n := n) (b := b) (r := r) here name? s
    rw [run] at hw
    cases hw
    exact ih
  | assign _ n b r here name? s v run ih =>
    rcases ih.setIndex_cases (n := n) (b := b) (r := r) here name? hsep s v with
      ⟨-, e, he⟩ | ⟨-, f, hf⟩ | ⟨-, w', hw, hr⟩
    · rw [run] at he
      cases he
    · rw [run] at hf
      cases hf
    · rw [run] at hw
      cases hw
      exact hr
  | fail _ n b r here name? s v e run ih =>
    rcases ih.setIndex_cases (n := n) (b := b) (r := r) here name? hsep s v with
      ⟨-, e, he⟩ | ⟨-, f, hf⟩ | ⟨-, w', hw, -⟩
    · rw [run] at he
      cases he
      exact ih
    · rw [run] at hf
      cases hf
      exact ih.raised f
    · rw [run] at hw
      cases hw
  | store _ name cell content hc hkind ih => exact ih.setScalar hsep hc content
  | register _ point f ih => exact ih.register point f
  | unregister _ point ih => exact ih.unregister point
  | clear _ ih => exact ih.setRegistry fun _ => rfl
  | other _ apart ih => exact ih.apart apart

/-- A scalar property never changes its kind. -/
theorem FieldHistory.kind {w₀ : World} (hsep : p.Separate)
    (hstart : Reflects p hooks t w₀ (.start p t w₀)) {last : LastWritten}
    (h : FieldHistory p hooks t w₀ w last) (name : String) :
    (last.scalar name).value.kindName =
      ((LastWritten.start p t w₀).scalar name).value.kindName := by
  induction h with
  | start => rfl
  | assign h n b r here name? s v run ih =>
    rcases (h.reflects hsep hstart).setIndex_cases (n := n) (b := b) (r := r) here name? hsep s v
      with ⟨-, e, he⟩ | ⟨-, f, hf⟩ | ⟨hn, -⟩
    · rw [run] at he
      cases he
    · rw [run] at hf
      cases hf
    · exact (LastWritten.kind_assign hn name).trans ih
  | @store w last h name' cell content hc hkind ih =>
    show (Function.update last.scalar name' content name).value.kindName = _
    by_cases he : name = name'
    · rw [he, Function.update_self, hkind, ← he, ih]
    · rw [Function.update_of_ne he, ih]
  | read _ _ _ _ _ _ _ _ _ ih => exact ih
  | fail _ _ _ _ _ _ _ _ _ _ ih => exact ih
  | register _ _ _ ih => exact ih
  | unregister _ _ ih => exact ih
  | clear _ ih => exact ih
  | other _ _ ih => exact ih

/-! ## New sessions -/

namespace World

variable (w : World) (shell : ShellRef) (capabilities : Capabilities) (config : Config)

theorem host_placeSession :
    (w.placeSession shell capabilities config).2.host = w.host.addRegistry.2 := rfl

/-- A new session begins with the contents of the cells, no hooks, and the fields that its
capability table was built with. -/
theorem reflects_placeSession (hvalid : capabilities.validate = .ok ())
    (hcells : ∀ name cell, TextMap.get? capabilities.scalars name = some cell →
      cell.id < w.host.scalars.size) :
    Reflects capabilities.scalars w.addRegistry.1 (w.nextCapabilities capabilities).1
      (w.placeSession shell capabilities config).2
      (.start capabilities.scalars (w.nextCapabilities capabilities).1
        (w.placeSession shell capabilities config).2) := by
  obtain ⟨hlt, htable, hget, -⟩ := w.nextCapabilities_placeSession shell capabilities config
  have hhost := w.host_placeSession shell capabilities config
  have hregistry := w.registry_placeSession shell capabilities config
  have hempty (s : Bytes) (hs : capabilities.scalars.fieldKind s ≠ .own) :
      ((w.nextCapabilities capabilities).2.table (w.nextCapabilities capabilities).1).get (.str s) =
        .nil := by
    obtain ⟨name, hname, hn⟩ := exists_name_of_ne_own hs
    rw [Utf8.decode?_eq_some_iff.1 hname]
    exact w.field_nextCapabilities hvalid hn
  generalize (w.placeSession shell capabilities config).2 = new at hlt htable hget hhost hregistry ⊢
  refine ⟨hlt, htable.offers, hregistry, fun name cell hc => ?_, fun s hs => ?_, fun _ _ => rfl,
    fun name cell hc => ?_, fun point => ?_⟩
  · rw [hhost]
    exact hcells name cell hc
  · rw [hget, hempty s hs]
  · simp only [LastWritten.start, hc, Option.map_some, Option.getD_some]
  · rw [hhost]
    show ((w.host.registries.push {})[w.host.registries.size]?.getD {}).get? point = none
    rw [Array.getElem?_push_size]
    rfl

/-- A session whose capabilities are valid can be added, and its capability table behaves as the
history of its fields says, with the cells of the scalar properties apart from each other.  At every
point of every history, what a guest reads under a string is what was last written there: by either
side, for a scalar property or a hook, and like in any table for all other fields.  An assignment
raises exactly if it is refused, and then a new failure is all that there is.  The table itself
never has anything under the name of a scalar property or a hook, and scalar properties keep their
kinds. -/
theorem capability_fields (hvalid : capabilities.validate = .ok ())
    (hsep : capabilities.scalars.Separate)
    (hcells : ∀ name cell, TextMap.get? capabilities.scalars name = some cell →
      cell.id < w.host.scalars.size) :
    ∃ session new t, w.addSession shell capabilities config = .ok (session, new) ∧
      new.heap.IsCapabilityTable t capabilities (new.session session).hooks ∧
      (config.namespaceName ≠ "share" →
        new.heap.field (new.globals session) config.namespaceName = .table t) ∧
      ∀ w' last,
        FieldHistory capabilities.scalars (new.session session).hooks t new w' last →
          (∀ s, capabilities.scalars.fieldKind s ≠ .own → (w'.heap.table t).get (.str s) = .nil) ∧
          (∀ name, (last.scalar name).value.kindName =
            ((LastWritten.start capabilities.scalars t new).scalar name).value.kindName) ∧
          ∀ (n b : Nat) (r : RuntimeRef) (here : Here) (name? : Option (String × String))
            (s : Bytes),
            (handlerWithin (n + 1) (b + 1) r).run (here.index name? (.table t) (.str s)) w' =
              (.value (last.read capabilities.scalars s), w') ∧
            ∀ v,
              (last.Refuses capabilities.scalars w'.heap s v →
                ∃ f, (handlerWithin (n + 1) (b + 1) r).run
                  (here.setIndex name? (.table t) (.str s) v) w' =
                    (.error (.user ⟨w'.heap.users.size⟩), w'.raised f)) ∧
              (¬last.Refuses capabilities.scalars w'.heap s v →
                ∃ w'', (handlerWithin (n + 1) (b + 1) r).run
                  (here.setIndex name? (.table t) (.str s) v) w' = (.value (), w'')) := by
  have hadd : w.addSession shell capabilities config =
      .ok (w.placeSession shell capabilities config) := by
    rw [addSession, hvalid]
  obtain ⟨-, htable, -, hfield⟩ := w.nextCapabilities_placeSession shell capabilities config
  have hstart := w.reflects_placeSession shell capabilities config hvalid hcells
  have hsession := w.session_placeSession shell capabilities config
  have hruntime := w.runtime_placeSession shell capabilities config
  generalize w.placeSession shell capabilities config = placed
    at hadd htable hfield hstart hsession hruntime
  -- how the session was built does not matter from here on
  obtain ⟨session, new⟩ := placed
  refine ⟨session, new, (w.nextCapabilities capabilities).1, hadd, ?_⟩
  rw [globals, hsession, hruntime]
  refine ⟨htable, hfield, fun w' last h => ?_⟩
  have hr := h.reflects hsep hstart
  refine ⟨hr.storage, h.kind hsep hstart, fun n b r here name? s =>
    ⟨hr.run_index here name? s, fun v => ?_⟩⟩
  rcases hr.setIndex_cases (n := n + 1) (b := b + 1) (r := r) here name? hsep s v with
    ⟨hdeep, -⟩ | ⟨hrefuses, f, hf⟩ | ⟨hn, w'', hw, -⟩
  · -- there is room for one call
    exact absurd hdeep (by omega)
  · exact ⟨fun _ => ⟨f, hf⟩, fun hn => absurd hrefuses hn⟩
  · exact ⟨fun hrefuses => absurd hrefuses hn, fun _ => ⟨w'', hw⟩⟩

/-- A shell that offers its prompt. -/
def promptOffer : Capabilities := { scalars := ⟨[("ps1", ⟨0⟩)]⟩ }

theorem get?_promptOffer {name : String} {cell : ScalarRef}
    (hc : TextMap.get? promptOffer.scalars name = some cell) : name = "ps1" ∧ cell = ⟨0⟩ := by
  rw [TextMap.get?, promptOffer, TextMap.lookupEntry] at hc
  split at hc
  · next hn =>
    cases hc
    exact ⟨hn.symm, rfl⟩
  · cases hc

/-- The prompt of a shell is what a guest has assigned, and a number is no prompt. -/
theorem prompt_assigned :
    ∃ session new t, addSession { host := { scalars := #[.text "$ "] } } ⟨0⟩ promptOffer {} =
        .ok (session, new) ∧
      ∀ (r : RuntimeRef) (here : Here) (name? : Option (String × String)),
        (handler r).run (here.index name? (.table t) (.text "ps1")) new =
          (.value (.text "$ "), new) ∧
        (∃ f, (handler r).run (here.setIndex name? (.table t) (.text "ps1") (.int 5)) new =
          (.error (.user ⟨new.heap.users.size⟩), new.raised f)) ∧
        ∃ w', (handler r).run (here.setIndex name? (.table t) (.text "ps1") (.text "> ")) new =
            (.value (), w') ∧
          (handler r).run (here.index name? (.table t) (.text "ps1")) w' =
            (.value (.text "> "), w') := by
  obtain ⟨session, new, t, hadd, -, -, hfields⟩ :=
    capability_fields { host := { scalars := #[.text "$ "] } } ⟨0⟩ promptOffer {}
      rfl (fun name name' cell h h' => (get?_promptOffer h).1.trans (get?_promptOffer h').1.symm)
      (fun name cell h => by rw [(get?_promptOffer h).2]; decide)
  refine ⟨session, new, t, hadd, fun r here name? => ?_⟩
  have hcell : new.host.scalar ⟨0⟩ = .text "$ " := by
    have hhost := host_placeSession { host := { scalars := #[.text "$ "] } } ⟨0⟩ promptOffer {}
    rw [Except.ok.inj hadd] at hhost
    rw [hhost]
    rfl
  have hkind : promptOffer.scalars.fieldKind (Utf8.encode "ps1") = .scalar "ps1" := by
    rw [ScalarProperties.fieldKind, Utf8.decode?_encode]
    rfl
  have htext : Marshal.toHost new.heap (.text "> ") = .ok (.text "> ") := by
    rw [Value.text, toHost_str, keyOf, Utf8.decode?_encode]
  have hstart : (LastWritten.start promptOffer.scalars t new).scalar "ps1" = .text "$ " := hcell
  obtain ⟨-, -, hnow⟩ := hfields new _ .start
  obtain ⟨hread, hassign⟩ := hnow 5999 198 r here name? (Utf8.encode "ps1")
  rw [LastWritten.read, hkind] at hread
  dsimp only at hread
  rw [hstart] at hread
  have hint : Marshal.toHost new.heap (.int 5) = .ok (.int 5) := by
    rw [Marshal.toHost, Marshal.toHostWithin]
  have hnumber : (LastWritten.start promptOffer.scalars t new).Refuses promptOffer.scalars new.heap
      (Utf8.encode "ps1") (.int 5) :=
    (LastWritten.refuses_scalar hkind hint).2 (by rw [hstart]; decide)
  have hprompt : ¬(LastWritten.start promptOffer.scalars t new).Refuses promptOffer.scalars
      new.heap (Utf8.encode "ps1") (.text "> ") := by
    intro hrefuses
    exact (LastWritten.refuses_scalar hkind htext).1 hrefuses (by rw [hstart]; rfl)
  obtain ⟨w', hw'⟩ := (hassign (.text "> ")).2 hprompt
  obtain ⟨-, -, hthen⟩ := hfields w' _ (.assign .start 6000 199 r here name? _ _ hw')
  obtain ⟨hread', -⟩ := hthen 5999 198 r here name? (Utf8.encode "ps1")
  rw [LastWritten.read, LastWritten.assign, hkind] at hread'
  dsimp only at hread'
  rw [htext] at hread'
  exact ⟨hread, (hassign (.int 5)).1 hnumber, w', hw', hread'⟩

end World
end ScriptShell
