import ScriptShell.Property.Writing
import ScriptShell.Proofs.CapabilityFields
import ScriptShell.Proofs.CollectionWrites

/-! # What a write to a property table changes

The state of the shell is made of entries, `HostEntry`: the contents of cells, the values of
collections, the actions of keys and the functions of hooks.  `PropertyTable.entries` are those that
a table keeps a key in, two of them for a key binding.  Each step of a write stays within these
(`PropertyTable.staysIn_write`), and no step comes before a check that can still refuse the write
(`PropertyTable.run_write`).  Different keys of a table share no entries, so a write shows under its
own key only, with the value that was taken (`PropertyTable.takes`): all of this is
`World.property_writes_atomic`. -/

namespace ScriptShell

/-! ## The entries of the shell's state -/

/-- One place in the shell's state. -/
inductive HostEntry where
  /-- A scalar cell. -/
  | cell (c : ScalarRef)
  /-- A variable. -/
  | var (name : String)
  /-- The body of an alias. -/
  | body (name : String)
  /-- A flag. -/
  | flag (name : String)
  /-- A line of the history. -/
  | line (i : Nat)
  /-- The action of a key, in its one spelling. -/
  | action (key : String)
  /-- The function of a hook. -/
  | hook (r : RegistryRef) (point : HookPoint)

/-- What an entry holds; `none` if there is no such entry. -/
def HostState.content? (h : HostState) : HostEntry → Option HostValue
  | .cell c => h.scalars[c.id]?.map ScalarCell.value
  | .var name => (h.collections.env.vars.get? name).map .text
  | .body name => (h.collections.aliases.table.get? name).map .text
  | .flag name => (h.collections.options.flags.get? name).map .bool
  | .line i => h.collections.history.lines[i]?.map .text
  | .action key => (h.keymap.action? key).map .text
  | .hook r point => h.registries[r.id]?.map fun hooks =>
      ((hooks.get? point).map HostValue.callable).getD .nil

/-- The name that a table keeps a key under: the text of the key, for key bindings in its one
spelling.  A key without text goes by the empty name: the capability table takes it for that, though
it does not claim it, and all other tables refuse it. -/
def PropertyTable.nameOf (t : PropertyTable) (key : HostValue) : String :=
  match t with
  | keys _ => normalizeKey (key.asText?.getD "")
  | _ => key.asText?.getD ""

/-- The entries that a table keeps a name in.  The lines of the history have no names. -/
def PropertyTable.entries (t : PropertyTable) (name : String) : List HostEntry :=
  match t with
  | capabilities scalars hooks =>
    match TextMap.get? scalars name with
    | some cell => [.cell cell]
    | none => (HookPoint.ofField? name).toList.map (.hook hooks)
  | collection .env => [.var name]
  | collection .aliases => [.body name]
  | collection .option => [.flag name]
  | collection .history => []
  | keys hooks => [.action name, .hook hooks (.key name)]

/-- The scalar properties of a capability table have cells of their own. -/
def PropertyTable.Separate : PropertyTable → Prop
  | capabilities scalars _ => scalars.Separate
  | _ => True

/-- The cells and the registry of a table exist. -/
def PropertyTable.Placed (t : PropertyTable) (h : HostState) : Prop :=
  match t with
  | capabilities scalars hooks =>
    (∀ name cell, TextMap.get? scalars name = some cell → cell.id < h.scalars.size) ∧
      hooks.id < h.registries.size
  | collection _ => True
  | keys hooks => hooks.id < h.registries.size

/-- What a hook is after a write of a value; `none` if the write is refused. -/
def takenFunction (v : HostValue) : Option (Option HostValue) :=
  match v with
  | .callable f => some (some (.callable f))
  | .nil => some none
  | _ => none

/-- What a key reads as after a write of a value; `none` if the write is refused.  A scalar property
takes values of its kind, a hook takes functions, and a key binding also takes names of actions;
`nil` removes all but scalar properties. -/
def PropertyTable.taken (t : PropertyTable) (h : HostState) (key v : HostValue) :
    Option (Option HostValue) :=
  match t with
  | capabilities scalars _ =>
    match TextMap.get? scalars (key.asText?.getD "") with
    | some cell => if v.kindName = (h.scalar cell).value.kindName then some (some v) else none
    | none => (HookPoint.ofField? (key.asText?.getD "")).bind fun _ => takenFunction v
  | collection kind => key.asText?.bind fun name => h.collections.kept kind name v
  | keys _ =>
    key.asText?.bind fun _ =>
      match v with
      | .text action => if action.isEmpty then none else some (some (.text action))
      | v => takenFunction v

open HostState

variable {α β : Type} {es : List HostEntry} {h h' : HostState} {t : PropertyTable}
  {key key' v : HostValue}

/-! ## A refused write has changed nothing -/

/-- A change that is made at once, or refused at once. -/
def settled (h : HostState) (result : Except PropertyError HostState) :
    EStateM.Result PropertyError HostState Unit :=
  match result with
  | .ok h' => .ok () h'
  | .error e => .error e h

theorem ScalarRef.run_write (cell : ScalarRef) (name : String) (v : HostValue) (h : HostState) :
    (cell.write name v).run h =
      settled h (((h.scalar cell).store name v).map (h.setScalar cell)) := by
  rw [ScalarRef.write, EStateM.run_bind, EStateM.run_get]
  dsimp only
  cases h.scalar cell <;> cases v <;> rfl

theorem HookPoint.run_write (point : HookPoint) (hooks : RegistryRef) (name : String)
    (v : HostValue) (h : HostState) :
    (point.write hooks name v).run h = settled h (match v with
      | .callable f => .ok (h.setRegistry hooks ((h.registry hooks).register point f))
      | .nil => .ok (h.setRegistry hooks ((h.registry hooks).unregister point))
      | v => .error ⟨name, "expected function, got " ++ v.kindName⟩) := by
  cases v <;> rfl

section Checks

variable {f : α → Except PropertyError β} {x : Except PropertyError β} {store : β → HostState}

/-- A check whose result the rest goes on with. -/
theorem run_ofExcept_bind (check : Except PropertyError α) {rest : α → HostChange Unit}
    (hrest : ∀ a, (rest a).run h = settled h ((f a).map store)) :
    (ofExcept check >>= rest).run h = settled h ((check >>= f).map store) := by
  cases check with
  | error e => rfl
  | ok a => exact hrest a

/-- A check that only refuses. -/
theorem run_throw_or (refused : Prop) [Decidable refused] (e : PropertyError)
    {rest : HostChange Unit} (hrest : rest.run h = settled h (x.map store)) :
    (if refused then throw e >>= fun _ : PUnit => rest else rest).run h =
      settled h ((if refused then throw e >>= fun _ : PUnit => x else x).map store) := by
  by_cases hr : refused
  · rw [if_pos hr, if_pos hr]
    rfl
  · rw [if_neg hr, if_neg hr, hrest]

theorem run_writeText {put : (TextMap String → TextMap String) → HostState → HostState}
    {m : TextMap String} {collection : TextMap String → β}
    (hput : ∀ f, put f h = store (collection (f m))) (name : String) (v : HostValue) :
    (writeText put name v).run h = settled h
      ((if v.isNil = true then pure (collection (m.erase name))
        else textValue name v >>= fun s => pure (collection (m.insert name s))).map store) := by
  rw [writeText]
  by_cases hv : v.isNil = true
  · rw [if_pos hv, if_pos hv]
    exact congrArg (EStateM.Result.ok ()) (hput _)
  · rw [if_neg hv, if_neg hv]
    exact run_ofExcept_bind _ fun text => congrArg (EStateM.Result.ok ()) (hput _)

end Checks

theorem CollectionKind.run_write (kind : CollectionKind) (key v : HostValue) (h : HostState) :
    (kind.write key v).run h = settled h
      ((h.collections.set kind key v).map fun c => { h with collections := c }) := by
  cases kind with
  | env =>
    refine Eq.trans ?_ (congrArg (settled h) (comp_map _ _ _))
    exact run_ofExcept_bind _ fun name => run_throw_or _ _ (run_writeText (fun _ => rfl) name v)
  | aliases =>
    refine Eq.trans ?_ (congrArg (settled h) (comp_map _ _ _))
    exact run_ofExcept_bind _ fun name => run_writeText (fun _ => rfl) name v
  | option =>
    refine Eq.trans ?_ (congrArg (settled h) (comp_map _ _ _))
    refine run_ofExcept_bind _ fun name => run_throw_or _ _ ?_
    cases v.toBool <;> rfl
  | history => rfl

theorem RegistryRef.run_writeKey (hooks : RegistryRef) (key : String) (v : HostValue)
    (h : HostState) : (hooks.writeKey key v).run h = settled h (h.bindKey hooks key v) := by
  cases v with
  | text action =>
    simp only [RegistryRef.writeKey, HostState.bindKey, ScriptShell.bindKey, Keymap.bindAction]
    cases action.isEmpty <;> rfl
  | _ => rfl

/-- A write is made as a whole or not at all, though it goes step by step. -/
theorem PropertyTable.run_write (t : PropertyTable) (key v : HostValue) (h : HostState) :
    (t.write key v).run h = settled h (t.set h key v) := by
  cases t with
  | capabilities scalars hooks =>
    simp only [PropertyTable.write, PropertyTable.set, ScalarProperties.store?]
    cases TextMap.get? scalars (key.asText?.getD "") with
    | some cell => exact cell.run_write ..
    | none =>
      cases HookPoint.ofField? (key.asText?.getD "") with
      | none => rfl
      | some point => exact point.run_write ..
  | collection kind => exact kind.run_write ..
  | keys hooks =>
    simp only [PropertyTable.write, PropertyTable.set]
    cases key.asText? with
    | none => rfl
    | some name => exact hooks.run_writeKey ..

/-! ## Every step stays within the entries of the key -/

/-- The state after changes, refused or not. -/
def stateAfter : EStateM.Result PropertyError HostState α → HostState
  | .ok _ h => h
  | .error _ h => h

/-- Changes that leave all other entries as they are. -/
def StaysIn (es : List HostEntry) (change : HostChange α) : Prop :=
  ∀ h e, e ∉ es → (stateAfter (change.run h)).content? e = h.content? e

section Steps

theorem staysIn_throw (e : PropertyError) : StaysIn es (throw e : HostChange α) :=
  fun _ _ _ => rfl

theorem staysIn_get : StaysIn es (get : HostChange HostState) := fun _ _ _ => rfl

/-- A check whose result the rest goes on with. -/
theorem staysIn_ofExcept_bind {check : Except PropertyError α} {k : α → HostChange β}
    (hk : ∀ a, check = .ok a → StaysIn es (k a)) : StaysIn es (ofExcept check >>= k) := by
  cases check with
  | error e => exact fun _ _ _ => rfl
  | ok a => exact hk a rfl

theorem staysIn_modify {f : HostState → HostState}
    (hf : ∀ h e, e ∉ es → (f h).content? e = h.content? e) :
    StaysIn es (modify f : HostChange Unit) :=
  hf

theorem staysIn_bind {x : HostChange α} {k : α → HostChange β} (hx : StaysIn es x)
    (hk : ∀ a, StaysIn es (k a)) : StaysIn es (x >>= k) := by
  intro h e he
  have hfirst := hx h e he
  rw [EStateM.run_bind]
  cases hr : x.run h with
  | ok a h₁ =>
    rw [hr] at hfirst
    exact (hk a h₁ e he).trans hfirst
  | error e' h₁ =>
    rw [hr] at hfirst
    exact hfirst

theorem staysIn_ite {p : Prop} [Decidable p] {x y : HostChange α} (hx : StaysIn es x)
    (hy : StaysIn es y) : StaysIn es (if p then x else y) := by
  by_cases hp : p
  · rwa [if_pos hp]
  · rwa [if_neg hp]

/-- A check that only refuses. -/
theorem staysIn_throw_or {refused : Prop} [Decidable refused] {e : PropertyError}
    {rest : HostChange α} (hrest : StaysIn es rest) :
    StaysIn es (if refused then throw e >>= fun _ : PUnit => rest else rest) :=
  staysIn_ite (staysIn_bind (staysIn_throw e) fun _ => hrest) hrest

end Steps

/-- Changes of a map that show under one name only. -/
def ChangesOnly (name : String) (f : TextMap α → TextMap α) : Prop :=
  ∀ m name', name' ≠ name → (f m).get? name' = m.get? name'

theorem changesOnly_insert (name : String) (a : α) : ChangesOnly name (·.insert name a) :=
  fun m _ hn => m.get?_insert_of_ne (Ne.symm hn) a

theorem changesOnly_erase (name : String) : ChangesOnly name (TextMap.erase (α := α) · name) :=
  fun m _ hn => m.get?_erase_of_ne (Ne.symm hn)

/-- Changing a map of the shell shows in the entries of the names that change, and nowhere else. -/
def ShowsIn (change : (TextMap α → TextMap α) → HostState → HostState)
    (entry : String → HostEntry) : Prop :=
  ∀ f name, ChangesOnly name f → ∀ h e, e ≠ entry name → (change f h).content? e = h.content? e

theorem variables_showIn : ShowsIn modifyVariables .var := by
  intro f name hf h e he
  cases e with
  | var name' => exact congrArg (Option.map HostValue.text) (hf _ _ fun hn => he (hn ▸ rfl))
  | _ => rfl

theorem aliases_showIn : ShowsIn modifyAliases .body := by
  intro f name hf h e he
  cases e with
  | body name' => exact congrArg (Option.map HostValue.text) (hf _ _ fun hn => he (hn ▸ rfl))
  | _ => rfl

theorem flags_showIn : ShowsIn modifyFlags .flag := by
  intro f name hf h e he
  cases e with
  | flag name' => exact congrArg (Option.map HostValue.bool) (hf _ _ fun hn => he (hn ▸ rfl))
  | _ => rfl

theorem keymap_showsIn :
    ShowsIn (fun f => modifyKeymap fun m => ⟨f m.bindings⟩) .action := by
  intro f name hf h e he
  cases e with
  | action name' => exact congrArg (Option.map HostValue.text) (hf _ _ fun hn => he (hn ▸ rfl))
  | _ => rfl

section Entries

variable {name : String}

theorem ShowsIn.staysIn {change : (TextMap α → TextMap α) → HostState → HostState}
    {entry : String → HostEntry} (hs : ShowsIn change entry) {f : TextMap α → TextMap α}
    (hf : ChangesOnly name f) (hes : entry name ∈ es) :
    StaysIn es (modify (change f) : HostChange Unit) :=
  staysIn_modify fun h e he => hs f name hf h e fun hentry => he (hentry ▸ hes)

theorem staysIn_setScalar {cell : ScalarRef} (hes : .cell cell ∈ es) (content : ScalarCell) :
    StaysIn es (modify (setScalar · cell content)) := by
  refine staysIn_modify fun h e he => ?_
  cases e with
  | cell c =>
    obtain ⟨c⟩ := c
    have hid : cell.id ≠ c := fun hid => he (hid ▸ hes)
    show ((h.scalars.setIfInBounds cell.id content)[c]?).map _ = _
    rw [Array.getElem?_setIfInBounds_ne hid]
    rfl
  | _ => rfl

theorem staysIn_modifyRegistry {r : RegistryRef} {point : HookPoint}
    {f : HookRegistry → HookRegistry}
    (hf : ∀ hooks point', point' ≠ point → (f hooks).get? point' = hooks.get? point')
    (hes : .hook r point ∈ es) : StaysIn es (modify (modifyRegistry r f)) := by
  refine staysIn_modify fun h e he => ?_
  cases e with
  | hook r' point' =>
    obtain ⟨i⟩ := r'
    show ((h.registries.setIfInBounds r.id (f (h.registry r)))[i]?).map _ =
      (h.registries[i]?).map _
    by_cases hr : r.id = i
    · subst hr
      have hpoint : point' ≠ point := fun hp => he (hp ▸ hes)
      by_cases hlt : r.id < h.registries.size
      · have hreg : h.registries[r.id]? = some (h.registry r) := by
          rw [registry, Array.getElem?_eq_getElem hlt, Option.getD_some]
        rw [Array.getElem?_setIfInBounds_self_of_lt hlt, hreg, Option.map_some, Option.map_some,
          hf _ _ hpoint]
      · rw [Array.setIfInBounds_eq_of_size_le (Nat.not_lt.1 hlt)]
    · rw [Array.getElem?_setIfInBounds_ne hr]
  | _ => rfl

theorem staysIn_register {r : RegistryRef} {point : HookPoint} (hes : .hook r point ∈ es)
    (f : GuestFunction) : StaysIn es (modify (modifyRegistry r (·.register point f))) :=
  staysIn_modifyRegistry (fun hooks _ hp => (hooks.get?_register ..).trans (if_neg hp)) hes

theorem staysIn_unregister {r : RegistryRef} {point : HookPoint} (hes : .hook r point ∈ es) :
    StaysIn es (modify (modifyRegistry r (·.unregister point))) :=
  staysIn_modifyRegistry (fun hooks _ hp => (hooks.get?_unregister ..).trans (if_neg hp)) hes

end Entries

theorem ScalarRef.staysIn_write (cell : ScalarRef) (name : String) (v : HostValue)
    (hes : .cell cell ∈ es) : StaysIn es (cell.write name v) := by
  refine staysIn_bind staysIn_get fun h => ?_
  cases h.scalar cell with
  | text _ =>
    cases v with
    | text s => exact staysIn_setScalar hes _
    | _ => exact staysIn_throw _
  | flag _ =>
    cases v with
    | bool b => exact staysIn_setScalar hes _
    | _ => exact staysIn_throw _

theorem HookPoint.staysIn_write (point : HookPoint) (hooks : RegistryRef) (name : String)
    (v : HostValue) (hes : .hook hooks point ∈ es) : StaysIn es (point.write hooks name v) := by
  cases v with
  | callable f => exact staysIn_register hes f
  | nil => exact staysIn_unregister hes
  | _ => exact staysIn_throw _

theorem staysIn_writeText {put : (TextMap String → TextMap String) → HostState → HostState}
    {entry : String → HostEntry} (hput : ShowsIn put entry) (name : String) (v : HostValue)
    (hes : entry name ∈ es) : StaysIn es (writeText put name v) :=
  staysIn_ite (hput.staysIn (changesOnly_erase name) hes) <|
    staysIn_ofExcept_bind fun text _ => hput.staysIn (changesOnly_insert name text) hes

theorem RegistryRef.staysIn_writeKey (hooks : RegistryRef) (key : String) (v : HostValue)
    (haction : .action (normalizeKey key) ∈ es)
    (hhook : .hook hooks (.key (normalizeKey key)) ∈ es) : StaysIn es (hooks.writeKey key v) := by
  have hbind (action : String) :=
    keymap_showsIn.staysIn (changesOnly_insert (normalizeKey key) action) haction
  cases v with
  | callable f => exact staysIn_bind (hbind scriptAction) fun _ => staysIn_register hhook f
  | text action =>
    exact staysIn_throw_or (staysIn_bind (hbind action) fun _ => staysIn_unregister hhook)
  | nil =>
    exact staysIn_bind (keymap_showsIn.staysIn (changesOnly_erase _) haction) fun _ =>
      staysIn_unregister hhook
  | _ => exact staysIn_throw _

theorem CollectionKind.staysIn_write (kind : CollectionKind) (key v : HostValue) :
    StaysIn ((PropertyTable.collection kind).entries (key.asText?.getD "")) (kind.write key v) := by
  cases kind with
  | env =>
    refine staysIn_ofExcept_bind fun name hname => ?_
    rw [textKey_eq_ok_iff.1 hname, Option.getD_some]
    exact staysIn_throw_or (staysIn_writeText variables_showIn name v (List.mem_singleton.2 rfl))
  | aliases =>
    refine staysIn_ofExcept_bind fun name hname => ?_
    rw [textKey_eq_ok_iff.1 hname, Option.getD_some]
    exact staysIn_writeText aliases_showIn name v (List.mem_singleton.2 rfl)
  | option =>
    refine staysIn_ofExcept_bind fun name hname => staysIn_bind staysIn_get fun h => ?_
    rw [textKey_eq_ok_iff.1 hname, Option.getD_some]
    cases v.toBool with
    | ok b =>
      exact staysIn_throw_or (flags_showIn.staysIn (changesOnly_insert name b)
        (List.mem_singleton.2 rfl))
    | error e => exact staysIn_throw_or (staysIn_throw _)
  | history => exact staysIn_throw _

theorem PropertyTable.staysIn_write (t : PropertyTable) (key v : HostValue) :
    StaysIn (t.entries (t.nameOf key)) (t.write key v) := by
  cases t with
  | capabilities scalars hooks =>
    simp only [PropertyTable.write, PropertyTable.entries, PropertyTable.nameOf]
    cases TextMap.get? scalars (key.asText?.getD "") with
    | some cell => exact cell.staysIn_write _ v (List.mem_singleton.2 rfl)
    | none =>
      cases HookPoint.ofField? (key.asText?.getD "") with
      | none => exact staysIn_throw _
      | some point => exact point.staysIn_write hooks _ v (List.mem_singleton.2 rfl)
  | collection kind => exact kind.staysIn_write key v
  | keys hooks =>
    simp only [PropertyTable.write]
    cases hk : key.asText? with
    | none => exact staysIn_throw _
    | some name =>
      have hname : (keys hooks).nameOf key = normalizeKey name := by
        rw [nameOf, hk, Option.getD_some]
      rw [hname]
      exact hooks.staysIn_writeKey name v List.mem_cons_self
        (List.mem_cons_of_mem _ (List.mem_singleton.2 rfl))

theorem PropertyTable.content?_of_set (hset : t.set h key v = .ok h') {e : HostEntry}
    (he : e ∉ t.entries (t.nameOf key)) : h'.content? e = h.content? e := by
  have hstays := t.staysIn_write key v h e he
  rwa [t.run_write, hset] at hstays

/-! ## Reads show the entries of their key only -/

theorem HostState.value_scalar (h : HostState) (c : ScalarRef) :
    (h.scalar c).value = (h.content? (.cell c)).getD (.text "") := by
  rw [HostState.scalar, HostState.content?]
  cases h.scalars[c.id]? <;> rfl

theorem HostState.get?_registry (h : HostState) (r : RegistryRef) (point : HookPoint) :
    ((h.registry r).get? point).map HostValue.callable =
      (h.content? (.hook r point)).bind fun v => if v.isNil then none else some v := by
  rw [HostState.registry, HostState.content?]
  cases h.registries[r.id]? with
  | none => rfl
  | some hooks =>
    rw [Option.getD_some, Option.map_some, Option.bind_some]
    cases hooks.get? point <;> rfl

theorem boundTo?_eq_or (keymap : Keymap) (hooks : HookRegistry) (key : String) :
    boundTo? keymap hooks key = ((hooks.get? (.key (normalizeKey key))).map .callable).or
      ((keymap.action? (normalizeKey key)).map .text) := by
  rw [boundTo?]
  cases hooks.get? (.key (normalizeKey key)) <;> rfl

namespace PropertyTable

theorem mem_entries_capabilities {scalars : ScalarProperties} {hooks : RegistryRef} {name : String}
    {e : HostEntry} : e ∈ (capabilities scalars hooks).entries name ↔
      (∃ cell, TextMap.get? scalars name = some cell ∧ e = .cell cell) ∨
      (TextMap.get? scalars name = none ∧
        ∃ point, HookPoint.ofField? name = some point ∧ e = .hook hooks point) := by
  rw [entries]
  cases TextMap.get? scalars name with
  | some cell => simp
  | none => simp [eq_comm]

/-- An entry tells the name that a table keeps in it. -/
theorem eq_of_mem_entries (hsep : t.Separate) {name name' : String} {e : HostEntry}
    (he : e ∈ t.entries name) (he' : e ∈ t.entries name') : name = name' := by
  cases t with
  | capabilities scalars hooks =>
    rw [mem_entries_capabilities] at he he'
    obtain ⟨cell, hc, rfl⟩ | ⟨-, point, hp, rfl⟩ := he
    · obtain ⟨cell', hc', heq⟩ | ⟨-, point, -, heq⟩ := he'
      · exact hsep name name' cell hc (HostEntry.cell.inj heq ▸ hc')
      · exact HostEntry.noConfusion heq
    · obtain ⟨cell, -, heq⟩ | ⟨-, point', hp', heq⟩ := he'
      · exact HostEntry.noConfusion heq
      · have hpoint : point = point' := (HostEntry.hook.inj heq).2
        have hfield := HookPoint.field?_of_ofField? hp
        rw [hpoint, HookPoint.field?_of_ofField? hp'] at hfield
        exact (Option.some.inj hfield).symm
  | collection kind =>
    cases kind <;> simp_all [entries]
  | keys hooks =>
    simp only [entries, List.mem_cons, List.not_mem_nil, or_false] at he he'
    obtain rfl | rfl := he <;> simpa using he'

theorem line_not_mem_entries (t : PropertyTable) (name : String) (i : Nat) :
    .line i ∉ t.entries name := by
  cases t with
  | capabilities scalars hooks => simp [mem_entries_capabilities]
  | collection kind => cases kind <;> simp [entries]
  | keys hooks => simp [entries]

/-- A read does not change when the entries of its key do not, nor the lines of the history. -/
theorem get_congr (hes : ∀ e, e ∈ t.entries (t.nameOf key) → h'.content? e = h.content? e)
    (hlines : ∀ i, h'.content? (.line i) = h.content? (.line i)) : t.get h' key = t.get h key := by
  cases t with
  | capabilities scalars hooks =>
    cases hk : key.asText? with
    | none => simp only [get, hk]
    | some name =>
      simp only [nameOf, hk, Option.getD_some] at hes
      simp only [get, hk, ScalarProperties.value?]
      cases hc : TextMap.get? scalars name with
      | some cell =>
        have hcell := hes _ (mem_entries_capabilities.2 (.inl ⟨cell, hc, rfl⟩))
        simp only [Option.map_some, HostState.value_scalar, hcell]
      | none =>
        cases hp : HookPoint.ofField? name with
        | none => rfl
        | some point =>
          have hhook := hes _ (mem_entries_capabilities.2 (.inr ⟨hc, point, hp, rfl⟩))
          simp only [Option.map_none, HostState.get?_registry, hhook]
  | collection kind =>
    cases kind with
    | history =>
      cases key with
      -- lines have numbers in place of names
      | int i => exact ite_congr rfl (fun _ => hlines (i.toInt - 1).toNat) fun _ => rfl
      | _ => rfl
    | _ =>
      simp only [get, Collections.get, Environment.get, Aliases.get, Options.get]
      cases hk : key.asText? with
      | none => rfl
      | some name =>
        simp only [nameOf, hk, Option.getD_some] at hes
        exact hes _ (List.mem_singleton.2 rfl)
  | keys hooks =>
    cases hk : key.asText? with
    | none => simp only [get, hk]
    | some name =>
      simp only [nameOf, hk, Option.getD_some] at hes
      have haction := hes (.action (normalizeKey name)) List.mem_cons_self
      have hhook := hes (.hook hooks (.key (normalizeKey name)))
        (List.mem_cons_of_mem _ (List.mem_singleton.2 rfl))
      simp only [get, hk, boundTo?_eq_or, HostState.get?_registry, hhook]
      exact congrArg _ haction

/-- Only the history has something under keys without text. -/
theorem get_of_no_text (ht : t ≠ collection .history) (hk : key.asText? = none)
    (h : HostState) : t.get h key = none := by
  cases t with
  | collection kind =>
    cases kind with
    | history => exact absurd rfl ht
    | _ =>
      simp only [get, Collections.get, Environment.get, Aliases.get, Options.get, hk]
      rfl
  | _ => simp only [get, hk]

theorem ne_history_of_set (hset : t.set h key v = .ok h') : t ≠ collection .history := by
  rintro rfl
  cases hset

/-- A write shows under its own key only. -/
theorem get_of_set (hsep : t.Separate) (hset : t.set h key v = .ok h')
    (hk : key'.asText? = none ∨ t.nameOf key' ≠ t.nameOf key) : t.get h' key' = t.get h key' := by
  rcases hk with hnone | hname
  · have ht := ne_history_of_set hset
    rw [get_of_no_text ht hnone, get_of_no_text ht hnone]
  · have hkeeps e := content?_of_set (e := e) hset
    refine get_congr (fun e he => hkeeps e fun he' => ?_) fun i => hkeeps _ ?_
    · exact hname (eq_of_mem_entries hsep he he')
    · exact line_not_mem_entries t _ i

/-- A key without text is refused, unless the table does not claim it anyway. -/
theorem text_of_claims (hset : t.set h key v = .ok h') (hclaims : t.claims key = true) :
    key.asText?.isSome = true := by
  cases hk : key.asText? with
  | some s => rfl
  | none =>
    exfalso
    cases t with
    | capabilities scalars hooks =>
      rw [claims, hk] at hclaims
      exact Bool.false_ne_true hclaims
    | collection kind =>
      obtain ⟨e, he⟩ := h.collections.set_of_no_text kind hk v
      rw [set, he] at hset
      cases hset
    | keys hooks =>
      simp only [set, hk] at hset
      cases hset

/-! ## What is taken is read back -/

theorem scalar_setScalar {c : ScalarRef} (hlt : c.id < h.scalars.size) (content : ScalarCell) :
    (h.setScalar c content).scalar c = content := by
  show ((h.scalars.setIfInBounds c.id content)[c.id]?).getD default = content
  rw [Array.getElem?_setIfInBounds_self_of_lt hlt, Option.getD_some]

theorem registry_setRegistry {r : RegistryRef} (hlt : r.id < h.registries.size)
    (hooks : HookRegistry) : (h.setRegistry r hooks).registry r = hooks := by
  show ((h.registries.setIfInBounds r.id hooks)[r.id]?).getD {} = hooks
  rw [Array.getElem?_setIfInBounds_self_of_lt hlt, Option.getD_some]

/-- A write is accepted as `taken` says, and what is taken is then read under the key. -/
def Takes (t : PropertyTable) (h : HostState) (key v : HostValue) : Prop :=
  (∃ x h', t.taken h key v = some x ∧ t.set h key v = .ok h' ∧
    (t.Placed h → key.asText?.isSome = true → t.get h' key = x)) ∨
  (t.taken h key v = none ∧ ∃ e, t.set h key v = .error e)

theorem takes_capabilities (scalars : ScalarProperties) (hooks : RegistryRef) (h : HostState)
    (key v : HostValue) : (capabilities scalars hooks).Takes h key v := by
  rw [Takes]
  simp only [taken, set, ScalarProperties.store?]
  cases hc : TextMap.get? scalars (key.asText?.getD "") with
  | some cell =>
    simp only [Option.map_some]
    rcases (h.scalar cell).store_cases (key.asText?.getD "") v with
      ⟨hkind, content, hcontent, hstore⟩ | ⟨hkind, e, he⟩
    · rw [if_pos hkind, hstore]
      refine .inl ⟨_, _, rfl, rfl, fun hplaced htext => ?_⟩
      obtain ⟨name, hk⟩ := Option.isSome_iff_exists.1 htext
      rw [hk, Option.getD_some] at hc
      have hvalue : content.value = v := by cases v <;> cases hcontent <;> rfl
      simp only [get, hk, ScalarProperties.value?, hc, Option.map_some,
        scalar_setScalar (hplaced.1 name cell hc), hvalue]
    · rw [if_neg hkind, he]
      exact .inr ⟨rfl, e, rfl⟩
  | none =>
    simp only [Option.map_none]
    cases hp : HookPoint.ofField? (key.asText?.getD "") with
    | none => exact .inr ⟨rfl, _, rfl⟩
    | some point =>
      -- what the registry has for the hook is what the key reads as
      have hread {registry : HookRegistry} (hplaced : (capabilities scalars hooks).Placed h)
          (htext : key.asText?.isSome = true) :
          (capabilities scalars hooks).get (h.setRegistry hooks registry) key =
            (registry.get? point).map .callable := by
        obtain ⟨name, hk⟩ := Option.isSome_iff_exists.1 htext
        rw [hk, Option.getD_some] at hc hp
        simp only [get, hk, ScalarProperties.value?, hc, Option.map_none, hp,
          registry_setRegistry hplaced.2]
      cases v with
      | callable f =>
        refine .inl ⟨_, _, rfl, rfl, fun hplaced htext => ?_⟩
        rw [hread hplaced htext, HookRegistry.get?_register, if_pos rfl]
        rfl
      | nil =>
        refine .inl ⟨_, _, rfl, rfl, fun hplaced htext => ?_⟩
        rw [hread hplaced htext, HookRegistry.get?_unregister, if_pos rfl]
        rfl
      | _ => exact .inr ⟨rfl, _, rfl⟩

theorem takes_collection (kind : CollectionKind) (h : HostState) (key v : HostValue) :
    (collection kind).Takes h key v := by
  rw [Takes]
  simp only [taken, set]
  cases hk : key.asText? with
  | none =>
    obtain ⟨e, he⟩ := h.collections.set_of_no_text kind hk v
    rw [he]
    exact .inr ⟨rfl, e, rfl⟩
  | some name =>
    rcases h.collections.set_cases kind hk v with ⟨kept, c, hkept, hset, hget, -⟩ | ⟨hkept, e, he⟩
    · rw [hset]
      refine .inl ⟨kept, _, hkept, rfl, fun _ _ => ?_⟩
      have hkind : kind ≠ .history := by
        rintro rfl
        cases hkept
      exact (Collections.get_eq_of_text hkind key).trans (by rw [hk, Option.bind_some, hget])
    · rw [he]
      exact .inr ⟨hkept, e, rfl⟩

theorem takes_keys (hooks : RegistryRef) (h : HostState) (key v : HostValue) :
    (keys hooks).Takes h key v := by
  rw [Takes]
  simp only [taken, set]
  cases hk : key.asText? with
  | none => exact .inr ⟨rfl, _, rfl⟩
  | some name =>
    have hread {keymap : Keymap} {registry : HookRegistry} (hplaced : (keys hooks).Placed h) :
        (keys hooks).get ({ h with keymap := keymap }.setRegistry hooks registry) key =
          ((registry.get? (.key (normalizeKey name))).map .callable).or
            ((keymap.action? (normalizeKey name)).map .text) := by
      have hregistry : ({ h with keymap := keymap }.setRegistry hooks registry).registry hooks =
          registry := registry_setRegistry (h := { h with keymap := keymap }) hplaced registry
      simp only [get, hk, boundTo?_eq_or, hregistry]
      rfl
    cases v with
    | callable f =>
      refine .inl ⟨_, _, rfl, rfl, fun hplaced _ => ?_⟩
      rw [hread hplaced, HookRegistry.get?_register, if_pos rfl]
      rfl
    | text action =>
      simp only [Option.bind_some, HostState.bindKey, ScriptShell.bindKey, Keymap.bindAction]
      cases action.isEmpty with
      | true => exact .inr ⟨rfl, _, rfl⟩
      | false =>
        refine .inl ⟨_, _, rfl, rfl, fun hplaced _ => ?_⟩
        rw [hread hplaced, HookRegistry.get?_unregister, if_pos rfl, Keymap.action?,
          TextMap.get?_insert_self]
        rfl
    | nil =>
      refine .inl ⟨_, _, rfl, rfl, fun hplaced _ => ?_⟩
      rw [hread hplaced, HookRegistry.get?_unregister, if_pos rfl, Keymap.action?, Keymap.unbind,
        TextMap.get?_erase_self]
      rfl
    | _ => exact .inr ⟨rfl, _, rfl⟩

theorem takes (t : PropertyTable) (h : HostState) (key v : HostValue) : t.Takes h key v := by
  cases t with
  | capabilities scalars hooks => exact takes_capabilities scalars hooks h key v
  | collection kind => exact takes_collection kind h key v
  | keys hooks => exact takes_keys hooks h key v

end PropertyTable

/-! ## Writes as the process makes them -/

namespace World

variable {w : World}

theorem perform_write (w : World) (t : PropertyTable) (key v : HostValue) :
    w.perform (t.write key v) = w.answer (.setProperty t key v) := by
  show _ = w.updateHost (t.set w.host key v)
  rw [perform, PropertyTable.run_write]
  cases t.set w.host key v <;> rfl

/-- A write through a property table is refused before anything has changed, or it changes the
entries of its key and nothing else, so that all other keys of the table read as before.  Which of
the two it is, and what the key reads as then, is as `PropertyTable.taken` says. -/
theorem property_writes_atomic (w : World) (t : PropertyTable) (hsep : t.Separate)
    (key v : HostValue) :
    w.perform (t.write key v) = w.answer (.setProperty t key v) ∧
    ((w.perform (t.write key v)).1 = .ok () ↔ (t.taken w.host key v).isSome = true) ∧
    (∀ e w', w.perform (t.write key v) = (.error e, w') → w' = w) ∧
    ∀ w', w.perform (t.write key v) = (.ok (), w') →
      w' = { w with host := w'.host } ∧
      (∀ e, e ∉ t.entries (t.nameOf key) → w'.host.content? e = w.host.content? e) ∧
      (∀ key', key'.asText? = none ∨ t.nameOf key' ≠ t.nameOf key →
        t.get w'.host key' = t.get w.host key') ∧
      (t.Placed w.host → key.asText?.isSome = true →
        t.taken w.host key v = some (t.get w'.host key)) ∧
      (t.claims key = true → key.asText?.isSome = true) := by
  have hperform : w.perform (t.write key v) = w.updateHost (t.set w.host key v) :=
    perform_write w t key v
  refine ⟨hperform, ?_⟩
  rw [hperform]
  rcases t.takes w.host key v with ⟨x, host, htaken, hset, hread⟩ | ⟨htaken, e, he⟩
  · rw [hset, htaken]
    refine ⟨iff_of_true rfl rfl, fun e w' hw => ?_, fun w' hw => ?_⟩
    · exact nomatch congrArg Prod.fst hw
    · obtain rfl : { w with host := host } = w' := congrArg Prod.snd hw
      exact ⟨rfl, fun e => PropertyTable.content?_of_set hset,
        fun key' => PropertyTable.get_of_set hsep hset,
        fun hplaced htext => congrArg some (hread hplaced htext).symm,
        PropertyTable.text_of_claims hset⟩
  · rw [he, htaken]
    refine ⟨iff_of_false nofun Bool.false_ne_true, fun e' w' hw => ?_, fun w' hw => ?_⟩
    · exact (congrArg Prod.snd hw).symm
    · exact nomatch congrArg Prod.fst hw

/-- A shell with two prompts. -/
def prompting : World := { host := { scalars := #[.text "$ ", .text "> "] } }

/-- The table that offers them. -/
def prompts : PropertyTable := .capabilities ⟨[("ps1", ⟨0⟩), ("ps2", ⟨1⟩)]⟩ ⟨0⟩

theorem separate_prompts : prompts.Separate := by
  intro name name' cell h h'
  simp only [TextMap.get?, TextMap.lookupEntry] at h h'
  grind

/-- One prompt is written and the other one stays; a number is no prompt. -/
theorem prompt_written_alone : ∃ w',
    prompting.answer (.setProperty prompts (.text "ps1") (.text "% ")) = (.ok (), w') ∧
    prompts.get w'.host (.text "ps1") = some (.text "% ") ∧
    prompts.get w'.host (.text "ps2") = some (.text "> ") ∧
    ∃ e, prompting.answer (.setProperty prompts (.text "ps1") (.int 5)) =
      (.error e, prompting) := by
  obtain ⟨hset, -, -, hwritten⟩ :=
    property_writes_atomic prompting prompts separate_prompts (.text "ps1") (.text "% ")
  obtain ⟨hset', -, hrefused, -⟩ :=
    property_writes_atomic prompting prompts separate_prompts (.text "ps1") (.int 5)
  obtain ⟨-, -, hreads, -⟩ := hwritten _ rfl
  refine ⟨_, hset.symm.trans rfl, rfl, ?_, ?_⟩
  · rw [hreads (.text "ps2") (.inr (by decide))]
    rfl
  · have he : (prompting.perform (prompts.write (.text "ps1") (.int 5))).1 =
        .error ⟨"ps1", "expected string, got integer"⟩ := rfl
    exact ⟨_, hset'.symm.trans (Prod.ext he (hrefused _ _ (Prod.ext he rfl)))⟩

end World
end ScriptShell
