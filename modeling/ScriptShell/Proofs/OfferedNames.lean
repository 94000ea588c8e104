import Mathlib.Data.List.Induction
import Mathlib.Data.List.Nodup
import ScriptShell.Capabilities.Offers
import ScriptShell.Proofs.CapabilityContents
import ScriptShell.Proofs.CollectionWrites

/-! # What a guest finds under the names of offers

A shell makes offers one after the other, and the last one under a name counts (`Offer.last?`).  The
check of the capabilities finds a clash exactly if two of the five sources of names have a name in
common (`Capabilities.validate_iff_disjoint`), and if it finds none then nothing shadows anything:
each thing that is registered under a name (`Offer.Registers`) is what a guest reads there, and
under all other names there is nothing (`World.offers_found`).
-/

namespace ScriptShell

open Guest

/-! ## The last offers -/

namespace Offer

section

variable {α : Type}

/-- What is said by the last of some offers that says anything. -/
def last? (f : Offer → Option α) (offers : List Offer) : Option α := offers.reverse.findSome? f

theorem last?_concat (f : Offer → Option α) (offers : List Offer) (o : Offer) :
    last? f (offers ++ [o]) = (f o).or (last? f offers) := by
  rw [last?, List.reverse_append, List.reverse_singleton, List.singleton_append,
    List.findSome?_cons, last?]
  cases f o <;> rfl

/-- What an offer either sets or leaves alone is what the last one that sets it has said. -/
theorem elim_last? {β : Type} {f : Offer → Option α} (g : List Offer → β) (set : α → β)
    (step : ∀ offers o, g (offers ++ [o]) = (f o).elim (g offers) set) (offers : List Offer) :
    g offers = (last? f offers).elim (g []) set := by
  induction offers using List.reverseRecOn with
  | nil => rfl
  | append_singleton offers o ih =>
    rw [step, last?_concat, ih]
    cases f o <;> rfl

end

/-- The function that is offered under a name. -/
def asFunction? (name : String) : Offer → Option HostFunction
  | .function name' f => if name' = name then some f else none
  | _ => none

/-- The cells that are offered. -/
def asCells? : Offer → Option (List (String × ScalarRef))
  | .scalars cells => some cells
  | _ => none

/-- The collection of a kind that is offered. -/
def asCollection? (kind : CollectionKind) : Offer → Option Collection
  | .collection c => if c.kind = kind then some c else none
  | _ => none

/-- The keymap that is offered. -/
def asKeymap? : Offer → Option Keymap
  | .keys keymap => some keymap
  | _ => none

/-- The last function under a name. -/
def function? (offers : List Offer) (name : String) : Option HostFunction :=
  last? (asFunction? name) offers

/-- The last cell under a name, in the last offer of scalar properties. -/
def cell? (offers : List Offer) (name : String) : Option ScalarRef :=
  (last? asCells? offers).bind fun cells => cells.reverse.lookup name

/-- The last collection of a kind. -/
def collection? (offers : List Offer) (kind : CollectionKind) : Option Collection :=
  last? (asCollection? kind) offers

/-- The last keymap. -/
def keymap? (offers : List Offer) : Option Keymap := last? asKeymap? offers

end Offer

theorem TextMap.get?_ofList {α : Type} (pairs : List (String × α)) (name : String) :
    (TextMap.ofList pairs).get? name = pairs.reverse.lookup name := by
  induction pairs using List.reverseRecOn with
  | nil => rfl
  | append_singleton pairs e ih =>
    have hinsert : TextMap.ofList (pairs ++ [e]) = (TextMap.ofList pairs).insert e.1 e.2 := by
      rw [TextMap.ofList, List.foldl_append]
      rfl
    rw [hinsert, List.reverse_append, List.reverse_singleton, List.singleton_append,
      List.lookup_cons]
    by_cases he : name = e.1
    · rw [he, TextMap.get?_insert_self, beq_self_eq_true]
    · rw [TextMap.get?_insert_of_ne _ (Ne.symm he), ih, beq_false_of_ne he]

namespace Capabilities

variable (offers : List Offer)

theorem ofOffers_concat (o : Offer) : ofOffers (offers ++ [o]) = (ofOffers offers).offer o := by
  rw [ofOffers, List.foldl_append]
  rfl

/-- The capabilities have the last function under each name. -/
theorem get?_functions (name : String) :
    (ofOffers offers).functions.get? name = Offer.function? offers name := by
  have step (offers : List Offer) (o : Offer) :
      (ofOffers (offers ++ [o])).functions.get? name =
        (Offer.asFunction? name o).elim ((ofOffers offers).functions.get? name) some := by
    rw [ofOffers_concat]
    cases o with
    | function name' f =>
      rw [offer, Offer.asFunction?]
      by_cases hn : name' = name
      · rw [hn, TextMap.get?_insert_self, if_pos rfl, Option.elim_some]
      · rw [TextMap.get?_insert_of_ne _ hn, if_neg hn, Option.elim_none]
    | _ => rfl
  refine (Offer.elim_last? (fun offers => (ofOffers offers).functions.get? name) _ step
    offers).trans ?_
  rw [Offer.function?]
  cases Offer.last? (Offer.asFunction? name) offers <;> rfl

/-- They have the last cell under each name, and none of an earlier offer. -/
theorem get?_scalars (name : String) :
    TextMap.get? (ofOffers offers).scalars name = Offer.cell? offers name := by
  have step (offers : List Offer) (o : Offer) :
      TextMap.get? (ofOffers (offers ++ [o])).scalars name =
        (Offer.asCells? o).elim (TextMap.get? (ofOffers offers).scalars name)
          fun cells => cells.reverse.lookup name := by
    rw [ofOffers_concat]
    cases o with
    | scalars cells => exact TextMap.get?_ofList cells name
    | _ => rfl
  refine (Offer.elim_last? (fun offers => TextMap.get? (ofOffers offers).scalars name) _ step
    offers).trans ?_
  rw [Offer.cell?]
  cases Offer.last? Offer.asCells? offers <;> rfl

/-- They have the collections of which there is an offer. -/
theorem mem_collections (kind : CollectionKind) :
    kind ∈ (ofOffers offers).collections ↔ (Offer.collection? offers kind).isSome := by
  have step (offers : List Offer) (o : Offer) :
      (kind ∈ (ofOffers (offers ++ [o])).collections) =
        (Offer.asCollection? kind o).elim (kind ∈ (ofOffers offers).collections)
          fun _ => True := by
    rw [ofOffers_concat]
    cases o with
    | collection c =>
      show (kind ∈ (ofOffers offers).collections.filter (· != c.kind) ++ [c.kind]) = _
      rw [Offer.asCollection?, List.mem_append, List.mem_filter, List.mem_singleton, bne_iff_ne]
      by_cases hk : c.kind = kind
      · rw [if_pos hk, Option.elim_some]
        exact eq_true (.inr hk.symm)
      · rw [if_neg hk, Option.elim_none, or_iff_left (Ne.symm hk), and_iff_left (Ne.symm hk)]
    | _ => rfl
  refine (Offer.elim_last? (fun offers => kind ∈ (ofOffers offers).collections) _ step
    offers).to_iff.trans ?_
  rw [Offer.collection?]
  cases Offer.last? (Offer.asCollection? kind) offers <;> simp [ofOffers]

/-- They have the keys if there is an offer of these. -/
theorem keys_iff : (ofOffers offers).keys = (Offer.keymap? offers).isSome := by
  have step (offers : List Offer) (o : Offer) :
      (ofOffers (offers ++ [o])).keys =
        (Offer.asKeymap? o).elim (ofOffers offers).keys fun _ => true := by
    rw [ofOffers_concat]
    cases o <;> rfl
  refine (Offer.elim_last? (fun offers => (ofOffers offers).keys) _ step offers).trans ?_
  rw [Offer.keymap?]
  cases Offer.last? Offer.asKeymap? offers <;> rfl

/-- No name is twice in the same source. -/
theorem nodup_ofOffers : (ofOffers offers).functions.keys.Nodup ∧
    (ofOffers offers).scalars.keys.Nodup ∧ (ofOffers offers).collections.Nodup := by
  have hordered : (ofOffers offers).functions.Ordered ∧ (ofOffers offers).scalars.Ordered ∧
      (ofOffers offers).collections.Nodup := by
    induction offers using List.reverseRecOn with
    | nil => exact ⟨.nil, .nil, .nil⟩
    | append_singleton offers o ih =>
      obtain ⟨hf, hs, hc⟩ := ih
      rw [ofOffers_concat]
      cases o with
      | function name f => exact ⟨hf.insert name f, hs, hc⟩
      | scalars cells => exact ⟨hf, TextMap.ordered_ofList cells, hc⟩
      | collection c =>
        refine ⟨hf, hs, (hc.filter _).append (List.nodup_singleton _) fun kind hk he => ?_⟩
        rw [List.mem_filter, List.mem_singleton.1 he] at hk
        exact bne_iff_ne.1 hk.2 rfl
      | keys keymap => exact ⟨hf, hs, hc⟩
  exact ⟨hordered.1.nodup_keys, hordered.2.1.nodup_keys, hordered.2.2⟩

end Capabilities

namespace HostState

variable (h : HostState) (offers : List Offer)

theorem offerAll_concat (o : Offer) : h.offerAll (offers ++ [o]) = (h.offerAll offers).offer o := by
  rw [offerAll, List.foldl_append]
  rfl

/-- The shell has the collections that were offered last, and otherwise those of before. -/
theorem ofKind_offerAll (kind : CollectionKind) :
    (h.offerAll offers).collections.ofKind kind =
      (Offer.collection? offers kind).getD (h.collections.ofKind kind) := by
  have step (offers : List Offer) (o : Offer) :
      (h.offerAll (offers ++ [o])).collections.ofKind kind =
        (Offer.asCollection? kind o).elim ((h.offerAll offers).collections.ofKind kind) id := by
    rw [offerAll_concat]
    cases o with
    | collection c =>
      rw [Offer.asCollection?]
      by_cases hk : c.kind = kind
      · rw [if_pos hk, ← hk]
        cases c <;> rfl
      · rw [if_neg hk]
        cases c <;> cases kind <;> first | rfl | exact absurd rfl hk
    | _ => rfl
  refine (Offer.elim_last? (fun offers => (h.offerAll offers).collections.ofKind kind) _ step
    offers).trans ?_
  rw [Offer.collection?]
  cases Offer.last? (Offer.asCollection? kind) offers <;> rfl

/-- So it has the keymap. -/
theorem keymap_offerAll :
    (h.offerAll offers).keymap = (Offer.keymap? offers).getD h.keymap := by
  have step (offers : List Offer) (o : Offer) :
      (h.offerAll (offers ++ [o])).keymap =
        (Offer.asKeymap? o).elim (h.offerAll offers).keymap id := by
    rw [offerAll_concat]
    cases o <;> rfl
  refine (Offer.elim_last? (fun offers => (h.offerAll offers).keymap) _ step offers).trans ?_
  rw [Offer.keymap?]
  cases Offer.last? Offer.asKeymap? offers <;> rfl

end HostState

/-! ## The check -/

namespace Capabilities

/-- The five sources of names. -/
def nameSources (c : Capabilities) : List (List String) :=
  [c.functions.keys, c.scalars.keys, hookFields, c.collections.map CollectionKind.field,
    reservedFields]

theorem names_eq (c : Capabilities) : c.names.map (·.1) = c.nameSources.flatten := by
  simp [names, nameSources, hookFields, Function.comp_def]

/-- Among different names, none of which was seen before, there is no clash. -/
theorem firstClash?_of_nodup {seen names : List (String × String)}
    (hn : (names.map (·.1)).Nodup) (hs : ∀ e ∈ names, seen.lookup e.1 = none) :
    firstClash? seen names = none := by
  induction names generalizing seen with
  | nil => rfl
  | cons e names ih =>
    obtain ⟨name, what⟩ := e
    rw [List.map_cons, List.nodup_cons] at hn
    have hfresh : seen.lookup name = none := hs _ List.mem_cons_self
    rw [firstClash?, hfresh]
    refine ih hn.2 fun e he => ?_
    have hne : e.1 ≠ name := fun heq => hn.1 (List.mem_map.2 ⟨e, he, heq⟩)
    rw [List.lookup_cons, beq_false_of_ne hne]
    exact hs e (List.mem_cons_of_mem _ he)

theorem validate_iff_nodup (c : Capabilities) :
    c.validate = .ok () ↔ c.nameSources.flatten.Nodup := by
  rw [← names_eq]
  constructor
  · intro h
    rw [validate] at h
    split at h
    · cases h
    · next hnone => exact (firstClash?_eq_none hnone).1
  · intro hn
    rw [validate, firstClash?_of_nodup hn fun _ _ => rfl]

/-- **The check of capabilities that are made by offers finds a clash exactly if two sources of
names have a name in common.** -/
theorem validate_iff_disjoint (offers : List Offer) :
    (ofOffers offers).validate = .ok () ↔
      (ofOffers offers).nameSources.Pairwise List.Disjoint := by
  obtain ⟨hf, hs, hc⟩ := nodup_ofOffers offers
  rw [validate_iff_nodup, List.nodup_flatten]
  refine and_iff_right fun l hl => ?_
  simp only [nameSources, List.mem_cons, List.not_mem_nil, or_false] at hl
  rcases hl with rfl | rfl | rfl | rfl | rfl
  · exact hf
  · exact hs
  · decide
  · exact hc.map fun _ _ => Heap.field_injective
  · decide

end Capabilities

/-! ## What a guest reads -/

/-- What may be registered under a name: something in the table itself, a scalar property with its
cell, or a hook. -/
inductive Found where
  /-- Something in the table itself. -/
  | content (c : Content)
  /-- A scalar property. -/
  | scalar (cell : ScalarRef)
  /-- A hook. -/
  | hook (point : HookPoint)

/-- What the last offers, the hooks and the library register under which name, where the program has
a path or none. -/
inductive Offer.Registers (offers : List Offer) (hooks : RegistryRef) (path? : Option String) :
    String → Found → Prop where
  /-- A function of the shell. -/
  | function {name : String} {f : HostFunction} (h : function? offers name = some f) :
      Registers offers hooks path? name (.content (.code (.host f)))
  /-- A scalar property. -/
  | scalar {name : String} {cell : ScalarRef} (h : cell? offers name = some cell) :
      Registers offers hooks path? name (.scalar cell)
  /-- A hook. -/
  | hook {name : String} {point : HookPoint} (h : HookPoint.ofField? name = some point) :
      Registers offers hooks path? name (.hook point)
  /-- A collection. -/
  | collection {kind : CollectionKind} (h : (collection? offers kind).isSome) :
      Registers offers hooks path? kind.field (.content (.part (.collection kind)))
  /-- Reading an alias. -/
  | getAlias (h : (collection? offers .aliases).isSome) :
      Registers offers hooks path? "getalias" (.content (.code .getAlias))
  /-- Writing an alias. -/
  | setAlias (h : (collection? offers .aliases).isSome) :
      Registers offers hooks path? "setalias" (.content (.code .setAlias))
  /-- The keys. -/
  | keys (h : (keymap? offers).isSome) :
      Registers offers hooks path? "key" (.content (.part (.keys hooks)))
  /-- Binding a key. -/
  | bindKey (h : (keymap? offers).isSome) :
      Registers offers hooks path? "bindkey" (.content (.code (.bindKey hooks)))
  /-- The lines of a file or of the input. -/
  | lines : Registers offers hooks path? "lines" (.content (.code (.library .ioLines)))
  /-- Opening files. -/
  | openFile : Registers offers hooks path? "open" (.content (.code (.library .ioOpen)))
  /-- Compiling files. -/
  | loadfile : Registers offers hooks path? "loadfile" (.content (.code (.library .loadfile)))
  /-- The version. -/
  | version : Registers offers hooks path? "version" (.content (.text Session.version))
  /-- The program file, if it is known. -/
  | executable {path : String} (h : path? = some path) :
      Registers offers hooks path? "exe" (.content (.text path))

/-- What offers register in the table itself is what their capabilities provide there. -/
theorem Offer.registers_content_iff {offers : List Offer} {hooks : RegistryRef}
    {path? : Option String} {name : String} {content : Content} : Registers offers hooks path? name (.content content) ↔
      (Capabilities.ofOffers offers).Provides hooks path? name content := by
  have hcollection (kind : CollectionKind) := Capabilities.mem_collections offers kind
  have hkeys := Capabilities.keys_iff offers
  constructor
  · intro h
    cases h with
    | function h => exact .function ((Capabilities.get?_functions offers name).trans h)
    | collection h => exact .collection ((hcollection _).2 h)
    | getAlias h => exact .getAlias ((hcollection _).2 h)
    | setAlias h => exact .setAlias ((hcollection _).2 h)
    | keys h => exact .keys (hkeys.trans h)
    | bindKey h => exact .bindKey (hkeys.trans h)
    | lines => exact .lines
    | openFile => exact .openFile
    | loadfile => exact .loadfile
    | version => exact .version
    | executable h => exact .executable h
  · intro h
    cases h with
    | function h => exact .function ((Capabilities.get?_functions offers name).symm.trans h)
    | collection h => exact .collection ((hcollection _).1 h)
    | getAlias h => exact .getAlias ((hcollection _).1 h)
    | setAlias h => exact .setAlias ((hcollection _).1 h)
    | keys h => exact .keys (hkeys.symm.trans h)
    | bindKey h => exact .bindKey (hkeys.symm.trans h)
    | lines => exact .lines
    | openFile => exact .openFile
    | loadfile => exact .loadfile
    | version => exact .version
    | executable h => exact .executable h

namespace World

variable {w w' : World} {t : TableRef} {name : String} {v : Value} {p : ScalarProperties}
  {hooks : RegistryRef}

/-- A guest reads a value under a name of a table, from anywhere where there is room for one call,
and the read changes nothing. -/
def Reads (w : World) (t : TableRef) (name : String) (v : Value) : Prop :=
  ∀ (n b : Nat) (r : RuntimeRef) (here : Here) (name? : Option (String × String)),
    (handlerWithin (n + 1) (b + 1) r).run (here.index name? (.table t) (.text name)) w =
      (.value v, w)

/-- A guest reads what is registered under a name: a function with the code, a part of the table
that leads to the properties, the text, what the cell holds now, or the function that the hook has
now. -/
def Shows (w : World) (t : TableRef) (hooks : RegistryRef) (name : String) : Found → Prop
  | .content (.code c) =>
    ∃ f r, w.heap.function? f = some ⟨r, c⟩ ∧ w.Reads t name (.func f)
  | .content (.part p) => ∃ u, w.heap.IsPart t u p ∧ w.Reads t name (.table u)
  | .content (.text s) => w.Reads t name (.text s)
  | .scalar cell => w.Reads t name (w.host.scalar cell).form
  | .hook point => w.Reads t name ((((w.host.registry hooks).get? point).map Value.func).getD .nil)

theorem reads_of_field (h : w.heap.field t name = v) (hv : v ≠ .nil) : w.Reads t name v := by
  subst h
  exact fun n b r here name? => Handler.run_index_of_present here name? rfl hv

section Claimed

variable (ho : w.heap.Offers t (.capabilities p hooks))
  (hf : w.heap.rawGet t (.text name) = .nil)
include ho hf

/-- A scalar property is read from its cell. -/
theorem reads_of_scalar {cell : ScalarRef} (hc : TextMap.get? p name = some cell) :
    w.Reads t name (w.host.scalar cell).form := by
  have hk : p.fieldKind (Utf8.encode name) = .scalar name := by
    simp only [ScalarProperties.fieldKind, Utf8.decode?_encode, TextMap.contains, hc,
      Option.isSome_some, if_true]
  intro n b r here name?
  exact run_index_of_some ho hf (toHost_str w.heap (Utf8.encode name))
    (get_keyOf_scalar hooks w.host hk hc) (fun r => ScalarCell.toGuest_value _ _ r _) here name?

/-- A hook is read from the registry. -/
theorem reads_of_hook (hc : TextMap.get? p name = none) {point : HookPoint}
    (hp : HookPoint.ofField? name = some point) :
    w.Reads t name ((((w.host.registry hooks).get? point).map Value.func).getD .nil) := by
  have hk : p.fieldKind (Utf8.encode name) = .hook point := by
    simp only [ScalarProperties.fieldKind, Utf8.decode?_encode, TextMap.contains, hc, hp,
      Option.isSome_none, Bool.false_eq_true, if_false]
  have hget := get_keyOf_hook hooks w.host hk
  intro n b r here name?
  cases hg : (w.host.registry hooks).get? point with
  | none =>
    rw [hg] at hget
    exact run_index_of_none ho hf (toHost_str w.heap (Utf8.encode name)) hget here name?
  | some f =>
    rw [hg] at hget
    exact run_index_of_some ho hf (toHost_str w.heap (Utf8.encode name)) hget (fun _ => rfl) here
      name?

/-- All else is `nil`. -/
theorem reads_nil (hc : TextMap.get? p name = none) (hp : HookPoint.ofField? name = none) :
    w.Reads t name .nil := by
  have hk : p.fieldKind (Utf8.encode name) = .own := by
    simp only [ScalarProperties.fieldKind, Utf8.decode?_encode, TextMap.contains, hc, hp,
      Option.isSome_none, Bool.false_eq_true, if_false]
  intro n b r here name?
  exact run_index_of_none ho hf (toHost_str w.heap (Utf8.encode name))
    (get_keyOf_own hooks w.host hk) here name?

end Claimed
end World

/-! ## While the capability table stays as it is -/

namespace Guest.Heap

variable {h h' : Heap} {t u : TableRef} {p : PropertyTable}

theorem KeepsTable.part (k : KeepsTable u h h') (hp : h.IsPart t u p) : h'.IsPart t u p where
  behind := hp.behind
  lt := Nat.lt_of_lt_of_le hp.lt k.tables
  empty key := (k.fields key).trans (hp.empty key)
  offers := k.offers hp.offers

/-- A stretch that leaves a capability table and its parts as they are. -/
structure KeepsCapabilities (t : TableRef) (h h' : Heap) : Prop where
  /-- The table itself. -/
  table : KeepsTable t h h'
  /-- Its parts. -/
  parts : ∀ u p, h.IsPart t u p → KeepsTable u h h'

theorem KeepsCapabilities.refl (t : TableRef) (h : Heap) : KeepsCapabilities t h h :=
  have htable (u : TableRef) : KeepsTable u h h :=
    ⟨Nat.le_refl _, .refl _, fun _ => rfl, rfl, fun _ _ _ _ => rfl⟩
  ⟨htable t, fun u _ _ => htable u⟩

end Guest.Heap

theorem Capabilities.get?_scalars_of_hook {c : Capabilities} (hvalid : c.validate = .ok ())
    {name : String} {point : HookPoint} (hp : HookPoint.ofField? name = some point) :
    TextMap.get? c.scalars name = none := by
  have hnodup := names_nodup hvalid
  simp only [List.nodup_append, List.mem_append] at hnodup
  obtain ⟨⟨⟨-, -, hhooks⟩, -⟩, -⟩ := hnodup
  cases hc : TextMap.get? c.scalars name with
  | none => rfl
  | some cell =>
    exact absurd rfl (hhooks name (.inr (mem_of_lookupEntry hc)) name (mem_hookFields hp))

namespace World

variable (w : World) (shell : ShellRef) (offers : List Offer) (config : Config)

/-- In a session for checked offers a guest reads what they register, as long as the capability
table stays as it is. -/
theorem shows_placeSession (hvalid : (Capabilities.ofOffers offers).validate = .ok ())
    (w' : World) (k : (w.placeSession shell (.ofOffers offers) config).2.heap.KeepsCapabilities
      (w.nextCapabilities (.ofOffers offers)).1 w'.heap) {name : String} {found : Found}
    (hr : Offer.Registers offers w.addRegistry.1 w.executable? name found) :
    w'.Shows (w.nextCapabilities (.ofOffers offers)).1 w.addRegistry.1 name found := by
  obtain ⟨-, htable, hget, -⟩ := w.nextCapabilities_placeSession shell (.ofOffers offers) config
  have hoffers := k.table.offers htable.offers
  -- the table itself has nothing under the names that the shell claims
  have hempty (hn : (Capabilities.ofOffers offers).scalars.contains name = true ∨
      (HookPoint.ofField? name).isSome = true) :
      w'.heap.rawGet (w.nextCapabilities (.ofOffers offers)).1 (.text name) = .nil :=
    (k.table.fields _).trans ((hget _).trans (w.field_nextCapabilities hvalid hn))
  cases found with
  | content content =>
    have hholds := w.holds_placeSession shell config hvalid name content
      (Offer.registers_content_iff.1 hr)
    have hfield := k.table.fields (.text name)
    cases content with
    | code c =>
      obtain ⟨f, r, hf, hcode⟩ := hholds
      have hlt := (Array.getElem?_eq_some_iff.1 hcode).1
      refine ⟨f, r, ?_, reads_of_field (hfield.trans hf) Value.noConfusion⟩
      rw [Heap.function?, k.table.functions.get _ hlt]
      exact hcode
    | part p =>
      obtain ⟨u, hu, hpart⟩ := hholds
      exact ⟨u, (k.parts u p hpart).part hpart,
        reads_of_field (hfield.trans hu) Value.noConfusion⟩
    | text s => exact reads_of_field (hfield.trans hholds) Value.noConfusion
  | scalar cell =>
    cases hr with
    | scalar hc =>
      have hcell := (Capabilities.get?_scalars offers name).trans hc
      exact reads_of_scalar hoffers (hempty (.inl (by rw [TextMap.contains, hcell]; rfl))) hcell
  | hook point =>
    cases hr with
    | hook hp =>
      exact reads_of_hook hoffers (hempty (.inr (by rw [hp]; rfl)))
        (Capabilities.get?_scalars_of_hook hvalid hp) hp

/-- Under a name that nothing is registered under, it reads `nil`. -/
theorem reads_nil_placeSession (w' : World)
    (k : (w.placeSession shell (.ofOffers offers) config).2.heap.KeepsCapabilities
      (w.nextCapabilities (.ofOffers offers)).1 w'.heap) {name : String}
    (hr : ∀ found, ¬Offer.Registers offers w.addRegistry.1 w.executable? name found) :
    w'.Reads (w.nextCapabilities (.ofOffers offers)).1 name .nil := by
  obtain ⟨-, htable, hget, -⟩ := w.nextCapabilities_placeSession shell (.ofOffers offers) config
  have hfield : (w.nextCapabilities (.ofOffers offers)).2.field
      (w.nextCapabilities (.ofOffers offers)).1 name = .nil := by
    obtain ⟨-, hg⟩ := w.builds_addRuntime
    refine Heap.field_of_not_provides _ _ _ hg.table_lt fun content hp => ?_
    exact hr _ (Offer.registers_content_iff.2 hp)
  refine reads_nil (k.table.offers htable.offers)
    ((k.table.fields _).trans ((hget _).trans hfield)) ?_ ?_
  · rw [Capabilities.get?_scalars]
    exact Option.eq_none_iff_forall_ne_some.2 fun cell hc => hr _ (.scalar hc)
  · exact Option.eq_none_iff_forall_ne_some.2 fun point hp => hr _ (.hook hp)

/-- **Nothing shadows anything.**  The check of capabilities that are made by offers lets them
through exactly if no two of the five sources of names have a name in common.  If it does, a session
with them can be added.  Its shell has the collections and the keymap that were offered last, and as
long as the capability table and its parts stay as they are, a guest reads under each name what the
last offer under that name registers, or what the hooks and the library do, and `nil` under all
other names. -/
theorem offers_found :
    ((Capabilities.ofOffers offers).validate = .ok () ↔
      (Capabilities.ofOffers offers).nameSources.Pairwise List.Disjoint) ∧
    ((Capabilities.ofOffers offers).validate = .ok () → ∃ session new t,
      addSession { w with host := w.host.offerAll offers } shell (.ofOffers offers) config =
        .ok (session, new) ∧
      (config.namespaceName ≠ "share" →
        new.heap.field (new.globals session) config.namespaceName = .table t) ∧
      (∀ kind c, Offer.collection? offers kind = some c → new.host.collections.ofKind kind = c) ∧
      (∀ keymap, Offer.keymap? offers = some keymap → new.host.keymap = keymap) ∧
      ∀ w' : World, new.heap.KeepsCapabilities t w'.heap →
        (∀ name found,
          Offer.Registers offers (new.session session).hooks w.executable? name found →
            w'.Shows t (new.session session).hooks name found) ∧
        ∀ name,
          (∀ found,
            ¬Offer.Registers offers (new.session session).hooks w.executable? name found) →
            w'.Reads t name .nil) := by
  refine ⟨Capabilities.validate_iff_disjoint offers, fun hvalid => ?_⟩
  have hcollections (kind : CollectionKind) := w.host.ofKind_offerAll offers kind
  have hkeymap := w.host.keymap_offerAll offers
  -- of the offers only what the host then holds is left
  generalize w.host.offerAll offers = host at hcollections hkeymap ⊢
  have hstart : ({ w with host := host } : World).host = host := rfl
  have hpath : w.executable? = ({ w with host := host } : World).executable? := rfl
  rw [hpath]
  generalize ({ w with host := host } : World) = start at hstart ⊢
  have hadd : start.addSession shell (.ofOffers offers) config =
      .ok (start.placeSession shell (.ofOffers offers) config) := by
    rw [addSession, hvalid]
  have hsession := start.session_placeSession shell (.ofOffers offers) config
  have hruntime := start.runtime_placeSession shell (.ofOffers offers) config
  have hhost := start.host_placeSession shell (.ofOffers offers) config
  obtain ⟨-, -, -, hfield⟩ := start.nextCapabilities_placeSession shell (.ofOffers offers) config
  have hshows := start.shows_placeSession shell offers config hvalid
  have hnil := start.reads_nil_placeSession shell offers config
  generalize start.placeSession shell (.ofOffers offers) config = placed
    at hadd hsession hruntime hhost hfield hshows hnil
  obtain ⟨session, new⟩ := placed
  refine ⟨session, new, (start.nextCapabilities (.ofOffers offers)).1, hadd, ?_⟩
  rw [globals, hsession, hruntime]
  refine ⟨hfield, fun kind c hc => ?_, fun keymap hk => ?_, fun w' k => ⟨fun name found =>
    hshows w' k, fun name => hnil w' k⟩⟩
  · rw [hhost]
    show start.host.collections.ofKind kind = c
    rw [hstart, hcollections, hc, Option.getD_some]
  · rw [hhost]
    show start.host.keymap = keymap
    rw [hstart, hkeymap, hk, Option.getD_some]

/-- Of two functions with one name a guest finds the second, beside a property, and nothing under a
name of neither. -/
theorem second_function_found : ∃ session new t,
    addSession { host := { scalars := #[.text "tty"] } } ⟨0⟩
        (.ofOffers [.function "greet" ⟨0, false⟩, .scalars [("title", ⟨0⟩)],
          .function "greet" ⟨1, false⟩]) {} = .ok (session, new) ∧
      (∃ f r, new.heap.function? f = some ⟨r, .host ⟨1, false⟩⟩ ∧ new.Reads t "greet" (.func f)) ∧
      new.Reads t "title" (new.host.scalar ⟨0⟩).form ∧ new.Reads t "greeting" .nil := by
  obtain ⟨session, new, t, hadd, -, -, -, hfound⟩ :=
    (offers_found { host := { scalars := #[.text "tty"] } } ⟨0⟩ [.function "greet" ⟨0, false⟩,
      .scalars [("title", ⟨0⟩)], .function "greet" ⟨1, false⟩] {}).2 rfl
  obtain ⟨hshows, hnil⟩ := hfound new (.refl t new.heap)
  refine ⟨session, new, t, hadd, hshows "greet" _ (.function rfl), hshows "title" _ (.scalar rfl),
    hnil "greeting" fun found hr => ?_⟩
  generalize hn : "greeting" = name at hr
  cases hr with
  | function h | scalar h | hook h =>
    subst hn
    cases h
  | collection h => cases h
  | _ => exact absurd hn (by decide)

end World
end ScriptShell
