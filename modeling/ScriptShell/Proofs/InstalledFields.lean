import ScriptShell.Proofs.CapabilityTables

/-! # The fields that a capability table is built with

The check of the capabilities lets no name through twice (`Capabilities.names_nodup`).  So the
fields that building a session fills are never those of a scalar property or a hook
(`Capabilities.not_installs`), and these are empty in the capability table of a new session
(`World.field_nextCapabilities`): guests that use them get to the shell.
-/

namespace ScriptShell

theorem HookPoint.field?_of_ofField? {name : String} {point : HookPoint}
    (h : HookPoint.ofField? name = some point) : point.field? = some name := by
  have hf : HookPoint.fields.find? (fun p => p.field? == some name) = some point := h
  have hp := List.find?_some hf
  exact eq_of_beq hp

namespace Capabilities

/-- Where no clash is found, all names are different, and none was seen before. -/
theorem firstClash?_eq_none {seen names : List (String × String)}
    (h : firstClash? seen names = none) :
    (names.map (·.1)).Nodup ∧ ∀ e ∈ names, seen.lookup e.1 = none := by
  induction names generalizing seen with
  | nil => exact ⟨List.nodup_nil, fun e he => absurd he List.not_mem_nil⟩
  | cons e rest ih =>
    obtain ⟨name, what⟩ := e
    rw [firstClash?] at h
    split at h
    · cases h
    · next hseen =>
      obtain ⟨hrest, hfresh⟩ := ih h
      have hne (e : String × String) (he : e ∈ rest) :
          e.1 ≠ name ∧ seen.lookup e.1 = none := by
        have hl := hfresh e he
        rw [List.lookup_cons] at hl
        split at hl
        · cases hl
        · next hb => exact ⟨ne_of_beq_false hb, hl⟩
      rw [List.map_cons, List.nodup_cons]
      refine ⟨⟨fun hm => ?_, hrest⟩, fun e he => ?_⟩
      · obtain ⟨e, he, hn⟩ := List.mem_map.1 hm
        exact (hne e he).1 hn
      · rcases List.mem_cons.1 he with rfl | he
        · exact hseen
        · exact (hne e he).2

/-- The names of the hook fields. -/
def hookFields : List String := HookPoint.fields.filterMap HookPoint.field?

variable {c : Capabilities}

/-- All names of checked capabilities are different. -/
theorem names_nodup (h : c.validate = .ok ()) :
    (c.functions.keys ++ c.scalars.keys ++ hookFields ++
      c.collections.map CollectionKind.field ++ reservedFields).Nodup := by
  have hnone : firstClash? [] c.names = none := by
    rw [validate] at h
    split at h
    · cases h
    · assumption
  have hnodup := (firstClash?_eq_none hnone).1
  simp only [names, List.map_append, List.map_map] at hnodup
  simpa [Function.comp_def, hookFields] using hnodup

/-- The names that building a session may put fields under. -/
def Installs (c : Capabilities) (name : String) : Prop :=
  name ∈ c.functions.keys ∨ name ∈ c.collections.map CollectionKind.field ∨ name ∈ reservedFields

theorem mem_of_lookupEntry {α : Type} {name : String} {a : α} {es : List (String × α)}
    (h : TextMap.lookupEntry name es = some a) : name ∈ es.map (·.1) := by
  induction es with
  | nil => cases h
  | cons e rest ih =>
    rw [TextMap.lookupEntry] at h
    split at h
    · next he =>
      rw [List.map_cons, he]
      exact List.mem_cons_self
    · exact List.mem_cons_of_mem _ (ih h)

theorem mem_hookFields {name : String} {point : HookPoint}
    (h : HookPoint.ofField? name = some point) : name ∈ hookFields := by
  have hf : HookPoint.fields.find? (fun p => p.field? == some name) = some point := h
  exact List.mem_filterMap.2
    ⟨point, List.mem_of_find?_eq_some hf, HookPoint.field?_of_ofField? h⟩

/-- No field is put under the name of a scalar property or of a hook. -/
theorem not_installs (h : c.validate = .ok ()) {name : String}
    (hn : c.scalars.contains name = true ∨ (HookPoint.ofField? name).isSome = true) :
    ¬c.Installs name := by
  have hnodup := names_nodup h
  simp only [List.nodup_append, List.mem_append] at hnodup
  obtain ⟨⟨⟨⟨-, -, hfs⟩, -, hfh⟩, -, hc⟩, -, hr⟩ := hnodup
  have hmem : name ∈ c.scalars.keys ∨ name ∈ hookFields := by
    refine hn.imp (fun hs => ?_) fun hp => ?_
    · obtain ⟨cell, hcell⟩ := Option.isSome_iff_exists.1 hs
      exact mem_of_lookupEntry hcell
    · obtain ⟨point, hpoint⟩ := Option.isSome_iff_exists.1 hp
      exact mem_hookFields hpoint
  rintro (hf | hk | hres)
  · rcases hmem with hm | hm
    · exact hfs name hf name hm rfl
    · exact hfh name (.inl hf) name hm rfl
  · exact hc name (hmem.imp .inr id) name hk rfl
  · exact hr name (.inl (hmem.imp .inr id)) name hres rfl

end Capabilities

open Guest

/-! ## What building leaves alone -/

namespace Guest.Heap

variable {h : Heap} {globals t : TableRef} {name : String}

theorem field_putFunctions (hg : globals ≠ t) (r : RuntimeRef) {functions : TextMap HostFunction}
    (hn : name ∉ functions.keys) :
    (Session.putFunctions r globals t functions h).field t name = h.field t name := by
  rw [TextMap.keys] at hn
  rw [Session.putFunctions]
  generalize functions.entries = entries at hn ⊢
  induction entries generalizing h with
  | nil => rfl
  | cons e rest ih =>
    rw [List.map_cons, List.mem_cons, not_or] at hn
    rw [List.foldl_cons, ih hn.2]
    dsimp only
    rw [field_setField_of_ne _ _ (Ne.symm hn.1)]
    split
    · rw [field_setField_of_table_ne hg]
      rfl
    · rfl

theorem field_putLibrary (globals : TableRef)
    (hn : name ∉ ["lines", "open", "loadfile"]) :
    (Session.putLibrary globals t h).field t name = h.field t name := by
  simp only [List.mem_cons, List.not_mem_nil, or_false, not_or] at hn
  obtain ⟨hlines, hopen, hloadfile⟩ := hn
  unfold Session.putLibrary
  dsimp only
  split
  · rw [field_setField_of_ne _ _ (Ne.symm hloadfile), field_setField_of_ne _ _ (Ne.symm hopen),
      field_setField_of_ne _ _ (Ne.symm hlines)]
  · rw [field_setField_of_ne _ _ (Ne.symm hloadfile)]

theorem field_putCollections (r : RuntimeRef) {kinds : List CollectionKind}
    (hn : name ∉ kinds.map CollectionKind.field) (hget : name ≠ "getalias")
    (hset : name ≠ "setalias") (ht : t.id < h.tables.size) :
    (Session.putCollections r t kinds h).field t name = h.field t name := by
  induction kinds generalizing h with
  | nil => rfl
  | cons kind kinds ih =>
    rw [List.map_cons, List.mem_cons, not_or] at hn
    obtain ⟨hfills, -, hfield⟩ := hasPart_putCollection ht r kind
    rw [← hfield name hn.1 hget hset]
    exact ih hn.2 hfills.next_lt

/-- In the table that is built, a field under another name is empty. -/
theorem field_addCapabilities (r : RuntimeRef) (runtime : Runtime) {capabilities : Capabilities}
    (hooks : RegistryRef) (path? : Option String) (hg : runtime.globals.id < h.tables.size)
    (hn : ¬capabilities.Installs name) :
    (Session.addCapabilities r runtime capabilities hooks path? h).2.field
      (Session.addCapabilities r runtime capabilities hooks path? h).1 name = .nil := by
  simp only [Capabilities.Installs, not_or] at hn
  obtain ⟨hfunctions, hcollections, hreserved⟩ := hn
  have hne {other : String} (ho : other ∈ Capabilities.reservedFields) : name ≠ other :=
    fun he => hreserved (he ▸ ho)
  have hlibrary : name ∉ ["lines", "open", "loadfile"] :=
    fun hm => hreserved ((by decide : ["lines", "open", "loadfile"] ⊆ _) hm)
  have hown := isPart_addPropertyTable hg r (.capabilities capabilities.scalars hooks)
  unfold Session.addCapabilities
  dsimp only
  generalize (addPropertyTable r (.capabilities capabilities.scalars hooks) h).1 = t at hown ⊢
  generalize (addPropertyTable r (.capabilities capabilities.scalars hooks) h).2 = h₁ at hown ⊢
  have hgt : runtime.globals ≠ t := fun he => Nat.lt_irrefl t.id (he ▸ hown.behind)
  have k₂ := Fills.putFunctions hown.lt (Nat.le_of_lt hown.behind) r capabilities.functions
  have k₃ := k₂.trans (Fills.putLibrary k₂.next_lt runtime.globals)
  obtain ⟨k₄, -⟩ := hasPart_putCollections r capabilities.collections _ k₃.next_lt
  -- up to the collections
  have hfield : (Session.putCollections r t capabilities.collections
      (Session.putLibrary runtime.globals t
        (Session.putFunctions r runtime.globals t capabilities.functions h₁))).field t name =
      .nil := by
    rw [field_putCollections r hcollections (hne (by decide)) (hne (by decide)) k₃.next_lt,
      field_putLibrary _ hlibrary, field_putFunctions hgt r hfunctions]
    exact hown.empty (.text name)
  generalize Session.putCollections r t capabilities.collections _ = h₄ at k₄ hfield ⊢
  rw [field_setField_of_ne _ _ (Ne.symm (hne (by decide))),
    field_setField_of_ne _ _ (Ne.symm (hne (by decide)))]
  split
  · obtain ⟨-, -, hkeys⟩ := hasPart_putKeys k₄.next_lt r hooks
    rw [hkeys name (hne (by decide)) (hne (by decide)), hfield]
  · exact hfield

end Guest.Heap

namespace World

/-- The capability table of a new session has nothing under the names that the shell claims. -/
theorem field_nextCapabilities (w : World) {capabilities : Capabilities}
    (hvalid : capabilities.validate = .ok ()) {name : String}
    (hn : capabilities.scalars.contains name = true ∨ (HookPoint.ofField? name).isSome = true) :
    (w.nextCapabilities capabilities).2.field (w.nextCapabilities capabilities).1 name = .nil := by
  obtain ⟨-, hg⟩ := w.builds_addRuntime
  exact Heap.field_addCapabilities _ _ _ _ hg.table_lt (Capabilities.not_installs hvalid hn)

end World
end ScriptShell
