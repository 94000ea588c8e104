import ScriptShell.Proofs.CapabilityTables

/-! # The library of a new runtime

Every function of the library is in a new runtime, under its name in the global variables or in the
table of its library (`Heap.library_addRuntime`).  A function is put there once, and whatever is
added afterwards sets other fields.  That is said with one relation for all steps of building a
runtime: `Heap.Spares t name` holds of a stretch that leaves one field of one table as it is.
-/

namespace ScriptShell

open Guest

namespace Guest

theorem TableRef.ne_of_lt {t u : TableRef} (h : t.id < u.id) : t ≠ u :=
  fun he => Nat.lt_irrefl u.id (he ▸ h)

theorem TableRef.ne_of_gt {t u : TableRef} (h : t.id < u.id) : u ≠ t := (ne_of_lt h).symm

namespace Heap

variable {h h' h'' : Heap} {t u : TableRef} {name : String} {r : RuntimeRef}

/-- A stretch that leaves one field of a table as it is. -/
structure Spares (t : TableRef) (name : String) (h h' : Heap) : Prop where
  /-- No table goes away. -/
  tables : h.tables.size ≤ h'.tables.size
  /-- Functions stay what they are. -/
  functions : StartsWith h.functions h'.functions
  /-- The field has the value that it had. -/
  field : h'.field t name = h.field t name

namespace Spares

theorem refl (h : Heap) : Spares t name h h := ⟨Nat.le_refl _, .refl _, rfl⟩

theorem trans (k : Spares t name h h') (k' : Spares t name h' h'') : Spares t name h h'' :=
  ⟨Nat.le_trans k.tables k'.tables, k.functions.trans k'.functions, k'.field.trans k.field⟩

/-- What comes next finds the table in its place. -/
theorem andThen (k : Spares t name h h') (ht : t.id < h.tables.size)
    (k' : t.id < h'.tables.size → Spares t name h' h'') : Spares t name h h'' :=
  k.trans (k' (Nat.lt_of_lt_of_le ht k.tables))

theorem of_keeps (ht : t.id < h.tables.size) (k : h.Keeps h') : Spares t name h h' :=
  ⟨k.tables.size, k.functions, by rw [Heap.field, k.table ht, Heap.field]⟩

/-- Another field, of this table or of another one, may be set. -/
theorem setField {name' : String} (hne : u ≠ t ∨ name' ≠ name) (v : Value) :
    Spares t name h (h.setField u name' v) := by
  refine ⟨Nat.le_of_eq (size_modifyTable ..).symm, .refl _, ?_⟩
  rcases hne with hne | hne
  · exact field_setField_of_table_ne hne name name' v
  · exact field_setField_of_ne _ u hne v t

theorem putCode {name' : String} (ht : t.id < h.tables.size) (hne : u ≠ t ∨ name' ≠ name)
    (code : Code) : Spares t name h (ScriptShell.putCode r u name' code h) :=
  (of_keeps ht ((Keeps.refl h).addFunction _)).trans (setField hne _)

theorem foldl {α : Type} {f : Heap → α → Heap} (as : List α)
    (hf : ∀ h, ∀ a ∈ as, t.id < h.tables.size → Spares t name h (f h a))
    (ht : t.id < h.tables.size) : Spares t name h (as.foldl f h) := by
  induction as generalizing h with
  | nil => exact refl h
  | cons a as ih =>
    have ha := hf h a List.mem_cons_self ht
    exact ha.trans (ih (fun h a hm => hf h a (List.mem_cons_of_mem _ hm))
      (Nat.lt_of_lt_of_le ht ha.tables))

theorem addFunctions {fs : List (String × LibraryFunction)} (ht : t.id < h.tables.size)
    (hne : u ≠ t ∨ name ∉ fs.map (·.1)) : Spares t name h (Guest.addFunctions r u fs h) := by
  refine foldl fs (fun h e he ht => putCode ht (hne.imp_right fun hn heq => hn ?_) _) ht
  exact heq ▸ List.mem_map_of_mem he

/-- A function stays where it is. -/
theorem hasMethod (k : Spares t name h h') {code : Code} (hm : h.HasMethod t name code) :
    h'.HasMethod t name code := by
  obtain ⟨f, r, hfield, hfun⟩ := hm
  have hlt : f.id < h.functions.size := (Array.getElem?_eq_some_iff.1 hfun).1
  refine ⟨f, r, k.field.trans hfield, ?_⟩
  rw [function?, k.functions.get _ hlt]
  exact hfun

end Spares

/-! ## Functions under their names -/

theorem size_addFunctions (r : RuntimeRef) (t : TableRef) (fs : List (String × LibraryFunction))
    (h : Heap) : (addFunctions r t fs h).tables.size = h.tables.size := by
  induction fs generalizing h with
  | nil => rfl
  | cons e fs ih => exact (ih (putCode r t e.1 (.library e.2) h)).trans (size_putCode ..)

/-- Functions with different names are all there. -/
theorem hasMethod_addFunctions {fs : List (String × LibraryFunction)} (ht : t.id < h.tables.size)
    (hn : (fs.map (·.1)).Nodup) :
    ∀ e ∈ fs, (addFunctions r t fs h).HasMethod t e.1 (.library e.2) := by
  induction fs generalizing h with
  | nil => exact fun e he => absurd he List.not_mem_nil
  | cons e fs ih =>
    rw [List.map_cons, List.nodup_cons] at hn
    have ht' : t.id < (putCode r t e.1 (.library e.2) h).tables.size := by rwa [size_putCode]
    intro e' he'
    rcases List.mem_cons.1 he' with rfl | he'
    · exact (Spares.addFunctions ht' (.inr hn.1)).hasMethod (hasMethod_putCode ht r e'.1 _)
    · exact ih ht' hn.2 e' he'

/-- A library is there: a table behind the global variables and the table of all libraries, with its
functions. -/
def HasLibrary (h : Heap) (globals loaded : TableRef)
    (l : String × List (String × LibraryFunction)) : Prop :=
  ∃ t, h.field globals l.1 = .table t ∧ globals.id < t.id ∧ loaded.id < t.id ∧
    t.id < h.tables.size ∧ ∀ e ∈ l.2, h.HasMethod t e.1 (.library e.2)

variable {globals loaded : TableRef} {l l' : String × List (String × LibraryFunction)}

/-- A library stays there while its global variable and the tables behind are spared. -/
theorem HasLibrary.mono (hl : h.HasLibrary globals loaded l) (hg : Spares globals l.1 h h')
    (hs : ∀ t name, globals.id < t.id → loaded.id < t.id → t.id < h.tables.size →
      Spares t name h h') : h'.HasLibrary globals loaded l := by
  obtain ⟨t, hfield, hgt, hlt, ht, hm⟩ := hl
  exact ⟨t, hg.field.trans hfield, hgt, hlt, Nat.lt_of_lt_of_le ht hg.tables,
    fun e he => (hs t e.1 hgt hlt ht).hasMethod (hm e he)⟩

/-- What a library is made of before it gets its name. -/
def fillLibrary (r : RuntimeRef) (t : TableRef) (l : String × List (String × LibraryFunction))
    (h : Heap) : Heap :=
  let h := addFunctions r t l.2 h
  if l.1 = "math" then mathConstants.foldl (fun h c => h.setField t c.1 c.2) h else h

theorem addLibrary_eq (r : RuntimeRef) (globals loaded : TableRef) (h : Heap)
    (l : String × List (String × LibraryFunction)) :
    addLibrary r globals loaded h l =
      ((fillLibrary r (h.addTable {}).1 l (h.addTable {}).2).setField globals l.1
        (.table (h.addTable {}).1)).setField loaded l.1 (.table (h.addTable {}).1) := rfl

theorem size_fillLibrary (r : RuntimeRef) (t : TableRef)
    (l : String × List (String × LibraryFunction)) (h : Heap) :
    (fillLibrary r t l h).tables.size = h.tables.size := by
  unfold fillLibrary
  dsimp only
  split
  · simp only [mathConstants, List.foldl_cons, List.foldl_nil, setField, setSlot, size_modifyTable,
      size_addFunctions]
  · exact size_addFunctions ..

theorem size_addLibrary (r : RuntimeRef) (globals loaded : TableRef) (h : Heap)
    (l : String × List (String × LibraryFunction)) :
    (addLibrary r globals loaded h l).tables.size = h.tables.size + 1 := by
  rw [addLibrary_eq, setField, setSlot, size_modifyTable, setField, setSlot, size_modifyTable,
    size_fillLibrary, addTable, Array.size_push]

theorem spares_fillLibrary (ht : t.id < h.tables.size) (hne : u ≠ t) :
    Spares t name h (fillLibrary r u l h) := by
  have hf : Spares t name h (addFunctions r u l.2 h) := .addFunctions ht (.inl hne)
  unfold fillLibrary
  dsimp only
  split
  · exact hf.trans (.foldl _ (fun h c _ _ => .setField (.inl hne) c.2)
      (Nat.lt_of_lt_of_le ht hf.tables))
  · exact hf

theorem hasMethod_fillLibrary (ht : t.id < h.tables.size) (hn : (l.2.map (·.1)).Nodup)
    (hc : ∀ e ∈ l.2, e.1 ∉ mathConstants.map (·.1)) :
    ∀ e ∈ l.2, (fillLibrary r t l h).HasMethod t e.1 (.library e.2) := by
  intro e he
  have hm : (addFunctions r t l.2 h).HasMethod t e.1 (.library e.2) :=
    hasMethod_addFunctions ht hn e he
  unfold fillLibrary
  dsimp only
  split
  · refine Spares.hasMethod (.foldl _ (fun h c hcm _ => .setField (.inr ?_) c.2) ?_) hm
    · exact fun heq => hc e he (heq ▸ List.mem_map_of_mem hcm)
    · rwa [size_addFunctions]
  · exact hm

/-- Adding a library leaves the fields of all tables as they are, but for its name in the global
variables and in the table of all libraries. -/
theorem spares_addLibrary (ht : t.id < h.tables.size) (hg : globals ≠ t ∨ l.1 ≠ name)
    (hl : loaded ≠ t ∨ l.1 ≠ name) : Spares t name h (addLibrary r globals loaded h l) := by
  have hadd : Spares t name h (h.addTable {}).2 := .of_keeps ht ((Keeps.refl h).addTable {})
  have hne : (h.addTable {}).1 ≠ t := TableRef.ne_of_gt ht
  have hfill : Spares t name _ (fillLibrary r (h.addTable {}).1 l (h.addTable {}).2) :=
    spares_fillLibrary (Nat.lt_of_lt_of_le ht hadd.tables) hne
  rw [addLibrary_eq]
  exact hadd.trans (hfill.trans ((Spares.setField hg _).trans (.setField hl _)))

/-- A library is there once it was added. -/
theorem hasLibrary_addLibrary (hg : globals.id < h.tables.size) (hl : loaded.id < h.tables.size)
    (hgl : globals ≠ loaded) (hn : (l.2.map (·.1)).Nodup)
    (hc : ∀ e ∈ l.2, e.1 ∉ mathConstants.map (·.1)) :
    (addLibrary r globals loaded h l).HasLibrary globals loaded l := by
  have ht := lt_addTable h
  have hg' : globals.id < (h.addTable {}).1.id := hg
  have hl' : loaded.id < (h.addTable {}).1.id := hl
  have hm := hasMethod_fillLibrary (r := r) ht hn hc
  rw [addLibrary_eq]
  generalize (h.addTable {}).1 = t at ht hg' hl' hm ⊢
  have hgt : globals ≠ t := TableRef.ne_of_lt hg'
  have hlt : loaded ≠ t := TableRef.ne_of_lt hl'
  have hfill : Spares globals l.1 (h.addTable {}).2 (fillLibrary r t l (h.addTable {}).2) :=
    spares_fillLibrary (Nat.lt_trans hg' ht) (Ne.symm hgt)
  have ht₁ := Nat.lt_of_lt_of_le ht hfill.tables
  generalize fillLibrary r t l (h.addTable {}).2 = h₁ at hm ht₁ ⊢
  have hnamed : Spares globals l.1 (h₁.setField globals l.1 (.table t))
      ((h₁.setField globals l.1 (.table t)).setField loaded l.1 (.table t)) :=
    .setField (.inl (Ne.symm hgl)) _
  have hother (name : String) : Spares t name h₁
      ((h₁.setField globals l.1 (.table t)).setField loaded l.1 (.table t)) :=
    (Spares.setField (.inl hgt) _).trans (.setField (.inl hlt) _)
  refine ⟨t, ?_, hg', hl', Nat.lt_of_lt_of_le ht₁ (hother "").tables,
    fun e he => (hother e.1).hasMethod (hm e he)⟩
  rw [hnamed.field, field_setField h₁ (Nat.lt_trans hg' ht₁), if_pos ⟨rfl, rfl⟩]

/-- Libraries with different names are all there, besides those that were there before. -/
theorem hasLibrary_foldl (hgl : globals ≠ loaded)
    {ls : List (String × List (String × LibraryFunction))} (hnames : (ls.map (·.1)).Nodup)
    (hls : ∀ l ∈ ls, (l.2.map (·.1)).Nodup ∧ ∀ e ∈ l.2, e.1 ∉ mathConstants.map (·.1)) :
    ∀ h : Heap, globals.id < h.tables.size → loaded.id < h.tables.size → ∀ l,
      l ∈ ls ∨ (h.HasLibrary globals loaded l ∧ l.1 ∉ ls.map (·.1)) →
        (ls.foldl (addLibrary r globals loaded) h).HasLibrary globals loaded l := by
  induction ls with
  | nil => exact fun h _ _ l hl => (hl.resolve_left List.not_mem_nil).1
  | cons m ms ih =>
    rw [List.map_cons, List.nodup_cons] at hnames
    intro h hg hlo l hl
    have hsize : h.tables.size ≤ (addLibrary r globals loaded h m).tables.size := by
      rw [size_addLibrary]
      exact Nat.le_succ _
    refine ih hnames.2 (fun l hm => hls l (List.mem_cons_of_mem _ hm)) _
      (Nat.lt_of_lt_of_le hg hsize) (Nat.lt_of_lt_of_le hlo hsize) l ?_
    rcases hl with hl | ⟨hl, hn⟩
    · rcases List.mem_cons.1 hl with rfl | hl
      · obtain ⟨hn, hc⟩ := hls l List.mem_cons_self
        exact .inr ⟨hasLibrary_addLibrary hg hlo hgl hn hc, hnames.1⟩
      · exact .inl hl
    · rw [List.map_cons, List.mem_cons, not_or] at hn
      refine .inr ⟨hl.mono (spares_addLibrary hg (.inr (Ne.symm hn.1)) (.inl (Ne.symm hgl)))
        fun t name hgt hlt ht => spares_addLibrary ht (.inl (TableRef.ne_of_lt hgt))
          (.inl (TableRef.ne_of_lt hlt)), hn.2⟩

/-! ## A new runtime -/

/-- The functions of the library that are global variables are there. -/
theorem hasMethod_addGlobals (r : RuntimeRef) (h : Heap) :
    ∀ e ∈ LibraryFunction.globals,
      (addGlobals r h).2.HasMethod (addGlobals r h).1 e.1 (.library e.2) := by
  intro e he
  have hne : e.1 ≠ "_G" ∧ e.1 ≠ "_VERSION" := by
    have : ∀ e ∈ LibraryFunction.globals, e.1 ≠ "_G" ∧ e.1 ≠ "_VERSION" := by decide
    exact this e he
  have hm := hasMethod_addFunctions (r := r) (lt_addTable h)
    (by decide : (LibraryFunction.globals.map (·.1)).Nodup) e he
  exact Spares.hasMethod ((Spares.setField (.inr (Ne.symm hne.1)) _).trans
    (.setField (.inr (Ne.symm hne.2)) _)) hm

theorem lt_addLoaded (globals : TableRef) (h : Heap) :
    (addLoaded globals h).1.id < (addLoaded globals h).2.tables.size := by
  show _ < ((h.addTable {}).2.setField _ "_G" _).tables.size
  rw [setField, setSlot, size_modifyTable]
  exact lt_addTable h

theorem spares_addLoaded (hg : globals.id < h.tables.size) (name : String) :
    Spares globals name h (addLoaded globals h).2 :=
  (Spares.of_keeps hg ((Keeps.refl h).addTable {})).trans
    (.setField (.inl (TableRef.ne_of_gt hg)) _)

/-- Adding all libraries leaves the other global variables as they are. -/
theorem spares_addLibraries (r : RuntimeRef) (hg : globals.id < h.tables.size)
    (hgl : globals ≠ loaded) (hn : name ∉ LibraryFunction.tables.map (·.1)) :
    Spares globals name h (LibraryFunction.tables.foldl (addLibrary r globals loaded) h) :=
  .foldl _ (fun _ _ hm ht => spares_addLibrary ht
    (.inr fun he => hn (he ▸ List.mem_map_of_mem hm)) (.inl (Ne.symm hgl))) hg

theorem spares_addPackage (ht : t.id < h.tables.size) (hg : globals ≠ t ∨ "package" ≠ name)
    (hl : loaded ≠ t) : Spares t name h (addPackage globals loaded h) := by
  have hadd : Spares t name h (h.addTable {}).2 := .of_keeps ht ((Keeps.refl h).addTable {})
  have hne : (h.addTable {}).1 ≠ t := TableRef.ne_of_gt ht
  exact hadd.trans ((Spares.setField (.inl hne) _).trans
    ((Spares.setField hg _).trans (.setField (.inl hl) _)))

theorem spares_addStrings (ht : t.id < h.tables.size) :
    Spares t name h (addStrings r globals h).2 := by
  have hadd : Spares t name h (h.addTable {}).2 := .of_keeps ht ((Keeps.refl h).addTable {})
  have hne : (h.addTable {}).1 ≠ t := TableRef.ne_of_gt ht
  have hset : Spares t name h ((h.addTable {}).2.setField (h.addTable {}).1 "__index"
      ((h.addTable {}).2.field globals "string")) := hadd.trans (.setField (.inl hne) _)
  exact hset.trans (.addFunctions (Nat.lt_of_lt_of_le ht hset.tables) (.inl hne))

theorem spares_addObjectType (ht : t.id < h.tables.size) (type : String)
    (methods : List (String × LibraryFunction)) (text? : Option LibraryFunction) :
    Spares t name h (addObjectType r type methods text? h).2 :=
  .of_keeps ht ((Builds.refl (.refl h)).addObjectType r type methods text?).built.keeps

/-- What a runtime gets behind its libraries: the table of packages, and the metatables of strings
and of the objects of the host. -/
def addMetatables (r : RuntimeRef) (globals loaded : TableRef) (h : Heap) : Heap :=
  (addObjectType r "error" [] (some .failureText)
    (addObjectType r "HandleData" [] none
      (addObjectType r "FILE*" LibraryFunction.fileMethods (some .fileText)
        (addObjectType r "StreamProxy" LibraryFunction.streamMethods (some .streamText)
          (addStrings r globals (addPackage globals loaded h)).2).2).2).2).2

theorem addRuntime_eq (r : RuntimeRef) (h : Heap) :
    let globals := (addGlobals r h).1
    let loaded := (addLoaded globals (addGlobals r h).2).1
    (addRuntime r h).1.globals = globals ∧
      (addRuntime r h).2 = addMetatables r globals loaded
        (LibraryFunction.tables.foldl (addLibrary r globals loaded)
          (addLoaded globals (addGlobals r h).2).2) := ⟨rfl, rfl⟩

theorem spares_addMetatables (r : RuntimeRef) (ht : t.id < h.tables.size)
    (hg : globals ≠ t ∨ "package" ≠ name) (hl : loaded ≠ t) :
    Spares t name h (addMetatables r globals loaded h) := by
  refine Spares.andThen ?_ ht fun ht => spares_addObjectType ht ..
  refine Spares.andThen ?_ ht fun ht => spares_addObjectType ht ..
  refine Spares.andThen ?_ ht fun ht => spares_addObjectType ht ..
  refine Spares.andThen ?_ ht fun ht => spares_addObjectType ht ..
  exact (spares_addPackage ht hg hl).andThen ht fun ht => spares_addStrings ht

/-- **The whole library is in a new runtime.**  Its functions are global variables or in the tables
of the libraries, which are global variables behind the table of these. -/
theorem library_addRuntime (r : RuntimeRef) (h : Heap) :
    (∀ e ∈ LibraryFunction.globals,
      (addRuntime r h).2.HasMethod (addRuntime r h).1.globals e.1 (.library e.2)) ∧
    ∀ l ∈ LibraryFunction.tables, ∃ t : TableRef,
      (addRuntime r h).2.field (addRuntime r h).1.globals l.1 = .table t ∧
        (addRuntime r h).1.globals.id < t.id ∧ t.id < (addRuntime r h).2.tables.size ∧
          ∀ e ∈ l.2, (addRuntime r h).2.HasMethod t e.1 (.library e.2) := by
  have hfunctions := hasMethod_addGlobals r h
  have hg : (addGlobals r h).1.id < (addGlobals r h).2.tables.size :=
    ((Builds.refl (.refl h)).addGlobals r).2.table_lt
  obtain ⟨hglobals, hheap⟩ := addRuntime_eq r h
  rw [hglobals, hheap]
  generalize (addGlobals r h).1 = globals at hfunctions hg ⊢
  generalize (addGlobals r h).2 = h₁ at hfunctions hg ⊢
  -- the table of all libraries
  have hgl : globals.id < (addLoaded globals h₁).1.id := hg
  have hl := lt_addLoaded globals h₁
  have hloaded := spares_addLoaded hg
  generalize (addLoaded globals h₁).1 = loaded at hgl hl ⊢
  generalize (addLoaded globals h₁).2 = h₂ at hl hloaded ⊢
  have hne : globals ≠ loaded := TableRef.ne_of_lt hgl
  -- the libraries
  have hg₂ : globals.id < h₂.tables.size := Nat.lt_trans hgl hl
  have hlibraries := hasLibrary_foldl (r := r) hne
    (by decide : (LibraryFunction.tables.map (·.1)).Nodup) (by decide) h₂ hg₂ hl
  have hother {name : String} (hn : name ∉ LibraryFunction.tables.map (·.1)) :=
    spares_addLibraries r hg₂ hne hn
  generalize LibraryFunction.tables.foldl (addLibrary r globals loaded) h₂ = h₃
    at hlibraries hother ⊢
  -- nothing that comes later touches them
  refine ⟨fun e he => ?_, fun l hl => ?_⟩
  · have hn : e.1 ∉ LibraryFunction.tables.map (·.1) ∧ e.1 ≠ "package" := by
      have : ∀ e ∈ LibraryFunction.globals,
          e.1 ∉ LibraryFunction.tables.map (·.1) ∧ e.1 ≠ "package" := by decide
      exact this e he
    have hg₃ := Nat.lt_of_lt_of_le hg₂ (hother hn.1).tables
    have hlast : Spares globals e.1 h₃ (addMetatables r globals loaded h₃) :=
      spares_addMetatables r hg₃ (.inr (Ne.symm hn.2)) (Ne.symm hne)
    exact ((hloaded e.1).trans ((hother hn.1).trans hlast)).hasMethod (hfunctions e he)
  · have hn : l.1 ≠ "package" := by
      have : ∀ l ∈ LibraryFunction.tables, l.1 ≠ "package" := by decide
      exact this l hl
    obtain ⟨t, hfield, hgt, hlt, ht, hm⟩ := hlibraries l (.inl hl)
    have hnamed : Spares globals l.1 h₃ (addMetatables r globals loaded h₃) :=
      spares_addMetatables r (Nat.lt_trans hgt ht) (.inr (Ne.symm hn)) (Ne.symm hne)
    have hfilled (name : String) : Spares t name h₃ (addMetatables r globals loaded h₃) :=
      spares_addMetatables r ht (.inl (TableRef.ne_of_lt hgt)) (TableRef.ne_of_lt hlt)
    exact ⟨t, hnamed.field.trans hfield, hgt, Nat.lt_of_lt_of_le ht (hfilled "").tables,
      fun e he => (hfilled e.1).hasMethod (hm e he)⟩

end Heap
end Guest
end ScriptShell
