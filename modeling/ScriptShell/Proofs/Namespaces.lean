import ScriptShell.Proofs.CapabilityContents

/-! # The name of the capability table

The capability table of a new session becomes a global variable under the name that the
configuration gives, and right after that an empty table becomes the global variable `share`.  A
configuration may ask for `share` as the name, and then the second table takes the place of the
first.  No global variable had the capability table before it got its name (`Heap.Misses`), so with
this one name, and with no other, the guest has no way to it (`World.capability_table_named`).
-/

namespace ScriptShell

open Guest

namespace Guest.Heap

variable {h h' : Heap} {g t u : TableRef}

/-- A table that exists has another table under no name. -/
structure Misses (h : Heap) (g t : TableRef) : Prop where
  /-- It exists. -/
  lt : g.id < h.tables.size
  /-- No field has the other table. -/
  field : ∀ name, h.field g name ≠ .table t

/-- A table that was built has none of the tables that come later. -/
theorem Built.misses {base : Heap} (hb : Built base h) (hg : IsNew base h (.table g))
    (ht : h.tables.size ≤ t.id) : h.Misses g t where
  lt := hg.table_lt
  field name hfield := by
    have hslot : (h.table g).get (.text name) = .table t := hfield
    obtain ⟨-, hnew⟩ := hb.slot g hg.1 (.text name)
      (fun hnil => Value.noConfusion (hslot.symm.trans hnil))
    rw [hslot] at hnew
    exact Nat.lt_irrefl _ (Nat.lt_of_lt_of_le hnew.table_lt ht)

namespace Misses

theorem keeps (hm : h.Misses g t) (k : h.Keeps h') : h'.Misses g t where
  lt := Nat.lt_of_lt_of_le hm.lt k.tables.size
  field name := by
    rw [Heap.field, k.table hm.lt]
    exact hm.field name

/-- Fields may be set, of other tables or to other values. -/
theorem setField (hm : h.Misses g t) {v : Value} (hv : u ≠ g ∨ v ≠ .table t) (name : String) :
    (h.setField u name v).Misses g t where
  lt := by
    rw [size_setField]
    exact hm.lt
  field name' := by
    by_cases hu : u = g
    · subst hu
      rw [field_setField h hm.lt]
      split
      · exact hv.resolve_left fun hne => hne rfl
      · exact hm.field name'
    · rw [field_setField_of_table_ne hu]
      exact hm.field name'

theorem putCode (hm : h.Misses g t) (r : RuntimeRef) (u : TableRef) (name : String) (code : Code) :
    (ScriptShell.putCode r u name code h).Misses g t :=
  (hm.keeps ((Keeps.refl h).addFunction _)).setField (.inr Value.noConfusion) name

theorem addPropertyTable (hm : h.Misses g t) (r : RuntimeRef) (p : PropertyTable) :
    (ScriptShell.addPropertyTable r p h).2.Misses g t :=
  hm.keeps ((Builds.refl (.refl h)).addPropertyTable r p).1.built.keeps

theorem putFunctions (hm : h.Misses g t) (r : RuntimeRef) (globals u : TableRef)
    (functions : TextMap HostFunction) :
    (Session.putFunctions r globals u functions h).Misses g t := by
  rw [Session.putFunctions]
  generalize functions.entries = entries
  induction entries generalizing h with
  | nil => exact hm
  | cons e entries ih =>
    have hadd := hm.keeps ((Keeps.refl h).addFunction ⟨r, .host e.2⟩)
    refine ih ?_
    dsimp only
    split
    · exact (hadd.setField (.inr Value.noConfusion) _).setField (.inr Value.noConfusion) _
    · exact hadd.setField (.inr Value.noConfusion) _

theorem putLibrary (hm : h.Misses g t) (globals : TableRef) (hu : u ≠ g) :
    (Session.putLibrary globals u h).Misses g t := by
  unfold Session.putLibrary
  dsimp only
  split
  · exact ((hm.setField (.inl hu) _).setField (.inl hu) _).setField (.inl hu) _
  · exact hm.setField (.inl hu) _

theorem putCollections (hm : h.Misses g t) (r : RuntimeRef) (hu : u ≠ g)
    (kinds : List CollectionKind) : (Session.putCollections r u kinds h).Misses g t := by
  rw [Session.putCollections]
  induction kinds generalizing h with
  | nil => exact hm
  | cons kind kinds ih =>
    have hput := (hm.addPropertyTable r (.collection kind)).setField (.inl hu) kind.field
      (v := .table (ScriptShell.addPropertyTable r (.collection kind) h).1)
    refine ih ?_
    dsimp only
    split
    · exact (hput.putCode r u _ _).putCode r u _ _
    · exact hput

theorem putKeys (hm : h.Misses g t) (r : RuntimeRef) (hu : u ≠ g) (hooks : RegistryRef) :
    (Session.putKeys r u hooks h).Misses g t :=
  ((hm.addPropertyTable r (.keys hooks)).setField (.inl hu) "key").putCode r u _ _

/-- Building a capability table puts no tables into the tables that were there before. -/
theorem addCapabilities (hm : h.Misses g t) (r : RuntimeRef) (runtime : Runtime)
    (capabilities : Capabilities) (hooks : RegistryRef) (path? : Option String) :
    (Session.addCapabilities r runtime capabilities hooks path? h).2.Misses g t := by
  have hown := hm.addPropertyTable r (.capabilities capabilities.scalars hooks)
  have hu : (ScriptShell.addPropertyTable r (.capabilities capabilities.scalars hooks) h).1 ≠ g :=
    TableRef.ne_of_gt (isPart_addPropertyTable hm.lt r _).behind
  rw [addCapabilities_eq]
  dsimp only
  generalize (ScriptShell.addPropertyTable r (.capabilities capabilities.scalars hooks) h).1 = u
    at hu ⊢
  have hcollections := ((hown.putFunctions r runtime.globals u capabilities.functions).putLibrary
    runtime.globals hu).putCollections r hu capabilities.collections
  rw [putKeysAndTexts]
  refine Misses.setField (Misses.setField ?_ (.inl hu) _) (.inl hu) _
  split
  · exact hcollections.putKeys r hu hooks
  · exact hcollections

end Misses
end Guest.Heap

namespace World

variable (w : World) (shell : ShellRef) (capabilities : Capabilities) (config : Config)

/-- A new runtime knows nothing of the table that comes next. -/
theorem misses_addRuntime :
    (Guest.addRuntime ⟨w.runtimes.size⟩ w.heap).2.Misses w.nextRuntime.globals
      (w.nextCapabilities capabilities).1 := by
  obtain ⟨b, hg⟩ := w.builds_addRuntime
  refine b.built.misses hg (Nat.le_of_eq ?_)
  rw [nextCapabilities, fst_addCapabilities]

/-- With the name `share` no global variable has the capability table. -/
theorem globals_of_share (hname : config.namespaceName = "share") (k : Key) :
    ((w.placeSession shell capabilities config).2.heap.table w.nextRuntime.globals).get k ≠
      .table (w.nextCapabilities capabilities).1 := by
  intro hk
  obtain ⟨-, hg⟩ := w.builds_addRuntime
  obtain ⟨⟨name, rfl⟩, -⟩ := (w.built_placeSession shell capabilities config).slot
    w.nextRuntime.globals hg.1 k (fun hnil => Value.noConfusion (hk.symm.trans hnil))
  -- none had it before both tables got their name, and then the second one has it
  have hmisses : (w.nextCapabilities capabilities).2.Misses w.nextRuntime.globals
      (w.nextCapabilities capabilities).1 :=
    (w.misses_addRuntime capabilities).addCapabilities _ _ _ _ _
  have hnext : Session.addCapabilities ⟨w.runtimes.size⟩ w.nextRuntime capabilities
    w.addRegistry.1 w.executable? (Guest.addRuntime ⟨w.runtimes.size⟩ w.heap).2 =
      w.nextCapabilities capabilities := rfl
  have hplaced : (w.placeSession shell capabilities config).2.heap.field w.nextRuntime.globals
      name = .table (w.nextCapabilities capabilities).1 := hk
  have hlt := (w.fills_placeSession shell capabilities config).lt
  rw [heap_placeSession, Session.install, hname] at hplaced
  dsimp only at hplaced
  rw [hnext] at hplaced
  generalize w.nextCapabilities capabilities = p at hmisses hplaced hlt
  have hlt' : p.1.id < (p.2.setField w.nextRuntime.globals "share" (.table p.1)).tables.size := by
    rwa [Heap.size_setField]
  have hg' : w.nextRuntime.globals.id <
      (p.2.setField w.nextRuntime.globals "share" (.table p.1)).tables.size := by
    rw [Heap.size_setField]
    exact hmisses.lt
  have hkeeps := (Heap.Keeps.refl
    (p.2.setField w.nextRuntime.globals "share" (.table p.1))).addTable {}
  by_cases hn : name = "share"
  · rw [hn, Heap.field_setField _ (Nat.lt_of_lt_of_le hg' hkeeps.tables.size),
      if_pos ⟨rfl, rfl⟩] at hplaced
    exact TableRef.ne_of_gt hlt' (Value.table.inj hplaced)
  · rw [Heap.field_setField_of_ne _ _ (Ne.symm hn), Heap.field, hkeeps.table hg', ← Heap.field,
      Heap.field_setField_of_ne _ _ (Ne.symm hn)] at hplaced
    exact hmisses.field name hplaced

/-- **The name of the capability table.**  A session whose capabilities are valid can be added.  It
has a capability table with all that they provide, and another table, a plain and empty one, as the
global variable `share`.  Whatever the configuration gives as the name of the capability table, the
guest finds it there, unless that name is `share`: then no global variable has it. -/
theorem capability_table_named (hvalid : capabilities.validate = .ok ()) :
    ∃ session new, ∃ t share : TableRef,
      w.addSession shell capabilities config = .ok (session, new) ∧
      new.heap.IsCapabilityTable t capabilities (new.session session).hooks ∧
      (∀ name content,
        capabilities.Provides (new.session session).hooks w.executable? name content →
          new.heap.Holds t name content) ∧
      new.heap.field (new.globals session) "share" = .table share ∧
      new.heap.table share = {} ∧ share ≠ t ∧
      (config.namespaceName ≠ "share" →
        new.heap.field (new.globals session) config.namespaceName = .table t) ∧
      (config.namespaceName = "share" →
        ∀ k, (new.heap.table (new.globals session)).get k ≠ .table t) := by
  have hadd : w.addSession shell capabilities config =
      .ok (w.placeSession shell capabilities config) := by
    rw [addSession, hvalid]
  obtain ⟨-, htable, -, hfield⟩ := w.nextCapabilities_placeSession shell capabilities config
  have hholds := w.holds_placeSession shell config hvalid
  obtain ⟨-, share, -, -, -, hempty, hshare, -⟩ := w.own_placeSession shell capabilities config
  have hhidden := w.globals_of_share shell capabilities config
  have hsession := w.session_placeSession shell capabilities config
  have hruntime := w.runtime_placeSession shell capabilities config
  generalize w.placeSession shell capabilities config = placed
    at hadd htable hfield hholds hempty hshare hhidden hsession hruntime
  obtain ⟨session, new⟩ := placed
  refine ⟨session, new, (w.nextCapabilities capabilities).1, share, hadd, ?_⟩
  rw [globals, hsession, hruntime]
  refine ⟨htable, hholds, hshare, hempty, fun he => ?_, hfield, hhidden⟩
  -- the capability table has a metatable
  obtain ⟨m, -, -, hm, -⟩ := htable.offers
  rw [← he, hempty] at hm
  cases hm

/-- A valid configuration may ask for `share`, and then `share.version` is `nil`. -/
theorem version_hidden : Config.validate { namespaceName := "share" } = .ok () ∧
    ∃ session new, ∃ t share : TableRef,
      addSession {} ⟨0⟩ {} { namespaceName := "share" } = .ok (session, new) ∧
      new.heap.field t "version" = .text Session.version ∧
      new.heap.field (new.globals session) "share" = .table share ∧
      new.heap.field share "version" = .nil ∧
      ∀ k, (new.heap.table (new.globals session)).get k ≠ .table t := by
  refine ⟨rfl, ?_⟩
  obtain ⟨session, new, t, share, hadd, -, hholds, hshare, hempty, -, -, hhidden⟩ :=
    capability_table_named {} ⟨0⟩ {} { namespaceName := "share" } rfl
  refine ⟨session, new, t, share, hadd, hholds _ _ .version, hshare, ?_, hhidden rfl⟩
  rw [Heap.field, hempty]
  rfl

end World
end ScriptShell
