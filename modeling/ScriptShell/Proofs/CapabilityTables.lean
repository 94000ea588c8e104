import ScriptShell.Proofs.NewSessions

/-! # The capability table of a new session

A new session gets a capability table of its own, with a table for each of its collections and one
for the keys.  All of these lead to what belongs to the shell through the functions of their
metatables (`Heap.Offers`), and the parts hold nothing by themselves (`Heap.IsPart`).  What is built
later fills only the capability table and what is in front of it (`Heap.Fills`), so the parts stay
as they were when they were made (`World.capabilities_placeSession`).
-/

namespace ScriptShell

open Guest

namespace Guest.Heap

variable {h h' h'' : Heap} {t u m c : TableRef} {name : String} {code : Code}
  {p : PropertyTable} {r : RuntimeRef}

/-! ## Ways into property tables -/

/-- A table has a function with some code, under a name. -/
def HasMethod (h : Heap) (m : TableRef) (name : String) (code : Code) : Prop :=
  ∃ f r, h.field m name = .func f ∧ h.function? f = some ⟨r, code⟩

/-- The functions of a metatable read and write properties, and give the length of those that have
one. -/
structure LeadsTo (h : Heap) (m : TableRef) (p : PropertyTable) : Prop where
  /-- Reads go to the properties. -/
  index : h.HasMethod m "__index" (.propertyGet p)
  /-- So do writes. -/
  newindex : h.HasMethod m "__newindex" (.propertySet p)
  /-- So does the length. -/
  length : p.answersLength = true → h.HasMethod m "__len" (.propertyLength p)

/-- Guests reach properties through a table, by a metatable behind it. -/
def Offers (h : Heap) (t : TableRef) (p : PropertyTable) : Prop :=
  ∃ m : TableRef, t.id < m.id ∧ m.id < h.tables.size ∧ (h.table t).metatable? = some m ∧
    h.LeadsTo m p

/-- A table behind another one holds nothing by itself, and guests reach properties through it. -/
structure IsPart (h : Heap) (t c : TableRef) (p : PropertyTable) : Prop where
  /-- It comes later. -/
  behind : t.id < c.id
  /-- It exists. -/
  lt : c.id < h.tables.size
  /-- It is empty. -/
  empty : ∀ k, (h.table c).get k = .nil
  /-- It leads to the properties. -/
  offers : h.Offers c p

/-- What a metatable has stays there while tables are only added to. -/
theorem HasMethod.mono (hh : h.HasMethod m name code)
    (hslot : ∀ k, (h.table m).get k ≠ .nil → (h'.table m).get k = (h.table m).get k)
    (hf : StartsWith h.functions h'.functions) : h'.HasMethod m name code := by
  obtain ⟨f, r, hfield, hfun⟩ := hh
  have hlt : f.id < h.functions.size := (Array.getElem?_eq_some_iff.1 hfun).1
  refine ⟨f, r, ?_, ?_⟩
  · rw [field, hslot _ (by rw [← field, hfield]; exact Value.noConfusion)]
    exact hfield
  · rw [function?, hf.get _ hlt]
    exact hfun

theorem LeadsTo.mono (hl : h.LeadsTo m p)
    (hslot : ∀ k, (h.table m).get k ≠ .nil → (h'.table m).get k = (h.table m).get k)
    (hf : StartsWith h.functions h'.functions) : h'.LeadsTo m p :=
  ⟨hl.index.mono hslot hf, hl.newindex.mono hslot hf, fun hp => (hl.length hp).mono hslot hf⟩

/-- So does the way from a table through its metatable. -/
theorem Offers.mono (ho : h.Offers t p) (hsize : h.tables.size ≤ h'.tables.size)
    (hmeta : (h'.table t).metatable? = (h.table t).metatable?)
    (hslot : ∀ m, (h.table t).metatable? = some m → ∀ k, (h.table m).get k ≠ .nil →
      (h'.table m).get k = (h.table m).get k)
    (hf : StartsWith h.functions h'.functions) : h'.Offers t p := by
  obtain ⟨m, hm, hlt, hthis, hl⟩ := ho
  exact ⟨m, hm, Nat.lt_of_lt_of_le hlt hsize, hmeta.trans hthis, hl.mono (hslot m hthis) hf⟩

/-- A table is in front of its metatable, which stays as it is when a field of the table is set. -/
theorem Offers.setSlot (ho : h.Offers t p) (key : Key) (v : Value) :
    (h.setSlot t key v).Offers t p := by
  obtain ⟨m, hm, hlt, hthis, hl⟩ := ho
  -- a table that is its own metatable could lose its functions to such a field
  have hne : t ≠ m := fun he => Nat.lt_irrefl m.id (he ▸ hm)
  refine Offers.mono ⟨m, hm, hlt, hthis, hl⟩ (Nat.le_of_eq (size_modifyTable ..).symm)
    (metatable_setSlot ..) (fun m' hm' k _ => ?_) (.refl _)
  rw [hthis] at hm'
  cases hm'
  rw [get_setSlot h (Nat.lt_trans hm hlt), if_neg fun he => hne he.1]

/-! ## One table while other things happen -/

/-- A stretch that leaves a table as it is, and the way through its metatable. -/
structure KeepsTable (t : TableRef) (h h' : Heap) : Prop where
  /-- No table goes away. -/
  tables : h.tables.size ≤ h'.tables.size
  /-- Functions stay what they are. -/
  functions : StartsWith h.functions h'.functions
  /-- The table keeps its fields. -/
  fields : ∀ key, (h'.table t).get key = (h.table t).get key
  /-- It keeps its metatable. -/
  metatable : (h'.table t).metatable? = (h.table t).metatable?
  /-- The metatable keeps what it has. -/
  methods : ∀ m, (h.table t).metatable? = some m → ∀ key, (h.table m).get key ≠ .nil →
    (h'.table m).get key = (h.table m).get key

theorem KeepsTable.offers (hk : KeepsTable t h h') (ho : h.Offers t p) : h'.Offers t p :=
  ho.mono hk.tables hk.metatable hk.methods hk.functions

theorem KeepsTable.of_keeps (hk : h.Keeps h') (ho : h.Offers t p) : KeepsTable t h h' := by
  obtain ⟨m, hm, hlt, hmeta, -⟩ := ho
  have ht : h'.table t = h.table t := hk.table (Nat.lt_trans hm hlt)
  refine ⟨hk.tables.size, hk.functions, fun key => by rw [ht], by rw [ht], fun m' hm' key _ => ?_⟩
  rw [hmeta] at hm'
  cases hm'
  rw [hk.table hlt]

/-! ## Making one -/

theorem size_putCode (r : RuntimeRef) (m : TableRef) (name : String) (code : Code) (h : Heap) :
    (putCode r m name code h).tables.size = h.tables.size := size_modifyTable ..

theorem table_putCode_of_ne (hne : t ≠ m) (r : RuntimeRef) (name : String) (code : Code)
    (h : Heap) : (putCode r m name code h).table t = h.table t := by
  show ((h.addFunction ⟨r, code⟩).2.modifyTable m _).table t = _
  rw [table_modifyTable, if_neg fun he => hne he.1.symm]
  rfl

theorem functions_putCode (r : RuntimeRef) (m : TableRef) (name : String) (code : Code) (h : Heap) :
    StartsWith h.functions (putCode r m name code h).functions :=
  (StartsWith.refl _).push _

theorem field_putCode_of_ne {name' : String} (hne : name' ≠ name) (r : RuntimeRef) (code : Code)
    (m t : TableRef) (h : Heap) : (putCode r m name' code h).field t name = h.field t name :=
  field_setField_of_ne _ m hne _ t

theorem hasMethod_putCode (hm : m.id < h.tables.size) (r : RuntimeRef) (name : String)
    (code : Code) : (putCode r m name code h).HasMethod m name code := by
  refine ⟨⟨h.functions.size⟩, r, ?_, Array.getElem?_push_size⟩
  exact (field_setField (h.addFunction ⟨r, code⟩).2 hm name _ m name).trans (if_pos ⟨rfl, rfl⟩)

theorem HasMethod.putCode (hh : h.HasMethod m name code) {name' : String} (hne : name' ≠ name)
    (r : RuntimeRef) (code' : Code) :
    (ScriptShell.putCode r m name' code' h).HasMethod m name code := by
  obtain ⟨f, r', hfield, hfun⟩ := hh
  have hlt : f.id < h.functions.size := (Array.getElem?_eq_some_iff.1 hfun).1
  refine ⟨f, r', (field_putCode_of_ne hne ..).trans hfield, ?_⟩
  rw [function?, (functions_putCode r m name' code' h).get _ hlt]
  exact hfun

/-- Puts the functions into the metatable of a property table. -/
def putMethods (r : RuntimeRef) (m : TableRef) (p : PropertyTable) (h : Heap) : Heap :=
  let h := putCode r m "__index" (.propertyGet p) h
  let h := putCode r m "__newindex" (.propertySet p) h
  if p.answersLength then putCode r m "__len" (.propertyLength p) h else h

theorem addPropertyTable_eq (r : RuntimeRef) (p : PropertyTable) (h : Heap) :
    addPropertyTable r p h = ((h.addTable {}).1,
      (putMethods r ((h.addTable {}).2.addTable {}).1 p
        ((h.addTable {}).2.addTable {}).2).setMetatable (h.addTable {}).1
          (some ((h.addTable {}).2.addTable {}).1)) := rfl

theorem size_putMethods (r : RuntimeRef) (m : TableRef) (p : PropertyTable) (h : Heap) :
    (putMethods r m p h).tables.size = h.tables.size := by
  unfold putMethods
  dsimp only
  split
  · rw [size_putCode, size_putCode, size_putCode]
  · rw [size_putCode, size_putCode]

theorem table_putMethods_of_ne (hne : t ≠ m) (r : RuntimeRef) (p : PropertyTable) (h : Heap) :
    (putMethods r m p h).table t = h.table t := by
  unfold putMethods
  dsimp only
  split
  · rw [table_putCode_of_ne hne, table_putCode_of_ne hne, table_putCode_of_ne hne]
  · rw [table_putCode_of_ne hne, table_putCode_of_ne hne]

theorem leadsTo_putMethods (hm : m.id < h.tables.size) (r : RuntimeRef) (p : PropertyTable) :
    (putMethods r m p h).LeadsTo m p := by
  have hindex : (putCode r m "__newindex" (.propertySet p)
      (putCode r m "__index" (.propertyGet p) h)).HasMethod m "__index" (.propertyGet p) :=
    (hasMethod_putCode hm r _ _).putCode (by decide) r _
  have hnewindex : (putCode r m "__newindex" (.propertySet p)
      (putCode r m "__index" (.propertyGet p) h)).HasMethod m "__newindex" (.propertySet p) :=
    hasMethod_putCode (by rwa [size_putCode]) r _ _
  unfold putMethods
  dsimp only
  split
  · refine ⟨hindex.putCode (by decide) r _, hnewindex.putCode (by decide) r _, fun _ => ?_⟩
    exact hasMethod_putCode (by rwa [size_putCode, size_putCode]) r _ _
  · next hp => exact ⟨hindex, hnewindex, fun hlen => absurd hlen hp⟩

theorem lt_addTable (h : Heap) : (h.addTable {}).1.id < (h.addTable {}).2.tables.size := by
  simp [addTable]

theorem get_addTable (h : Heap) (k : Key) :
    ((h.addTable {}).2.table (h.addTable {}).1).get k = .nil := by
  rw [table_addTable]
  exact congrArg (Table.get · k) (if_pos rfl)

/-- A new property table is empty and leads to its properties. -/
theorem isPart_addPropertyTable (ht : t.id < h.tables.size) (r : RuntimeRef) (p : PropertyTable) :
    (addPropertyTable r p h).2.IsPart t (addPropertyTable r p h).1 p := by
  rw [addPropertyTable_eq]
  -- two new tables, the second of which becomes the metatable of the first
  have hc := lt_addTable h
  have hempty := get_addTable h
  have hbehind : t.id < (h.addTable {}).1.id := ht
  generalize (h.addTable {}).1 = c at hc hempty hbehind ⊢
  generalize (h.addTable {}).2 = h₁ at hc hempty ⊢
  have hm := lt_addTable h₁
  have hcm : c.id < (h₁.addTable {}).1.id := hc
  have hempty₂ (k : Key) : ((h₁.addTable {}).2.table c).get k = .nil := by
    rw [table_addTable, if_neg (Nat.ne_of_lt hc), hempty]
  generalize (h₁.addTable {}).1 = m at hm hcm ⊢
  generalize (h₁.addTable {}).2 = h₂ at hm hempty₂ ⊢
  have hne : c ≠ m := fun he => Nat.lt_irrefl m.id (he ▸ hcm)
  have hsize : ((putMethods r m p h₂).setMetatable c (some m)).tables.size = h₂.tables.size :=
    (size_modifyTable ..).trans (size_putMethods ..)
  have hclt : c.id < h₂.tables.size := Nat.lt_trans hcm hm
  refine ⟨hbehind, ?_, fun k => ?_, m, hcm, ?_, ?_, ?_⟩
  · rw [hsize]
    exact hclt
  · rw [get_setMetatable, table_putMethods_of_ne hne, hempty₂]
  · rw [hsize]
    exact hm
  · rw [metatable_setMetatable _ (by rwa [size_putMethods]), if_pos rfl]
  · exact (leadsTo_putMethods hm r p).mono (fun k _ => get_setMetatable ..) (.refl _)

/-! ## What is filled later -/

/-- Only a table and what is in front of it is filled, and its metatable stays. -/
structure Fills (t : TableRef) (h h' : Heap) : Prop where
  /-- It exists. -/
  lt : t.id < h.tables.size
  /-- No table goes away. -/
  size : h.tables.size ≤ h'.tables.size
  /-- The tables behind it stay as they were. -/
  behind : ∀ u : TableRef, t.id < u.id → u.id < h.tables.size → h'.table u = h.table u
  /-- So does its metatable. -/
  metatable : (h'.table t).metatable? = (h.table t).metatable?
  /-- So do the functions. -/
  functions : StartsWith h.functions h'.functions

namespace Fills

theorem refl (ht : t.id < h.tables.size) : Fills t h h :=
  ⟨ht, Nat.le_refl _, fun _ _ _ => rfl, rfl, .refl _⟩

theorem trans (k : Fills t h h') (k' : Fills t h' h'') : Fills t h h'' :=
  ⟨k.lt, Nat.le_trans k.size k'.size,
    fun u hu hlt => (k'.behind u hu (Nat.lt_of_lt_of_le hlt k.size)).trans (k.behind u hu hlt),
    k'.metatable.trans k.metatable, k.functions.trans k'.functions⟩

theorem next_lt (k : Fills t h h') : t.id < h'.tables.size := Nat.lt_of_lt_of_le k.lt k.size

theorem of_keeps (ht : t.id < h.tables.size) (k : h.Keeps h') : Fills t h h' :=
  ⟨ht, k.tables.size, fun _ _ hlt => k.table hlt, by rw [k.table ht], k.functions⟩

theorem setField (ht : t.id < h.tables.size) (hu : u.id ≤ t.id) (name : String) (v : Value) :
    Fills t h (h.setField u name v) := by
  refine ⟨ht, Nat.le_of_eq (size_modifyTable ..).symm, fun x hx _ => ?_, metatable_setSlot ..,
    .refl _⟩
  rw [Heap.setField, Heap.setSlot, table_modifyTable, if_neg]
  rintro ⟨rfl, -⟩
  omega

theorem putCode (ht : t.id < h.tables.size) (hu : u.id ≤ t.id) (r : RuntimeRef) (name : String)
    (code : Code) : Fills t h (ScriptShell.putCode r u name code h) := by
  have hadd : Fills t h (h.addFunction ⟨r, code⟩).2 :=
    of_keeps ht ((Keeps.refl h).addFunction _)
  exact hadd.trans (setField hadd.next_lt hu name _)

theorem addPropertyTable (ht : t.id < h.tables.size) (r : RuntimeRef) (p : PropertyTable) :
    Fills t h (ScriptShell.addPropertyTable r p h).2 :=
  of_keeps ht ((Builds.refl (.refl h)).addPropertyTable r p).1.built.keeps

theorem foldl {α : Type} {f : Heap → α → Heap}
    (hf : ∀ h a, t.id < h.tables.size → Fills t h (f h a)) (as : List α) :
    ∀ h, t.id < h.tables.size → Fills t h (as.foldl f h) := by
  induction as with
  | nil => exact fun h ht => .refl ht
  | cons a as ih => exact fun h ht => (hf h a ht).trans (ih _ (hf h a ht).next_lt)

theorem putFunctions (ht : t.id < h.tables.size) (hg : globals.id ≤ t.id) (r : RuntimeRef)
    (functions : TextMap HostFunction) :
    Fills t h (Session.putFunctions r globals t functions h) := by
  refine foldl (fun h e ht => ?_) functions.entries h ht
  have hadd : Fills t h (h.addFunction ⟨r, .host e.2⟩).2 :=
    of_keeps ht ((Keeps.refl h).addFunction _)
  dsimp only
  split
  · have hprint := hadd.trans (setField hadd.next_lt hg "print" (.func ⟨h.functions.size⟩))
    exact hprint.trans (setField hprint.next_lt (Nat.le_refl _) e.1 _)
  · exact hadd.trans (setField hadd.next_lt (Nat.le_refl _) e.1 _)

theorem putLibrary (ht : t.id < h.tables.size) (globals : TableRef) :
    Fills t h (Session.putLibrary globals t h) := by
  unfold Session.putLibrary
  dsimp only
  split
  · next io hio =>
    have hlines := setField ht (Nat.le_refl _) "lines" (h.field io "lines")
    have hopen := hlines.trans (setField hlines.next_lt (Nat.le_refl _) "open" (h.field io "open"))
    exact hopen.trans (setField hopen.next_lt (Nat.le_refl _) "loadfile" _)
  · exact setField ht (Nat.le_refl _) "loadfile" _

theorem offers (k : Fills t h h') (hle : t.id ≤ c.id) (hlt : c.id < h.tables.size)
    (hc : h.Offers c p) : h'.Offers c p := by
  obtain ⟨m, hm, hmlt, hmeta, hl⟩ := hc
  refine ⟨m, hm, Nat.lt_of_lt_of_le hmlt k.size, ?_,
    hl.mono (fun key _ => by rw [k.behind m (Nat.lt_of_le_of_lt hle hm) hmlt]) k.functions⟩
  rcases Nat.eq_or_lt_of_le hle with he | hbehind
  · rw [← TableRef.ext he, k.metatable, TableRef.ext he, hmeta]
  · rw [k.behind c hbehind hlt, hmeta]

theorem part (k : Fills t h h') (hc : h.IsPart t c p) : h'.IsPart t c p where
  behind := hc.behind
  lt := Nat.lt_of_lt_of_le hc.lt k.size
  empty key := by rw [k.behind c hc.behind hc.lt, hc.empty]
  offers := k.offers (Nat.le_of_lt hc.behind) hc.lt hc.offers

end Fills

/-! ## Collections and keys -/

/-- Under a name a table has a part that leads to some properties. -/
def HasPart (h : Heap) (t : TableRef) (name : String) (p : PropertyTable) : Prop :=
  ∃ c, h.field t name = .table c ∧ h.IsPart t c p

/-- A part stays where it is while other fields are set. -/
theorem HasPart.mono (hp : h.HasPart t name p) (k : Fills t h h')
    (hfield : h'.field t name = h.field t name) : h'.HasPart t name p := by
  obtain ⟨c, hc, hpart⟩ := hp
  exact ⟨c, hfield.trans hc, k.part hpart⟩

/-- A property table is put into another one. -/
theorem hasPart_addPropertyTable (ht : t.id < h.tables.size) (r : RuntimeRef) (p : PropertyTable)
    (name : String) :
    ((addPropertyTable r p h).2.setField t name
      (.table (addPropertyTable r p h).1)).HasPart t name p := by
  have hadd := Fills.addPropertyTable ht r p
  refine ⟨_, ?_, (Fills.setField hadd.next_lt (Nat.le_refl _) name _).part
    (isPart_addPropertyTable ht r p)⟩
  rw [field_setField _ hadd.next_lt, if_pos ⟨rfl, rfl⟩]

theorem field_addPropertyTable (ht : t.id < h.tables.size) (r : RuntimeRef) (p : PropertyTable)
    (name : String) : (addPropertyTable r p h).2.field t name = h.field t name := by
  have hkeeps := ((Builds.refl (.refl h)).addPropertyTable r p).1.built.keeps
  rw [field, hkeeps.table ht, field]

theorem field_injective {kind kind' : CollectionKind} (h : kind.field = kind'.field) :
    kind = kind' := by
  cases kind <;> cases kind' <;> first | rfl | exact absurd h (by decide)

/-- The fields of the capability table that are no collections. -/
theorem ne_field_of_mem {kind : CollectionKind} {name : String}
    (hn : name ∈ ["getalias", "setalias", "key", "bindkey", "version", "exe"]) :
    name ≠ kind.field := by
  rintro rfl
  cases kind <;> exact absurd hn (by decide)

/-- One collection becomes a part, and the parts for others stay. -/
theorem hasPart_putCollection (ht : t.id < h.tables.size) (r : RuntimeRef) (kind : CollectionKind) :
    Fills t h (Session.putCollections r t [kind] h) ∧
      (Session.putCollections r t [kind] h).HasPart t kind.field (.collection kind) ∧
      ∀ name, name ≠ kind.field → name ≠ "getalias" → name ≠ "setalias" →
        (Session.putCollections r t [kind] h).field t name = h.field t name := by
  have hadd := Fills.addPropertyTable ht r (.collection kind)
  have hput := hadd.trans (Fills.setField hadd.next_lt (Nat.le_refl _) kind.field
    (.table (addPropertyTable r (.collection kind) h).1))
  have hpart := hasPart_addPropertyTable ht r (.collection kind) kind.field
  have hfield (name : String) (hne : name ≠ kind.field) :
      ((addPropertyTable r (.collection kind) h).2.setField t kind.field
        (.table (addPropertyTable r (.collection kind) h).1)).field t name = h.field t name := by
    rw [field_setField_of_ne _ _ (Ne.symm hne), field_addPropertyTable ht]
  unfold Session.putCollections
  rw [List.foldl_cons, List.foldl_nil]
  dsimp only
  split
  · -- the functions for aliases come last
    have hget := Fills.putCode hput.next_lt (Nat.le_refl _) r "getalias" .getAlias
    have hset := Fills.putCode hget.next_lt (Nat.le_refl _) r "setalias" .setAlias
    refine ⟨hput.trans (hget.trans hset), hpart.mono (hget.trans hset) ?_, fun name hne hg hs => ?_⟩
    · rw [field_putCode_of_ne (ne_field_of_mem (by decide)),
        field_putCode_of_ne (ne_field_of_mem (by decide))]
    · rw [field_putCode_of_ne (Ne.symm hs), field_putCode_of_ne (Ne.symm hg), hfield name hne]
  · exact ⟨hput, hpart, fun name hne _ _ => hfield name hne⟩

/-- Each collection becomes a part. -/
theorem hasPart_putCollections (r : RuntimeRef) (kinds : List CollectionKind) :
    ∀ h : Heap, t.id < h.tables.size → Fills t h (Session.putCollections r t kinds h) ∧
      ∀ kind, kind ∈ kinds ∨ h.HasPart t kind.field (.collection kind) →
        (Session.putCollections r t kinds h).HasPart t kind.field (.collection kind) := by
  induction kinds with
  | nil => exact fun h ht => ⟨.refl ht, fun kind hk => hk.resolve_left List.not_mem_nil⟩
  | cons k kinds ih =>
    intro h ht
    obtain ⟨hfills, hpart, hfield⟩ := hasPart_putCollection ht r k
    obtain ⟨hrest, hparts⟩ := ih _ hfills.next_lt
    refine ⟨hfills.trans hrest, fun kind hk => hparts kind ?_⟩
    by_cases he : kind = k
    · rw [he]
      exact .inr hpart
    · refine (hk.imp (fun hm => (List.mem_cons.1 hm).resolve_left he) fun hold => ?_)
      exact hold.mono hfills (hfield _ (he ∘ field_injective)
        (Ne.symm (ne_field_of_mem (by decide))) (Ne.symm (ne_field_of_mem (by decide))))

/-- The keys become a part. -/
theorem hasPart_putKeys (ht : t.id < h.tables.size) (r : RuntimeRef) (hooks : RegistryRef) :
    Fills t h (Session.putKeys r t hooks h) ∧
      (Session.putKeys r t hooks h).HasPart t "key" (.keys hooks) ∧
      ∀ name, name ≠ "key" → name ≠ "bindkey" →
        (Session.putKeys r t hooks h).field t name = h.field t name := by
  have hadd := Fills.addPropertyTable ht r (.keys hooks)
  have hput := hadd.trans (Fills.setField hadd.next_lt (Nat.le_refl _) "key"
    (.table (addPropertyTable r (.keys hooks) h).1))
  have hbind := Fills.putCode hput.next_lt (Nat.le_refl _) r "bindkey" (.bindKey hooks)
  refine ⟨hput.trans hbind, ?_, fun name hk hb => ?_⟩
  · refine (hasPart_addPropertyTable ht r (.keys hooks) "key").mono hbind ?_
    exact field_putCode_of_ne (show "bindkey" ≠ "key" by decide) ..
  · unfold Session.putKeys
    dsimp only
    rw [field_putCode_of_ne (Ne.symm hb), field_setField_of_ne _ _ (Ne.symm hk),
      field_addPropertyTable ht]

/-- The capability table leads to the scalar properties and the hooks, and has a part for each
collection and one for the keys. -/
structure IsCapabilityTable (h : Heap) (t : TableRef) (capabilities : Capabilities)
    (hooks : RegistryRef) : Prop where
  /-- The table itself. -/
  offers : h.Offers t (.capabilities capabilities.scalars hooks)
  /-- The collections. -/
  collections : ∀ kind ∈ capabilities.collections, h.HasPart t kind.field (.collection kind)
  /-- The keys. -/
  keys : capabilities.keys = true → h.HasPart t "key" (.keys hooks)

/-- Fields that are no parts may be set. -/
theorem IsCapabilityTable.mono {capabilities : Capabilities} {hooks : RegistryRef}
    (ht : h.IsCapabilityTable t capabilities hooks) (k : Fills t h h')
    (hkinds : ∀ kind : CollectionKind, h'.field t kind.field = h.field t kind.field)
    (hkey : h'.field t "key" = h.field t "key") : h'.IsCapabilityTable t capabilities hooks where
  offers := k.offers (Nat.le_refl _) k.lt ht.offers
  collections kind hm := (ht.collections kind hm).mono k (hkinds kind)
  keys hk := (ht.keys hk).mono k hkey

/-- The capability table is built with all its parts, behind all that was there. -/
theorem isCapabilityTable_addCapabilities (r : RuntimeRef) (runtime : Runtime)
    (capabilities : Capabilities) (hooks : RegistryRef) (path? : Option String)
    (hg : runtime.globals.id < h.tables.size) :
    (Session.addCapabilities r runtime capabilities hooks path? h).2.IsCapabilityTable
      (Session.addCapabilities r runtime capabilities hooks path? h).1 capabilities hooks := by
  have hown := isPart_addPropertyTable hg r (.capabilities capabilities.scalars hooks)
  unfold Session.addCapabilities
  dsimp only
  generalize (addPropertyTable r (.capabilities capabilities.scalars hooks) h).1 = t at hown ⊢
  generalize (addPropertyTable r (.capabilities capabilities.scalars hooks) h).2 = h₁ at hown ⊢
  have k₂ := Fills.putFunctions hown.lt (Nat.le_of_lt hown.behind) r capabilities.functions
  have k₃ := k₂.trans (Fills.putLibrary k₂.next_lt runtime.globals)
  obtain ⟨k₄, hparts⟩ := hasPart_putCollections r capabilities.collections _ k₃.next_lt
  generalize Session.putCollections r t capabilities.collections _ = h₄ at k₄ hparts ⊢
  -- with keys or without them, the texts come last
  have finish {h₅ : Heap} (k₅ : Fills t h₁ h₅)
      (hcollections : ∀ kind ∈ capabilities.collections,
        h₅.HasPart t kind.field (.collection kind))
      (hkeys : capabilities.keys = true → h₅.HasPart t "key" (.keys hooks)) :
      ((h₅.setField t "version" (.text Session.version)).setField t "exe"
        (Session.executable path?)).IsCapabilityTable t capabilities hooks := by
    have hversion := Fills.setField k₅.next_lt (Nat.le_refl _) "version" (.text Session.version)
    have hexe := hversion.trans
      (Fills.setField hversion.next_lt (Nat.le_refl _) "exe" (Session.executable path?))
    refine (IsCapabilityTable.mk (k₅.offers (Nat.le_refl _) hown.lt hown.offers) hcollections
      hkeys).mono hexe (fun kind => ?_) ?_
    · rw [field_setField_of_ne _ _ (ne_field_of_mem (by decide)),
        field_setField_of_ne _ _ (ne_field_of_mem (by decide))]
    · rw [field_setField_of_ne _ _ (by decide), field_setField_of_ne _ _ (by decide)]
  split
  · obtain ⟨k₅, hkey, hfield⟩ := hasPart_putKeys k₄.next_lt r hooks
    refine finish (k₃.trans (k₄.trans k₅)) (fun kind hm => ?_) fun _ => hkey
    exact (hparts kind (.inl hm)).mono k₅ (hfield _ (Ne.symm (ne_field_of_mem (by decide)))
      (Ne.symm (ne_field_of_mem (by decide))))
  · next hk =>
    exact finish (k₃.trans k₄) (fun kind hm => hparts kind (.inl hm)) fun hkeys => absurd hkeys hk

theorem field_setField_of_table_ne (hne : u ≠ t) (name name' : String) (v : Value) :
    (h.setField u name' v).field t name = h.field t name := by
  rw [field, Heap.setField, Heap.setSlot, table_modifyTable, if_neg fun he => hne he.1, field]

/-- What is in front of the capability table may be filled. -/
theorem IsCapabilityTable.setField {capabilities : Capabilities} {hooks : RegistryRef}
    (ht : h.IsCapabilityTable t capabilities hooks) (hlt : t.id < h.tables.size)
    (hu : u.id < t.id) (name : String) (v : Value) :
    (h.setField u name v).IsCapabilityTable t capabilities hooks := by
  have hne : u ≠ t := fun he => Nat.lt_irrefl t.id (he ▸ hu)
  exact ht.mono (.setField hlt (Nat.le_of_lt hu) name v)
    (fun _ => field_setField_of_table_ne hne ..) (field_setField_of_table_ne hne ..)

end Guest.Heap

namespace World

/-- The capability table with which a session is built, and the heap at that point. -/
def nextCapabilities (w : World) (capabilities : Capabilities) : TableRef × Heap :=
  Session.addCapabilities ⟨w.runtimes.size⟩ w.nextRuntime capabilities w.addRegistry.1
    w.executable? (Guest.addRuntime ⟨w.runtimes.size⟩ w.heap).2

/-- A new session has a capability table of its own, with the fields that it was built with.  It is
a global variable, unless the `share` table takes the name. -/
theorem nextCapabilities_placeSession (w : World) (shell : ShellRef) (capabilities : Capabilities)
    (config : Config) :
    (w.nextCapabilities capabilities).1.id <
        (w.placeSession shell capabilities config).2.heap.tables.size ∧
      (w.placeSession shell capabilities config).2.heap.IsCapabilityTable
        (w.nextCapabilities capabilities).1 capabilities w.addRegistry.1 ∧
      (∀ k, ((w.placeSession shell capabilities config).2.heap.table
          (w.nextCapabilities capabilities).1).get k =
        ((w.nextCapabilities capabilities).2.table (w.nextCapabilities capabilities).1).get k) ∧
      (config.namespaceName ≠ "share" →
        (w.placeSession shell capabilities config).2.heap.field w.nextRuntime.globals
          config.namespaceName = .table (w.nextCapabilities capabilities).1) := by
  obtain ⟨b, hg⟩ := w.builds_addRuntime
  have hlt : (w.nextCapabilities capabilities).1.id <
      (w.nextCapabilities capabilities).2.tables.size :=
    ((Heap.Builds.refl b.built).addCapabilities hg.1 ⟨w.runtimes.size⟩ capabilities
      w.addRegistry.1 w.executable?).2.2
  have hgt : w.nextRuntime.globals.id < (w.nextCapabilities capabilities).1.id := by
    rw [nextCapabilities, fst_addCapabilities]
    dsimp only
    exact hg.table_lt
  have hown : (w.nextCapabilities capabilities).2.IsCapabilityTable
      (w.nextCapabilities capabilities).1 capabilities w.addRegistry.1 :=
    Heap.isCapabilityTable_addCapabilities ⟨w.runtimes.size⟩ w.nextRuntime capabilities
      w.addRegistry.1 w.executable? hg.table_lt
  have hnext : Session.addCapabilities ⟨w.runtimes.size⟩ w.nextRuntime capabilities
    w.addRegistry.1 w.executable? (Guest.addRuntime ⟨w.runtimes.size⟩ w.heap).2 =
      w.nextCapabilities capabilities := rfl
  rw [heap_placeSession, Session.install]
  dsimp only
  rw [hnext]
  generalize w.nextCapabilities capabilities = p at hlt hgt hown ⊢
  have hne : w.nextRuntime.globals ≠ p.1 := fun he => Nat.lt_irrefl p.1.id (he ▸ hgt)
  have hnamed := hown.setField hlt hgt config.namespaceName (.table p.1)
  have hlt' : p.1.id < (p.2.setField w.nextRuntime.globals config.namespaceName
      (.table p.1)).tables.size := Nat.lt_of_lt_of_eq hlt (Heap.size_modifyTable ..).symm
  have hkeeps := (Heap.Keeps.refl (p.2.setField w.nextRuntime.globals config.namespaceName
    (.table p.1))).addTable {}
  have hlt'' := Nat.lt_of_lt_of_le hlt' hkeeps.tables.size
  have hshared := hnamed.mono (.of_keeps hlt' hkeeps)
    (fun kind => by rw [Heap.field, hkeeps.table hlt', Heap.field])
    (by rw [Heap.field, hkeeps.table hlt', Heap.field])
  refine ⟨?_, hshared.setField hlt'' hgt "share" _, fun k => ?_, fun hname => ?_⟩
  · rw [Heap.setField, Heap.setSlot, Heap.size_modifyTable]
    exact hlt''
  · -- other tables were filled since
    rw [Heap.setField, Heap.setSlot, Heap.table_modifyTable, if_neg fun he => hne he.1,
      hkeeps.table hlt', Heap.setField, Heap.setSlot, Heap.table_modifyTable,
      if_neg fun he => hne he.1]
  · obtain ⟨-, -, -, hfield⟩ := Heap.own_of_setField p.2 hgt hlt config.namespaceName
    rw [if_neg hname] at hfield
    exact hfield

theorem capabilities_placeSession (w : World) (shell : ShellRef) (capabilities : Capabilities)
    (config : Config) (hname : config.namespaceName ≠ "share") :
    ∃ own, (w.placeSession shell capabilities config).2.heap.field w.nextRuntime.globals
        config.namespaceName = .table own ∧
      (w.placeSession shell capabilities config).2.heap.IsCapabilityTable own capabilities
        w.addRegistry.1 := by
  obtain ⟨-, hown, -, hfield⟩ := w.nextCapabilities_placeSession shell capabilities config
  exact ⟨_, hfield hname, hown⟩

end World
end ScriptShell
