import ScriptShell.Proofs.GuestLibraries
import ScriptShell.Proofs.KeyBindings

/-! # What is under the names of a capability table

`Capabilities.Provides` lists what building a session puts into the capability table, each thing
under its name: the functions of the shell, three of the guest's library, a part for each collection
and for the keys, and two texts.  They are put there one after the other, so a later one could take
the name of an earlier one.  Checked capabilities have no name twice, so all of it is there when the
session is built (`World.holds_placeSession`): behind each step the fields of the steps before are
spared (`Heap.Spares`).
-/

namespace ScriptShell

open Guest

/-- What may stand under a name of a capability table. -/
inductive Content where
  /-- A function with some code. -/
  | code (c : Code)
  /-- A table that leads to properties of the shell. -/
  | part (p : PropertyTable)
  /-- A text. -/
  | text (s : String)

/-- What building a session puts under which name, where the program has a path or none. -/
inductive Capabilities.Provides (c : Capabilities) (hooks : RegistryRef) (path? : Option String) :
    String → Content → Prop where
  /-- A function of the shell. -/
  | function {name : String} {f : HostFunction} (h : c.functions.get? name = some f) :
      Provides c hooks path? name (.code (.host f))
  /-- The lines of a file or of the input. -/
  | lines : Provides c hooks path? "lines" (.code (.library .ioLines))
  /-- Opening files. -/
  | openFile : Provides c hooks path? "open" (.code (.library .ioOpen))
  /-- Compiling files. -/
  | loadfile : Provides c hooks path? "loadfile" (.code (.library .loadfile))
  /-- A collection. -/
  | collection {kind : CollectionKind} (h : kind ∈ c.collections) :
      Provides c hooks path? kind.field (.part (.collection kind))
  /-- Reading an alias. -/
  | getAlias (h : .aliases ∈ c.collections) : Provides c hooks path? "getalias" (.code .getAlias)
  /-- Writing an alias. -/
  | setAlias (h : .aliases ∈ c.collections) : Provides c hooks path? "setalias" (.code .setAlias)
  /-- The keys. -/
  | keys (h : c.keys = true) : Provides c hooks path? "key" (.part (.keys hooks))
  /-- Binding a key. -/
  | bindKey (h : c.keys = true) : Provides c hooks path? "bindkey" (.code (.bindKey hooks))
  /-- The version. -/
  | version : Provides c hooks path? "version" (.text Session.version)
  /-- The program file, if it is known. -/
  | executable {path : String} (h : path? = some path) : Provides c hooks path? "exe" (.text path)

namespace TextMap

variable {α : Type}

theorem mem_of_lookupEntry {name : String} {a : α} {es : List (String × α)}
    (h : lookupEntry name es = some a) : (name, a) ∈ es := by
  induction es with
  | nil => cases h
  | cons e es ih =>
    obtain ⟨name', a'⟩ := e
    rw [lookupEntry] at h
    split at h
    · next he =>
      cases h
      rw [he]
      exact List.mem_cons_self
    · exact List.mem_cons_of_mem _ (ih h)

theorem exists_of_mem_keys {m : TextMap α} {name : String} (h : name ∈ m.keys) :
    ∃ a, m.get? name = some a := by
  obtain ⟨es⟩ := m
  rw [keys] at h
  rw [get?]
  dsimp only at h ⊢
  induction es with
  | nil => exact absurd h List.not_mem_nil
  | cons e es ih =>
    rw [List.map_cons, List.mem_cons] at h
    rw [lookupEntry]
    split
    · exact ⟨_, rfl⟩
    · next hne => exact ih (h.resolve_left (Ne.symm hne))

end TextMap

namespace Guest.Heap

variable {h h' : Heap} {globals t u io : TableRef} {name : String} {code : Code} {r : RuntimeRef}

/-- Something stands under a name of a table. -/
def Holds (h : Heap) (t : TableRef) (name : String) : Content → Prop
  | .code c => h.HasMethod t name c
  | .part p => h.HasPart t name p
  | .text s => h.field t name = .text s

theorem Spares.of_fills (k : Fills t h h') (hfield : h'.field t name = h.field t name) :
    Spares t name h h' := ⟨k.size, k.functions, hfield⟩

theorem size_setField (h : Heap) (t : TableRef) (name : String) (v : Value) :
    (h.setField t name v).tables.size = h.tables.size := size_modifyTable ..

theorem function?_setField (h : Heap) (t : TableRef) (name : String) (v : Value)
    (f : GuestFunction) : (h.setField t name v).function? f = h.function? f := rfl

/-- A function that is put under a name is there. -/
theorem hasMethod_setField {f : GuestFunction} (hf : h.function? f = some ⟨r, code⟩)
    (ht : t.id < h.tables.size) (name : String) :
    (h.setField t name (.func f)).HasMethod t name code := by
  refine ⟨f, r, ?_, hf⟩
  rw [field_setField h ht, if_pos ⟨rfl, rfl⟩]

/-- A function is also there under another name. -/
theorem HasMethod.copy (hm : h.HasMethod u name code) (ht : t.id < h.tables.size)
    (name' : String) : (h.setField t name' (h.field u name)).HasMethod t name' code := by
  obtain ⟨f, r, hfield, hf⟩ := hm
  rw [hfield]
  exact hasMethod_setField hf ht name'

/-! ## One step after the other -/

/-- The functions of the shell leave the other fields of all tables but for the `print` of the
globals. -/
theorem spares_putFunctions (r : RuntimeRef) (functions : TextMap HostFunction)
    (hu : u.id < h.tables.size) (hg : globals ≠ u ∨ "print" ≠ name)
    (ht : t ≠ u ∨ name ∉ functions.keys) :
    Spares u name h (Session.putFunctions r globals t functions h) := by
  refine .foldl _ (fun h e he hu => ?_) hu
  have hadd : Spares u name h (h.addFunction ⟨r, .host e.2⟩).2 :=
    .of_keeps hu ((Keeps.refl h).addFunction _)
  have hne : t ≠ u ∨ e.1 ≠ name :=
    ht.imp_right fun hn heq => hn (heq ▸ List.mem_map_of_mem he)
  dsimp only
  split
  · exact hadd.trans ((Spares.setField hg _).trans (.setField hne _))
  · exact hadd.trans (.setField hne _)

/-- Functions with different names are all there. -/
theorem hasMethod_putFunctions {functions : TextMap HostFunction} (hn : functions.keys.Nodup)
    (ht : t.id < h.tables.size) (hg : globals ≠ t) :
    ∀ e ∈ functions.entries,
      (Session.putFunctions r globals t functions h).HasMethod t e.1 (.host e.2) := by
  obtain ⟨entries⟩ := functions
  rw [TextMap.keys] at hn
  dsimp only at hn ⊢
  induction entries generalizing h with
  | nil => exact fun e he => absurd he List.not_mem_nil
  | cons e es ih =>
    rw [List.map_cons, List.nodup_cons] at hn
    have hone : (Session.putFunctions r globals t ⟨[e]⟩ h).HasMethod t e.1 (.host e.2) ∧
        t.id < (Session.putFunctions r globals t ⟨[e]⟩ h).tables.size := by
      have hnew : (h.addFunction ⟨r, .host e.2⟩).2.function? (h.addFunction ⟨r, .host e.2⟩).1 =
          some ⟨r, .host e.2⟩ := Array.getElem?_push_size
      have ht₁ : t.id < (h.addFunction ⟨r, .host e.2⟩).2.tables.size := ht
      rw [Session.putFunctions, List.foldl_cons, List.foldl_nil]
      dsimp only [addCode]
      generalize h.addFunction ⟨r, .host e.2⟩ = p at hnew ht₁ ⊢
      split
      · rw [← function?_setField _ globals "print" (.func p.1)] at hnew
        rw [← size_setField _ globals "print" (.func p.1)] at ht₁
        exact ⟨hasMethod_setField hnew ht₁ e.1, by rwa [size_setField]⟩
      · exact ⟨hasMethod_setField hnew ht₁ e.1, by rwa [size_setField]⟩
    intro e' he'
    rcases List.mem_cons.1 he' with rfl | he'
    · exact (spares_putFunctions r ⟨es⟩ hone.2 (.inl hg) (.inr hn.1)).hasMethod hone.1
    · exact ih hone.2 hn.2 e' he'

/-- The functions of the guest's library are in the capability table as well. -/
theorem hasMethod_putLibrary (ht : t.id < h.tables.size) (hg : globals ≠ t) (hio : io ≠ t)
    (hfield : h.field globals "io" = .table io) {lines openFile loadfile : Code}
    (hlines : h.HasMethod io "lines" lines) (hopen : h.HasMethod io "open" openFile)
    (hload : h.HasMethod globals "loadfile" loadfile) :
    (Session.putLibrary globals t h).HasMethod t "lines" lines ∧
      (Session.putLibrary globals t h).HasMethod t "open" openFile ∧
      (Session.putLibrary globals t h).HasMethod t "loadfile" loadfile := by
  rw [Session.putLibrary, hfield]
  dsimp only
  -- the three fields are set one after the other
  have ht₁ : t.id < (h.setField t "lines" (h.field io "lines")).tables.size := by
    rwa [size_setField]
  have hopen₁ : ((h.setField t "lines" (h.field io "lines")).setField t "open"
      (h.field io "open")).HasMethod t "open" openFile := by
    have k : Spares io "open" h (h.setField t "lines" (h.field io "lines")) :=
      .setField (.inl (Ne.symm hio)) _
    rw [← k.field]
    exact (k.hasMethod hopen).copy ht₁ "open"
  have hlines₁ : ((h.setField t "lines" (h.field io "lines")).setField t "open"
      (h.field io "open")).HasMethod t "lines" lines :=
    (Spares.setField (.inr (by decide)) _).hasMethod (hlines.copy ht "lines")
  have hload₁ : ((h.setField t "lines" (h.field io "lines")).setField t "open"
      (h.field io "open")).HasMethod globals "loadfile" loadfile :=
    ((Spares.setField (.inl (Ne.symm hg)) _).trans (.setField (.inl (Ne.symm hg)) _)).hasMethod
      hload
  have ht₂ : t.id < ((h.setField t "lines" (h.field io "lines")).setField t "open"
      (h.field io "open")).tables.size := by
    rwa [size_setField]
  generalize (h.setField t "lines" (h.field io "lines")).setField t "open" (h.field io "open") = h₂
    at hopen₁ hlines₁ hload₁ ht₂ ⊢
  exact ⟨(Spares.setField (.inr (by decide)) _).hasMethod hlines₁,
    (Spares.setField (.inr (by decide)) _).hasMethod hopen₁, hload₁.copy ht₂ "loadfile"⟩

theorem spares_putLibrary (globals : TableRef) (ht : t.id < h.tables.size) (name : String)
    (hn : name ∉ ["lines", "open", "loadfile"]) :
    Spares t name h (Session.putLibrary globals t h) :=
  .of_fills (.putLibrary ht globals) (field_putLibrary globals hn)

theorem spares_putCollections (r : RuntimeRef) (kinds : List CollectionKind)
    (ht : t.id < h.tables.size) (name : String) (hn : name ∉ kinds.map CollectionKind.field)
    (hcode : .aliases ∈ kinds → name ∉ ["getalias", "setalias"]) :
    Spares t name h (Session.putCollections r t kinds h) := by
  refine .foldl kinds (fun h kind hk ht => ?_) ht
  have hkeeps := ((Builds.refl (.refl h)).addPropertyTable r (.collection kind)).1.built.keeps
  have hfield : kind.field ≠ name := fun he => hn (List.mem_map.2 ⟨kind, hk, he⟩)
  have hput : Spares t name h ((addPropertyTable r (.collection kind) h).2.setField t kind.field
      (.table (addPropertyTable r (.collection kind) h).1)) :=
    (Spares.of_keeps ht hkeeps).trans (.setField (.inr hfield) _)
  dsimp only
  split
  · next he =>
    rw [he] at hk
    have hne := hcode hk
    simp only [List.mem_cons, List.not_mem_nil, or_false, not_or] at hne
    refine Spares.andThen ?_ ht fun ht => .putCode ht (.inr (Ne.symm hne.2)) _
    exact hput.andThen ht fun ht => .putCode ht (.inr (Ne.symm hne.1)) _
  · exact hput

theorem spares_putKeys (r : RuntimeRef) (hooks : RegistryRef) (ht : t.id < h.tables.size)
    (hkey : name ≠ "key") (hbind : name ≠ "bindkey") :
    Spares t name h (Session.putKeys r t hooks h) := by
  obtain ⟨hfills, -, hfield⟩ := hasPart_putKeys ht r hooks
  exact .of_fills hfills (hfield name hkey hbind)

/-- The functions for aliases come with the aliases, and stay. -/
theorem hasMethod_putCollections (r : RuntimeRef) {kinds : List CollectionKind} :
    ∀ {h : Heap}, t.id < h.tables.size →
      .aliases ∈ kinds ∨
        (h.HasMethod t "getalias" .getAlias ∧ h.HasMethod t "setalias" .setAlias) →
      (Session.putCollections r t kinds h).HasMethod t "getalias" .getAlias ∧
        (Session.putCollections r t kinds h).HasMethod t "setalias" .setAlias := by
  induction kinds with
  | nil => exact fun _ hm => hm.resolve_left List.not_mem_nil
  | cons kind kinds ih =>
    intro h ht hm
    have hadd := Fills.addPropertyTable ht r (.collection kind)
    have hput (name : String) (hn : name ∈ ["getalias", "setalias", "key", "bindkey", "version",
        "exe"]) : Spares t name h ((addPropertyTable r (.collection kind) h).2.setField t kind.field
          (.table (addPropertyTable r (.collection kind) h).1)) :=
      (Spares.of_fills hadd (field_addPropertyTable ht ..)).trans
        (.setField (.inr (Ne.symm (ne_field_of_mem hn))) _)
    have hget := hput "getalias" (by decide)
    have hset := hput "setalias" (by decide)
    have ht₁ := Nat.lt_of_lt_of_le ht hget.tables
    rw [Session.putCollections, List.foldl_cons]
    dsimp only
    split
    · -- both are put now, whatever was there before
      have ht₂ := ht₁
      rw [← size_putCode r t "getalias" .getAlias] at ht₂
      exact ih (by rwa [size_putCode]) (.inr
        ⟨(Spares.putCode ht₂ (.inr (by decide)) _).hasMethod (hasMethod_putCode ht₁ r _ _),
          hasMethod_putCode ht₂ r _ _⟩)
    · next hk =>
      refine ih ht₁ (hm.imp (fun hm => ?_) fun hm => ?_)
      · exact (List.mem_cons.1 hm).resolve_left (Ne.symm hk)
      · exact ⟨hget.hasMethod hm.1, hset.hasMethod hm.2⟩

/-! ## The whole table -/

/-- The last steps: the keys and the texts. -/
def putKeysAndTexts (r : RuntimeRef) (t : TableRef) (keys : Bool) (hooks : RegistryRef)
    (path? : Option String) (h : Heap) : Heap :=
  ((if keys then Session.putKeys r t hooks h else h).setField t "version"
    (.text Session.version)).setField t "exe" (Session.executable path?)

theorem addCapabilities_eq (r : RuntimeRef) (runtime : Runtime) (capabilities : Capabilities)
    (hooks : RegistryRef) (path? : Option String) (h : Heap) :
    let t := (addPropertyTable r (.capabilities capabilities.scalars hooks) h).1
    Session.addCapabilities r runtime capabilities hooks path? h =
      (t, putKeysAndTexts r t capabilities.keys hooks path?
        (Session.putCollections r t capabilities.collections
          (Session.putLibrary runtime.globals t
            (Session.putFunctions r runtime.globals t capabilities.functions
              (addPropertyTable r (.capabilities capabilities.scalars hooks) h).2)))) := rfl

theorem spares_putKeysAndTexts (r : RuntimeRef) (keys : Bool) (hooks : RegistryRef)
    (path? : Option String) (ht : t.id < h.tables.size) (name : String)
    (hkeys : keys = true → name ∉ ["key", "bindkey"]) (hn : name ∉ ["version", "exe"]) :
    Spares t name h (putKeysAndTexts r t keys hooks path? h) := by
  simp only [List.mem_cons, List.not_mem_nil, or_false, not_or] at hkeys hn
  refine Spares.trans ?_ ((Spares.setField (.inr (Ne.symm hn.1)) _).trans
    (.setField (.inr (Ne.symm hn.2)) _))
  split
  · next hk => exact spares_putKeys r hooks ht (hkeys hk).1 (hkeys hk).2
  · exact .refl h

theorem texts_putKeysAndTexts (r : RuntimeRef) (keys : Bool) (hooks : RegistryRef)
    (path? : Option String) (ht : t.id < h.tables.size) :
    (putKeysAndTexts r t keys hooks path? h).field t "version" = .text Session.version ∧
      (putKeysAndTexts r t keys hooks path? h).field t "exe" = Session.executable path? := by
  have ht₁ : t.id < (if keys then Session.putKeys r t hooks h else h).tables.size := by
    split
    · exact (hasPart_putKeys ht r hooks).1.next_lt
    · exact ht
  unfold putKeysAndTexts
  generalize (if keys then Session.putKeys r t hooks h else h) = h₁ at ht₁ ⊢
  constructor
  · rw [field_setField_of_ne _ _ (by decide), field_setField h₁ ht₁, if_pos ⟨rfl, rfl⟩]
  · rw [field_setField _ (by rwa [size_setField]), if_pos ⟨rfl, rfl⟩]

/-- The global functions and tables of the guest that the capability table takes something from. -/
structure LendsLibrary (h : Heap) (globals io : TableRef) : Prop where
  /-- The table of the input and output functions is a global variable. -/
  field : h.field globals "io" = .table io
  /-- It is another table. -/
  ne : globals ≠ io
  /-- Both exist. -/
  globals_lt : globals.id < h.tables.size
  /-- Both exist. -/
  io_lt : io.id < h.tables.size
  /-- The lines of a file or of the input. -/
  lines : h.HasMethod io "lines" (.library .ioLines)
  /-- Opening files. -/
  openFile : h.HasMethod io "open" (.library .ioOpen)
  /-- Compiling files. -/
  loadfile : h.HasMethod globals "loadfile" (.library .loadfile)

theorem LendsLibrary.mono (hl : h.LendsLibrary globals io)
    (hg : ∀ name, name ≠ "print" → Spares globals name h h')
    (hio : ∀ name, Spares io name h h') : h'.LendsLibrary globals io where
  field := (hg "io" (by decide)).field.trans hl.field
  ne := hl.ne
  globals_lt := Nat.lt_of_lt_of_le hl.globals_lt (hio "").tables
  io_lt := Nat.lt_of_lt_of_le hl.io_lt (hio "").tables
  lines := (hio "lines").hasMethod hl.lines
  openFile := (hio "open").hasMethod hl.openFile
  loadfile := (hg "loadfile" (by decide)).hasMethod hl.loadfile

theorem not_mem_fields {kinds : List CollectionKind} {name : String}
    (hn : name ∈ Capabilities.reservedFields) : name ∉ kinds.map CollectionKind.field := by
  intro hm
  obtain ⟨kind, -, rfl⟩ := List.mem_map.1 hm
  cases kind <;> exact absurd hn (by decide)

/-- The functions of the shell and those of the library are there when all have been put there. -/
theorem hasMethod_putAll (r : RuntimeRef) {functions : TextMap HostFunction}
    (hn : functions.keys.Nodup)
    (hother : ∀ name ∈ functions.keys, name ∉ ["lines", "open", "loadfile"])
    (hl : h.LendsLibrary globals io) (ht : t.id < h.tables.size) (hg : globals.id < t.id)
    (hio : io.id < t.id) :
    let h' := Session.putLibrary globals t (Session.putFunctions r globals t functions h)
    (∀ e ∈ functions.entries, h'.HasMethod t e.1 (.host e.2)) ∧
      h'.HasMethod t "lines" (.library .ioLines) ∧ h'.HasMethod t "open" (.library .ioOpen) ∧
        h'.HasMethod t "loadfile" (.library .loadfile) := by
  have hg' : globals ≠ t := TableRef.ne_of_lt hg
  have hio' : io ≠ t := TableRef.ne_of_lt hio
  have hput := hasMethod_putFunctions (r := r) hn ht hg'
  have ht' := (Fills.putFunctions ht (Nat.le_of_lt hg) r functions).next_lt
  -- what the library lends is in other tables
  have hlent := hl.mono
    (fun _ hprint => spares_putFunctions r functions hl.globals_lt (.inr (Ne.symm hprint))
      (.inl (Ne.symm hg')))
    fun _ => spares_putFunctions r functions hl.io_lt (.inl hl.ne) (.inl (Ne.symm hio'))
  dsimp only
  generalize Session.putFunctions r globals t functions h = h₁ at hput ht' hlent ⊢
  refine ⟨fun e he => ?_, hasMethod_putLibrary ht' hg' hio' hlent.field hlent.lines hlent.openFile
    hlent.loadfile⟩
  have hname := hother e.1 (List.mem_map_of_mem he)
  exact (spares_putLibrary globals ht' e.1 hname).hasMethod (hput e he)

/-- The collections, the keys and the texts leave what is under other names. -/
theorem spares_putParts (r : RuntimeRef) (kinds : List CollectionKind) (keys : Bool)
    (hooks : RegistryRef) (path? : Option String) (ht : t.id < h.tables.size) (name : String)
    (hkinds : name ∉ kinds.map CollectionKind.field)
    (hcode : .aliases ∈ kinds → name ∉ ["getalias", "setalias"])
    (hkeys : keys = true → name ∉ ["key", "bindkey"]) (htexts : name ∉ ["version", "exe"]) :
    Spares t name h
      (putKeysAndTexts r t keys hooks path? (Session.putCollections r t kinds h)) :=
  (spares_putCollections r kinds ht name hkinds hcode).andThen ht fun ht =>
    spares_putKeysAndTexts r keys hooks path? ht name hkeys htexts

/-- In checked capabilities every function has a name of its own, which no collection and nothing
else has. -/
theorem functions_apart {capabilities : Capabilities} (hvalid : capabilities.validate = .ok ()) :
    capabilities.functions.keys.Nodup ∧ ∀ name ∈ capabilities.functions.keys,
      name ∉ capabilities.collections.map CollectionKind.field ∧
        ∀ names ⊆ Capabilities.reservedFields, name ∉ names := by
  have hnodup := Capabilities.names_nodup hvalid
  simp only [List.nodup_append, List.mem_append] at hnodup
  obtain ⟨⟨⟨⟨hfunctions, -, -⟩, -, -⟩, -, hkinds⟩, -, hreserved⟩ := hnodup
  exact ⟨hfunctions, fun name hm => ⟨fun hn => hkinds name (.inl (.inl hm)) name hn rfl,
    fun _ hs hn => hreserved name (.inl (.inl (.inl hm))) name (hs hn) rfl⟩⟩

/-- **All that checked capabilities provide is in the capability table**, under its name. -/
theorem holds_addCapabilities (r : RuntimeRef) {runtime : Runtime} {capabilities : Capabilities}
    (hvalid : capabilities.validate = .ok ()) (hooks : RegistryRef) {path? : Option String}
    (hlib : h.LendsLibrary runtime.globals io) {name : String} {content : Content}
    (hp : capabilities.Provides hooks path? name content) :
    (Session.addCapabilities r runtime capabilities hooks path? h).2.Holds
      (Session.addCapabilities r runtime capabilities hooks path? h).1 name content := by
  have hg := hlib.globals_lt
  have htable := isCapabilityTable_addCapabilities r runtime capabilities hooks path? hg
  have hbind (hkeys : capabilities.keys = true) :=
    hasMethod_addCapabilities r runtime hkeys hooks path? hg
  obtain ⟨hfunctions, hfree⟩ := functions_apart hvalid
  -- the table is new, and behind the tables of the library
  have hown := isPart_addPropertyTable hg r (.capabilities capabilities.scalars hooks)
  have hiot := (isPart_addPropertyTable hlib.io_lt r
    (.capabilities capabilities.scalars hooks)).behind
  have hkeeps := ((Builds.refl (.refl h)).addPropertyTable r
    (.capabilities capabilities.scalars hooks)).1.built.keeps
  have hlent := hlib.mono (fun _ _ => .of_keeps hg hkeeps) fun _ => .of_keeps hlib.io_lt hkeeps
  rw [addCapabilities_eq] at htable hbind ⊢
  dsimp only at htable hbind ⊢
  generalize (addPropertyTable r (.capabilities capabilities.scalars hooks) h).1 = t
    at htable hbind hown hiot ⊢
  generalize (addPropertyTable r (.capabilities capabilities.scalars hooks) h).2 = h₁
    at htable hbind hown hlent ⊢
  -- the functions come first
  obtain ⟨hhost, hlines, hopen, hload⟩ := hasMethod_putAll r hfunctions
    (fun name hm => (hfree name hm).2 _ (by decide)) hlent hown.lt hown.behind hiot
  have ht : t.id < (Session.putLibrary runtime.globals t
      (Session.putFunctions r runtime.globals t capabilities.functions h₁)).tables.size :=
    (Fills.putLibrary (Fills.putFunctions hown.lt (Nat.le_of_lt hown.behind) r
      capabilities.functions).next_lt runtime.globals).next_lt
  generalize Session.putLibrary runtime.globals t
    (Session.putFunctions r runtime.globals t capabilities.functions h₁) = h₂
    at htable hbind hhost hlines hopen hload ht ⊢
  -- and stay when the rest comes
  have hrest {name : String} (hn : name ∉ capabilities.collections.map CollectionKind.field)
      (hcode : name ∉ ["getalias", "setalias"]) (hkey : name ∉ ["key", "bindkey"])
      (htext : name ∉ ["version", "exe"]) : Spares t name h₂ _ :=
    spares_putParts r capabilities.collections capabilities.keys hooks path? ht name hn
      (fun _ => hcode) (fun _ => hkey) htext
  have haliases (hm : .aliases ∈ capabilities.collections) :=
    hasMethod_putCollections r ht (.inl hm)
  have ht' := (hasPart_putCollections r capabilities.collections h₂ ht).1.next_lt
  generalize Session.putCollections r t capabilities.collections h₂ = h₃
    at htable hbind hrest haliases ht' ⊢
  have hlast := spares_putKeysAndTexts r capabilities.keys hooks path? ht'
  have htexts := texts_putKeysAndTexts r capabilities.keys hooks path? ht'
  cases hp with
  | @function name f hf =>
    have hm := TextMap.mem_of_lookupEntry hf
    obtain ⟨hkinds, hnames⟩ := hfree name (List.mem_map_of_mem hm)
    exact (hrest hkinds (hnames _ (by decide)) (hnames _ (by decide))
      (hnames _ (by decide))).hasMethod (hhost _ hm)
  | lines =>
    exact (hrest (not_mem_fields (by decide)) (by decide) (by decide) (by decide)).hasMethod hlines
  | openFile =>
    exact (hrest (not_mem_fields (by decide)) (by decide) (by decide) (by decide)).hasMethod hopen
  | loadfile =>
    exact (hrest (not_mem_fields (by decide)) (by decide) (by decide) (by decide)).hasMethod hload
  | collection hm => exact htable.collections _ hm
  | getAlias hm =>
    exact (hlast _ (fun _ => by decide) (by decide)).hasMethod (haliases hm).1
  | setAlias hm =>
    exact (hlast _ (fun _ => by decide) (by decide)).hasMethod (haliases hm).2
  | keys hk => exact htable.keys hk
  | bindKey hk => exact hbind hk
  | version => exact htexts.1
  | executable hpath =>
    subst hpath
    exact htexts.2

/-- Under all other names there is nothing. -/
theorem field_of_not_provides (r : RuntimeRef) {runtime : Runtime} {capabilities : Capabilities}
    (hooks : RegistryRef) (path? : Option String) (hg : runtime.globals.id < h.tables.size)
    {name : String} (hp : ∀ content, ¬capabilities.Provides hooks path? name content) :
    (Session.addCapabilities r runtime capabilities hooks path? h).2.field
      (Session.addCapabilities r runtime capabilities hooks path? h).1 name = .nil := by
  have hown := isPart_addPropertyTable hg r (.capabilities capabilities.scalars hooks)
  rw [addCapabilities_eq]
  dsimp only
  generalize (addPropertyTable r (.capabilities capabilities.scalars hooks) h).1 = t at hown ⊢
  generalize (addPropertyTable r (.capabilities capabilities.scalars hooks) h).2 = h₁ at hown ⊢
  have hfunctions : name ∉ capabilities.functions.keys := by
    intro hm
    obtain ⟨f, hf⟩ := TextMap.exists_of_mem_keys hm
    exact hp _ (.function hf)
  have hlibrary : name ∉ ["lines", "open", "loadfile"] := by
    simp only [List.mem_cons, List.not_mem_nil, or_false]
    rintro (rfl | rfl | rfl)
    · exact hp _ .lines
    · exact hp _ .openFile
    · exact hp _ .loadfile
  have hkinds : name ∉ capabilities.collections.map CollectionKind.field := by
    intro hm
    obtain ⟨kind, hk, rfl⟩ := List.mem_map.1 hm
    exact hp _ (.collection hk)
  have hcode (hm : .aliases ∈ capabilities.collections) : name ∉ ["getalias", "setalias"] := by
    simp only [List.mem_cons, List.not_mem_nil, or_false]
    rintro (rfl | rfl)
    · exact hp _ (.getAlias hm)
    · exact hp _ (.setAlias hm)
  have hkeys (hk : capabilities.keys = true) : name ∉ ["key", "bindkey"] := by
    simp only [List.mem_cons, List.not_mem_nil, or_false]
    rintro (rfl | rfl)
    · exact hp _ (.keys hk)
    · exact hp _ (.bindKey hk)
  have hversion : name ≠ "version" := by
    rintro rfl
    exact hp _ .version
  -- so no step puts anything under it
  have hne : runtime.globals ≠ t := TableRef.ne_of_lt hown.behind
  have hput : Spares t name h₁ (Session.putLibrary runtime.globals t
      (Session.putFunctions r runtime.globals t capabilities.functions h₁)) :=
    (spares_putFunctions r _ hown.lt (.inl hne) (.inr hfunctions)).andThen hown.lt fun ht =>
      spares_putLibrary _ ht name hlibrary
  have ht := Nat.lt_of_lt_of_le hown.lt hput.tables
  by_cases hexe : name = "exe"
  · -- the last step puts nil there when the program has no path
    subst hexe
    cases path? with
    | some path => exact absurd (.executable rfl) (hp (.text path))
    | none =>
      have hkept := (spares_putCollections r capabilities.collections ht "exe" hkinds hcode).tables
      exact (texts_putKeysAndTexts r _ hooks none (Nat.lt_of_lt_of_le ht hkept)).2
  · have htexts : name ∉ ["version", "exe"] := by
      simp only [List.mem_cons, List.not_mem_nil, or_false, not_or]
      exact ⟨hversion, hexe⟩
    refine (Spares.field ?_).trans (hown.empty (.text name))
    exact hput.trans (spares_putParts r _ _ hooks path? ht name hkinds hcode hkeys htexts)

/-- What is in front of the table may be filled. -/
theorem Holds.mono {content : Content} (hc : h.Holds t name content) (k : Fills t h h')
    (hfield : h'.field t name = h.field t name) : h'.Holds t name content := by
  cases content with
  | code c => exact (Spares.of_fills k hfield).hasMethod hc
  | part p => exact HasPart.mono hc k hfield
  | text s => exact hfield.trans hc

end Guest.Heap

namespace World

variable (w : World) (shell : ShellRef) {capabilities : Capabilities} (config : Config)

/-- The runtime of a new session has what its capability table takes from the library. -/
theorem lendsLibrary_addRuntime : ∃ io : TableRef,
    (Guest.addRuntime ⟨w.runtimes.size⟩ w.heap).2.LendsLibrary w.nextRuntime.globals io := by
  obtain ⟨-, hg⟩ := w.builds_addRuntime
  obtain ⟨hglobals, htables⟩ := Heap.library_addRuntime ⟨w.runtimes.size⟩ w.heap
  have hio : ∃ fs, ("io", fs) ∈ LibraryFunction.tables ∧ ("lines", .ioLines) ∈ fs ∧
      ("open", .ioOpen) ∈ fs := ⟨_, .tail _ (.head _), .head _, .tail _ (.head _)⟩
  obtain ⟨fs, hmem, hlines, hopen⟩ := hio
  obtain ⟨io, hfield, hlt, hsize, hfunctions⟩ := htables _ hmem
  refine ⟨io, ?_⟩
  exact
    { field := hfield
      ne := TableRef.ne_of_lt hlt
      globals_lt := hg.table_lt
      io_lt := hsize
      lines := hfunctions ("lines", .ioLines) hlines
      openFile := hfunctions ("open", .ioOpen) hopen
      loadfile := hglobals ("loadfile", .loadfile) (by decide) }

/-- The globals of a new session get two tables, which only fills what is in front of its capability
table. -/
theorem fills_placeSession (w : World) (shell : ShellRef) (capabilities : Capabilities)
    (config : Config) :
    Heap.Fills (w.nextCapabilities capabilities).1 (w.nextCapabilities capabilities).2
      (w.placeSession shell capabilities config).2.heap := by
  obtain ⟨b, hg⟩ := w.builds_addRuntime
  have hlt : (w.nextCapabilities capabilities).1.id <
      (w.nextCapabilities capabilities).2.tables.size :=
    ((Heap.Builds.refl b.built).addCapabilities hg.1 ⟨w.runtimes.size⟩ capabilities
      w.addRegistry.1 w.executable?).2.2
  have hle : w.nextRuntime.globals.id ≤ (w.nextCapabilities capabilities).1.id := by
    rw [nextCapabilities, fst_addCapabilities]
    dsimp only
    exact Nat.le_of_lt hg.table_lt
  have hnext : Session.addCapabilities ⟨w.runtimes.size⟩ w.nextRuntime capabilities
    w.addRegistry.1 w.executable? (Guest.addRuntime ⟨w.runtimes.size⟩ w.heap).2 =
      w.nextCapabilities capabilities := rfl
  rw [heap_placeSession, Session.install]
  dsimp only
  rw [hnext]
  generalize w.nextCapabilities capabilities = p at hlt hle ⊢
  have hnamed := Heap.Fills.setField hlt hle config.namespaceName (.table p.1)
  have hshare := hnamed.trans (.of_keeps hnamed.next_lt ((Heap.Keeps.refl _).addTable {}))
  exact hshare.trans (.setField hshare.next_lt hle "share" _)

/-- **All that checked capabilities provide is in the capability table of the new session.** -/
theorem holds_placeSession (hvalid : capabilities.validate = .ok ()) (name : String)
    (content : Content) (hp : capabilities.Provides w.addRegistry.1 w.executable? name content) :
    (w.placeSession shell capabilities config).2.heap.Holds (w.nextCapabilities capabilities).1
      name content := by
  obtain ⟨io, hlib⟩ := w.lendsLibrary_addRuntime
  have hown : (w.nextCapabilities capabilities).2.Holds (w.nextCapabilities capabilities).1 name
      content :=
    Heap.holds_addCapabilities ⟨w.runtimes.size⟩ hvalid w.addRegistry.1 hlib hp
  obtain ⟨-, -, hget, -⟩ := w.nextCapabilities_placeSession shell capabilities config
  exact hown.mono (w.fills_placeSession shell capabilities config) (hget _)

end World
end ScriptShell
