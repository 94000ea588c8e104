import ScriptShell.Bridge
import ScriptShell.Proofs.HeapGrowth

/-! # New sessions

A new session is built in the heap of the process: its runtime with the library, the capability
table and an empty `share` table.  Building adds tables and functions and fills only tables that it
added (`Heap.Builds`), so everything that was there before is as it was
(`World.keeps_placeSession`).  A bridge that makes the session also tags its shell with it
(`Bridge.run_newSession_of_ok`).
-/

namespace ScriptShell

namespace Guest.Heap

/-! ## What building does -/

/-- A value that was built behind a heap: a plain one, or a reference to something that was not in
that heap and is there now. -/
def IsNew (base h : Heap) : Value → Prop
  | .nil | .bool _ | .int _ | .num _ | .str _ => True
  | .table t => base.tables.size ≤ t.id ∧ t.id < h.tables.size
  | .func f => base.functions.size ≤ f.id ∧ f.id < h.functions.size
  | .user _ | .thread _ | .light _ => False

/-- What is behind a heap was built: it holds new values under names, and no closures. -/
structure Built (base h : Heap) : Prop where
  /-- All that was there is as it was. -/
  keeps : base.Keeps h
  /-- There are no new variables. -/
  cells : h.cells = base.cells
  /-- New tables hold new values, under names. -/
  slot : ∀ t : TableRef, base.tables.size ≤ t.id → ∀ k, (h.table t).get k ≠ .nil →
    (∃ name, k = .text name) ∧ IsNew base h ((h.table t).get k)
  /-- New tables have new metatables. -/
  metatable : ∀ t m : TableRef, base.tables.size ≤ t.id → (h.table t).metatable? = some m →
    IsNew base h (.table m)
  /-- New functions are no closures. -/
  function : ∀ (f : GuestFunction) (r : RuntimeRef) (p : Proto) (captures : List CellRef),
    base.functions.size ≤ f.id → h.function? f ≠ some ⟨r, .closure p captures⟩

/-- What is behind the base was built in the later heap, and it has all that the earlier one has. -/
structure Builds (base h h' : Heap) : Prop where
  /-- There are no fewer tables. -/
  tables : h.tables.size ≤ h'.tables.size
  /-- There are no fewer functions. -/
  functions : h.functions.size ≤ h'.functions.size
  /-- The later heap was built. -/
  built : Built base h'

theorem IsNew.of_le {base h h' : Heap} {v : Value} (hv : IsNew base h v)
    (ht : h.tables.size ≤ h'.tables.size) (hf : h.functions.size ≤ h'.functions.size) :
    IsNew base h' v := by
  cases v with
  | table t => exact ⟨hv.1, Nat.lt_of_lt_of_le hv.2 ht⟩
  | func f => exact ⟨hv.1, Nat.lt_of_lt_of_le hv.2 hf⟩
  | _ => exact hv

theorem IsNew.table_lt {base h : Heap} {t : TableRef} (hv : IsNew base h (.table t)) :
    t.id < h.tables.size := hv.2

theorem Built.refl (base : Heap) : Built base base := by
  refine ⟨.refl _, rfl, fun t ht k hk => ?_, fun t m ht hm => ?_, fun f r p captures hf hc => ?_⟩
  · rw [table_of_ge ht] at hk
    exact absurd rfl hk
  · rw [table_of_ge ht] at hm
    cases hm
  · rw [function?, Array.getElem?_eq_none hf] at hc
    cases hc

namespace Builds

variable {base h h' h'' : Heap}

theorem refl (b : Built base h) : Builds base h h := ⟨Nat.le_refl _, Nat.le_refl _, b⟩

theorem trans (b : Builds base h h') (b' : Builds base h' h'') : Builds base h h'' :=
  ⟨Nat.le_trans b.tables b'.tables, Nat.le_trans b.functions b'.functions, b'.built⟩

theorem isNew (b : Builds base h h') {v : Value} (hv : IsNew base h v) : IsNew base h' v :=
  hv.of_le b.tables b.functions

theorem addTable (b : Builds base h h') : Builds base h (h'.addTable {}).2 := by
  have ht : h'.tables.size ≤ (h'.addTable {}).2.tables.size := by
    rw [Heap.addTable, Array.size_push]
    exact Nat.le_succ _
  refine ⟨Nat.le_trans b.tables ht, b.functions, b.built.keeps.addTable _, b.built.cells,
    fun t hb k hk => ?_, fun t m hb hm => ?_, b.built.function⟩
  · rw [table_addTable] at hk ⊢
    split at hk
    · exact absurd rfl hk
    · next hne =>
      rw [if_neg hne]
      obtain ⟨hname, hnew⟩ := b.built.slot t hb k hk
      exact ⟨hname, hnew.of_le ht (Nat.le_refl _)⟩
  · rw [table_addTable] at hm
    split at hm
    · cases hm
    · exact (b.built.metatable t m hb hm).of_le ht (Nat.le_refl _)

/-- The next table is new. -/
theorem fresh (b : Builds base h h') :
    IsNew base (h'.addTable {}).2 (.table (h'.addTable {}).1) := by
  refine ⟨b.built.keeps.tables.size, ?_⟩
  rw [Heap.addTable, Array.size_push]
  exact Nat.lt_succ_self _

theorem addFunction (b : Builds base h h') {f : Function}
    (hf : ∀ p captures, f.code ≠ .closure p captures) : Builds base h (h'.addFunction f).2 := by
  have hle : h'.functions.size ≤ (h'.addFunction f).2.functions.size := by
    rw [Heap.addFunction, Array.size_push]
    exact Nat.le_succ _
  refine ⟨b.tables, Nat.le_trans b.functions hle, b.built.keeps.addFunction _, b.built.cells,
    fun t hb k hk => ?_, b.built.metatable, fun g r p captures hg hc => ?_⟩
  · obtain ⟨hname, hnew⟩ := b.built.slot t hb k hk
    exact ⟨hname, hnew.of_le (Nat.le_refl _) hle⟩
  · rw [function?, Heap.addFunction, Array.getElem?_push] at hc
    split at hc
    · cases hc
      exact hf p captures rfl
    · exact b.built.function g r p captures hg hc

/-- The next function is new. -/
theorem freshFunction (b : Builds base h h') (f : Function) :
    IsNew base (h'.addFunction f).2 (.func (h'.addFunction f).1) := by
  refine ⟨b.built.keeps.functions.size, ?_⟩
  rw [Heap.addFunction, Array.size_push]
  exact Nat.lt_succ_self _

/-- A new table gets a new value. -/
theorem setField (b : Builds base h h') {t : TableRef} (ht : base.tables.size ≤ t.id)
    (name : String) {v : Value} (hv : IsNew base h' v) :
    Builds base h (h'.setField t name v) := by
  have hs : h'.tables.size ≤ (h'.setField t name v).tables.size :=
    Nat.le_of_eq (size_modifyTable ..).symm
  refine ⟨Nat.le_trans b.tables hs, b.functions, b.built.keeps.setField ht _ _,
    b.built.cells, fun t' hb k hk => ?_, fun t' m hb hm => ?_, b.built.function⟩
  · rw [Heap.setField] at hk ⊢
    rcases get_setSlot_or h' t (.text name) v t' k with ⟨-, hkey, hget⟩ | hget
    · rw [hget]
      exact ⟨⟨name, hkey.symm⟩, hv.of_le hs (Nat.le_refl _)⟩
    · rw [hget] at hk ⊢
      obtain ⟨hname, hnew⟩ := b.built.slot t' hb k hk
      exact ⟨hname, hnew.of_le hs (Nat.le_refl _)⟩
  · rw [Heap.setField, metatable_setSlot] at hm
    exact (b.built.metatable t' m hb hm).of_le hs (Nat.le_refl _)

/-- A new table gets a new metatable. -/
theorem setMetatable (b : Builds base h h') {t m : TableRef} (ht : base.tables.size ≤ t.id)
    (hm : IsNew base h' (.table m)) : Builds base h (h'.setMetatable t (some m)) := by
  have hs : h'.tables.size ≤ (h'.setMetatable t (some m)).tables.size :=
    Nat.le_of_eq (size_modifyTable ..).symm
  refine ⟨Nat.le_trans b.tables hs, b.functions, b.built.keeps.setMetatable ht _, b.built.cells,
    fun t' hb k hk => ?_, fun t' m' hb hm' => ?_, b.built.function⟩
  · rw [get_setMetatable] at hk ⊢
    obtain ⟨hname, hnew⟩ := b.built.slot t' hb k hk
    exact ⟨hname, hnew.of_le hs (Nat.le_refl _)⟩
  · rw [Heap.setMetatable, table_modifyTable] at hm'
    split at hm'
    · cases hm'
      exact hm.of_le hs (Nat.le_refl _)
    · exact (b.built.metatable t' m' hb hm').of_le hs (Nat.le_refl _)

theorem foldl {α : Type} {f : Heap → α → Heap}
    (hf : ∀ h' x, Builds base h h' → Builds base h (f h' x)) (b : Builds base h h') (xs : List α) :
    Builds base h (xs.foldl f h') := by
  induction xs generalizing h' with
  | nil => exact b
  | cons x rest ih => exact ih (hf h' x b)

/-! ### The library -/

theorem addFunctions (b : Builds base h h') {t : TableRef} (ht : base.tables.size ≤ t.id)
    (r : RuntimeRef) (fs : List (String × LibraryFunction)) :
    Builds base h (Guest.addFunctions r t fs h') :=
  b.foldl (fun _ _ b => (b.addFunction (by simp)).setField ht _ (b.freshFunction _)) fs

theorem addObjectType (b : Builds base h h') (r : RuntimeRef) (name : String)
    (methods : List (String × LibraryFunction)) (text? : Option LibraryFunction) :
    Builds base h (Guest.addObjectType r name methods text? h').2 := by
  have hm := b.fresh.1
  have b := (b.addTable.setField hm "__name" (v := .text name) trivial).setField hm "__metatable"
    (v := .bool false) trivial
  -- with the method for texts or without it, the methods come last
  have key {h₂ : Heap} (b : Builds base h h₂) : Builds base h
      (if methods.isEmpty then ((h'.addTable {}).1, h₂)
        else ((h'.addTable {}).1,
          (Guest.addFunctions r (h₂.addTable {}).1 methods (h₂.addTable {}).2).setField
            (h'.addTable {}).1 "__index" (.table (h₂.addTable {}).1))).2 := by
    split
    · exact b
    · have b' := (refl b.addTable.built).addFunctions b.fresh.1 r methods
      exact b.addTable.trans (b'.setField hm _ (b'.isNew b.fresh))
  cases text? with
  | none => exact key b
  | some f => exact key (b.addFunctions hm r [("__tostring", f)])

theorem addGlobals (b : Builds base h h') (r : RuntimeRef) :
    Builds base h (Guest.addGlobals r h').2 ∧
      IsNew base (Guest.addGlobals r h').2 (.table (Guest.addGlobals r h').1) := by
  have hg := b.fresh
  have b' := (refl b.addTable.built).addFunctions hg.1 r LibraryFunction.globals
  have b' := (b'.setField hg.1 "_G" (b'.isNew hg)).setField hg.1 "_VERSION"
    (v := .text "Lua 5.4") trivial
  exact ⟨b.addTable.trans b', b'.isNew hg⟩

theorem addLoaded (b : Builds base h h') {globals : TableRef} (hg : IsNew base h' (.table globals)) :
    Builds base h (Guest.addLoaded globals h').2 ∧
      IsNew base (Guest.addLoaded globals h').2 (.table (Guest.addLoaded globals h').1) := by
  have hl := b.fresh
  have b₁ := (refl b.built).addTable
  have b₂ := (refl b.addTable.built).setField hl.1 "_G" (b₁.isNew hg)
  exact ⟨b.addTable.trans b₂, b₂.isNew hl⟩

theorem addLibrary (b : Builds base h h') {globals loaded : TableRef}
    (hg : base.tables.size ≤ globals.id) (hl : base.tables.size ≤ loaded.id) (r : RuntimeRef)
    (e : String × List (String × LibraryFunction)) :
    Builds base h (Guest.addLibrary r globals loaded h' e) := by
  have ht := b.fresh
  -- whatever the table was filled with, it becomes a global variable
  have key {h₂ : Heap} (b' : Builds base (h'.addTable {}).2 h₂) :
      Builds base h ((h₂.setField globals e.1 (.table (h'.addTable {}).1)).setField loaded e.1
        (.table (h'.addTable {}).1)) := by
    have b'' := b'.setField hg e.1 (b'.isNew ht)
    exact b.addTable.trans (b''.setField hl _ (b''.isNew ht))
  have b' := (refl b.addTable.built).addFunctions ht.1 r e.2
  unfold Guest.addLibrary
  dsimp only
  split
  · refine key ?_
    unfold mathConstants
    exact (((b'.setField ht.1 _ (v := .num _) trivial).setField ht.1 _ (v := .int _)
      trivial).setField ht.1 _ (v := .int _) trivial).setField ht.1 _ (v := .num _) trivial
  · exact key b'

theorem addPackage (b : Builds base h h') {globals loaded : TableRef}
    (hg : base.tables.size ≤ globals.id) (hl : IsNew base h' (.table loaded)) :
    Builds base h (Guest.addPackage globals loaded h') := by
  have hp := b.fresh
  have b₀ := (refl b.built).addTable
  have b₁ := (refl b.addTable.built).setField hp.1 "loaded" (b₀.isNew hl)
  have b₂ := b₁.setField hg "package" (b₁.isNew hp)
  exact b.addTable.trans (b₂.setField hl.1 "package" (b₂.isNew hp))

/-- The fields of a new table are new. -/
theorem field (b : Builds base h h') {t : TableRef} (ht : base.tables.size ≤ t.id)
    (name : String) : IsNew base h' (h'.field t name) := by
  by_cases hv : h'.field t name = .nil
  · rw [hv]
    trivial
  · exact (b.built.slot t ht _ hv).2

theorem addStrings (b : Builds base h h') (r : RuntimeRef) {globals : TableRef}
    (hg : base.tables.size ≤ globals.id) : Builds base h (Guest.addStrings r globals h').2 :=
  (b.addTable.setField b.fresh.1 _ (b.addTable.field hg "string")).addFunctions b.fresh.1 r _

theorem addRuntime (b : Builds base h h') (r : RuntimeRef) :
    Builds base h (Guest.addRuntime r h').2 ∧
      IsNew base (Guest.addRuntime r h').2 (.table (Guest.addRuntime r h').1.globals) := by
  obtain ⟨b₁, hg⟩ := b.addGlobals r
  unfold Guest.addRuntime
  dsimp only
  generalize Guest.addGlobals r h' = p at b₁ hg ⊢
  obtain ⟨b₂, hl⟩ := (refl b₁.built).addLoaded hg
  generalize Guest.addLoaded p.1 p.2 = q at b₂ hl ⊢
  have b₃ := (refl b₂.built).foldl (fun _ e b => b.addLibrary hg.1 hl.1 r e)
    LibraryFunction.tables
  have b₄ := ((b₃.addPackage hg.1 (b₃.isNew hl)).addStrings r hg.1).addObjectType r "StreamProxy"
    LibraryFunction.streamMethods (some .streamText)
  have b₅ := b₂.trans (((b₄.addObjectType r "FILE*" LibraryFunction.fileMethods
    (some .fileText)).addObjectType r "HandleData" [] none).addObjectType r "error" []
    (some .failureText))
  exact ⟨b₁.trans b₅, b₅.isNew hg⟩

/-! ### The capability table -/

theorem putCode (b : Builds base h h') {t : TableRef} (ht : base.tables.size ≤ t.id)
    (r : RuntimeRef) (name : String) {c : Code} (hc : ∀ p captures, c ≠ .closure p captures) :
    Builds base h (ScriptShell.putCode r t name c h') :=
  (b.addFunction hc).setField ht _ (b.freshFunction _)

theorem addPropertyTable (b : Builds base h h') (r : RuntimeRef) (table : PropertyTable) :
    Builds base h (ScriptShell.addPropertyTable r table h').2 ∧
      IsNew base (ScriptShell.addPropertyTable r table h').2
        (.table (ScriptShell.addPropertyTable r table h').1) := by
  have ht := b.fresh
  have b₁ := refl b.addTable.built
  have hm := b₁.fresh
  have b₂ := ((refl b₁.addTable.built).putCode hm.1 r "__index" (c := .propertyGet table)
    (by simp)).putCode hm.1 r "__newindex" (c := .propertySet table) (by simp)
  -- with a length or without it, the metatable comes last
  have key {h₃ : Heap} (b₃ : Builds base ((h'.addTable {}).2.addTable {}).2 h₃) :
      Builds base h (h₃.setMetatable (h'.addTable {}).1 (some ((h'.addTable {}).2.addTable {}).1)) ∧
        IsNew base (h₃.setMetatable (h'.addTable {}).1 (some ((h'.addTable {}).2.addTable {}).1))
          (.table (h'.addTable {}).1) := by
    have b₄ := b₁.addTable.trans (b₃.setMetatable ht.1 (b₃.isNew hm))
    exact ⟨b.addTable.trans b₄, b₄.isNew ht⟩
  unfold ScriptShell.addPropertyTable
  dsimp only
  split
  · exact key (b₂.putCode hm.1 r "__len" (by simp))
  · exact key b₂

theorem putFunctions (b : Builds base h h') {globals t : TableRef}
    (hg : base.tables.size ≤ globals.id) (ht : base.tables.size ≤ t.id) (r : RuntimeRef)
    (functions : TextMap HostFunction) :
    Builds base h (Session.putFunctions r globals t functions h') := by
  refine b.foldl (fun h' e b => ?_) functions.entries
  have hf := b.freshFunction ⟨r, .host e.2⟩
  have b₁ := b.addFunction (f := ⟨r, .host e.2⟩) (by simp)
  have b₂ := (refl b₁.built).setField hg "print" hf
  dsimp only
  split
  · exact b₁.trans (b₂.setField ht e.1 (b₂.isNew hf))
  · exact b₁.setField ht e.1 hf

theorem putLibrary (b : Builds base h h') {globals t : TableRef}
    (hg : base.tables.size ≤ globals.id) (ht : base.tables.size ≤ t.id) :
    Builds base h (Session.putLibrary globals t h') := by
  unfold Session.putLibrary
  dsimp only
  split
  · next io hio =>
    have hio := b.field hg "io"
    rw [‹h'.field globals "io" = _›] at hio
    have b₁ := (refl b.built).setField ht "lines" (b.field hio.1 "lines")
    have b₂ := b.trans (b₁.setField ht "open" (b₁.isNew (b.field hio.1 "open")))
    exact b₂.setField ht "loadfile" (b₂.field hg "loadfile")
  · exact b.setField ht "loadfile" (b.field hg "loadfile")

theorem putCollections (b : Builds base h h') {t : TableRef} (ht : base.tables.size ≤ t.id)
    (r : RuntimeRef) (kinds : List CollectionKind) :
    Builds base h (Session.putCollections r t kinds h') := by
  refine b.foldl (fun h' kind b => ?_) kinds
  obtain ⟨b₁, hc⟩ := b.addPropertyTable r (.collection kind)
  have b₂ := b₁.setField ht kind.field hc
  dsimp only
  split
  · exact (b₂.putCode ht r "getalias" (by simp)).putCode ht r "setalias" (by simp)
  · exact b₂

theorem putKeys (b : Builds base h h') {t : TableRef} (ht : base.tables.size ≤ t.id)
    (r : RuntimeRef) (hooks : RegistryRef) : Builds base h (Session.putKeys r t hooks h') := by
  obtain ⟨b₁, hk⟩ := b.addPropertyTable r (.keys hooks)
  exact (b₁.setField ht "key" hk).putCode ht r "bindkey" (by simp)

theorem addCapabilities (b : Builds base h h') {runtime : Runtime}
    (hg : base.tables.size ≤ runtime.globals.id) (r : RuntimeRef) (capabilities : Capabilities)
    (hooks : RegistryRef) (path? : Option String) :
    Builds base h (Session.addCapabilities r runtime capabilities hooks path? h').2 ∧
      IsNew base (Session.addCapabilities r runtime capabilities hooks path? h').2
        (.table (Session.addCapabilities r runtime capabilities hooks path? h').1) := by
  obtain ⟨b₁, ht⟩ := b.addPropertyTable r (.capabilities capabilities.scalars hooks)
  unfold Session.addCapabilities
  dsimp only
  generalize ScriptShell.addPropertyTable r (.capabilities capabilities.scalars hooks) h' = p
    at b₁ ht ⊢
  have b₂ := (((refl b₁.built).putFunctions hg ht.1 r capabilities.functions).putLibrary hg
    ht.1).putCollections ht.1 r capabilities.collections
  -- with keys or without them, the texts come last
  have key {h₃ : Heap} (b₃ : Builds base p.2 h₃) :
      Builds base h ((h₃.setField p.1 "version" (.text Session.version)).setField p.1 "exe"
        (Session.executable path?)) ∧
        IsNew base ((h₃.setField p.1 "version" (.text Session.version)).setField p.1 "exe"
          (Session.executable path?)) (.table p.1) := by
    have hpath : IsNew base (h₃.setField p.1 "version" (.text Session.version))
        (Session.executable path?) := by
      cases path? <;> trivial
    have b₄ := (b₃.setField ht.1 "version" (v := .text Session.version) trivial).setField ht.1
      "exe" hpath
    exact ⟨b₁.trans b₄, b₄.isNew ht⟩
  split
  · exact key (b₂.putKeys ht.1 r hooks)
  · exact key b₂

theorem install (b : Builds base h h') {runtime : Runtime}
    (hg : base.tables.size ≤ runtime.globals.id) (r : RuntimeRef) (config : Config)
    (capabilities : Capabilities) (hooks : RegistryRef) (path? : Option String) :
    Builds base h (Session.install r runtime config capabilities hooks path? h') := by
  obtain ⟨b₁, ht⟩ := b.addCapabilities hg r capabilities hooks path?
  have b₂ := b₁.setField hg config.namespaceName ht
  exact b₂.addTable.setField hg "share" b₂.fresh

end Builds

/-- The last steps of building a session: two tables get their names. -/
theorem own_of_setField (h : Heap) {g t : TableRef} (hg : g.id < t.id)
    (ht : t.id < h.tables.size) (name : String) :
    let h₁ := h.setField g name (.table t)
    let share := (h₁.addTable {}).1
    let h₂ := (h₁.addTable {}).2.setField g "share" (.table share)
    share.id < h₂.tables.size ∧ h₂.table share = {} ∧ h₂.field g "share" = .table share ∧
      h₂.field g name = .table (if name = "share" then share else t) := by
  intro h₁ share h₂
  have hid : share.id = h.tables.size := size_modifyTable ..
  have hs : (h₁.addTable {}).2.tables.size = h.tables.size + 1 := by
    rw [addTable, Array.size_push, ← hid]
    rfl
  have hg₂ : g.id < (h₁.addTable {}).2.tables.size := by omega
  have hne : g ≠ share := fun he => by rw [he] at hg; omega
  refine ⟨?_, ?_, ?_, ?_⟩
  · show share.id < ((h₁.addTable {}).2.setField g "share" (.table share)).tables.size
    rw [setField, setSlot, size_modifyTable]
    omega
  · show ((h₁.addTable {}).2.setField g "share" (.table share)).table share = {}
    rw [setField, setSlot, table_modifyTable, if_neg fun he => hne he.1, table_addTable]
    exact if_pos rfl
  · rw [field_setField _ hg₂, if_pos ⟨rfl, rfl⟩]
  · rw [field_setField _ hg₂]
    by_cases hn : name = "share"
    · rw [if_pos ⟨rfl, hn.symm⟩, if_pos hn]
    · rw [if_neg fun he => hn he.2.symm, if_neg hn, field, table_addTable]
      refine (congrArg (Table.get · _) (if_neg fun he => hne (TableRef.ext he))).trans ?_
      show h₁.field g name = _
      rw [field_setField h (Nat.lt_trans hg ht), if_pos ⟨rfl, rfl⟩]

end Guest.Heap

open Guest (Heap TableRef)

/-! ## The parts of a new session -/

open Guest (Heap TableRef)

namespace World

variable (w : World) (shell : ShellRef) (capabilities : Capabilities) (config : Config)

/-- The runtime that the next session gets. -/
def nextRuntime : Guest.Runtime := (Guest.addRuntime ⟨w.runtimes.size⟩ w.heap).1

theorem runtime_addRuntime (w : World) :
    (w.addRuntime.2.runtime ⟨w.runtimes.size⟩).runtime = w.nextRuntime := by
  show ((w.runtimes.push { runtime := w.nextRuntime })[w.runtimes.size]?.getD default).runtime = _
  rw [Array.getElem?_push_size]
  rfl

theorem heap_placeSession :
    (w.placeSession shell capabilities config).2.heap =
      Session.install ⟨w.runtimes.size⟩ w.nextRuntime config capabilities w.addRegistry.1
        w.executable? (Guest.addRuntime ⟨w.runtimes.size⟩ w.heap).2 := by
  rw [← runtime_addRuntime]
  rfl

theorem session_placeSession :
    (w.placeSession shell capabilities config).2.session
        (w.placeSession shell capabilities config).1 =
      { runtime := ⟨w.runtimes.size⟩, hooks := w.addRegistry.1, capabilities := capabilities,
        shell := shell, config := config } := by
  show (w.sessions.push _)[w.sessions.size]?.getD default = _
  rw [Array.getElem?_push_size]
  rfl

theorem runtimes_placeSession :
    (w.placeSession shell capabilities config).2.runtimes =
      w.runtimes.push { runtime := w.nextRuntime } := by
  simp only [placeSession, addRuntime, addRegistry, withHeap, modifyHeap, nextRuntime]

theorem runtime_placeSession :
    ((w.placeSession shell capabilities config).2.runtime ⟨w.runtimes.size⟩).runtime =
      w.nextRuntime := by
  rw [World.runtime, runtimes_placeSession, Array.getElem?_push_size, Option.getD_some]

/-- The library is built, and the global variables are in a new table. -/
theorem builds_addRuntime :
    w.heap.Builds w.heap (Guest.addRuntime ⟨w.runtimes.size⟩ w.heap).2 ∧
      w.heap.IsNew (Guest.addRuntime ⟨w.runtimes.size⟩ w.heap).2 (.table w.nextRuntime.globals) :=
  (Heap.Builds.refl (.refl w.heap)).addRuntime ⟨w.runtimes.size⟩

/-- The new session is built behind the heap, from new things only. -/
theorem built_placeSession :
    w.heap.Built (w.placeSession shell capabilities config).2.heap := by
  rw [heap_placeSession]
  exact (w.builds_addRuntime.1.install w.builds_addRuntime.2.1 _ config capabilities _ _).built

/-- The global variables of the new session are in a new table. -/
theorem isNew_globals : w.heap.IsNew (w.placeSession shell capabilities config).2.heap
    (.table w.nextRuntime.globals) := by
  rw [heap_placeSession]
  obtain ⟨b, hg⟩ := w.builds_addRuntime
  exact ((Heap.Builds.refl b.built).install hg.1 _ config capabilities _ _).isNew hg

/-- The new session has a place for hooks. -/
theorem registry_placeSession : w.addRegistry.1.id <
    (w.placeSession shell capabilities config).2.host.registries.size := by
  show w.host.registries.size < (w.host.registries.push {}).size
  rw [Array.size_push]
  exact Nat.lt_succ_self _

/-- Everything that was there before the session is as it was. -/
theorem keeps_placeSession : w.heap.Keeps (w.placeSession shell capabilities config).2.heap :=
  (w.built_placeSession shell capabilities config).keeps

theorem fst_addCapabilities (r : Guest.RuntimeRef) (runtime : Guest.Runtime) (hooks : RegistryRef)
    (path? : Option String) (h : Heap) :
    (Session.addCapabilities r runtime capabilities hooks path? h).1 = ⟨h.tables.size⟩ := rfl

/-- The capability table and the empty `share` table come behind the global variables, and the
second takes the name where both have the same. -/
theorem own_placeSession :
    ∃ t share : TableRef, w.nextRuntime.globals.id < t.id ∧ t.id < share.id ∧
      share.id < (w.placeSession shell capabilities config).2.heap.tables.size ∧
      (w.placeSession shell capabilities config).2.heap.table share = {} ∧
      (w.placeSession shell capabilities config).2.heap.field w.nextRuntime.globals "share" =
        .table share ∧
      (w.placeSession shell capabilities config).2.heap.field w.nextRuntime.globals
        config.namespaceName = .table (if config.namespaceName = "share" then share else t) := by
  obtain ⟨b, hg⟩ := w.builds_addRuntime
  have ht := ((Heap.Builds.refl b.built).addCapabilities hg.1 ⟨w.runtimes.size⟩ capabilities
    w.addRegistry.1 w.executable?).2.2
  have hgt : w.nextRuntime.globals.id < (Session.addCapabilities ⟨w.runtimes.size⟩ w.nextRuntime
    capabilities w.addRegistry.1 w.executable?
      (Guest.addRuntime ⟨w.runtimes.size⟩ w.heap).2).1.id := by
    rw [fst_addCapabilities]
    dsimp only
    exact hg.table_lt
  rw [heap_placeSession, Session.install]
  dsimp only
  generalize Session.addCapabilities ⟨w.runtimes.size⟩ w.nextRuntime capabilities w.addRegistry.1
    w.executable? (Guest.addRuntime ⟨w.runtimes.size⟩ w.heap).2 = p at ht hgt ⊢
  have hid := Heap.size_modifyTable p.2 w.nextRuntime.globals
    (·.set (.text config.namespaceName) (.table p.1))
  exact ⟨p.1, _, hgt, Nat.lt_of_lt_of_eq ht hid.symm,
    Heap.own_of_setField p.2 hgt ht config.namespaceName⟩

end World

namespace Bridge

variable {shell : ShellRef} {capabilities : Capabilities} {b : Bridge} {w : World}

/-- A session that cannot be made leaves the bridge and the process as they are. -/
theorem run_newSession_of_error {e : BridgeError}
    (h : w.addSession shell capabilities b.config = .error e) :
    (newSession shell capabilities).run.run (b, w) = (.error e, b, w) := by
  show ((MonadExcept.ofExcept (w.addSession shell capabilities b.config) >>= fun _ =>
    _ : ExceptT BridgeError (StateM (Bridge × World)) SessionRef)).run.run (b, w) = _
  rw [h]
  rfl

/-- One that can be made is the tag of its shell, and the events are connected. -/
theorem run_newSession_of_ok {s : SessionRef} {w' : World}
    (h : w.addSession shell capabilities b.config = .ok (s, w')) :
    (newSession shell capabilities).run.run (b, w) =
      (.ok s, b.connect, w'.setTag shell (some s)) := by
  show ((MonadExcept.ofExcept (w.addSession shell capabilities b.config) >>= fun _ =>
    _ : ExceptT BridgeError (StateM (Bridge × World)) SessionRef)).run.run (b, w) = _
  rw [h]
  rfl

end Bridge
end ScriptShell
