import Mathlib.Data.List.Nodup
import ScriptShell.Proofs.CopyInvariant

/-! # The steps of a copy

What copying does to its state one thing at a time: a table is made, gets a pair and gets its
metatable; a function is made, gets a variable and is given up; a handle is made.  Each step keeps
the invariant.  All of them but giving up lead to a later state (`Copying.Extends`), and where a
variable held the copy of what is in the original it goes on to hold one
(`Copying.KeepsVariables`).
-/

namespace ScriptShell

open Guest

namespace Copying

variable {s c : Copying}

theorem lookup_cons_of_ne {α β : Type} [BEq α] [LawfulBEq α] {a b : α} (h : a ≠ b) (v : β)
    (es : List (α × β)) : ((b, v) :: es).lookup a = es.lookup a := by
  rw [List.lookup_cons, beq_false_of_ne h]

/-! ## Tables -/

theorem table_openTable (c : Copying) (t u : TableRef) :
    (c.openTable t).heap.table u = c.heap.table u := by
  rw [openTable, Heap.table_addTable]
  split
  · next hu => rw [Heap.table_of_ge (Nat.le_of_eq hu.symm)]
  · rfl

theorem lookup_openTable {t t' : TableRef} (c : Copying) (h : t' ≠ t) :
    (c.openTable t).tables.lookup t' = c.tables.lookup t' := lookup_cons_of_ne h _ _

theorem extends_openTable {t : TableRef} (hl : c.tables.lookup t = none) :
    c.Extends (c.openTable t) where
  source := rfl
  target := rfl
  globals := rfl
  size := by
    rw [openTable, Heap.addTable, Array.size_push]
    exact Nat.le_succ _
  functions := .refl _
  user _ _ h := h
  slot u k _ := by rw [table_openTable]
  metatable u m h := by rw [table_openTable, h]
  lookupTable t' u h := by
    rw [lookup_openTable c, h]
    intro he
    rw [he, hl] at h
    cases h
  lookupFunction _ _ h := h
  mem _ h := h

/-- A counterpart is the table that was made, or was there before. -/
theorem lookup_openTable_cases {t t' u : TableRef}
    (hl : (c.openTable t).tables.lookup t' = some u) :
    t' = t ∧ u.id = c.heap.tables.size ∨ c.tables.lookup t' = some u := by
  by_cases ht : t' = t
  · rw [ht, openTable, List.lookup_cons_self] at hl
    cases hl
    exact .inl ⟨ht, rfl⟩
  · rw [lookup_openTable c ht] at hl
    exact .inr hl

theorem tablesSound_openTable {t : TableRef} (h : s.Sound c) (hl : c.tables.lookup t = none)
    (hg : ∀ v v', s.Given c v v' → s.Given (c.openTable t) v v') :
    s.TablesSound (c.openTable t) where
  table t' u hl' := by
    have hsize : (c.openTable t).heap.tables.size = c.heap.tables.size + 1 := Array.size_push ..
    rw [hsize]
    rcases lookup_openTable_cases hl' with ⟨-, hu⟩ | hl'
    · rw [hu]
      exact ⟨Nat.lt_succ_self _, .inr h.later.size⟩
    · have ht := h.tables.table t' u hl'
      exact ⟨Nat.lt_succ_of_lt ht.1, ht.2⟩
  injective t₁ t₂ u hu hl₁ hl₂ := by
    rcases lookup_openTable_cases hl₁ with ⟨ht₁, hu₁⟩ | hold₁ <;>
      rcases lookup_openTable_cases hl₂ with ⟨ht₂, hu₂⟩ | hold₂
    · rw [ht₁, ht₂]
    · have hlt := (h.tables.table t₂ u hold₂).1
      omega
    · have hlt := (h.tables.table t₁ u hold₁).1
      omega
    · exact h.tables.injective t₁ t₂ u hu hold₁ hold₂
  origin t' u hu hl' := by
    rcases lookup_openTable_cases hl' with ⟨rfl, hid⟩ | hl'
    · intro k hk
      rw [table_openTable, Heap.table_of_ge (Nat.le_of_eq hid.symm)] at hk
      exact absurd rfl hk
    · exact (h.tables.origin t' u hu hl').mono (fun k => by rw [table_openTable]) rfl hg
  metatable t' u m' hu hl' hm := by
    rw [table_openTable] at hm
    rcases lookup_openTable_cases hl' with ⟨rfl, hid⟩ | hl'
    · rw [Heap.table_of_ge (Nat.le_of_eq hid.symm)] at hm
      cases hm
    · obtain ⟨m, hsrc, hlm⟩ := h.tables.metatable t' u m' hu hl' hm
      exact ⟨m, hsrc, (extends_openTable hl).lookupTable m m' hlm⟩
  slots u k hu hk := by
    rw [table_openTable] at hk ⊢
    have hp := h.tables.slots u k hu hk
    exact ⟨hp.1.mono hg, hp.2.mono hg⟩
  metatables u m hu hm := by
    rw [table_openTable] at hm
    exact (h.tables.metatables u m hu hm).mono hg

theorem sound_openTable {t : TableRef} (h : s.Sound c) (hl : c.tables.lookup t = none) :
    s.Sound (c.openTable t) :=
  have x := extends_openTable hl
  have hg := given_of_same h.functions x rfl
  ⟨h.start, h.globals, h.later.trans x, h.keeps.addTable _, tablesSound_openTable h hl hg,
    h.functions.of_same rfl rfl rfl h.later x hg⟩

section SetSlot

variable {t into : TableRef} {k k' : Key} {v' : Value}

theorem extends_setSlot {v : Value} (hlt : into.id < c.heap.tables.size)
    (hnil : (c.heap.table into).get k' = .nil) : c.Extends (c.setSlot into k' v) where
  source := rfl
  target := rfl
  globals := rfl
  size := Nat.le_of_eq (Heap.size_modifyTable ..).symm
  functions := .refl _
  user _ _ h := h
  slot u key hk := by
    rw [setSlot, Heap.get_setSlot c.heap hlt, if_neg]
    rintro ⟨rfl, rfl⟩
    exact hk hnil
  metatable u m h := by rw [setSlot, Heap.metatable_setSlot, h]
  lookupTable _ _ h := h
  lookupFunction _ _ h := h
  mem _ h := h

/-- The copy of a pair comes from where it should. -/
theorem From.setSlot (h : s.From c t into) (hlt : into.id < c.heap.tables.size)
    (hkey : s.Given (c.setSlot into k' v') k.toValue k'.toValue)
    (hval : s.Given (c.setSlot into k' v') ((c.source.table t).get k) v')
    (hg : ∀ v v'', s.Given c v v'' → s.Given (c.setSlot into k' v') v v'') :
    s.From (c.setSlot into k' v') t into := by
  intro key hk
  rw [Copying.setSlot, Heap.get_setSlot c.heap hlt] at hk ⊢
  by_cases he : k' = key
  · subst he
    rw [if_pos ⟨rfl, rfl⟩]
    exact .inr ⟨k, hkey, hval⟩
  · rw [if_neg fun h => he h.2] at hk ⊢
    rcases h key hk with hold | ⟨k₁, hkey₁, hval₁⟩
    · exact .inl hold
    · exact .inr ⟨k₁, hg _ _ hkey₁, hg _ _ hval₁⟩

theorem tablesSound_setSlot (h : s.Sound c) (hlt : into.id < c.heap.tables.size)
    (hmade : s.heap.tables.size ≤ into.id → c.tables.lookup t = some into)
    (hg : ∀ v v'', s.Given c v v'' → s.Given (c.setSlot into k' v') v v'')
    (hkey : s.Given c k.toValue k'.toValue) (hval : s.Given c ((c.source.table t).get k) v') :
    s.TablesSound (c.setSlot into k' v') where
  table := by
    rw [show (c.setSlot into k' v').heap.tables.size = c.heap.tables.size from
      Heap.size_modifyTable ..]
    exact h.tables.table
  injective := h.tables.injective
  origin t' u hu hl := by
    have hfrom := h.tables.origin t' u hu hl
    by_cases he : into = u
    · -- only one table has this counterpart, so it is the one that the pair is from
      subst he
      cases h.tables.injective t t' into hu (hmade hu) hl
      exact hfrom.setSlot hlt (hg _ _ hkey) (hg _ _ hval) hg
    · refine hfrom.mono (fun key => ?_) rfl hg
      rw [setSlot, Heap.get_setSlot c.heap hlt, if_neg fun h => he h.1]
  metatable t' u m' hu hl hm := by
    rw [setSlot, Heap.metatable_setSlot] at hm
    exact h.tables.metatable t' u m' hu hl hm
  slots u key hu hk := by
    rw [setSlot, Heap.get_setSlot c.heap hlt] at hk ⊢
    split
    · next he =>
      rw [← he.2]
      exact ⟨.inl ⟨_, hg _ _ hkey⟩, .inl ⟨_, hg _ _ hval⟩⟩
    · next he =>
      rw [if_neg he] at hk
      have hp := h.tables.slots u key hu hk
      exact ⟨hp.1.mono hg, hp.2.mono hg⟩
  metatables u m hu hm := by
    rw [setSlot, Heap.metatable_setSlot] at hm
    exact (h.tables.metatables u m hu hm).mono hg

theorem sound_setSlot (h : s.Sound c) (hnew : s.source.tables.size ≤ into.id)
    (hlt : into.id < c.heap.tables.size)
    (hmade : s.heap.tables.size ≤ into.id → c.tables.lookup t = some into)
    (hnil : (c.heap.table into).get k' = .nil) (hkey : s.Given c k.toValue k'.toValue)
    (hval : s.Given c ((c.source.table t).get k) v') : s.Sound (c.setSlot into k' v') :=
  have x := extends_setSlot hlt hnil (v := v')
  have hg := given_of_same h.functions x rfl
  ⟨h.start, h.globals, h.later.trans x, h.keeps.setSlot hnew _ _,
    tablesSound_setSlot h hlt hmade hg hkey hval, h.functions.of_same rfl rfl rfl h.later x hg⟩

end SetSlot

section SetMetatable

variable {t u m m' : TableRef}

theorem get_setMetatable (c : Copying) (u m' v : TableRef) (k : Key) :
    ((c.setMetatable u m').heap.table v).get k = (c.heap.table v).get k :=
  Heap.get_setMetatable ..

/-- A metatable that is there already is the same one, because it is the copy of the same one. -/
theorem extends_setMetatable (h : s.Sound c) (hu : s.heap.tables.size ≤ u.id)
    (hl : c.tables.lookup t = some u) (hm : (c.source.table t).metatable? = some m)
    (hlm : c.tables.lookup m = some m') : c.Extends (c.setMetatable u m') where
  source := rfl
  target := rfl
  globals := rfl
  size := Nat.le_of_eq (Heap.size_modifyTable ..).symm
  functions := .refl _
  user _ _ h := h
  slot v k _ := get_setMetatable ..
  metatable v m₁ h₁ := by
    rw [setMetatable, Heap.metatable_setMetatable _ (h.tables.table t u hl).1]
    split
    · next he =>
      subst he
      obtain ⟨m₂, hm₂, hlm₂⟩ := h.tables.metatable t u m₁ hu hl h₁
      rw [hm] at hm₂
      cases hm₂
      rw [← hlm, hlm₂]
    · exact h₁
  lookupTable _ _ h := h
  lookupFunction _ _ h := h
  mem _ h := h

theorem tablesSound_setMetatable (h : s.Sound c) (hu : s.heap.tables.size ≤ u.id)
    (hl : c.tables.lookup t = some u) (hm : (c.source.table t).metatable? = some m)
    (hlm : c.tables.lookup m = some m')
    (hg : ∀ v v', s.Given c v v' → s.Given (c.setMetatable u m') v v') :
    s.TablesSound (c.setMetatable u m') where
  table := by
    rw [show (c.setMetatable u m').heap.tables.size = c.heap.tables.size from
      Heap.size_modifyTable ..]
    exact h.tables.table
  injective := h.tables.injective
  origin t' v hv hl' := (h.tables.origin t' v hv hl').mono (get_setMetatable c u m' v) rfl hg
  metatable t' v m₁ hv hl' hm₁ := by
    rw [setMetatable, Heap.metatable_setMetatable _ (h.tables.table t u hl).1] at hm₁
    split at hm₁
    · next he =>
      subst he
      cases hm₁
      cases h.tables.injective t t' u hu hl hl'
      exact ⟨m, hm, hlm⟩
    · exact h.tables.metatable t' v m₁ hv hl' hm₁
  slots v k hv hk := by
    rw [get_setMetatable] at hk ⊢
    have hp := h.tables.slots v k hv hk
    exact ⟨hp.1.mono hg, hp.2.mono hg⟩
  metatables v m₁ hv hm₁ := by
    rw [setMetatable, Heap.metatable_setMetatable _ (h.tables.table t u hl).1] at hm₁
    split at hm₁
    · cases hm₁
      have hpairs : c.Pairs (.table m) (.table m') := ⟨m', hlm, rfl⟩
      exact .inl ⟨.table m, hg _ _ (.of_pairs hpairs fun _ => Value.noConfusion)⟩
    · exact (h.tables.metatables v m₁ hv hm₁).mono hg

theorem sound_setMetatable (h : s.Sound c) (hu : s.heap.tables.size ≤ u.id)
    (hl : c.tables.lookup t = some u) (hm : (c.source.table t).metatable? = some m)
    (hlm : c.tables.lookup m = some m') : s.Sound (c.setMetatable u m') :=
  have x := extends_setMetatable h hu hl hm hlm
  have hg := given_of_same h.functions x rfl
  have hnew : s.source.tables.size ≤ u.id := Nat.le_trans h.start hu
  ⟨h.start, h.globals, h.later.trans x, h.keeps.setMetatable hnew _,
    tablesSound_setMetatable h hu hl hm hlm hg, h.functions.of_same rfl rfl rfl h.later x hg⟩

end SetMetatable

theorem extends_addHandle (c : Copying) (handle : Handle) : c.Extends (c.addHandle handle) where
  source := rfl
  target := rfl
  globals := rfl
  size := Nat.le_refl _
  functions := .refl _
  user y x hy := by
    have hne : y.id ≠ c.heap.users.size := by
      intro he
      rw [Heap.user, Array.getElem?_eq_none (Nat.le_of_eq he.symm)] at hy
      cases hy
    rw [addHandle, Heap.addUser, Heap.user, Array.getElem?_push, if_neg hne]
    exact hy
  slot _ _ _ := rfl
  metatable _ _ h := h
  lookupTable _ _ h := h
  lookupFunction _ _ h := h
  mem _ h := h

theorem sound_addHandle (h : s.Sound c) (handle : Handle) : s.Sound (c.addHandle handle) := by
  have x := extends_addHandle c handle
  have hg := given_of_same h.functions x rfl
  exact ⟨h.start, h.globals, h.later.trans x, h.keeps.addUser _, h.tables.of_same rfl rfl rfl hg,
    h.functions.of_same rfl rfl rfl h.later x hg⟩

/-! ## Functions -/

/-- What making new variables does. -/
structure Freshened (h : Heap) (first : Value) (sources : List CellRef)
    (r : List (CellRef × CellRef) × Heap) : Prop where
  /-- There is one for each. -/
  sources : r.1.map (·.1) = sources
  /-- Only variables are made. -/
  heap : r.2 = { h with cells := r.2.cells }
  /-- All that were there are there. -/
  cells : StartsWith h.cells r.2.cells
  /-- The first one holds the value, the others nothing. -/
  loaded : ∀ i e, r.1[i]? = some e → r.2.cell e.2 = if i = 0 then first else .nil
  /-- Nothing else is in any that was not there. -/
  cell : ∀ b, h.cells.size ≤ b.id → r.2.cell b = .nil ∨ r.2.cell b = first
  /-- They are new. -/
  fresh : ∀ e ∈ r.1, h.cells.size ≤ e.2.id ∧ e.2.id < r.2.cells.size
  /-- No two are the same. -/
  distinct : (r.1.map (·.2)).Nodup

theorem cell_of_startsWith {h h' : Heap} (k : StartsWith h.cells h'.cells) {b : CellRef}
    (hb : b.id < h.cells.size) : h'.cell b = h.cell b := by
  rw [Heap.cell, k.get _ hb, Heap.cell]

namespace Freshened

variable {h : Heap} {first : Value}

theorem nil (h : Heap) (first : Value) : Freshened h first [] ([], h) where
  sources := rfl
  heap := rfl
  cells := .refl _
  loaded i e he := by cases he
  cell b hb := by
    rw [Heap.cell, Array.getElem?_eq_none hb]
    exact .inl rfl
  fresh e he := (List.not_mem_nil he).elim
  distinct := .nil

/-- The variable that is made first keeps its value while the others are made. -/
theorem cell_first {v : Value} {rest : List CellRef} {r : List (CellRef × CellRef) × Heap}
    (hr : Freshened (h.addCell first).2 v rest r) : r.2.cell ⟨h.cells.size⟩ = first := by
  have hlt : h.cells.size < (h.addCell first).2.cells.size := by
    rw [Heap.addCell, Array.size_push]
    exact Nat.lt_succ_self _
  have hcell : (h.addCell first).2.cell ⟨h.cells.size⟩ = first := by
    rw [Heap.addCell, Heap.cell, Array.getElem?_push_size]
    rfl
  exact (cell_of_startsWith hr.cells hlt).trans hcell

theorem cons (a : CellRef) {rest : List CellRef} {r : List (CellRef × CellRef) × Heap}
    (hr : Freshened (h.addCell first).2 .nil rest r) :
    Freshened h first (a :: rest) ((a, ⟨h.cells.size⟩) :: r.1, r.2) := by
  have hsize : (h.addCell first).2.cells.size = h.cells.size + 1 := Array.size_push ..
  -- the first one is old to those that come after it
  have hlater (e : CellRef × CellRef) (he : e ∈ r.1) : h.cells.size < e.2.id := by
    have hb := (hr.fresh e he).1
    omega
  refine ⟨congrArg (a :: ·) hr.sources, hr.heap, ?_, fun i e he => ?_, fun b hb => ?_,
    fun e he => ?_, ?_⟩
  · exact ((StartsWith.refl h.cells).push first).trans hr.cells
  · cases i with
    | zero =>
      cases he
      exact hr.cell_first
    | succ i =>
      rw [hr.loaded i e he, if_neg (Nat.succ_ne_zero i), ite_self]
  · by_cases hfirst : b = ⟨h.cells.size⟩
    · rw [hfirst]
      exact .inr hr.cell_first
    · have hne : b.id ≠ h.cells.size := fun hid => hfirst (CellRef.ext hid)
      exact .inl ((hr.cell b (by omega)).elim id id)
  · have hcount : h.cells.size < r.2.cells.size := by
      have hle := hr.cells.size
      omega
    rcases List.mem_cons.1 he with rfl | he
    · exact ⟨Nat.le_refl _, hcount⟩
    · exact ⟨Nat.le_of_lt (hlater e he), (hr.fresh e he).2⟩
  · refine List.nodup_cons.2 ⟨fun hm => ?_, hr.distinct⟩
    obtain ⟨e, he, heq⟩ := List.mem_map.1 hm
    have hlt := hlater e he
    rw [heq] at hlt
    exact Nat.lt_irrefl _ hlt

end Freshened

theorem freshened (h : Heap) (first : Value) (sources : List CellRef) :
    Freshened h first sources (freshCells h first sources) := by
  induction sources generalizing h first with
  | nil => exact .nil h first
  | cons a rest ih => exact .cons a (ih (h.addCell first).2 .nil)

theorem freshened_loadCells (c : Copying) (as : List CellRef) :
    Freshened c.heap (.table c.globals) as (c.loadCells as) := freshened ..

section OpenFunction

variable {f : GuestFunction} {r : RuntimeRef} {p : Proto} {as : List CellRef}

theorem openFunction_eq (c : Copying) (f : GuestFunction) (p : Proto) (as : List CellRef) :
    c.openFunction f p as = { c with
      heap := { c.heap with
        cells := (c.loadCells as).2.cells
        functions := c.heap.functions.push
          ⟨c.target, .closure p ((c.loadCells as).1.map (·.2))⟩ }
      functions := (f, some c.nextFunction) :: c.functions } := by
  have hh := (freshened_loadCells c as).heap
  unfold openFunction
  generalize c.loadCells as = r at hh
  obtain ⟨cells, heap⟩ := r
  dsimp only at hh ⊢
  rw [hh]
  rfl

/-- The variables of what is made are put behind those that are there. -/
theorem cell_openFunction (c : Copying) (f : GuestFunction) (p : Proto) (as : List CellRef)
    {b : CellRef} (hb : b.id < c.heap.cells.size) :
    (c.openFunction f p as).heap.cell b = c.heap.cell b := by
  rw [openFunction_eq]
  exact cell_of_startsWith (freshened_loadCells c as).cells hb

theorem function_openFunction (c : Copying) (f : GuestFunction) (p : Proto) (as : List CellRef)
    (g : GuestFunction) : (c.openFunction f p as).heap.function? g =
      if g = c.nextFunction then
        some ⟨c.target, .closure p ((c.loadCells as).1.map (·.2))⟩
      else c.heap.function? g := by
  rw [openFunction_eq, Heap.function?, Array.getElem?_push]
  by_cases hg : g = c.nextFunction
  · rw [if_pos hg, hg]
    exact if_pos rfl
  · rw [if_neg hg]
    exact if_neg fun he => hg (GuestFunction.ext he)

theorem lookup_openFunction (c : Copying) {f f' : GuestFunction} (hf : f' ≠ f) (p : Proto)
    (as : List CellRef) : (c.openFunction f p as).functions.lookup f' = c.functions.lookup f' :=
  lookup_cons_of_ne hf _ _

theorem lookup_openFunction_self (c : Copying) (f : GuestFunction) (p : Proto)
    (as : List CellRef) :
    (c.openFunction f p as).functions.lookup f = some (some c.nextFunction) := by
  rw [openFunction_eq, List.lookup_cons_self]

theorem extends_openFunction (hl : c.functions.lookup f = none) :
    c.Extends (c.openFunction f p as) where
  source := rfl
  target := rfl
  globals := rfl
  size := Nat.le_of_eq (congrArg (fun c' => c'.heap.tables.size) (openFunction_eq c f p as)).symm
  functions := by
    rw [openFunction_eq]
    exact (StartsWith.refl _).push _
  user y handle h := by
    rw [openFunction_eq]
    exact h
  slot u k _ := by
    rw [openFunction_eq]
    rfl
  metatable u m h := by
    rw [openFunction_eq]
    exact h
  lookupTable _ _ h := h
  lookupFunction f' x h := by
    rw [lookup_openFunction c, h]
    rintro rfl
    rw [hl] at h
    cases h
  mem _ h := List.mem_cons_of_mem _ h

/-- The variables of what is made are the new ones. -/
theorem cellPairs_openFunction (hf : c.source.function? f = some ⟨r, .closure p as⟩) :
    (c.openFunction f p as).cellPairs f c.nextFunction = (c.loadCells as).1 := by
  have hg : (c.openFunction f p as).heap.captures c.nextFunction =
      (c.loadCells as).1.map (·.2) := by
    refine Heap.captures_of_closure (r := c.target) (p := p) ?_
    rw [function_openFunction, if_pos rfl]
  have hsource : (c.openFunction f p as).source.captures f = as := Heap.captures_of_closure hf
  rw [cellPairs, hsource, hg]
  exact (List.zip_of_prod (freshened_loadCells c as).sources rfl).symm

/-- They hold what loading puts there. -/
theorem unset_openFunction (hf : c.source.function? f = some ⟨r, .closure p as⟩)
    {e : CellRef × CellRef} (he : e ∈ (c.openFunction f p as).cellPairs f c.nextFunction) :
    (c.openFunction f p as).Unset f c.nextFunction e := by
  obtain ⟨i, hi⟩ := List.mem_iff_getElem?.1 he
  refine ⟨i, hi, ?_⟩
  rw [cellPairs_openFunction hf] at hi
  rw [openFunction_eq]
  exact (freshened_loadCells c as).loaded i e hi

theorem mem_openFunction {f' g : GuestFunction}
    (hm : (f', some g) ∈ (c.openFunction f p as).functions) :
    f' = f ∧ g = c.nextFunction ∨ (f', some g) ∈ c.functions := by
  rw [openFunction_eq] at hm
  rcases List.mem_cons.1 hm with he | hm
  · cases he
    exact .inl ⟨rfl, rfl⟩
  · exact .inr hm

theorem keepsVariables_openFunction (h : s.FunctionsSound c) (hl : c.functions.lookup f = none) :
    s.KeepsVariables c (c.openFunction f p as) :=
  .of_cell (extends_openFunction hl) fun _ g hg _ e he =>
    cell_openFunction c f p as (h.ownCell g e.2 hg (List.of_mem_zip he).2).2

theorem given_openFunction (h : s.FunctionsSound c) (hl : c.functions.lookup f = none)
    (v v' : Value) (hv : s.Given c v v') : s.Given (c.openFunction f p as) v v' :=
  hv.mono (extends_openFunction hl) h (keepsVariables_openFunction h hl)

/-- What is made is a copy. -/
theorem copy_nextFunction (h : s.Sound c) (hl : c.functions.lookup f = none)
    (hf : c.source.function? f = some ⟨r, .closure p as⟩) :
    s.Copy (c.openFunction f p as) f c.nextFunction where
  fresh := by
    cases hs : s.functions.lookup f with
    | none => rfl
    | some v =>
      rw [h.later.lookupFunction f v hs] at hl
      cases hl
  mirrors := by
    refine ⟨r, p, as, (c.loadCells as).1.map (·.2), hf, ?_, ?_⟩
    · rw [function_openFunction, if_pos rfl]
      rfl
    · have hlen := congrArg List.length (freshened_loadCells c as).sources
      rw [List.length_map] at hlen
      rw [List.length_map, hlen]
  state := .inl (lookup_openFunction_self c f p as)

/-- The variables of what is made are not those of anything else. -/
theorem fresh_of_mem_cellPairs {e : CellRef × CellRef} (he : e ∈ (c.loadCells as).1)
    {f' g : GuestFunction} (h : s.FunctionsSound c) (hg : s.heap.functions.size ≤ g.id)
    {e' : CellRef × CellRef} (he' : e' ∈ c.cellPairs f' g) : e.2 ≠ e'.2 := by
  intro heq
  have hlow := ((freshened_loadCells c as).fresh e he).1
  have hup := (h.ownCell g e'.2 hg (List.of_mem_zip he').2).2
  rw [heq] at hlow
  omega

/-- What was made earlier is something else. -/
theorem ne_nextFunction {f' g : GuestFunction} (h : s.FunctionsSound c)
    (hm : (f', some g) ∈ c.functions) : g ≠ c.nextFunction := by
  rintro rfl
  exact Nat.lt_irrefl _ (h.function f' _ hm).1

/-- What was a copy stays one. -/
theorem copy_openFunction (h : s.Sound c) (hl : c.functions.lookup f = none)
    {f' g : GuestFunction} (hmade : s.heap.functions.size ≤ g.id)
    (hm : (f', some g) ∈ c.functions) : s.Copy (c.openFunction f p as) f' g := by
  have x : c.Extends (c.openFunction f p as) := extends_openFunction hl
  have hne {v : Option GuestFunction} (hl' : c.functions.lookup f' = some v) : f' ≠ f := by
    rintro rfl
    rw [hl] at hl'
    cases hl'
  obtain ⟨hfresh, hmirrors, hstate⟩ := h.functions.copy f' g hmade hm
  refine ⟨hfresh, ?_, ?_⟩
  · rw [function_openFunction, if_neg (ne_nextFunction h.functions hm)]
    exact hmirrors
  · rw [lookup_openFunction c (hstate.elim (hne ·) (hne ·.1))]
    refine hstate.imp_right fun hhalf => ⟨hhalf.1, ?_⟩
    exact hhalf.2.of_cell h.later rfl rfl (x.cellPairs h.functions hm) fun e he =>
      cell_openFunction c f p as (h.functions.ownCell g e.2 hmade (List.of_mem_zip he).2).2

/-- The variables hold what belongs there, the new ones what loading puts there. -/
theorem cells_openFunction (h : s.Sound c) (hl : c.functions.lookup f = none) {b : CellRef}
    (hb : s.source.cells.size ≤ b.id) :
    s.Placed (c.openFunction f p as) ((c.openFunction f p as).heap.cell b) := by
  rcases Nat.lt_or_ge b.id c.heap.cells.size with hlt | hge
  · rw [cell_openFunction c f p as hlt]
    exact (h.functions.cells b hb).mono (given_openFunction h.functions hl)
  · have hcell : (c.openFunction f p as).heap.cell b = .nil ∨
        (c.openFunction f p as).heap.cell b = .table c.globals := by
      rw [openFunction_eq]
      exact (freshened_loadCells c as).cell b hge
    rcases hcell with hnil | hglobals
    · rw [hnil]
      exact .inl ⟨.nil, .of_pairs rfl fun _ => Value.noConfusion⟩
    · rw [hglobals, h.later.globals]
      exact .inr h.globals

/-- Variables still belong to one function each: those of what is made are new, and different. -/
theorem owner_openFunction (h : s.FunctionsSound c) (hl : c.functions.lookup f = none)
    (hf : c.source.function? f = some ⟨r, .closure p as⟩) {f₁ f₂ g₁ g₂ : GuestFunction}
    (hg₁ : s.heap.functions.size ≤ g₁.id) (hg₂ : s.heap.functions.size ≤ g₂.id)
    (hm₁ : (f₁, some g₁) ∈ (c.openFunction f p as).functions)
    (hm₂ : (f₂, some g₂) ∈ (c.openFunction f p as).functions) {e₁ e₂ : CellRef × CellRef}
    (he₁ : e₁ ∈ (c.openFunction f p as).cellPairs f₁ g₁)
    (he₂ : e₂ ∈ (c.openFunction f p as).cellPairs f₂ g₂) (heq : e₁.2 = e₂.2) :
    g₁ = g₂ ∧ e₁ = e₂ := by
  have x : c.Extends (c.openFunction f p as) := extends_openFunction hl
  rcases mem_openFunction hm₁ with ⟨rfl, rfl⟩ | old₁ <;>
    rcases mem_openFunction hm₂ with ⟨h₂, hn₂⟩ | old₂
  · subst h₂ hn₂
    rw [cellPairs_openFunction hf] at he₁ he₂
    exact ⟨rfl, List.inj_on_of_nodup_map (freshened_loadCells c as).distinct he₁ he₂ heq⟩
  · rw [cellPairs_openFunction hf] at he₁
    rw [x.cellPairs h old₂] at he₂
    exact absurd heq (fresh_of_mem_cellPairs he₁ h hg₂ he₂)
  · subst h₂ hn₂
    rw [cellPairs_openFunction hf] at he₂
    rw [x.cellPairs h old₁] at he₁
    exact absurd heq.symm (fresh_of_mem_cellPairs he₂ h hg₁ he₁)
  · rw [x.cellPairs h old₁] at he₁
    rw [x.cellPairs h old₂] at he₂
    exact h.owner f₁ f₂ g₁ g₂ hg₁ hg₂ old₁ old₂ e₁ he₁ e₂ he₂ heq

/-- All that has been made has captured variables of the new session. -/
theorem ownCell_openFunction (h : s.Sound c) {g : GuestFunction} {b : CellRef}
    (hmade : s.heap.functions.size ≤ g.id) (hb : b ∈ (c.openFunction f p as).heap.captures g) :
    s.source.cells.size ≤ b.id ∧ b.id < (c.openFunction f p as).heap.cells.size := by
  have hfresh := freshened_loadCells c as
  have hcells : (c.openFunction f p as).heap.cells = (c.loadCells as).2.cells := by
    rw [openFunction_eq]
  rw [hcells]
  by_cases hn : g = c.nextFunction
  · rw [hn, Heap.captures_of_closure (by rw [function_openFunction, if_pos rfl])] at hb
    obtain ⟨e, he, rfl⟩ := List.mem_map.1 hb
    have hb := hfresh.fresh e he
    exact ⟨Nat.le_trans h.keeps.cells.size hb.1, hb.2⟩
  · rw [Heap.captures, function_openFunction, if_neg hn] at hb
    have hb := h.functions.ownCell g b hmade hb
    exact ⟨hb.1, Nat.lt_of_lt_of_le hb.2 hfresh.cells.size⟩

theorem functionsSound_openFunction (h : s.Sound c) (hl : c.functions.lookup f = none)
    (hf : c.source.function? f = some ⟨r, .closure p as⟩) :
    s.FunctionsSound (c.openFunction f p as) where
  function f' g hm := by
    have hsize : (c.openFunction f p as).heap.functions.size = c.heap.functions.size + 1 := by
      rw [openFunction_eq]
      exact Array.size_push ..
    rw [hsize]
    rcases mem_openFunction hm with ⟨rfl, rfl⟩ | hm
    · exact ⟨Nat.lt_succ_self _, .inr h.later.functions.size⟩
    · have hfun := h.functions.function f' g hm
      exact ⟨Nat.lt_succ_of_lt hfun.1, hfun.2⟩
  copy f' g hmade hm := by
    rcases mem_openFunction hm with ⟨rfl, rfl⟩ | hm
    · exact copy_nextFunction h hl hf
    · exact copy_openFunction h hl hmade hm
  injective f₁ f₂ g hmade hm₁ hm₂ := by
    rcases mem_openFunction hm₁ with ⟨h₁, hg₁⟩ | old₁ <;>
      rcases mem_openFunction hm₂ with ⟨h₂, hg₂⟩ | old₂
    · rw [h₁, h₂]
    · exact absurd hg₁ (ne_nextFunction h.functions old₂)
    · exact absurd hg₂ (ne_nextFunction h.functions old₁)
    · exact h.functions.injective f₁ f₂ g hmade old₁ old₂
  closure g r' p' bs hnew hcl := by
    rw [function_openFunction] at hcl
    split at hcl
    · next he =>
      subst he
      exact ⟨h.later.functions.size, f, mem_of_lookup (lookup_openFunction_self c f p as)⟩
    · obtain ⟨hmade, f', hm⟩ := h.functions.closure g r' p' bs hnew hcl
      exact ⟨hmade, f', (extends_openFunction hl).mem _ hm⟩
  owner _ _ _ _ hg₁ hg₂ hm₁ hm₂ _ he₁ _ he₂ :=
    owner_openFunction h.functions hl hf hg₁ hg₂ hm₁ hm₂ he₁ he₂
  ownCell _ _ := ownCell_openFunction h
  cells _ := cells_openFunction h hl
  stuck f' hl' := by
    by_cases he : f' = f
    · rw [he, lookup_openFunction_self] at hl'
      cases hl'
    · rw [lookup_openFunction c he] at hl'
      exact h.functions.stuck f' hl'

theorem keeps_openFunction {h : Heap} (k : h.Keeps c.heap) :
    h.Keeps (c.openFunction f p as).heap := by
  rw [openFunction_eq]
  exact { k with
    cells := k.cells.trans (freshened_loadCells c as).cells
    functions := k.functions.push _ }

theorem sound_openFunction (h : s.Sound c) (hl : c.functions.lookup f = none)
    (hf : c.source.function? f = some ⟨r, .closure p as⟩) : s.Sound (c.openFunction f p as) :=
  ⟨h.start, h.globals, h.later.trans (extends_openFunction hl), keeps_openFunction h.keeps,
    h.tables.of_same (by rw [openFunction_eq]) rfl rfl (given_openFunction h.functions hl),
    functionsSound_openFunction h hl hf⟩

end OpenFunction

section SetCell

variable {f g : GuestFunction} {e : CellRef × CellRef} {v : Value}

theorem cell_setCell (c : Copying) (b b' : CellRef) (v : Value) :
    (c.setCell b v).heap.cell b' =
      if b = b' ∧ b.id < c.heap.cells.size then v else c.heap.cell b' := by
  rw [setCell, Heap.setCell, Heap.cell, Array.getElem?_setIfInBounds]
  by_cases hb : b = b'
  · subst hb
    by_cases hlt : b.id < c.heap.cells.size
    · rw [if_pos rfl, if_pos hlt, if_pos ⟨rfl, hlt⟩]
      rfl
    · rw [if_pos rfl, if_neg hlt, if_neg fun h => hlt h.2, Heap.cell,
        Array.getElem?_eq_none (Nat.le_of_not_lt hlt)]
  · rw [if_neg fun he => hb (CellRef.ext he), if_neg fun h => hb h.1]
    rfl

theorem extends_setCell (c : Copying) (b : CellRef) (v : Value) : c.Extends (c.setCell b v) where
  source := rfl
  target := rfl
  globals := rfl
  size := Nat.le_refl _
  functions := .refl _
  user _ _ h := h
  slot _ _ _ := rfl
  metatable _ _ h := h
  lookupTable _ _ h := h
  lookupFunction _ _ h := h
  mem _ h := h

/-- A variable belongs to one function and stands for one variable, so where it is set nothing else
is. -/
theorem cell_setCell_of_mem (h : s.FunctionsSound c) (hg : s.heap.functions.size ≤ g.id)
    (hm : (f, some g) ∈ c.functions) (he : e ∈ c.cellPairs f g) {f' g' : GuestFunction}
    (hg' : s.heap.functions.size ≤ g'.id) (hm' : (f', some g') ∈ c.functions)
    {e' : CellRef × CellRef} (he' : e' ∈ c.cellPairs f' g') :
    g = g' ∧ e = e' ∧ (c.setCell e.2 v).heap.cell e'.2 = v ∨
      (c.setCell e.2 v).heap.cell e'.2 = c.heap.cell e'.2 := by
  rw [cell_setCell]
  split
  · next heq =>
    obtain ⟨rfl, rfl⟩ := h.owner f f' g g' hg hg' hm hm' e he e' he' heq.1
    exact .inl ⟨rfl, rfl, rfl⟩
  · exact .inr rfl

/-- A variable that gets the copy of what is in the original holds a copy, and the others hold what
they held. -/
theorem keepsVariables_setCell (h : s.FunctionsSound c) (hg : s.heap.functions.size ≤ g.id)
    (hm : (f, some g) ∈ c.functions) (he : e ∈ c.cellPairs f g)
    (hval : s.Given c (c.source.cell e.1) v) : s.KeepsVariables c (c.setCell e.2 v) := by
  have x := extends_setCell c e.2 v
  intro f' g' hg' hm' e' he' hp
  rcases cell_setCell_of_mem h hg hm he hg' hm' he' with ⟨-, rfl, hcell⟩ | hcell
  · rw [hcell]
    exact x.pairs hval.pairs
  · rw [hcell]
    exact x.pairs hp

/-- A copy stays one when a variable gets its value, its own or that of another one. -/
theorem copy_setCell (h : s.Sound c) (hg : s.heap.functions.size ≤ g.id)
    (hl : c.functions.lookup f = some (some g)) (he : e ∈ c.cellPairs f g) {f' g' : GuestFunction}
    (hg' : s.heap.functions.size ≤ g'.id) (hm' : (f', some g') ∈ c.functions) :
    s.Copy (c.setCell e.2 v) f' g' := by
  have hm := mem_of_lookup hl
  obtain ⟨hfresh, hmirrors, hstate⟩ := h.functions.copy f' g' hg' hm'
  refine ⟨hfresh, hmirrors, hstate.imp_right ?_⟩
  rintro ⟨hlost, hhalf⟩
  refine ⟨hlost, hhalf.of_cell h.later rfl rfl rfl fun e' he' => ?_⟩
  refine (cell_setCell_of_mem h.functions hg hm he hg' hm' he').resolve_left ?_
  rintro ⟨rfl, -, -⟩
  -- a function that was given up is not the one that waits
  rw [← h.functions.injective f f' g hg hm hm', hl] at hlost
  cases hlost

theorem sound_setCell (h : s.Sound c) (hg : s.heap.functions.size ≤ g.id)
    (hl : c.functions.lookup f = some (some g)) (he : e ∈ c.cellPairs f g)
    (hval : s.Given c (c.source.cell e.1) v) : s.Sound (c.setCell e.2 v) := by
  have x := extends_setCell c e.2 v
  have hkeeps := keepsVariables_setCell h.functions hg (mem_of_lookup hl) he hval
  have hgiven (v₁ v₂ : Value) (hv : s.Given c v₁ v₂) : s.Given (c.setCell e.2 v) v₁ v₂ :=
    hv.mono x h.functions hkeeps
  have hown := h.functions.ownCell g e.2 hg (List.of_mem_zip he).2
  have hfunctions : s.FunctionsSound (c.setCell e.2 v) :=
    { h.functions with
      copy := fun _ _ => copy_setCell h hg hl he
      ownCell := by
        rw [show (c.setCell e.2 v).heap.cells.size = c.heap.cells.size from
          Array.size_setIfInBounds]
        exact h.functions.ownCell
      cells := fun b hb => by
        rw [cell_setCell]
        split
        · exact .inl ⟨_, hgiven _ _ hval⟩
        · exact (h.functions.cells b hb).mono hgiven }
  exact ⟨h.start, h.globals, h.later.trans x, h.keeps.setCell hown.1 v,
    h.tables.of_same rfl rfl rfl hgiven, hfunctions⟩

end SetCell

section GiveUp

variable {f : GuestFunction}

theorem lookup_giveUp (c : Copying) {f f' : GuestFunction} (hf : f' ≠ f) :
    (c.giveUp f).functions.lookup f' = c.functions.lookup f' := lookup_cons_of_ne hf _ _

theorem lookup_giveUp_self (c : Copying) (f : GuestFunction) :
    (c.giveUp f).functions.lookup f = some none := List.lookup_cons_self

/-- Giving up a function that was not there before only adds to what was there before. -/
theorem extends_giveUp {c' : Copying} (x : c.Extends c') (hl : c.functions.lookup f = none) :
    c.Extends (c'.giveUp f) where
  source := x.source
  target := x.target
  globals := x.globals
  size := x.size
  functions := x.functions
  user := x.user
  slot := x.slot
  metatable := x.metatable
  lookupTable := x.lookupTable
  lookupFunction f' v h := by
    rw [lookup_giveUp c', x.lookupFunction f' v h]
    rintro rfl
    rw [hl] at h
    cases h
  mem e h := List.mem_cons_of_mem _ (x.mem e h)

theorem pairs_giveUp {v v' : Value} (h : c.Pairs v v') : (c.giveUp f).Pairs v v' :=
  h.mono rfl (fun _ _ h => h) (fun _ h => List.mem_cons_of_mem _ h) fun _ _ h => h

/-- Copies that were handed out stay good: those of the function itself were handed out on a
cycle. -/
theorem given_giveUp (hlost : ∀ g, s.heap.functions.size ≤ g.id →
      c.functions.lookup f = some (some g) → s.Half c f g) (v v' : Value) (hv : s.Given c v v') :
    s.Given (c.giveUp f) v v' := by
  refine ⟨pairs_giveUp hv.pairs, fun f' g' hf' hg' hmade => ?_⟩
  rcases hv.settled f' g' hf' hg' hmade with hcycle | hbound
  · exact .inl hcycle
  · have hne : f' ≠ f := by
      rintro rfl
      exact (hlost g' hmade hbound.lookup).not_bound hbound
    refine .inr ⟨?_, fun e he => pairs_giveUp (hbound.cell e he)⟩
    rw [lookup_giveUp c hne]
    exact hbound.lookup

/-- All copies were made before the function was given up. -/
theorem mem_giveUp {f' g : GuestFunction} (hm : (f', some g) ∈ (c.giveUp f).functions) :
    (f', some g) ∈ c.functions := by
  rcases List.mem_cons.1 hm with he | hm
  · cases he
  · exact hm

/-- Copies stay copies; one of the function itself is one that is not finished. -/
theorem copy_giveUp (h : s.Sound c) (hlost : ∀ g, s.heap.functions.size ≤ g.id →
      c.functions.lookup f = some (some g) → s.Half c f g) {f' g : GuestFunction}
    (hg : s.heap.functions.size ≤ g.id) (hm : (f', some g) ∈ c.functions) :
    s.Copy (c.giveUp f) f' g := by
  obtain ⟨hfresh, hmirrors, hstate⟩ := h.functions.copy f' g hg hm
  have half (hhalf : s.Half c f' g) : s.Half (c.giveUp f) f' g :=
    hhalf.of_cell h.later rfl rfl rfl fun _ _ => rfl
  refine ⟨hfresh, hmirrors, ?_⟩
  by_cases he : f' = f
  · subst he
    refine .inr ⟨lookup_giveUp_self c f', half ?_⟩
    rcases hstate with hl | ⟨-, hhalf⟩
    · exact hlost g hg hl
    · exact hhalf
  · rw [lookup_giveUp c he]
    exact hstate.imp_right fun hhalf => ⟨hhalf.1, half hhalf.2⟩

theorem functionsSound_giveUp (h : s.Sound c) (hstuck : s.Stuck (.func f))
    (hgiven : ∀ v v', s.Given c v v' → s.Given (c.giveUp f) v v')
    (hlost : ∀ g, s.heap.functions.size ≤ g.id →
      c.functions.lookup f = some (some g) → s.Half c f g) : s.FunctionsSound (c.giveUp f) where
  function f' g hm := h.functions.function f' g (mem_giveUp hm)
  copy _ _ hg hm := copy_giveUp h hlost hg (mem_giveUp hm)
  injective f₁ f₂ g hg hm₁ hm₂ := h.functions.injective f₁ f₂ g hg (mem_giveUp hm₁) (mem_giveUp hm₂)
  closure g r p cells hg hcl := by
    obtain ⟨hmade, f', hm⟩ := h.functions.closure g r p cells hg hcl
    exact ⟨hmade, f', List.mem_cons_of_mem _ hm⟩
  owner f₁ f₂ g₁ g₂ hg₁ hg₂ hm₁ hm₂ :=
    h.functions.owner f₁ f₂ g₁ g₂ hg₁ hg₂ (mem_giveUp hm₁) (mem_giveUp hm₂)
  ownCell := h.functions.ownCell
  cells b hb := (h.functions.cells b hb).mono hgiven
  stuck f' hl := by
    by_cases he : f' = f
    · rw [he]
      exact hstuck
    · rw [lookup_giveUp c he] at hl
      exact h.functions.stuck f' hl

theorem sound_giveUp (h : s.Sound c) (hfresh : s.functions.lookup f = none)
    (hstuck : s.Stuck (.func f)) (hlost : ∀ g, s.heap.functions.size ≤ g.id →
      c.functions.lookup f = some (some g) → s.Half c f g) : s.Sound (c.giveUp f) :=
  have hgiven := given_giveUp hlost
  ⟨h.start, h.globals, extends_giveUp h.later hfresh, h.keeps,
    h.tables.of_same rfl rfl rfl hgiven, functionsSound_giveUp h hstuck hgiven hlost⟩

end GiveUp

end Copying
end ScriptShell
