import ScriptShell.Proofs.SessionCopies

/-! # Copies of data

A graph of tables that hold nothing but plain values and tables of the graph is copied as it is:
the same keys, values and metatables, with one new table for each of its tables
(`World.data_graphs_copied`).  The graph may be shared and cyclic in any way.  It has to be reached
from what the new session lacks, and none of its tables may be one that both sessions have.
-/

namespace ScriptShell

namespace Guest

/-! ## Graphs of data -/

/-- A value with other tables for its tables. -/
def Value.rename (m : TableRef → TableRef) : Value → Value
  | .table t => .table (m t)
  | v => v

/-- A key with other tables for its tables. -/
def Key.rename (m : TableRef → TableRef) : Key → Key
  | .table t => .table (m t)
  | k => k

/-- A plain value, or a table of a graph. -/
def Value.IsIn (graph : TableRef → Prop) : Value → Prop
  | .nil | .bool _ | .int _ | .num _ | .str _ => True
  | .table t => graph t
  | .func _ | .user _ | .thread _ | .light _ => False

instance {graph : TableRef → Prop} [DecidablePred graph] (v : Value) : Decidable (v.IsIn graph) :=
  match v with
  | .nil | .bool _ | .int _ | .num _ | .str _ => .isTrue trivial
  | .table t => inferInstanceAs (Decidable (graph t))
  | .func _ | .user _ | .thread _ | .light _ => .isFalse id

namespace Heap

/-- The tables of a graph hold nothing but plain values and tables of the graph. -/
structure IsDataGraph (h : Heap) (graph : TableRef → Prop) : Prop where
  /-- The keys and the values. -/
  slot : ∀ t k, graph t → (h.table t).get k ≠ .nil →
    k.toValue.IsIn graph ∧ ((h.table t).get k).IsIn graph
  /-- The metatables. -/
  metatable : ∀ t m, graph t → (h.table t).metatable? = some m → graph m

theorem isDataGraph_of_pairs {h : Heap} {graph : TableRef → Prop}
    (hpairs : ∀ t, graph t → ∀ e ∈ (h.table t).pairs, e.1.toValue.IsIn graph ∧ e.2.IsIn graph)
    (hmeta : ∀ t m, graph t → (h.table t).metatable? = some m → graph m) : h.IsDataGraph graph where
  slot t k ht hne := hpairs t ht (k, (h.table t).get k) (Table.mem_pairs.2 ⟨rfl, hne⟩)
  metatable := hmeta

/-- A second heap has the graph under other names. -/
structure Isomorphic (h h' : Heap) (graph : TableRef → Prop) (m : TableRef → TableRef) : Prop where
  /-- No two tables get one name. -/
  injective : ∀ t t', graph t → graph t' → m t = m t' → t = t'
  /-- Under the same key is the same value. -/
  slot : ∀ t k, graph t → k.toValue.IsIn graph →
    (h'.table (m t)).get (k.rename m) = ((h.table t).get k).rename m
  /-- There are no other keys. -/
  only : ∀ t k', graph t → (h'.table (m t)).get k' ≠ .nil →
    ∃ k, (h.table t).get k ≠ .nil ∧ k' = k.rename m
  /-- The metatable is the same. -/
  metatable : ∀ t, graph t → (h'.table (m t)).metatable? = (h.table t).metatable?.map m

end Heap

theorem Value.IsIn.isData {graph : TableRef → Prop} {v : Value} (h : v.IsIn graph) : v.IsData := by
  cases v <;> first | exact trivial | exact h.elim

theorem Key.toValue_rename (m : TableRef → TableRef) (k : Key) :
    (k.rename m).toValue = k.toValue.rename m := by
  cases k <;> rfl

end Guest

open Guest

open Copying (toValue_injective)

namespace Copying

variable {s c : Copying}

/-! ## Tables that were made -/

theorem made_of_lookup (h : s.Sound c) {t u : TableRef} (ht : s.tables.lookup t = none)
    (hl : c.tables.lookup t = some u) : s.heap.tables.size ≤ u.id := by
  rcases (h.tables.table t u hl).2 with hs | hmade
  · rw [ht] at hs
    cases hs
  · exact hmade

/-- A made table has nothing from the start. -/
theorem get_start_of_made {u : TableRef} (hu : s.heap.tables.size ≤ u.id) (k : Key) :
    (s.heap.table u).get k = .nil := by
  rw [Heap.table_of_ge hu, Table.get_empty]

/-- Data have one copy. -/
theorem Pairs.unique {v v₁ v₂ : Value} (h₁ : c.Pairs v v₁) (h₂ : c.Pairs v v₂) (hv : v.IsData) :
    v₁ = v₂ := by
  cases v with
  | table t =>
    obtain ⟨u₁, hl₁, rfl⟩ := h₁
    obtain ⟨u₂, hl₂, rfl⟩ := h₂
    rw [hl₁] at hl₂
    cases hl₂
    rfl
  | func _ | user _ | thread _ | light _ => exact hv.elim
  | _ => exact h₁.trans h₂.symm

/-- What a table gets from another one in a slot that was free: nothing or the copy of the value,
and certainly the copy if that is data. -/
theorem pairs_slot (h : s.Sound c) {t into : TableRef} {k k' : Key} (hfrom : s.From c t into)
    (hfilled : s.Filled c into (s.source.table t).enumerate) (hk : s.Faithful k)
    (hp : c.Pairs k.toValue k'.toValue) (hfree : (s.heap.table into).get k' = .nil) :
    ((c.heap.table into).get k' ≠ .nil →
      c.Pairs ((s.source.table t).get k) ((c.heap.table into).get k')) ∧
    (((s.source.table t).get k).IsData →
      c.Pairs ((s.source.table t).get k) ((c.heap.table into).get k')) := by
  have hset (hne : (c.heap.table into).get k' ≠ .nil) :
      c.Pairs ((s.source.table t).get k) ((c.heap.table into).get k') := by
    rw [← h.later.source]
    exact (hfrom.filled h hk hp hne).resolve_left fun hs => hs hfree
  refine ⟨hset, fun hv => ?_⟩
  by_cases hne : (s.source.table t).get k = .nil
  · by_cases hget : (c.heap.table into).get k' = .nil
    · rw [hne, hget]
      rfl
    · exact hset hget
  · obtain ⟨k₁, hkey, hslot⟩ := (hfilled k _ (Table.mem_enumerate.2 ⟨rfl, hne⟩)).2 hk hv
    obtain rfl : k₁ = k' := toValue_injective (hkey.unique hp hk.1)
    exact hslot.resolve_left fun hs => hs hfree

section Graph

variable {graph : TableRef → Prop} {m : TableRef → TableRef}

/-- Every table of a graph was made, under the name that `m` gives it. -/
structure Names (s c : Copying) (graph : TableRef → Prop) (m : TableRef → TableRef) : Prop where
  /-- The state is a later one. -/
  advances : s.Advances s c
  /-- They had no counterpart at the start. -/
  unpaired : ∀ t, graph t → s.tables.lookup t = none
  /-- Now they have one. -/
  lookup : ∀ t, graph t → c.tables.lookup t = some (m t)

theorem Names.made (n : Names s c graph m) {t : TableRef} (ht : graph t) :
    s.heap.tables.size ≤ (m t).id :=
  made_of_lookup n.advances.sound (n.unpaired t ht) (n.lookup t ht)

theorem Names.pairs (n : Names s c graph m) {v v' : Value} (hv : v.IsIn graph) :
    c.Pairs v v' ↔ v' = v.rename m := by
  cases v with
  | table t =>
    constructor
    · rintro ⟨u, hu, rfl⟩
      rw [n.lookup t hv] at hu
      cases hu
      rfl
    · rintro rfl
      exact ⟨m t, n.lookup t hv, rfl⟩
  | func _ | user _ | thread _ | light _ => exact hv.elim
  | _ => exact Iff.rfl

theorem Names.faithful (n : Names s c graph m) {k : Key} (hk : k.toValue.IsIn graph) :
    s.Faithful k := by
  refine ⟨hk.isData, fun t he => n.unpaired t ?_⟩
  subst he
  exact hk

theorem Names.slot (n : Names s c graph m) {t into : TableRef} {k : Key} (hfrom : s.From c t into)
    (hfilled : s.Filled c into (s.source.table t).enumerate) (hk : k.toValue.IsIn graph)
    (hv : ((s.source.table t).get k).IsIn graph)
    (hfree : (s.heap.table into).get (k.rename m) = .nil) :
    (c.heap.table into).get (k.rename m) = ((s.source.table t).get k).rename m := by
  have hpk : c.Pairs k.toValue (k.rename m).toValue := by
    rw [n.pairs hk, Key.toValue_rename]
  exact (n.pairs hv).1
    ((pairs_slot n.advances.sound hfrom hfilled (n.faithful hk) hpk hfree).2 hv.isData)

/-- A graph of data is copied as it is. -/
theorem Names.isomorphic (n : Names s c graph m) (hdata : s.source.IsDataGraph graph) :
    s.source.Isomorphic c.heap graph m := by
  have hs := n.advances.sound
  have hsource := hs.later.source
  have hcomplete {t : TableRef} (ht : graph t) : s.Complete c t (m t) :=
    n.advances.complete t (m t) (n.unpaired t ht) (n.lookup t ht)
  refine ⟨fun t t' ht ht' he => ?_, fun t k ht hk => ?_, fun t k' ht hk' => ?_, fun t ht => ?_⟩
  · refine hs.tables.injective t t' (m t) (n.made ht) (n.lookup t ht) ?_
    rw [he]
    exact n.lookup t' ht'
  · have hv : ((s.source.table t).get k).IsIn graph := by
      by_cases hne : (s.source.table t).get k = .nil
      · rw [hne]
        trivial
      · exact (hdata.slot t k ht hne).2
    have hfilled := (hcomplete ht).filled
    rw [hsource] at hfilled
    exact n.slot (hs.tables.origin t (m t) (n.made ht) (n.lookup t ht)) hfilled hk hv
      (get_start_of_made (n.made ht) _)
  -- a table that was made began empty, so whatever is in it was copied
  · rcases hs.tables.origin t (m t) (n.made ht) (n.lookup t ht) k' hk' with hold | ⟨k, hkey, hval⟩
    · exact absurd (get_start_of_made (n.made ht) k') hold
    · rw [hsource] at hval
      have hne : (s.source.table t).get k ≠ .nil := by
        intro hnil
        have hp := hval.pairs
        rw [hnil] at hp
        exact hk' hp
      have hp := (n.pairs (hdata.slot t k ht hne).1).1 hkey.pairs
      rw [← Key.toValue_rename] at hp
      exact ⟨k, hne, toValue_injective hp⟩
  · cases hmeta : (s.source.table t).metatable? with
    | none =>
      cases hcopy : (c.heap.table (m t)).metatable? with
      | none => rfl
      | some m' =>
        obtain ⟨m₁, hm₁, -⟩ := hs.tables.metatable t (m t) m' (n.made ht) (n.lookup t ht) hcopy
        rw [hsource, hmeta] at hm₁
        cases hm₁
    | some m₁ =>
      obtain ⟨m', hl, hm'⟩ := (hcomplete ht).metatable m₁ (by rw [hsource, hmeta])
      rw [n.lookup m₁ (hdata.metatable t m₁ ht hmeta)] at hl
      cases hl
      exact hm'

end Graph

end Copying

/-! ## What is reached -/

namespace World

variable (w : World) (s : SessionRef) (new : World) (fresh : SessionRef)

/-- A key whose copy is that of no other key: a plain one, or a table that only one session has. -/
def IsFaithful (k : Key) : Prop := k.toValue.IsData ∧ ∀ t, k = .table t → ¬w.IsPaired s new fresh t

/-- The tables that are reached from what the new session lacks.  The way leads through tables that
only the old session has, by their metatables, by keys that are tables and by the values of plain
keys and tables. -/
inductive Reached : TableRef → Prop where
  /-- A value that the new session lacks. -/
  | root {t u t' : TableRef} {k : Key} (hm : w.Merges s new fresh t u)
    (hk : w.IsFaithful s new fresh k) (hlack : (new.heap.table u).get k = .nil)
    (hv : (w.heap.table t).get k = .table t') : Reached t'
  /-- A key that the new session lacks. -/
  | rootKey {t u t' : TableRef} (hm : w.Merges s new fresh t u)
    (hv : (w.heap.table t).get (.table t') ≠ .nil) : Reached t'
  /-- A value of a table. -/
  | value {t t' : TableRef} {k : Key} (ht : Reached t) (hp : ¬w.IsPaired s new fresh t)
    (hk : w.IsFaithful s new fresh k) (hv : (w.heap.table t).get k = .table t') : Reached t'
  /-- A key of a table. -/
  | key {t t' : TableRef} (ht : Reached t) (hp : ¬w.IsPaired s new fresh t)
    (hv : (w.heap.table t).get (.table t') ≠ .nil) : Reached t'
  /-- A metatable. -/
  | metatable {t t' : TableRef} (ht : Reached t) (hp : ¬w.IsPaired s new fresh t)
    (hm : (w.heap.table t).metatable? = some t') : Reached t'

variable {w s new fresh}

theorem lookup_of_unpaired {t : TableRef} (hp : ¬w.IsPaired s new fresh t) :
    (w.startCopy s new fresh).tables.lookup t = none := by
  cases hl : (w.startCopy s new fresh).tables.lookup t with
  | none => rfl
  | some u => exact absurd (isPaired_iff.2 (by rw [hl]; rfl)) hp

theorem IsFaithful.faithful {k : Key} (hk : w.IsFaithful s new fresh k) :
    (w.startCopy s new fresh).Faithful k :=
  ⟨hk.1, fun t he => lookup_of_unpaired (hk.2 t he)⟩

/-- What is merged into belongs to the new session. -/
theorem IsFresh.isNew_of_merges (h : w.IsFresh s new fresh) {t u : TableRef}
    (hm : w.Merges s new fresh t u) : w.heap.IsNew new.heap (.table u) := by
  have hfield {name : String} (hu : new.heap.field (new.globals fresh) name = .table u) :
      w.heap.IsNew new.heap (.table u) := by
    have hne : (new.heap.table (new.globals fresh)).get (.text name) ≠ .nil := by
      rw [← Heap.field, hu]
      exact Value.noConfusion
    have hnew := (h.built.slot _ h.globals.1 _ hne).2
    rwa [← Heap.field, hu] at hnew
  cases hm with
  | globals => exact h.globals
  | share _ hu => exact hfield hu
  | own _ hu => exact hfield hu

/-- A slot that the new session lacks is free for the copy of the key. -/
theorem IsFresh.free (h : w.IsFresh s new fresh) {t u : TableRef} (hm : w.Merges s new fresh t u)
    {k k' : Key} (hd : k.toValue.IsData) (hlack : (new.heap.table u).get k = .nil)
    (hp : (w.copyInto s new fresh).2.Pairs k.toValue k'.toValue) :
    (new.heap.table u).get k' = .nil := by
  by_contra hne
  obtain ⟨name, rfl⟩ := (h.built.slot u (h.isNew_of_merges hm).1 k' hne).1
  -- the names of a new session are plain keys, and only the same key has such a copy
  cases k with
  | table t =>
    obtain ⟨v, -, he⟩ := hp
    cases he
  | func _ | user _ | thread _ | light _ => exact hd.elim
  | _ => exact hne (toValue_injective hp ▸ hlack)

/-- Everything that is reached has a counterpart. -/
theorem Reached.lookup (h : w.IsFresh s new fresh) {t : TableRef} (hr : w.Reached s new fresh t) :
    ∃ u, (w.copyInto s new fresh).2.tables.lookup t = some u := by
  obtain ⟨⟨done, m, hdone, -⟩, -⟩ := h.mergedAll
  obtain ⟨hsource, hheap⟩ := sameHeap_startCopy w s new fresh
  have a := m.advances
  have hend : (w.copyInto s new fresh).2.source = w.heap := a.later.source.trans hsource
  -- what has no counterpart at the start is made, and then it has all that can be copied
  have hcomplete {t u : TableRef} (hp : ¬w.IsPaired s new fresh t)
      (hl : (w.copyInto s new fresh).2.tables.lookup t = some u) :
      (w.startCopy s new fresh).heap.tables.size ≤ u.id ∧
        (w.startCopy s new fresh).Filled (w.copyInto s new fresh).2 u
          (w.heap.table t).enumerate := by
    have hn := lookup_of_unpaired hp
    have hc := (a.complete t u hn hl).filled
    rw [hend] at hc
    exact ⟨Copying.made_of_lookup a.sound hn hl, hc⟩
  induction hr with
  | @root t u t' k hm hk hlack hv =>
    have hmem : (k, Value.table t') ∈ (w.heap.table t).enumerate :=
      Table.mem_enumerate.2 ⟨hv, Value.noConfusion⟩
    rw [← hsource] at hmem
    obtain ⟨k', hkey, hslot⟩ := (m.filled _ (hdone t u hm) k _ hmem).2 hk.faithful trivial
    rcases hslot with hs | ⟨u', hl, -⟩
    · rw [hheap] at hs
      exact absurd (h.free hm hk.1 hlack hkey) hs
    · exact ⟨u', hl⟩
  | @rootKey t u t' hm hv =>
    have hmem := Table.mem_enumerate.2 ⟨rfl, hv⟩
    rw [← hsource] at hmem
    exact (m.filled _ (hdone t u hm) _ _ hmem).1 t' rfl
  | @value t t' k _ hp hk hv ih =>
    obtain ⟨u, hl⟩ := ih
    obtain ⟨hmade, hfilled⟩ := hcomplete hp hl
    have hmem := Table.mem_enumerate.2 ⟨hv, Value.noConfusion⟩
    obtain ⟨k', -, hslot⟩ := (hfilled k _ hmem).2 hk.faithful trivial
    obtain ⟨u', hl', -⟩ := hslot.resolve_left fun hs => hs (Copying.get_start_of_made hmade k')
    exact ⟨u', hl'⟩
  | @key t t' _ hp hv ih =>
    obtain ⟨u, hl⟩ := ih
    exact ((hcomplete hp hl).2 _ _ (Table.mem_enumerate.2 ⟨rfl, hv⟩)).1 t' rfl
  | @metatable t t' _ hp hm ih =>
    obtain ⟨u, hl⟩ := ih
    obtain ⟨m', hl', -⟩ := (a.complete t u (lookup_of_unpaired hp) hl).metatable t'
      (by rw [hend]; exact hm)
    exact ⟨m', hl'⟩

/-- An open session is copied, and with it every graph of data that is reached from what the new
session lacks: with the same keys, values and metatables, and two tables are one in the copy only
if they are one in the original.  The copy has it in the same places, what was in the new session
stays there, and nothing of the original changes. -/
theorem data_graphs_copied (w : World) (s : SessionRef) (graph : TableRef → Prop)
    (hopen : (w.session s).closed = false)
    (hvalid : (w.session s).capabilities.validate = .ok ())
    (hdata : w.heap.IsDataGraph graph)
    (hown : ∀ t, graph t → ¬w.IsPaired s (w.freshSession s).2 (w.freshSession s).1 t)
    (hreached : ∀ t, graph t → w.Reached s (w.freshSession s).2 (w.freshSession s).1 t) :
    ∃ copy w', w.copySession s = .ok (copy, w') ∧ w.heap.Keeps w'.heap ∧
      (∀ u k, ((w.freshSession s).2.heap.table u).get k ≠ .nil →
        (w'.heap.table u).get k = ((w.freshSession s).2.heap.table u).get k) ∧
      ∃ m : TableRef → TableRef, w.heap.Isomorphic w'.heap graph m ∧
        (∀ t, graph t → w.heap.tables.size ≤ (m t).id) ∧
        ∀ t u, w.Merges s (w.freshSession s).2 copy t u → ∀ k, k.toValue.IsIn graph →
          ((w.heap.table t).get k).IsIn graph →
          ((w.freshSession s).2.heap.table u).get k = .nil →
            (w'.heap.table u).get (k.rename m) = ((w.heap.table t).get k).rename m := by
  have h := w.isFresh_freshSession s
  refine ⟨_, _, w.copySession_eq s hopen hvalid, ?_⟩
  generalize (w.freshSession s).2 = new at h hown hreached ⊢
  generalize (w.freshSession s).1 = fresh at h hown hreached ⊢
  rw [heap_afterCopy]
  obtain ⟨⟨done, merged, hdone, -⟩, -⟩ := h.mergedAll
  obtain ⟨hsource, hheap⟩ := sameHeap_startCopy w s new fresh
  have a := merged.advances
  -- a table of the graph is renamed to the counterpart that the copy has recorded for it
  have n : (w.startCopy s new fresh).Names (w.copyInto s new fresh).2 graph
      fun t => ((w.copyInto s new fresh).2.tables.lookup t).getD t := by
    refine ⟨a, fun t ht => lookup_of_unpaired (hown t ht), fun t ht => ?_⟩
    obtain ⟨u, hu⟩ := (hreached t ht).lookup h
    rw [hu, Option.getD_some]
  generalize (fun t => ((w.copyInto s new fresh).2.tables.lookup t).getD t) = m at n
  have hkeeps := a.sound.keeps
  have hstart := a.sound.start
  have hslot := a.later.slot
  have hiso := n.isomorphic
  rw [hsource] at hkeeps hstart hiso
  rw [hheap] at hstart hslot
  refine ⟨hkeeps, hslot, m, hiso hdata, fun t ht => ?_, fun t u hm k hk hv hlack => ?_⟩
  · have hmade := n.made ht
    rw [hheap] at hmade
    exact Nat.le_trans hstart hmade
  · have hfree := h.free hm hk.isData hlack ((n.pairs hk).2 (Key.toValue_rename m k))
    have hget := n.slot (merged.origin _ (hdone t u hm)) (merged.filled _ (hdone t u hm)) hk
      (by rw [hsource]; exact hv) (by rw [hheap]; exact hfree)
    rw [hsource] at hget
    exact hget

/-- A global variable with a table that has another one twice and as its metatable, and is a key of
it in turn. -/
def tangled : World := single {
  tables := #[
    { slots := [(.text "T", .table ⟨1⟩)], distinct := by decide },
    { slots := [(.text "a", .table ⟨2⟩), (.text "b", .table ⟨2⟩)], metatable? := some ⟨2⟩,
      distinct := by decide },
    { slots := [(.table ⟨1⟩, .bool true)], distinct := by decide }] }

theorem tangled_copied : ∃ copy w' m, tangled.copySession ⟨0⟩ = .ok (copy, w') ∧
    tangled.heap.Isomorphic w'.heap (fun t => t = ⟨1⟩ ∨ t = ⟨2⟩) m := by
  have hdata : tangled.heap.IsDataGraph fun t => t = ⟨1⟩ ∨ t = ⟨2⟩ := by
    refine Heap.isDataGraph_of_pairs ?_ ?_
    · rintro t (rfl | rfl)
      · decide +kernel
      · decide +kernel
    · rintro t m (rfl | rfl) hm
      · cases hm
        exact .inr rfl
      · cases hm
  have hown : ∀ t, t = ⟨1⟩ ∨ t = ⟨2⟩ →
      ¬tangled.IsPaired ⟨0⟩ (tangled.freshSession ⟨0⟩).2 (tangled.freshSession ⟨0⟩).1 t := by
    rintro t (rfl | rfl)
    · decide +kernel
    · decide +kernel
  have hlack : ((tangled.freshSession ⟨0⟩).2.heap.table
      ((tangled.freshSession ⟨0⟩).2.globals (tangled.freshSession ⟨0⟩).1)).get (.text "T") = .nil :=
    Value.isNil_iff.1 (by decide +kernel)
  have hfirst : tangled.Reached ⟨0⟩ (tangled.freshSession ⟨0⟩).2 (tangled.freshSession ⟨0⟩).1 ⟨1⟩ :=
    .root (k := .text "T") .globals ⟨trivial, fun _ he => by cases he⟩ hlack rfl
  have hreached : ∀ t, t = ⟨1⟩ ∨ t = ⟨2⟩ →
      tangled.Reached ⟨0⟩ (tangled.freshSession ⟨0⟩).2 (tangled.freshSession ⟨0⟩).1 t := by
    rintro t (rfl | rfl)
    · exact hfirst
    · exact hfirst.metatable (hown _ (.inl rfl)) rfl
  obtain ⟨copy, w', hcopy, -, -, m, hiso, -⟩ :=
    data_graphs_copied tangled ⟨0⟩ _ rfl rfl hdata hown hreached
  exact ⟨copy, w', m, hcopy, hiso⟩

end World
end ScriptShell
