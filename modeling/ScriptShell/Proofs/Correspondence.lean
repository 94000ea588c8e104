import ScriptShell.Proofs.CopiedClosures
import ScriptShell.Proofs.CopiedData
import ScriptShell.Proofs.Counterparts

/-! # Corresponding places

Where a session refers to a value, its copy has a place for what stands for that value: a slot that
the new session lacked, a field or the metatable of a copied table, a variable of a copied closure
(`World.Corresponds`).  In such a place is the copy of the value, or nothing if the value is not
data (`World.Corresponds.pairs`).
-/

namespace ScriptShell

open Guest

namespace World

variable (w : World) (s : SessionRef) (new : World) (fresh : SessionRef)

/-- A table of the new session is a copy of one of the old session. -/
def IsTableCopy (t u : TableRef) : Prop :=
  new.heap.tables.size ≤ u.id ∧ (w.copyInto s new fresh).2.tables.lookup t = some u

/-- A key of the new session is the copy of one of the old session, and of no other one. -/
def IsKeyCopy (k k' : Key) : Prop :=
  w.IsFaithful s new fresh k ∧ (w.copyInto s new fresh).2.Pairs k.toValue k'.toValue

/-- What the old session has in some place, and what the copy has in the corresponding one. -/
inductive Corresponds : Value → Value → Prop where
  /-- A global variable, or a field of `share` or of the capability table, that the new session
  lacked. -/
  | added {t u : TableRef} {k k' : Key} (hm : w.Merges s new fresh t u)
    (hk : w.IsKeyCopy s new fresh k k') (hlack : (new.heap.table u).get k' = .nil) :
    Corresponds ((w.heap.table t).get k) (((w.afterCopy s new fresh).heap.table u).get k')
  /-- A field of a copied table. -/
  | field {t u : TableRef} {k k' : Key} (ht : w.IsTableCopy s new fresh t u)
    (hk : w.IsKeyCopy s new fresh k k') :
    Corresponds ((w.heap.table t).get k) (((w.afterCopy s new fresh).heap.table u).get k')
  /-- The metatable of a copied table. -/
  | metatable {t u m m' : TableRef} (ht : w.IsTableCopy s new fresh t u)
    (hm : (w.heap.table t).metatable? = some m)
    (hm' : ((w.afterCopy s new fresh).heap.table u).metatable? = some m') :
    Corresponds (.table m) (.table m')
  /-- A variable of a copied closure that was not given up. -/
  | captured {f g : GuestFunction} {a b : CellRef} (hc : w.IsCopy s new fresh f g)
    (hkept : ¬w.IsGivenUp s new fresh f)
    (he : (a, b) ∈ (w.heap.captures f).zip ((w.afterCopy s new fresh).heap.captures g)) :
    Corresponds (w.heap.cell a) ((w.afterCopy s new fresh).heap.cell b)

variable {w s new fresh}

/-- A name is a key of its own. -/
theorem isKeyCopy_str (name : Bytes) : w.IsKeyCopy s new fresh (.str name) (.str name) :=
  ⟨⟨trivial, fun _ he => (by cases he)⟩, rfl⟩

/-- What the old session has under a name and the new session lacks. -/
theorem Corresponds.of_field {t u : TableRef} {name : String} {v : Value}
    (hm : w.Merges s new fresh t u) (hv : w.heap.field t name = v)
    (hlack : new.heap.field u name = .nil) :
    w.Corresponds s new fresh v ((w.afterCopy s new fresh).heap.field u name) := by
  subst hv
  exact .added hm (isKeyCopy_str _) hlack

theorem IsTableCopy.made {t u : TableRef} (hc : w.IsTableCopy s new fresh t u) :
    (w.startCopy s new fresh).heap.tables.size ≤ u.id := by
  obtain ⟨-, hheap⟩ := sameHeap_startCopy w s new fresh
  rw [hheap]
  exact hc.1

/-- What was made had no counterpart before. -/
theorem IsFresh.lookup_of_isTableCopy (h : w.IsFresh s new fresh) {t u : TableRef}
    (hc : w.IsTableCopy s new fresh t u) :
    (w.startCopy s new fresh).tables.lookup t = none := by
  cases hl : (w.startCopy s new fresh).tables.lookup t with
  | none => rfl
  | some u₀ =>
    have hlater := h.advances.later.lookupTable t u₀ hl
    rw [hc.2] at hlater
    cases hlater
    exact absurd (h.ready.table t u hl).table_lt (Nat.not_lt.2 hc.made)

/-- In a corresponding place is the copy, or nothing where there is more than data. -/
theorem Corresponds.pairs (h : w.IsFresh s new fresh) {v v' : Value}
    (hc : w.Corresponds s new fresh v v') :
    (v' ≠ .nil → (w.copyInto s new fresh).2.Pairs v v') ∧
      (v.IsData → (w.copyInto s new fresh).2.Pairs v v') := by
  obtain ⟨⟨done, m, hdone, -⟩, -⟩ := h.mergedAll
  obtain ⟨hsource, hheap⟩ := sameHeap_startCopy w s new fresh
  have a := h.advances
  cases hc with
  | @added t u k k' hm hk hlack =>
    have hfilled := m.filled _ (hdone t u hm)
    have hpairs := Copying.pairs_slot a.sound (m.origin _ (hdone t u hm)) hfilled hk.1.faithful hk.2
      (by rw [hheap]; exact hlack)
    rwa [hsource] at hpairs
  | @field t u k k' ht hk =>
    have hfilled := (a.complete t u (h.lookup_of_isTableCopy ht) ht.2).filled
    rw [a.later.source] at hfilled
    have hpairs := Copying.pairs_slot a.sound (a.sound.tables.origin t u ht.made ht.2) hfilled
      hk.1.faithful hk.2 (Copying.get_start_of_made ht.made k')
    rwa [hsource] at hpairs
  | @metatable t u m₁ m' ht hm hm' =>
    obtain ⟨m₂, hm₂, hl⟩ := a.sound.tables.metatable t u m' ht.made ht.2 hm'
    rw [h.source_copyInto, hm] at hm₂
    cases hm₂
    exact ⟨fun _ => ⟨m', hl, rfl⟩, fun _ => ⟨m', hl, rfl⟩⟩
  | @captured f g x y hc hkept he =>
    have hcell := hc.cell h hkept he
    exact ⟨fun _ => hcell, fun _ => hcell⟩

end World
end ScriptShell
