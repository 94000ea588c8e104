import ScriptShell.Proofs.CopiedClosures

/-! # Variables of copied closures

A copy of a session copies closures one by one, each with variables of its own
(`World.assignments_stay_in_one_copy`).  So a variable that two closures share is in the copy two
variables, which start with the same value and then go their own ways (`World.shared_apart`); and
none of them is a variable of the original.
-/

namespace ScriptShell

open Guest

namespace Copying

variable {s c : Copying}

/-- Every variable of a copy has a variable of the original. -/
theorem Copy.exists_source {f g : GuestFunction} {b : CellRef} (h : s.Copy c f g)
    (hb : b ∈ c.heap.captures g) : ∃ a, (a, b) ∈ c.cellPairs f g := by
  obtain ⟨r, p, as, bs, hf, hg, hlen⟩ := h.mirrors
  rw [cellPairs, Heap.captures_of_closure hf]
  rw [Heap.captures_of_closure hg] at hb ⊢
  obtain ⟨i, hi, rfl⟩ := List.mem_iff_getElem.1 hb
  have hi' : i < (as.zip bs).length := by
    rw [List.length_zip]
    omega
  exact ⟨as[i], List.mem_iff_getElem.2 ⟨i, hi', List.getElem_zip⟩⟩

end Copying

namespace World

/-- The state after an assignment to a variable. -/
def assign (w : World) (b : CellRef) (v : Value) : World := (w.answer (.setCell b v)).2

theorem heap_assign (w : World) (b : CellRef) (v : Value) :
    (w.assign b v).heap = w.heap.setCell b v := rfl

/-- An assignment is seen in that variable and in no other one. -/
theorem cell_assign {w : World} {b : CellRef} (hb : b.id < w.heap.cells.size) (v : Value)
    (b' : CellRef) : (w.assign b v).heap.cell b' = if b' = b then v else w.heap.cell b' := by
  rw [heap_assign, Heap.cell, Heap.setCell, Heap.cell]
  by_cases he : b' = b
  · rw [if_pos he, he, Array.getElem?_setIfInBounds_self_of_lt hb, Option.getD_some]
  · rw [if_neg he, Array.getElem?_setIfInBounds_ne fun hid => he (CellRef.ext hid.symm)]

/-- An open session is copied, and every copied closure has variables of its own, one for each of
the original.  Each holds the copy of what is in the original variable, unless the closure was given
up.  Assigning to it changes what this copy sees, but neither what any other copied closure sees,
whatever variables the originals share, nor any variable of the original session. -/
theorem assignments_stay_in_one_copy (w : World) (s : SessionRef)
    (hopen : (w.session s).closed = false)
    (hvalid : (w.session s).capabilities.validate = .ok ()) :
    ∃ copy w', w.copySession s = .ok (copy, w') ∧
      ∀ f g, w.IsCopy s (w.freshSession s).2 copy f g →
        (w'.heap.captures g).length = (w.heap.captures f).length ∧
        ∀ e ∈ (w.heap.captures f).zip (w'.heap.captures g),
          (w.IsGivenUp s (w.freshSession s).2 copy f ∨
            (w.copyInto s (w.freshSession s).2 copy).2.Pairs (w.heap.cell e.1)
              (w'.heap.cell e.2)) ∧
          ∀ v, (w'.assign e.2 v).heap.cell e.2 = v ∧
            (∀ f' g', w.IsCopy s (w.freshSession s).2 copy f' g' → g' ≠ g →
              ∀ b ∈ w'.heap.captures g', (w'.assign e.2 v).heap.cell b = w'.heap.cell b) ∧
            ∀ b : CellRef, b.id < w.heap.cells.size →
              (w'.assign e.2 v).heap.cell b = w.heap.cell b := by
  have h := w.isFresh_freshSession s
  refine ⟨_, _, w.copySession_eq s hopen hvalid, ?_⟩
  generalize (w.freshSession s).2 = new at h ⊢
  generalize (w.freshSession s).1 = fresh at h ⊢
  obtain ⟨hsource, -⟩ := sameHeap_startCopy w s new fresh
  have hs := h.advances.sound
  have hpairs (f g : GuestFunction) : (w.copyInto s new fresh).2.cellPairs f g =
      (w.heap.captures f).zip ((w.afterCopy s new fresh).heap.captures g) := by
    rw [Copying.cellPairs, h.source_copyInto, heap_afterCopy]
  intro f g hc
  refine ⟨?_, fun e he => ?_⟩
  · obtain ⟨r, p, as, bs, hf, hg, hlen⟩ := hc.mirrors h
    rw [Heap.captures_of_closure hf, Heap.captures_of_closure hg, hlen]
  -- the variable was made with the copy, behind all those of the original session
  obtain ⟨hnew, hlt⟩ := hs.functions.ownCell g e.2 hc.made (List.of_mem_zip he).2
  rw [hsource] at hnew
  refine ⟨or_iff_not_imp_left.2 fun hkept => hc.cell h hkept he,
    fun v => ⟨?_, fun f' g' hc' hne b hb => ?_, fun b hb => ?_⟩⟩
  · rw [cell_assign hlt, if_pos rfl]
  · -- a variable of two copies would have them be the same
    obtain ⟨x, hx⟩ := (hc'.copy h).exists_source hb
    rw [← hpairs] at he
    rw [cell_assign hlt, if_neg fun hbe => hne ?_]
    exact (hs.functions.owner f' f g' g hc'.made hc.made hc'.2 hc.2 _ hx e he hbe).1
  · have hbe : b ≠ e.2 := by
      rintro rfl
      omega
    have hkeeps := hs.keeps
    rw [hsource] at hkeeps
    rw [cell_assign hlt, if_neg hbe, heap_afterCopy, hkeeps.cell hb]

/-- Two functions, global variables both, that share a variable. -/
def shared : World := single {
  tables := #[
    { slots := [(.text "set", .func ⟨0⟩), (.text "get", .func ⟨1⟩)], distinct := by decide }]
  cells := #[.bool false]
  functions := #[⟨⟨0⟩, .closure default [⟨0⟩]⟩, ⟨⟨0⟩, .closure default [⟨0⟩]⟩] }

/-- The copies of the two functions, with a variable each, under the names of the originals. -/
theorem copies_of_shared :
    (shared.IsCopy ⟨0⟩ (shared.freshSession ⟨0⟩).2 (shared.freshSession ⟨0⟩).1 ⟨0⟩ ⟨80⟩ ∧
      shared.IsCopy ⟨0⟩ (shared.freshSession ⟨0⟩).2 (shared.freshSession ⟨0⟩).1 ⟨1⟩ ⟨81⟩) ∧
    let w' := shared.afterCopy ⟨0⟩ (shared.freshSession ⟨0⟩).2 (shared.freshSession ⟨0⟩).1
    (w'.heap.captures ⟨80⟩ = [⟨1⟩] ∧ w'.heap.captures ⟨81⟩ = [⟨2⟩]) ∧
      (w'.heap.field (w'.globals (shared.freshSession ⟨0⟩).1) "set").rawEq (.func ⟨80⟩) = true ∧
      (w'.heap.field (w'.globals (shared.freshSession ⟨0⟩).1) "get").rawEq (.func ⟨81⟩) = true ∧
      ((w'.assign ⟨1⟩ (.bool true)).heap.cell ⟨2⟩).rawEq (.bool false) = true := by
  decide +kernel

/-- An assignment by the copy of the first function changes neither the variable of the copy of the
second one nor that of the originals. -/
theorem assignment_to_shared : ∃ copy w', shared.copySession ⟨0⟩ = .ok (copy, w') ∧
    ∃ b ∈ w'.heap.captures ⟨80⟩, (w'.assign b (.bool true)).heap.cell b = .bool true ∧
      (∀ b' ∈ w'.heap.captures ⟨81⟩,
        (w'.assign b (.bool true)).heap.cell b' = w'.heap.cell b') ∧
      (w'.assign b (.bool true)).heap.cell ⟨0⟩ = .bool false := by
  have hopen : (shared.session ⟨0⟩).closed = false := rfl
  have hvalid : (shared.session ⟨0⟩).capabilities.validate = .ok () := rfl
  obtain ⟨copy, w', hcopy, hown⟩ := assignments_stay_in_one_copy shared ⟨0⟩ hopen hvalid
  refine ⟨copy, w', hcopy, ⟨1⟩, ?_⟩
  rw [copySession_eq _ _ hopen hvalid] at hcopy
  cases hcopy
  obtain ⟨⟨hset, hget⟩, ⟨hb, -⟩, -⟩ := copies_of_shared
  obtain ⟨-, hcells⟩ := hown ⟨0⟩ ⟨80⟩ hset
  rw [hb] at hcells ⊢
  obtain ⟨-, hassign⟩ := hcells (⟨0⟩, ⟨1⟩) (List.mem_singleton_self _)
  obtain ⟨hsame, hother, hold⟩ := hassign (.bool true)
  exact ⟨List.mem_singleton_self _, hsame, hother ⟨1⟩ ⟨81⟩ hget (by decide), hold ⟨0⟩ (by decide)⟩

/-- The functions share their variable, and both have a copy that can be called; but what is
assigned by one copy is not seen by the other. -/
theorem shared_apart : ∃ copy w', shared.copySession ⟨0⟩ = .ok (copy, w') ∧
    shared.heap.captures ⟨0⟩ = [⟨0⟩] ∧ shared.heap.captures ⟨1⟩ = [⟨0⟩] ∧
    ∃ g g' b b', shared.IsCopy ⟨0⟩ (shared.freshSession ⟨0⟩).2 copy ⟨0⟩ g ∧
      shared.IsCopy ⟨0⟩ (shared.freshSession ⟨0⟩).2 copy ⟨1⟩ g' ∧
      w'.heap.field (w'.globals copy) "set" = .func g ∧
      w'.heap.field (w'.globals copy) "get" = .func g' ∧
      w'.heap.captures g = [b] ∧ w'.heap.captures g' = [b'] ∧
      (w'.assign b (.bool true)).heap.cell b' = .bool false := by
  obtain ⟨⟨hset, hget⟩, ⟨hb, hb'⟩, hfield, hfield', hcell⟩ := copies_of_shared
  exact ⟨_, _, copySession_eq shared ⟨0⟩ rfl rfl, rfl, rfl, ⟨80⟩, ⟨81⟩, ⟨1⟩, ⟨2⟩, hset, hget,
    Value.rawEq_func.1 hfield, Value.rawEq_func.1 hfield', hb, hb', Value.rawEq_bool.1 hcell⟩

end World
end ScriptShell
