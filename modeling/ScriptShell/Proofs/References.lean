import Mathlib.Logic.Relation
import ScriptShell.Guest.Heap

/-! # What refers to what

The references between guest values: a table refers to its keys, its values and its metatable, and
a guest function to the values of the variables that it has captured.
-/

namespace ScriptShell.Guest.Heap

theorem captures_of_closure {h : Heap} {f : GuestFunction} {r : RuntimeRef} {p : Proto}
    {cells : List CellRef} (hf : h.function? f = some ⟨r, .closure p cells⟩) :
    h.captures f = cells := by
  rw [captures, hf]

/-- Only closures have captured anything. -/
theorem closure_of_mem_captures {h : Heap} {f : GuestFunction} {c : CellRef}
    (hc : c ∈ h.captures f) : ∃ r p cells, h.function? f = some ⟨r, .closure p cells⟩ := by
  unfold captures at hc
  split at hc
  · next r p cells hf => exact ⟨r, p, cells, hf⟩
  · cases hc

/-- One value holds another one. -/
inductive Refers (h : Heap) : Value → Value → Prop where
  /-- A table holds its keys. -/
  | key {t : TableRef} {k : Key} (hv : (h.table t).get k ≠ .nil) : Refers h (.table t) k.toValue
  /-- A table holds its values. -/
  | value {t : TableRef} {k : Key} (hv : (h.table t).get k ≠ .nil) :
    Refers h (.table t) ((h.table t).get k)
  /-- A table holds its metatable. -/
  | metatable {t m : TableRef} (hm : (h.table t).metatable? = some m) : Refers h (.table t) (.table m)
  /-- A closure holds what is in its captured variables. -/
  | capture {f : GuestFunction} {c : CellRef} (hc : c ∈ h.captures f) :
    Refers h (.func f) (h.cell c)

theorem Refers.of_get {h : Heap} {t : TableRef} {k : Key} {v : Value}
    (hv : (h.table t).get k = v) (hne : v ≠ .nil) : Refers h (.table t) v := by
  subst hv
  exact .value hne

theorem Refers.of_cell {h : Heap} {f : GuestFunction} {c : CellRef} {v : Value}
    (hc : c ∈ h.captures f) (hv : h.cell c = v) : Refers h (.func f) v := by
  subst hv
  exact .capture hc

/-- A function refers to itself, through whatever else. -/
def OnCycle (h : Heap) (f : GuestFunction) : Prop :=
  Relation.TransGen h.Refers (.func f) (.func f)

/-- A value can be reached from others. -/
def Reaches (h : Heap) (roots : Value → Prop) (v : Value) : Prop :=
  ∃ root, roots root ∧ Relation.ReflTransGen h.Refers root v

/-- What holds of the roots and is handed on holds of everything that can be reached. -/
theorem Reaches.of_step {h : Heap} {roots p : Value → Prop} (hroots : ∀ v, roots v → p v)
    (hstep : ∀ v v', p v → h.Refers v v' → p v') {v : Value} (hv : h.Reaches roots v) : p v := by
  obtain ⟨root, hroot, hpath⟩ := hv
  induction hpath with
  | refl => exact hroots root hroot
  | tail _ hlast ih => exact hstep _ _ ih hlast

end ScriptShell.Guest.Heap
