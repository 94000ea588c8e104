import ScriptShell.Proofs.SessionCopies

/-! # What both sessions have

Before anything is copied, what both sessions have is paired up by name: the tables that both global
tables hold under one name, and the functions that two paired tables hold under one name.  It does
not matter what these are or where they come from, only what is there when the session is copied
(`World.IsPairedWith`, `World.IsNamesake`).
-/

namespace ScriptShell

open Guest

namespace Copying

variable {c : Copying} {theirs : TableRef} {es : List (Key × Value)} {t u : TableRef}
  {f g : GuestFunction} {v v' : Value}

/-- Under one name there is one value among pairs and another one in a table. -/
def Matched (h : Heap) (theirs : TableRef) (es : List (Key × Value)) (v v' : Value) : Prop :=
  ∃ name, (.str name, v) ∈ es ∧ (h.table theirs).get (.str name) = v'

theorem matched_nil {h : Heap} : ¬Matched h theirs [] v v' := by
  rintro ⟨name, hm, -⟩
  cases hm

theorem matched_cons {h : Heap} {e : Key × Value} : Matched h theirs (e :: es) v v' ↔
    (∃ name, e = (.str name, v) ∧ (h.table theirs).get (.str name) = v') ∨
      Matched h theirs es v v' := by
  constructor
  · rintro ⟨name, hm, hv⟩
    rcases List.mem_cons.1 hm with he | hm
    · exact .inl ⟨name, he.symm, hv⟩
    · exact .inr ⟨name, hm, hv⟩
  · rintro (⟨name, rfl, hv⟩ | ⟨name, hm, hv⟩)
    · exact ⟨name, List.mem_cons_self .., hv⟩
    · exact ⟨name, List.mem_cons_of_mem _ hm, hv⟩

/-- A pair that is passed over matches nothing. -/
theorem matched_cons_of_ne {h : Heap} {e : Key × Value}
    (hne : ∀ name, e = (.str name, v) → (h.table theirs).get (.str name) ≠ v') :
    Matched h theirs (e :: es) v v' ↔ Matched h theirs es v v' := by
  rw [matched_cons]
  refine or_iff_right ?_
  rintro ⟨name, he, hv⟩
  exact hne name he hv

theorem matched_enumerate {h h' : Heap} {t : TableRef} (hv : v ≠ .nil) :
    Matched h theirs (h'.table t).enumerate v v' ↔
      ∃ name, (h'.table t).get (.str name) = v ∧ (h.table theirs).get (.str name) = v' :=
  exists_congr fun _ => and_congr_left fun _ => Table.mem_enumerate.trans (and_iff_left hv)

/-- What is called alike at the head of the pairs becomes a counterpart. -/
theorem mem_pairFunctions {h : Heap} {name : Bytes} {f₀ g₀ : GuestFunction}
    (hg : (h.table theirs).get (.str name) = .func g₀) :
    ((f, some g) ∈ (c.pairFunctions f₀ g₀).functions ∨ Matched h theirs es (.func f) (.func g)) ↔
      (f, some g) ∈ c.functions ∨
        Matched h theirs ((.str name, .func f₀) :: es) (.func f) (.func g) := by
  have hhead : (f, some g) ∈ (c.pairFunctions f₀ g₀).functions ↔ (f, some g) ∈ c.functions ∨
      ∃ name', (Key.str name, Value.func f₀) = (.str name', .func f) ∧
        (h.table theirs).get (.str name') = .func g := by
    show (f, some g) ∈ (f₀, some g₀) :: c.functions ↔ _
    rw [List.mem_cons, or_comm]
    refine or_congr_right ⟨?_, ?_⟩
    · rintro ⟨⟩
      exact ⟨name, rfl, hg⟩
    · rintro ⟨_, ⟨⟩, hg'⟩
      rw [hg] at hg'
      cases hg'
      rfl
  rw [hhead, matched_cons, or_assoc]

/-- Functions of two tables become counterparts if the tables hold them under one name. -/
theorem mem_pairFields : (f, some g) ∈ (c.pairFields theirs es).functions ↔
    (f, some g) ∈ c.functions ∨ Matched c.heap theirs es (.func f) (.func g) := by
  fun_induction Copying.pairFields c theirs es with
  | case1 c => exact (or_iff_left matched_nil).symm
  | case2 c name f₀ rest g₀ hg ih =>
    rw [ih]
    exact mem_pairFunctions hg
  | case3 c name f₀ rest hne ih =>
    rw [ih, matched_cons_of_ne]
    rintro _ ⟨⟩
    exact hne g
  | case4 c e rest hfunc ih =>
    rw [ih, matched_cons_of_ne]
    rintro name rfl
    exact (hfunc name f rfl).elim

/-- Tables that have a counterpart keep it. -/
theorem lookup_pairGlobals_of_lookup (hl : c.tables.lookup t = some u) :
    (c.pairGlobals theirs es).tables.lookup t = some u := by
  fun_induction Copying.pairGlobals c theirs es with
  | case1 => exact hl
  | case5 c₀ name t' rest u' hget hn c ih =>
    refine ih ?_
    rw [(sameHeap_pairFields c u' _).2, lookup_cons_of_ne]
    · exact hl
    · rintro rfl
      rw [hl] at hn
      exact hn rfl
  | case2 _ _ _ _ _ _ ih | case3 _ _ _ _ _ ih | case4 _ _ _ _ _ _ _ ih | case6 _ _ _ _ _ ih
  | case7 _ _ _ _ _ ih => exact ih hl

/-- A counterpart that is new has a name that the table has as well. -/
theorem lookup_pairGlobals (hl : (c.pairGlobals theirs es).tables.lookup t = some u) :
    c.tables.lookup t = some u ∨ Matched c.heap theirs es (.table t) (.table u) := by
  fun_induction Copying.pairGlobals c theirs es with
  | case1 => exact .inl hl
  | case5 c₀ name t' rest u' hget hn c ih =>
    obtain ⟨hs, ht⟩ := sameHeap_pairFields c u' (c.source.table t').enumerate
    have hor := ih hl
    rw [ht, hs.heap] at hor
    rcases hor with hnew | hm
    · by_cases he : t = t'
      · subst he
        rw [List.lookup_cons_self] at hnew
        cases hnew
        exact .inr (matched_cons.2 (.inl ⟨name, rfl, hget⟩))
      · rw [lookup_cons_of_ne he] at hnew
        exact .inl hnew
    · exact .inr (matched_cons.2 (.inr hm))
  | case2 _ _ _ _ _ _ ih | case3 _ _ _ _ _ ih | case4 _ _ _ _ _ _ _ ih | case6 _ _ _ _ _ ih
  | case7 _ _ _ _ _ ih => exact (ih hl).imp_right fun hm => matched_cons.2 (.inr hm)

/-- What holds of a table that has just got its counterpart, or of one that gets it later, holds of
one that gets it. -/
theorem exists_lookup_cons {now last : List (TableRef × TableRef)} {P : TableRef → TableRef → Prop}
    (hnone : now.lookup t = none) (hlast : last.lookup t = some u) :
    (∃ t' u', now.lookup t' = none ∧ last.lookup t' = some u' ∧ P t' u') ↔
      P t u ∨ ∃ t' u', ((t, u) :: now).lookup t' = none ∧ last.lookup t' = some u' ∧ P t' u' := by
  constructor
  · rintro ⟨t', u', hl, hl', hp⟩
    by_cases he : t' = t
    · subst he
      rw [hlast] at hl'
      cases hl'
      exact .inl hp
    · exact .inr ⟨t', u', by rw [lookup_cons_of_ne he, hl], hl', hp⟩
  · rintro (hp | ⟨t', u', hl, hl', hp⟩)
    · exact ⟨t, u, hnone, hlast, hp⟩
    · by_cases he : t' = t
      · rw [he, List.lookup_cons_self] at hl
        cases hl
      · rw [lookup_cons_of_ne he] at hl
        exact ⟨t', u', hl, hl', hp⟩

/-- Functions become counterparts if the global tables, or two tables that become counterparts, hold
them under one name. -/
theorem mem_pairGlobals : (f, some g) ∈ (c.pairGlobals theirs es).functions ↔
    (f, some g) ∈ c.functions ∨ Matched c.heap theirs es (.func f) (.func g) ∨
      ∃ t u, c.tables.lookup t = none ∧ (c.pairGlobals theirs es).tables.lookup t = some u ∧
        Matched c.heap u (c.source.table t).enumerate (.func f) (.func g) := by
  fun_induction Copying.pairGlobals c theirs es with
  | case1 c =>
    refine (or_iff_left ?_).symm
    rintro (hm | ⟨t, u, hn, hl, -⟩)
    · exact matched_nil hm
    · rw [hn] at hl
      cases hl
  | case2 c name f₀ rest g₀ hg ih =>
    rw [ih, ← or_assoc, ← or_assoc]
    exact or_congr_left (mem_pairFunctions hg)
  | case3 c name f₀ rest hne ih =>
    rw [ih, matched_cons_of_ne]
    rintro _ ⟨⟩
    exact hne g
  | case4 c name t' rest u' hget hs ih =>
    rw [ih, matched_cons_of_ne]
    rintro _ ⟨⟩
  | case5 c₀ name t' rest u' hget hn c ih =>
    obtain ⟨hs, ht⟩ := sameHeap_pairFields c u' (c.source.table t').enumerate
    have hnone : c₀.tables.lookup t' = none := Option.not_isSome_iff_eq_none.1 hn
    have hlast : ((c.pairFields u' (c.source.table t').enumerate).pairGlobals theirs
        rest).tables.lookup t' = some u' := by
      refine lookup_pairGlobals_of_lookup ?_
      rw [ht, List.lookup_cons_self]
    rw [ih, mem_pairFields, ht, hs.heap, hs.source, or_assoc, matched_cons_of_ne,
      exists_lookup_cons hnone hlast]
    · exact or_congr_right or_left_comm
    · rintro _ ⟨⟩
  | case6 c name t' rest hne ih =>
    rw [ih, matched_cons_of_ne]
    rintro _ ⟨⟩
  | case7 c e rest hfunc htable ih =>
    rw [ih, matched_cons_of_ne]
    rintro name rfl
    exact (hfunc name f rfl).elim

end Copying

namespace World

variable (w : World) (s : SessionRef) (new : World) (fresh : SessionRef)

/-- Of two tables that both sessions have, one is the counterpart of the other. -/
def IsPairedWith (t u : TableRef) : Prop :=
  (w.startCopy s new fresh).tables.lookup t = some u

/-- The new session has a function in the place of a function of the old one: under the same name in
a table that both have. -/
def IsNamesake (f g : GuestFunction) : Prop :=
  ∃ t u, w.IsPairedWith s new fresh t u ∧ ∃ name, (w.heap.table t).get (.str name) = .func f ∧
    (new.heap.table u).get (.str name) = .func g

variable {w s new fresh} {t u : TableRef} {f g : GuestFunction}

theorem isPairedWith_globals (w : World) (s : SessionRef) (new : World) (fresh : SessionRef) :
    w.IsPairedWith s new fresh (w.globals s) (new.globals fresh) :=
  Copying.lookup_pairGlobals_of_lookup List.lookup_cons_self

/-- Tables that both sessions have are the global variables or have a name in both. -/
theorem IsPairedWith.name (h : w.IsPairedWith s new fresh t u) :
    t = w.globals s ∧ u = new.globals fresh ∨
      ∃ name, (w.heap.table (w.globals s)).get (.str name) = .table t ∧
        (new.heap.table (new.globals fresh)).get (.str name) = .table u := by
  rcases Copying.lookup_pairGlobals h with hl | hm
  · by_cases he : t = w.globals s
    · rw [he, List.lookup_cons_self] at hl
      cases hl
      exact .inl ⟨he, rfl⟩
    · rw [Copying.lookup_cons_of_ne he] at hl
      cases hl
  · exact .inr ((Copying.matched_enumerate Value.noConfusion).1 hm)

/-- The counterparts of functions at the start are the functions in their places. -/
theorem mem_functions_startCopy :
    (f, some g) ∈ (w.startCopy s new fresh).functions ↔ w.IsNamesake s new fresh f g := by
  rw [startCopy, Copying.pairAll, Copying.mem_pairGlobals]
  constructor
  · rintro (hm | hm | ⟨t, u, -, hl, hm⟩)
    · cases hm
    · exact ⟨_, _, isPairedWith_globals w s new fresh,
        (Copying.matched_enumerate Value.noConfusion).1 hm⟩
    · exact ⟨t, u, hl, (Copying.matched_enumerate Value.noConfusion).1 hm⟩
  · rintro ⟨t, u, hl, hm⟩
    have hmatched := (Copying.matched_enumerate (h := new.heap) Value.noConfusion).2 hm
    by_cases he : t = w.globals s
    · have hglobals := isPairedWith_globals w s new fresh
      rw [← he, IsPairedWith, hl] at hglobals
      cases hglobals
      rw [he] at hmatched
      exact .inr (.inl hmatched)
    · refine .inr (.inr ⟨t, u, ?_, hl, hmatched⟩)
      rw [Copying.lookup_cons_of_ne he]
      rfl

end World
end ScriptShell
