import ScriptShell.Proofs.CopyTraversal

/-! # Copying a session

The steps of copying a session, from the new session to the hooks.  Pairing up what both sessions
have leads to a state from which values can be copied (`Copying.Ready`), and merging the tables of
one session into those of the other keeps track of what each of them holds (`Copying.MergedAll`).
-/

namespace ScriptShell

open Guest

namespace Copying

/-! ## The start -/

/-- The state in which copying starts: the new session was built, and counterparts are in it. -/
structure Ready (s : Copying) : Prop where
  /-- The new session was built behind the old one. -/
  built : s.source.Built s.heap
  /-- Its globals are in it. -/
  globals : s.source.IsNew s.heap (.table s.globals)
  /-- The counterparts of tables are in it. -/
  table : ∀ t u, s.tables.lookup t = some u → s.source.IsNew s.heap (.table u)
  /-- The counterparts of functions are in it. -/
  function : ∀ e ∈ s.functions, ∃ g, e.2 = some g ∧ s.source.IsNew s.heap (.func g)

variable {s c : Copying}

namespace Ready

theorem function_lt (h : s.Ready) {f g : GuestFunction} (hm : (f, some g) ∈ s.functions) :
    g.id < s.heap.functions.size := by
  obtain ⟨g', he, hnew⟩ := h.function _ hm
  cases he
  exact hnew.2

theorem tablesSound (h : s.Ready) : s.TablesSound s where
  table t u hl := ⟨(h.table t u hl).2, .inl hl⟩
  injective t t' u hu hl _ := absurd (h.table t u hl).2 (Nat.not_lt.2 hu)
  origin t u hu hl := absurd (h.table t u hl).2 (Nat.not_lt.2 hu)
  metatable t u m hu hl := absurd (h.table t u hl).2 (Nat.not_lt.2 hu)
  slots u k hu hk := by
    obtain ⟨⟨name, rfl⟩, hv⟩ := h.built.slot u hu k hk
    exact ⟨.inr trivial, .inr hv⟩
  metatables u m hu hm := .inr (h.built.metatable u m hu hm)

theorem functionsSound (h : s.Ready) : s.FunctionsSound s where
  function f g hm := ⟨h.function_lt hm, .inl hm⟩
  copy f g hg hm := absurd (h.function_lt hm) (Nat.not_lt.2 hg)
  injective f f' g hg hm := absurd (h.function_lt hm) (Nat.not_lt.2 hg)
  closure g r p cells hg hc := absurd hc (h.built.function g r p cells hg)
  owner f f' g g' hg _ hm := absurd (h.function_lt hm) (Nat.not_lt.2 hg)
  ownCell g b hg hb := by
    obtain ⟨r, p, cells, hc⟩ := Heap.closure_of_mem_captures hb
    rw [Heap.function?, Array.getElem?_eq_none hg] at hc
    cases hc
  cells b hb := by
    rw [Heap.cell, h.built.cells, Array.getElem?_eq_none hb]
    exact .inr trivial
  stuck f hl := by
    obtain ⟨g, he, -⟩ := h.function _ (mem_of_lookup hl)
    cases he

theorem sound (h : s.Ready) : s.Sound s :=
  ⟨h.built.keeps.tables.size, h.globals, .refl s, h.built.keeps, h.tablesSound, h.functionsSound⟩

/-- At the start no function waits for anything. -/
theorem leads (h : s.Ready) (v : Value) : s.Leads s v := fun _ _ hl hg =>
  absurd (h.function_lt (mem_of_lookup hl)) (Nat.not_lt.2 hg)

end Ready

/-! ## Counterparts -/

section Pairing

variable {theirs : TableRef}

/-- What is in a new table is new. -/
theorem Ready.isNew_get (h : c.Ready) (hu : c.source.tables.size ≤ theirs.id) {k : Key} {v : Value}
    (hv : (c.heap.table theirs).get k = v) (hne : v ≠ .nil) : c.source.IsNew c.heap v := by
  subst hv
  exact (h.built.slot theirs hu k hne).2

theorem Ready.pairFunctions (h : c.Ready) {f g : GuestFunction}
    (hg : c.source.IsNew c.heap (.func g)) : (c.pairFunctions f g).Ready where
  built := h.built
  globals := h.globals
  table := h.table
  function e he := by
    rcases List.mem_cons.1 he with rfl | he
    · exact ⟨g, rfl, hg⟩
    · exact h.function e he

theorem Ready.pairTables (h : c.Ready) {t u : TableRef}
    (hu : c.source.IsNew c.heap (.table u)) : { c with tables := (t, u) :: c.tables }.Ready where
  built := h.built
  globals := h.globals
  table t' u' hl := by
    by_cases ht : t' = t
    · rw [ht, List.lookup_cons_self] at hl
      cases hl
      exact hu
    · rw [lookup_cons_of_ne ht] at hl
      exact h.table t' u' hl
  function := h.function

/-- The second state has the same heap, and knows other counterparts. -/
structure SameHeap (c c' : Copying) : Prop where
  /-- The same is copied. -/
  source : c'.source = c.source
  /-- The heap is the same. -/
  heap : c'.heap = c.heap
  /-- It is copied to the same place. -/
  target : c'.target = c.target
  /-- The globals there are the same. -/
  globals : c'.globals = c.globals

theorem sameHeap_pairFields (c : Copying) (theirs : TableRef) (es : List (Key × Value)) :
    SameHeap c (c.pairFields theirs es) ∧ (c.pairFields theirs es).tables = c.tables := by
  fun_induction pairFields c theirs es with
  | case1 => exact ⟨⟨rfl, rfl, rfl, rfl⟩, rfl⟩
  | case2 _ _ _ _ _ _ ih => exact ⟨⟨ih.1.source, ih.1.heap, ih.1.target, ih.1.globals⟩, ih.2⟩
  | case3 _ _ _ _ _ ih => exact ih
  | case4 _ _ _ _ ih => exact ih

theorem Ready.pairFields {es : List (Key × Value)} (h : c.Ready)
    (hu : c.source.tables.size ≤ theirs.id) : (c.pairFields theirs es).Ready := by
  fun_induction Copying.pairFields c theirs es with
  | case1 => exact h
  | case2 c name f rest g hg ih =>
    exact ih (h.pairFunctions (h.isNew_get hu hg Value.noConfusion)) hu
  | case3 _ _ _ _ _ ih => exact ih h hu
  | case4 _ _ _ _ ih => exact ih h hu

theorem sameHeap_pairGlobals (c : Copying) (theirs : TableRef) (es : List (Key × Value)) :
    SameHeap c (c.pairGlobals theirs es) := by
  fun_induction pairGlobals c theirs es with
  | case1 => exact ⟨rfl, rfl, rfl, rfl⟩
  | case2 _ _ _ _ _ _ ih => exact ⟨ih.source, ih.heap, ih.target, ih.globals⟩
  | case3 _ _ _ _ _ ih => exact ih
  | case4 _ _ _ _ _ _ _ ih => exact ih
  | case5 c₀ name t rest u hu hl c ih =>
    have hf := (sameHeap_pairFields c u (c.source.table t).enumerate).1
    exact ⟨ih.source.trans hf.source, ih.heap.trans hf.heap, ih.target.trans hf.target,
      ih.globals.trans hf.globals⟩
  | case6 _ _ _ _ _ ih => exact ih
  | case7 _ _ _ _ _ ih => exact ih

theorem Ready.pairGlobals {es : List (Key × Value)} (h : c.Ready)
    (hu : c.source.tables.size ≤ theirs.id) : (c.pairGlobals theirs es).Ready := by
  fun_induction Copying.pairGlobals c theirs es with
  | case1 => exact h
  | case2 c name f rest g hg ih =>
    exact ih (h.pairFunctions (h.isNew_get hu hg Value.noConfusion)) hu
  | case3 _ _ _ _ _ ih => exact ih h hu
  | case4 _ _ _ _ _ _ _ ih => exact ih h hu
  | case5 c₀ name t rest u hget hl c ih =>
    have hnew := h.isNew_get hu hget Value.noConfusion
    refine ih ((h.pairTables hnew).pairFields hnew.1) ?_
    rw [(sameHeap_pairFields c u _).1.source]
    exact hu
  | case6 _ _ _ _ _ ih => exact ih h hu
  | case7 _ _ _ _ _ ih => exact ih h hu

/-- A table is the value of a pair, and under the same name the other table holds one as well. -/
def BothHold (h : Heap) (theirs : TableRef) (es : List (Key × Value)) (t : TableRef) : Prop :=
  ∃ name u, (.str name, .table t) ∈ es ∧ (h.table theirs).get (.str name) = .table u

theorem bothHold_cons {h : Heap} {es : List (Key × Value)} {t : TableRef} {e : Key × Value} :
    BothHold h theirs (e :: es) t ↔ (∃ name u, e = (.str name, .table t) ∧
      (h.table theirs).get (.str name) = .table u) ∨ BothHold h theirs es t := by
  constructor
  · rintro ⟨name, u, hm, hu⟩
    rcases List.mem_cons.1 hm with he | hm
    · exact .inl ⟨name, u, he.symm, hu⟩
    · exact .inr ⟨name, u, hm, hu⟩
  · rintro (⟨name, u, he, hu⟩ | ⟨name, u, hm, hu⟩)
    · exact ⟨name, u, List.mem_cons.2 (.inl he.symm), hu⟩
    · exact ⟨name, u, List.mem_cons_of_mem _ hm, hu⟩

/-- A pair that is passed over pairs up no table. -/
theorem bothHold_cons_of_ne {h : Heap} {es : List (Key × Value)} {t : TableRef} {e : Key × Value}
    (hne : ∀ name u, e = (.str name, .table t) → (h.table theirs).get (.str name) ≠ .table u) :
    BothHold h theirs (e :: es) t ↔ BothHold h theirs es t := by
  rw [bothHold_cons]
  refine or_iff_right ?_
  rintro ⟨name, u, he, hu⟩
  exact hne name u he hu

/-- A table has a counterpart if it had one before or both global tables hold one under the same
name. -/
theorem isSome_lookup_pairGlobals {es : List (Key × Value)} {t : TableRef} :
    ((c.pairGlobals theirs es).tables.lookup t).isSome ↔
      (c.tables.lookup t).isSome ∨ BothHold c.heap theirs es t := by
  fun_induction Copying.pairGlobals c theirs es with
  | case1 c =>
    refine (or_iff_left ?_).symm
    rintro ⟨name, u, hm, -⟩
    cases hm
  | case2 c name f rest g hg ih =>
    rw [ih, bothHold_cons_of_ne]
    · rfl
    · rintro _ _ he
      cases he
  | case3 c name f rest hg ih =>
    rw [ih, bothHold_cons_of_ne]
    rintro _ _ he
    cases he
  | case4 c name t' rest u hget hl ih =>
    -- the table keeps the counterpart that it has
    rw [ih, bothHold_cons]
    constructor
    · exact Or.imp_right .inr
    · rintro (hs | ⟨name', u', he, -⟩ | hb)
      · exact .inl hs
      · cases he
        exact .inl hl
      · exact .inr hb
  | case5 c₀ name t' rest u hget hl c ih =>
    obtain ⟨hs, ht⟩ := sameHeap_pairFields c u (c.source.table t').enumerate
    rw [ih, ht, hs.heap, bothHold_cons]
    by_cases he : t = t'
    · subst he
      rw [List.lookup_cons_self]
      exact iff_of_true (.inl rfl) (.inr (.inl ⟨name, u, rfl, hget⟩))
    · rw [lookup_cons_of_ne he]
      refine or_congr_right (or_iff_right ?_).symm
      rintro ⟨name', u', heq, -⟩
      cases heq
      exact he rfl
  | case6 c name t' rest hne ih =>
    rw [ih, bothHold_cons_of_ne]
    rintro name' u he
    cases he
    exact hne u
  | case7 c e rest hfunc htable ih =>
    rw [ih, bothHold_cons_of_ne]
    rintro name u rfl
    exact (htable name t rfl).elim

end Pairing

/-! ## Merging -/

/-- Tables of the old session that were merged into tables of the new one. -/
structure MergedAll (s c : Copying) (done : List (TableRef × TableRef)) : Prop where
  /-- All states on the way were sound. -/
  advances : s.Advances s c
  /-- They are tables of the new session. -/
  target : ∀ e ∈ done, s.source.IsNew s.heap (.table e.2)
  /-- What is in such a table was there at the start or comes from the other one. -/
  origin : ∀ e ∈ done, s.From c e.1 e.2
  /-- It has all that can be copied. -/
  filled : ∀ e ∈ done, s.Filled c e.2 (s.source.table e.1).enumerate
  /-- The other tables of the new session are as they were. -/
  rest : ∀ u : TableRef, u.id < s.heap.tables.size → u ∉ done.map (·.2) →
    c.heap.table u = s.heap.table u

theorem MergedAll.start (h : s.Ready) : s.MergedAll s [] where
  advances := .refl h.sound
  target _ he := (List.not_mem_nil he).elim
  origin _ he := (List.not_mem_nil he).elim
  filled _ he := (List.not_mem_nil he).elim
  rest _ _ _ := rfl

/-- Another table is merged, possibly into one that has been merged into, but then the same. -/
theorem MergedAll.merge {done : List (TableRef × TableRef)} {t u : TableRef}
    (m : s.MergedAll c done) (h : s.Ready) (hu : s.source.IsNew s.heap (.table u))
    (hsame : ∀ t', (t', u) ∈ done → t' = t) : s.MergedAll (c.merge t u) ((t, u) :: done) := by
  have a := m.advances
  have hfrom : s.From c t u := by
    -- what is in `u` by now was merged from the same table, or was there at the start
    by_cases hd : u ∈ done.map (·.2)
    · obtain ⟨e, he, rfl⟩ := List.mem_map.1 hd
      rw [← hsame e.1 he]
      exact m.origin e he
    · intro k hk
      rw [m.rest u hu.2 hd] at hk
      exact .inl hk
  have hm : s.Merged c t u (c.source.table t).enumerate (c.merge t u) := by
    refine merged_mergeInto (s.copies c.depth) _ c
      (fun e he => ⟨c.remaining_lt_depth, he⟩) ⟨a.sound, (h.leads _).advance a, ?_, hu.1, ?_, hfrom⟩
    · exact Nat.lt_of_lt_of_le hu.2 a.later.size
    · exact fun hmade => absurd hu.2 (Nat.not_lt.2 hmade)
  have x := hm.advances.later
  have hother {u' : TableRef} (hne : u' ≠ u) (hlt : u'.id < s.heap.tables.size) :
      (c.merge t u).heap.table u' = c.heap.table u' :=
    hm.keeps.table hne (Nat.lt_of_lt_of_le hlt a.later.size)
  refine ⟨a.trans hm.advances, fun e he => ?_, fun e he => ?_, fun e he => ?_, fun u' hlt hd => ?_⟩
  · rcases List.mem_cons.1 he with rfl | he
    · exact hu
    · exact m.target e he
  · rcases List.mem_cons.1 he with rfl | he
    · exact hm.origin
    · by_cases heq : e.2 = u
      · rw [hsame e.1 (by rw [← heq]; exact he), heq]
        exact hm.origin
      · exact (m.origin e he).mono (fun k => by rw [hother heq (m.target e he).2]) x.source
          fun _ _ => hm.advances.given
  · rcases List.mem_cons.1 he with rfl | he
    · rw [← a.sound.later.source]
      exact hm.filled
    · exact (m.filled e he).mono ne_nil_of_mem_enumerate (fun _ _ => x.pairs) x.lookupTable
        (x.slot e.2)
  · rw [List.map_cons, List.mem_cons, not_or] at hd
    rw [hother hd.1 hlt]
    exact m.rest u' hlt hd.2

/-- What is merged under a name is what both global tables hold under it. -/
theorem MergedAll.mergeNamed {done : List (TableRef × TableRef)} {source into u : TableRef}
    {name : String} (m : s.MergedAll c done) (h : s.Ready)
    (hinto : s.source.tables.size ≤ into.id) (hfield : s.heap.field into name = .table u)
    (hsame : ∀ t t', s.source.field source name = .table t → (t', u) ∈ done → t' = t) :
    ∃ done', s.MergedAll (c.mergeNamed source into name) done' ∧ (∀ e ∈ done, e ∈ done') ∧
      (∀ e ∈ done', e ∈ done ∨ e.2 = u ∧ s.source.field source name = .table e.1) ∧
      ∀ t, s.source.field source name = .table t → (t, u) ∈ done' := by
  have hu : s.source.IsNew s.heap (.table u) := h.isNew_get hinto hfield Value.noConfusion
  have hnow : c.heap.field into name = .table u := by
    rw [← hfield]
    exact m.advances.later.slot into (.text name)
      (by rw [← Heap.field, hfield]; exact Value.noConfusion)
  unfold Copying.mergeNamed
  rw [m.advances.later.source, hnow]
  cases hs : s.source.field source name with
  | table t =>
    refine ⟨_, m.merge h hu fun t' ht' => hsame t t' hs ht', fun e he => List.mem_cons_of_mem _ he,
      fun e he => ?_, fun t' ht' => ?_⟩
    · rcases List.mem_cons.1 he with rfl | he
      · exact .inr ⟨rfl, rfl⟩
      · exact .inl he
    · cases ht'
      exact List.mem_cons_self ..
  | _ => exact ⟨done, m, fun e he => he, fun e he => .inl he, fun t ht => by cases ht⟩

/-- All three merges.  The tables merged into are different ones, unless the capability table has
the name of the other. -/
theorem mergedAll (h : s.Ready) {source into share own : TableRef} {config : Config}
    (hinto : s.source.IsNew s.heap (.table into))
    (hshare : s.heap.field into "share" = .table share)
    (hown : s.heap.field into config.namespaceName = .table own) (hs : share ≠ into)
    (ho : own ≠ into) (hsame : own = share → config.namespaceName = "share") :
    ∃ done, s.MergedAll (s.mergeAll source into config) done ∧ (source, into) ∈ done ∧
      (∀ t, s.source.field source "share" = .table t → (t, share) ∈ done) ∧
      (∀ t, s.source.field source config.namespaceName = .table t → (t, own) ∈ done) ∧
      ∀ e ∈ done, e = (source, into) ∨ e.2 = share ∧ s.source.field source "share" = .table e.1 ∨
        e.2 = own ∧ s.source.field source config.namespaceName = .table e.1 := by
  have m₁ := (MergedAll.start h).merge h hinto (t := source) fun _ he => (List.not_mem_nil he).elim
  obtain ⟨done₂, m₂, hold₂, hnew₂, hdone₂⟩ :=
    m₁.mergeNamed h hinto.1 hshare fun t t' _ ht' =>
      absurd (congrArg Prod.snd (List.mem_singleton.1 ht')) hs
  obtain ⟨done₃, m₃, hold₃, hnew₃, hdone₃⟩ :=
    m₂.mergeNamed h hinto.1 hown fun t t' ht ht' => by
      rcases hnew₂ _ ht' with he | ⟨he, hfield⟩
      · exact absurd (congrArg Prod.snd (List.mem_singleton.1 he)) ho
      · rw [hsame he, hfield] at ht
        exact Value.table.inj ht
  refine ⟨done₃, ?_, hold₃ _ (hold₂ _ (List.mem_singleton_self _)),
    fun t ht => hold₃ _ (hdone₂ t ht), hdone₃, fun e he => ?_⟩
  · unfold mergeAll
    exact m₃
  · rcases hnew₃ e he with he | he
    · exact (hnew₂ e he).imp List.mem_singleton.1 .inl
    · exact .inr (.inr he)

/-- A later state has merged the same. -/
theorem MergedAll.advance {c' : Copying} {done : List (TableRef × TableRef)}
    (m : s.MergedAll c done) (a : s.Advances c c') (k : c.heap.Keeps c'.heap) :
    s.MergedAll c' done := by
  have hsame {u : TableRef} (hu : u.id < s.heap.tables.size) : c'.heap.table u = c.heap.table u :=
    k.table (Nat.lt_of_lt_of_le hu m.advances.later.size)
  refine ⟨m.advances.trans a, m.target, fun e he => ?_, fun e he => ?_, fun u hu hd => ?_⟩
  · exact (m.origin e he).mono (fun key => by rw [hsame (m.target e he).2]) a.later.source
      fun _ _ => a.given
  · exact (m.filled e he).mono ne_nil_of_mem_enumerate (fun _ _ => a.later.pairs)
      a.later.lookupTable (a.later.slot e.2)
  · rw [hsame hu]
    exact m.rest u hu hd

/-! ## Hooks -/

/-- The hooks of the copy are copies of the functions of the same points. -/
theorem advances_copyHooks (h : s.Ready) {all : List (HookPoint × GuestFunction)}
    (es : List (HookPoint × GuestFunction)) (hall : ∀ e ∈ es, e ∈ all) :
    ∀ c hooks, s.Advances s c →
      (∀ e ∈ hooks.entries, ∃ f, (e.1, f) ∈ all ∧ s.Given c (.func f) (.func e.2)) →
        s.Advances c (c.copyHooks hooks es).2 ∧ c.heap.Keeps (c.copyHooks hooks es).2.heap ∧
          ∀ e ∈ (c.copyHooks hooks es).1.entries,
            ∃ f, (e.1, f) ∈ all ∧ s.Given (c.copyHooks hooks es).2 (.func f) (.func e.2) := by
  induction es with
  | nil => exact fun c hooks a hhooks => ⟨.refl a.sound, .refl _, hhooks⟩
  | cons e es ih =>
    intro c hooks a hhooks
    specialize ih fun e he => hall e (List.mem_cons_of_mem _ he)
    obtain ⟨point, f⟩ := e
    have hcopied := s.copies c.depth c (.func f) a.sound c.remaining_lt_depth
      ((h.leads _).advance a)
    unfold copyHooks
    generalize copyWithin c.depth c (.func f) = r at hcopied
    obtain ⟨v?, c₁⟩ := r
    have a₁ := hcopied.advances
    have hkept : ∀ e ∈ hooks.entries,
        ∃ f, (e.1, f) ∈ all ∧ s.Given c₁ (.func f) (.func e.2) := by
      intro e he
      obtain ⟨f', hmem, hf'⟩ := hhooks e he
      exact ⟨f', hmem, a₁.given hf'⟩
    -- what remains to be done, with a new hook or without
    have next (hooks' : HookRegistry)
        (hh : ∀ e ∈ hooks'.entries,
          ∃ f, (e.1, f) ∈ all ∧ s.Given c₁ (.func f) (.func e.2)) := by
      obtain ⟨a₂, k₂, hcopies⟩ := ih c₁ hooks' (a.trans a₁) hh
      exact And.intro (a₁.trans a₂) (And.intro (hcopied.keeps.trans k₂) hcopies)
    split
    · next g c₂ he =>
      cases he
      refine next _ fun e he => ?_
      rcases List.mem_append.1 he with he | he
      · exact hkept e (List.mem_filter.1 he).1
      · cases List.mem_singleton.1 he
        exact ⟨f, hall _ (List.mem_cons_self ..), hcopied.given _ rfl⟩
    · next he =>
      cases he
      exact next hooks hkept

end Copying

/-! ## The session as a whole -/

namespace World

variable (w : World) (s : SessionRef)

/-- The session that is to become the copy of another one, before anything is copied. -/
def freshSession : SessionRef × World :=
  w.placeSession (w.session s).shell (w.session s).capabilities (w.session s).config

/-- The state after a session was copied into a new one. -/
def afterCopy (new : World) (fresh : SessionRef) : World :=
  { new with heap := (w.copyInto s new fresh).2.heap }.setRegistry (new.session fresh).hooks
    (w.copyInto s new fresh).1

theorem copySession_of_add {fresh : SessionRef} {new : World}
    (hopen : (w.session s).closed = false)
    (hadd : w.addSession (w.session s).shell (w.session s).capabilities (w.session s).config =
      .ok (fresh, new)) : w.copySession s = .ok (fresh, w.afterCopy s new fresh) := by
  unfold copySession
  dsimp only
  rw [hopen, hadd]
  rfl

/-- An open session with good capabilities is copied. -/
theorem copySession_eq (hopen : (w.session s).closed = false)
    (hvalid : (w.session s).capabilities.validate = .ok ()) :
    w.copySession s = .ok ((w.freshSession s).1,
      w.afterCopy s (w.freshSession s).2 (w.freshSession s).1) := by
  refine w.copySession_of_add s hopen ?_
  rw [addSession, hvalid, Prod.mk.eta, freshSession]

/-- A new session that is to become the copy of another one. -/
structure IsFresh (new : World) (fresh : SessionRef) : Prop where
  /-- It was built behind everything else. -/
  built : w.heap.Built new.heap
  /-- So were its global variables. -/
  globals : w.heap.IsNew new.heap (.table (new.globals fresh))
  /-- It has an empty `share` table and a capability table of its own. -/
  own : ∃ share own : TableRef, new.heap.table share = {} ∧ share ≠ new.globals fresh ∧
    own ≠ new.globals fresh ∧ (own = share → (w.session s).config.namespaceName = "share") ∧
    new.heap.field (new.globals fresh) "share" = .table share ∧
    new.heap.field (new.globals fresh) (w.session s).config.namespaceName = .table own
  /-- It has a place for hooks. -/
  hooks : (new.session fresh).hooks.id < new.host.registries.size

theorem globals_freshSession :
    (w.freshSession s).2.globals (w.freshSession s).1 = w.nextRuntime.globals := by
  rw [globals, freshSession, session_placeSession, runtime_placeSession]

theorem isFresh_freshSession : w.IsFresh s (w.freshSession s).2 (w.freshSession s).1 := by
  have hg := w.globals_freshSession s
  refine ⟨w.built_placeSession .., ?_, ?_, ?_⟩
  · rw [hg, freshSession]
    exact w.isNew_globals ..
  · rw [hg, freshSession]
    obtain ⟨t, share, ht, hshare, -, hempty, hfield, hown⟩ := w.own_placeSession (w.session s).shell
      (w.session s).capabilities (w.session s).config
    refine ⟨share, _, hempty, fun he => ?_, fun he => ?_, fun he => ?_, hfield, hown⟩
    · rw [he] at hshare
      omega
    · split at he
      · rw [he] at hshare
        omega
      · rw [he] at ht
        omega
    · split at he
      · next hname => exact hname
      · rw [he] at hshare
        omega
  · rw [freshSession, session_placeSession]
    exact w.registry_placeSession ..

/-- A table that both sessions have: the global variables, or one that both hold under one name. -/
def IsPaired (new : World) (fresh : SessionRef) (t : TableRef) : Prop :=
  t = w.globals s ∨ ∃ name u, (w.heap.table (w.globals s)).get (.str name) = .table t ∧
    (new.heap.table (new.globals fresh)).get (.str name) = .table u

/-- The tables that are merged: the global variables, `share` and the capability table. -/
inductive Merges (new : World) (fresh : SessionRef) : TableRef → TableRef → Prop where
  /-- The global variables. -/
  | globals : Merges new fresh (w.globals s) (new.globals fresh)
  /-- What is called `share` in both sessions. -/
  | share {t u : TableRef} (ht : w.heap.field (w.globals s) "share" = .table t)
    (hu : new.heap.field (new.globals fresh) "share" = .table u) : Merges new fresh t u
  /-- What has the name of the capability table in both sessions. -/
  | own {t u : TableRef}
    (ht : w.heap.field (w.globals s) (w.session s).config.namespaceName = .table t)
    (hu : new.heap.field (new.globals fresh) (w.session s).config.namespaceName = .table u) :
    Merges new fresh t u

variable {w s} {new : World} {fresh : SessionRef}

theorem sameHeap_startCopy (w : World) (s : SessionRef) (new : World) (fresh : SessionRef) :
    (w.startCopy s new fresh).source = w.heap ∧ (w.startCopy s new fresh).heap = new.heap := by
  have hs := Copying.sameHeap_pairGlobals
    { source := w.heap, heap := new.heap, target := (new.session fresh).runtime
      globals := new.globals fresh
      tables := [(w.globals s, new.globals fresh)] } (new.globals fresh)
    (w.heap.table (w.globals s)).enumerate
  exact ⟨hs.source, hs.heap⟩

theorem IsFresh.ready (h : w.IsFresh s new fresh) : (w.startCopy s new fresh).Ready := by
  have h₀ : Copying.Ready
      { source := w.heap, heap := new.heap, target := (new.session fresh).runtime
        globals := new.globals fresh } :=
    ⟨h.built, h.globals, fun t u hl => (by cases hl), fun e he => (List.not_mem_nil he).elim⟩
  exact (h₀.pairTables h.globals).pairGlobals h.globals.1

/-- The tables that both sessions have are those with a counterpart at the start. -/
theorem isPaired_iff {t : TableRef} :
    w.IsPaired s new fresh t ↔ ((w.startCopy s new fresh).tables.lookup t).isSome := by
  rw [startCopy, Copying.pairAll, Copying.isSome_lookup_pairGlobals, IsPaired]
  refine or_congr ?_ ?_
  · by_cases ht : t = w.globals s
    · rw [ht, List.lookup_cons_self]
      exact iff_of_true rfl rfl
    · rw [Copying.lookup_cons_of_ne ht]
      exact iff_of_false ht Bool.false_ne_true
  · constructor
    · rintro ⟨name, u, ht, hu⟩
      exact ⟨name, u, Table.mem_enumerate.2 ⟨ht, Value.noConfusion⟩, hu⟩
    · rintro ⟨name, u, hm, hu⟩
      exact ⟨name, u, (Table.mem_enumerate.1 hm).1, hu⟩

instance (w : World) (s : SessionRef) (new : World) (fresh : SessionRef) (t : TableRef) :
    Decidable (w.IsPaired s new fresh t) :=
  decidable_of_iff _ isPaired_iff.symm

/-- All that is merged and copied, from the start to the hooks. -/
theorem IsFresh.mergedAll (h : w.IsFresh s new fresh) :
    (∃ done, (w.startCopy s new fresh).MergedAll (w.copyInto s new fresh).2 done ∧
      (∀ t u, w.Merges s new fresh t u → (t, u) ∈ done) ∧
      ∀ e ∈ done, w.Merges s new fresh e.1 e.2) ∧
    ∀ e ∈ (w.copyInto s new fresh).1.entries, ∃ f, (e.1, f) ∈ (w.hooks s).entries ∧
      (w.startCopy s new fresh).Given (w.copyInto s new fresh).2 (.func f) (.func e.2) := by
  obtain ⟨hsource, hheap⟩ := sameHeap_startCopy w s new fresh
  have hr := h.ready
  obtain ⟨share, own, -, hs, ho, hsame, hshare, hown⟩ := h.own
  unfold copyInto
  generalize w.startCopy s new fresh = start at hsource hheap hr ⊢
  obtain ⟨done, m, hglobals, hdone, hdone', honly⟩ :=
    Copying.mergedAll hr (by rw [hsource, hheap]; exact h.globals)
    (by rw [hheap]; exact hshare) (by rw [hheap]; exact hown) hs ho hsame
  rw [hsource] at hdone hdone' honly
  obtain ⟨a, k, hhooks⟩ := Copying.advances_copyHooks hr (w.hooks s).entries (fun _ he => he) _ {}
    m.advances fun e he => (List.not_mem_nil he).elim
  refine ⟨⟨done, m.advance a k, fun t u hm => ?_, fun e he => ?_⟩, hhooks⟩
  · cases hm with
    | globals => exact hglobals
    | share ht hu =>
      rw [hshare] at hu
      cases hu
      exact hdone t ht
    | own ht hu =>
      rw [hown] at hu
      cases hu
      exact hdone' t ht
  · rcases honly e he with rfl | ⟨hu, ht⟩ | ⟨hu, ht⟩
    · exact .globals
    · exact .share ht (hu ▸ hshare)
    · exact .own ht (hu ▸ hown)

/-- From the start to the end, the copying has only advanced. -/
theorem IsFresh.advances (h : w.IsFresh s new fresh) :
    (w.startCopy s new fresh).Advances (w.startCopy s new fresh) (w.copyInto s new fresh).2 := by
  obtain ⟨⟨done, m, -⟩, -⟩ := h.mergedAll
  exact m.advances

/-- What is copied is the old session. -/
theorem IsFresh.source_copyInto (h : w.IsFresh s new fresh) :
    (w.copyInto s new fresh).2.source = w.heap :=
  h.advances.later.source.trans (sameHeap_startCopy w s new fresh).1

theorem target_startCopy (w : World) (s : SessionRef) (new : World) (fresh : SessionRef) :
    (w.startCopy s new fresh).target = (new.session fresh).runtime :=
  (Copying.sameHeap_pairGlobals _ _ _).target

/-! ## What is in the copy -/

theorem heap_afterCopy (w : World) (s : SessionRef) (new : World) (fresh : SessionRef) :
    (w.afterCopy s new fresh).heap = (w.copyInto s new fresh).2.heap := rfl

theorem globals_afterCopy (w : World) (s : SessionRef) (new : World) (fresh : SessionRef) :
    (w.afterCopy s new fresh).globals fresh = new.globals fresh := rfl

theorem IsFresh.hooks_afterCopy (h : w.IsFresh s new fresh) :
    (w.afterCopy s new fresh).hooks fresh = (w.copyInto s new fresh).1 := by
  show ((new.host.registries.setIfInBounds (new.session fresh).hooks.id
    (w.copyInto s new fresh).1)[(new.session fresh).hooks.id]?.getD {}) = _
  rw [Array.getElem?_setIfInBounds_self_of_lt h.hooks, Option.getD_some]

/-- A world of one open session, whose global variables are the first table of the heap. -/
def single (h : Heap) : World where
  heap := h
  runtimes := #[{ runtime := { (default : Runtime) with globals := ⟨0⟩ } }]
  sessions := #[{ runtime := ⟨0⟩, hooks := ⟨0⟩, capabilities := {}, shell := ⟨0⟩, config := {} }]

end World
end ScriptShell
