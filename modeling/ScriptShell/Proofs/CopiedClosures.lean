import ScriptShell.Proofs.SessionCopies

/-! # Copies of closures

Which closures a copy of a session has, and whether they are whole.  Everything that the copy
reaches was built with it or is the copy of something (`World.IsFresh.placed`), and its closures are
copies.  A closure is given up when one of its variables cannot be copied, but whoever got hold of
its copy before that keeps it, unfinished as it is.  So the copy of a session has only whole
closures exactly when no closure that was given up is left in it, and one that is left lies on a
cycle of references (`World.closures_whole_iff`).
-/

namespace ScriptShell

open Guest

namespace Copying

variable {s c : Copying}

/-! ## What belongs to the new session -/

/-- The tables of the new session. -/
theorem Placed.table_ge (h : s.Ready) (hs : s.Sound c) {u : TableRef}
    (hp : s.Placed c (.table u)) : s.source.tables.size ≤ u.id := by
  rcases hp with ⟨v, hv⟩ | hnew
  · have hpairs := hv.pairs
    cases v with
    | table t =>
      obtain ⟨u', hl, he⟩ := hpairs
      cases he
      rcases (hs.tables.table t u hl).2 with hold | hmade
      · exact (h.table t u hold).1
      · exact Nat.le_trans hs.start hmade
    | func f => obtain ⟨g, -, he⟩ := hpairs; cases he
    | user x => obtain ⟨y, handle, -, -, he⟩ := hpairs; cases he
    | thread _ | light _ => exact hpairs.elim
    | _ => cases hpairs
  · exact hnew.1

/-- The functions of the new session are built ones or copies. -/
theorem Placed.function (h : s.Ready) (hs : s.Sound c) {g : GuestFunction}
    (hp : s.Placed c (.func g)) : s.source.functions.size ≤ g.id ∧
      (g.id < s.heap.functions.size ∨ ∃ f, s.Given c (.func f) (.func g)) := by
  rcases hp with ⟨v, hv⟩ | hnew
  · have hpairs := hv.pairs
    cases v with
    | func f =>
      obtain ⟨g', hm, he⟩ := hpairs
      cases he
      refine ⟨?_, .inr ⟨f, hv⟩⟩
      rcases (hs.functions.function f g hm).2 with hold | hmade
      · obtain ⟨g', he, hnew⟩ := h.function _ hold
        cases he
        exact hnew.1
      · exact Nat.le_trans h.built.keeps.functions.size hmade
    | table t => obtain ⟨u, -, he⟩ := hpairs; cases he
    | user x => obtain ⟨y, handle, -, -, he⟩ := hpairs; cases he
    | thread _ | light _ => exact hpairs.elim
    | _ => cases hpairs
  · exact ⟨hnew.1, .inl hnew.2⟩

/-- What belongs to the new session holds only what belongs there. -/
theorem Placed.refers (h : s.Ready) (hs : s.Sound c) {v v' : Value} (hp : s.Placed c v)
    (hr : c.heap.Refers v v') : s.Placed c v' := by
  cases hr with
  | key hv => exact (hs.tables.slots _ _ (hp.table_ge h hs) hv).1
  | value hv => exact (hs.tables.slots _ _ (hp.table_ge h hs) hv).2
  | metatable hm => exact hs.tables.metatables _ _ (hp.table_ge h hs) hm
  | capture hc =>
    obtain ⟨r, p, cells, hf⟩ := Heap.closure_of_mem_captures hc
    have hmade := (hs.functions.closure _ r p cells (hp.function h hs).1 hf).1
    exact hs.functions.cells _ (hs.functions.ownCell _ _ hmade hc).1

/-- A function that was made and is somewhere in the new session is finished, or on a cycle. -/
theorem Placed.settled (h : s.Ready) (hs : s.Sound c) {f g : GuestFunction}
    (hp : s.Placed c (.func g)) (hg : s.heap.functions.size ≤ g.id)
    (hm : (f, some g) ∈ c.functions) : s.source.OnCycle f ∨ c.Bound f g := by
  rcases (hp.function h hs).2 with hlt | ⟨f', hv⟩
  · exact absurd hlt (Nat.not_lt.2 hg)
  · obtain ⟨g', hm', he⟩ := hv.pairs
    cases he
    have heq := hs.functions.injective f f' g hg hm hm'
    subst heq
    exact hv.settled f g rfl rfl hg

/-- In the end, what was made is finished unless it was given up. -/
theorem Advances.bound_iff (a : s.Advances s c) {f g : GuestFunction}
    (hg : s.heap.functions.size ≤ g.id) (hm : (f, some g) ∈ c.functions) :
    c.Bound f g ↔ c.functions.lookup f ≠ some none := by
  have hcopy := a.sound.functions.copy f g hg hm
  constructor
  · intro hb hn
    rw [hb.lookup] at hn
    cases hn
  · intro hn
    exact a.bound f g hcopy.fresh (hcopy.state.resolve_right fun hs => hn hs.1)

/-- Every variable of a copied function has a variable of the copy. -/
theorem Copy.exists_pair {f g : GuestFunction} {a : CellRef} (h : s.Copy c f g)
    (ha : a ∈ c.source.captures f) : ∃ b, (a, b) ∈ c.cellPairs f g := by
  obtain ⟨r, p, as, bs, hf, hg, hlen⟩ := h.mirrors
  rw [cellPairs, Heap.captures_of_closure hg]
  rw [Heap.captures_of_closure hf] at ha ⊢
  obtain ⟨i, hi, rfl⟩ := List.mem_iff_getElem.1 ha
  have hi' : i < (as.zip bs).length := by
    rw [List.length_zip]
    omega
  exact ⟨bs[i], List.mem_iff_getElem.2 ⟨i, hi', List.getElem_zip⟩⟩

end Copying

namespace World

/-- Everything that a session can get at, from its global variables and its hooks. -/
def InSession (w : World) (s : SessionRef) (v : Value) : Prop :=
  w.heap.Reaches (fun root => root = .table (w.globals s) ∨
    ∃ e ∈ (w.hooks s).entries, root = .func e.2) v

variable {w : World} {s : SessionRef} {new : World} {fresh : SessionRef}

/-- Everything that the copy can get at was built with it or is a copy. -/
theorem IsFresh.placed (h : w.IsFresh s new fresh) {v : Value}
    (hv : (w.afterCopy s new fresh).InSession fresh v) :
    (w.startCopy s new fresh).Placed (w.copyInto s new fresh).2 v := by
  obtain ⟨⟨done, m, -⟩, hhooks⟩ := h.mergedAll
  obtain ⟨hsource, hheap⟩ := sameHeap_startCopy w s new fresh
  refine hv.of_step (fun root hroot => ?_) fun v₁ v₂ hp hr => hp.refers h.ready m.advances.sound hr
  rcases hroot with rfl | ⟨e, he, rfl⟩
  · refine .inr ?_
    rw [globals_afterCopy, hsource, hheap]
    exact h.globals
  · rw [h.hooks_afterCopy] at he
    obtain ⟨f, -, hf⟩ := hhooks e he
    exact .inl ⟨_, hf⟩

/-- A function of the new session is a copy of one of the old session. -/
def IsCopy (w : World) (s : SessionRef) (new : World) (fresh : SessionRef)
    (f g : GuestFunction) : Prop :=
  new.heap.functions.size ≤ g.id ∧ (f, some g) ∈ (w.copyInto s new fresh).2.functions

/-- A function of the old session was given up: a variable of it could not be copied. -/
def IsGivenUp (w : World) (s : SessionRef) (new : World) (fresh : SessionRef)
    (f : GuestFunction) : Prop :=
  (w.copyInto s new fresh).2.functions.lookup f = some none

instance (w : World) (s : SessionRef) (new : World) (fresh : SessionRef) (f g : GuestFunction) :
    Decidable (w.IsCopy s new fresh f g) :=
  inferInstanceAs (Decidable (_ ∧ _))

instance (w : World) (s : SessionRef) (new : World) (fresh : SessionRef) (f : GuestFunction) :
    Decidable (w.IsGivenUp s new fresh f) :=
  inferInstanceAs (Decidable (_ = _))

namespace IsCopy

variable {f g : GuestFunction}

theorem made (hc : w.IsCopy s new fresh f g) :
    (w.startCopy s new fresh).heap.functions.size ≤ g.id := by
  obtain ⟨-, hheap⟩ := sameHeap_startCopy w s new fresh
  rw [hheap]
  exact hc.1

theorem copy (hc : w.IsCopy s new fresh f g) (h : w.IsFresh s new fresh) :
    (w.startCopy s new fresh).Copy (w.copyInto s new fresh).2 f g :=
  h.advances.sound.functions.copy f g hc.made hc.2

/-- A copy is a closure with the body of the original and as many variables. -/
theorem mirrors (hc : w.IsCopy s new fresh f g) (h : w.IsFresh s new fresh) : ∃ r p as bs,
    w.heap.function? f = some ⟨r, .closure p as⟩ ∧ (w.afterCopy s new fresh).heap.function? g =
      some ⟨(new.session fresh).runtime, .closure p bs⟩ ∧ as.length = bs.length := by
  obtain ⟨r, p, as, bs, hf, hg, hlen⟩ := (hc.copy h).mirrors
  rw [h.source_copyInto] at hf
  rw [h.advances.later.target, target_startCopy] at hg
  exact ⟨r, p, as, bs, hf, hg, hlen⟩

/-- Its variables hold the copies of what is in the variables of the original, unless that was given
up. -/
theorem cell (hc : w.IsCopy s new fresh f g) (h : w.IsFresh s new fresh)
    (hkept : ¬w.IsGivenUp s new fresh f) {e : CellRef × CellRef}
    (he : e ∈ (w.heap.captures f).zip ((w.afterCopy s new fresh).heap.captures g)) :
    (w.copyInto s new fresh).2.Pairs (w.heap.cell e.1) ((w.afterCopy s new fresh).heap.cell e.2) := by
  have hbound := (h.advances.bound_iff hc.made hc.2).2 hkept
  have hcell := hbound.cell e (by rwa [Copying.cellPairs, h.source_copyInto])
  rwa [h.source_copyInto] at hcell

end IsCopy

/-- Where nothing that was given up is left, nothing is left that cannot be copied: a function that
captured such a thing would have captured a function that was given up. -/
theorem IsFresh.not_stuck (h : w.IsFresh s new fresh)
    (hnone : ∀ f g, w.IsCopy s new fresh f g →
      (w.afterCopy s new fresh).InSession fresh (.func g) → ¬w.IsGivenUp s new fresh f)
    {f g : GuestFunction} (hc : w.IsCopy s new fresh f g)
    (hin : (w.afterCopy s new fresh).InSession fresh (.func g)) :
    ¬(w.startCopy s new fresh).Stuck (.func f) := by
  obtain ⟨-, hheap⟩ := sameHeap_startCopy w s new fresh
  have a := h.advances
  have hsource := a.sound.later.source
  intro hstuck
  generalize hv : Value.func f = v at hstuck
  induction hstuck generalizing f g with
  | thread _ | light _ | user _ => cases hv
  | @code f _ hcode =>
    cases hv
    obtain ⟨r, p, as, bs, hf, -, -⟩ := (hc.copy h).mirrors
    rw [hsource] at hf
    exact hcode r p as hf
  | @capture f x hf hx hcell ih =>
    cases hv
    have hb := (a.bound_iff hc.made hc.2).2 (hnone f g hc hin)
    rw [← hsource] at hx
    obtain ⟨b, hpair⟩ := (hc.copy h).exists_pair hx
    have hp := hb.cell _ hpair
    rw [hsource] at hp
    obtain ⟨f', g', hf', hg', hn, hm⟩ := hcell.exists_of_pairs hsource hp
    have hmade' := a.sound.made hn hm
    rw [hheap] at hmade'
    refine ih ⟨hmade', hm⟩ ?_ hf'.symm
    rw [← hg']
    obtain ⟨root, hroot, hpath⟩ := hin
    exact ⟨root, hroot, hpath.tail (.capture (List.of_mem_zip hpair).2)⟩

/-- An open session is copied, and every closure that the copy can get at is a copy, with as many
variables.  All of these are whole, every variable set to the copy of what is in the variable of the
original and no original holding what cannot be copied, exactly if none of the originals was given
up.  The copy of one that was given up has a variable that still holds what loading put there, where
the original holds something that cannot be copied, and the original lies on a cycle of
references. -/
theorem closures_whole_iff (w : World) (s : SessionRef) (hopen : (w.session s).closed = false)
    (hvalid : (w.session s).capabilities.validate = .ok ()) :
    ∃ copy w', w.copySession s = .ok (copy, w') ∧
      (∀ g r p bs, w'.InSession copy (.func g) → w'.heap.function? g = some ⟨r, .closure p bs⟩ →
        ∃ f r₀ as, w.IsCopy s (w.freshSession s).2 copy f g ∧
          w.heap.function? f = some ⟨r₀, .closure p as⟩ ∧ as.length = bs.length) ∧
      ((∀ f g, w.IsCopy s (w.freshSession s).2 copy f g → w'.InSession copy (.func g) →
          (w.copyInto s (w.freshSession s).2 copy).2.Bound f g ∧
            ¬(w.startCopy s (w.freshSession s).2 copy).Stuck (.func f)) ↔
        ∀ f g, w.IsCopy s (w.freshSession s).2 copy f g → w'.InSession copy (.func g) →
          ¬w.IsGivenUp s (w.freshSession s).2 copy f) ∧
      ∀ f g, w.IsCopy s (w.freshSession s).2 copy f g → w'.InSession copy (.func g) →
        w.IsGivenUp s (w.freshSession s).2 copy f →
          (w.startCopy s (w.freshSession s).2 copy).Half
              (w.copyInto s (w.freshSession s).2 copy).2 f g ∧
            (w.startCopy s (w.freshSession s).2 copy).Stuck (.func f) ∧ w.heap.OnCycle f := by
  have h := w.isFresh_freshSession s
  refine ⟨_, _, w.copySession_eq s hopen hvalid, ?_⟩
  generalize (w.freshSession s).2 = new at h ⊢
  generalize (w.freshSession s).1 = fresh at h ⊢
  obtain ⟨⟨done, m, -⟩, -⟩ := h.mergedAll
  obtain ⟨hsource, hheap⟩ := sameHeap_startCopy w s new fresh
  have a := m.advances
  have hs := a.sound
  have hsource' := hs.later.source.trans hsource
  have hmade {f g : GuestFunction} (hc : w.IsCopy s new fresh f g) :
      (w.startCopy s new fresh).heap.functions.size ≤ g.id := by
    rw [hheap]
    exact hc.1
  refine ⟨fun g r p bs hin hcl => ?_, ⟨fun hall f g hc hin hup => ?_, fun hnone f g hc hin => ?_⟩,
    fun f g hc hin hup => ?_⟩
  · obtain ⟨hge, -⟩ := (h.placed hin).function h.ready hs
    obtain ⟨hnew, f, hm⟩ := hs.functions.closure g r p bs hge hcl
    obtain ⟨r₀, p₀, as, bs₀, hf, hg, hlen⟩ := (hs.functions.copy f g hnew hm).mirrors
    rw [heap_afterCopy, hg] at hcl
    cases hcl
    rw [hsource'] at hf
    rw [hheap] at hnew
    exact ⟨f, r₀, as, ⟨hnew, hm⟩, hf, hlen⟩
  · exact (a.bound_iff (hmade hc) hc.2).1 (hall f g hc hin).1 hup
  · exact ⟨(a.bound_iff (hmade hc) hc.2).2 (hnone f g hc hin), h.not_stuck hnone hc hin⟩
  · have hcopy := hs.functions.copy f g (hmade hc) hc.2
    refine ⟨?_, hs.functions.stuck f hup, ?_⟩
    · rcases hcopy.state with hl | hhalf
      · rw [show _ = some none from hup] at hl
        cases hl
      · exact hhalf.2
    -- a function of the session is finished unless the copy came to it while it was being made
    · rcases (h.placed hin).settled h.ready hs (hmade hc) hc.2 with hcycle | hb
      · rw [hsource] at hcycle
        exact hcycle
      · exact absurd hup ((a.bound_iff (hmade hc) hc.2).1 hb)

/-- A closure over a second one, which has captured a coroutine and a table that holds the first
closure.  A global table has the first closure and the table. -/
def knotted : World := single {
  tables := #[
    { slots := [(.text "R", .table ⟨1⟩)], distinct := by decide },
    { slots := [(.int 1, .func ⟨0⟩), (.int 2, .table ⟨2⟩)], distinct := by decide },
    { slots := [(.int 1, .func ⟨0⟩)], distinct := by decide }]
  cells := #[.func ⟨1⟩, .table ⟨2⟩, .thread ⟨0⟩]
  functions := #[⟨⟨0⟩, .closure default [⟨0⟩]⟩, ⟨⟨0⟩, .closure default [⟨1⟩, ⟨2⟩]⟩]
  threads := #[.nil] }

/-- The table is in the copy and holds the unfinished copy of the first closure, which has the
globals of the copy where the second closure was. -/
theorem knotted_left : ∃ copy w', knotted.copySession ⟨0⟩ = .ok (copy, w') ∧
    ∃ g b, w'.InSession copy (.func g) ∧
      (knotted.startCopy ⟨0⟩ (knotted.freshSession ⟨0⟩).2 copy).Half
        (knotted.copyInto ⟨0⟩ (knotted.freshSession ⟨0⟩).2 copy).2 ⟨0⟩ g ∧
      w'.heap.captures g = [b] ∧ w'.heap.cell b = .table (w'.globals copy) := by
  have hopen : (knotted.session ⟨0⟩).closed = false := rfl
  have hvalid : (knotted.session ⟨0⟩).capabilities.validate = .ok () := rfl
  obtain ⟨copy, w', hcopy, -, -, hleft⟩ := closures_whole_iff knotted ⟨0⟩ hopen hvalid
  refine ⟨copy, w', hcopy, ⟨80⟩, ⟨3⟩, ?_⟩
  rw [copySession_eq _ _ hopen hvalid] at hcopy
  cases hcopy
  generalize hw :
    knotted.afterCopy ⟨0⟩ (knotted.freshSession ⟨0⟩).2 (knotted.freshSession ⟨0⟩).1 = w' at hleft ⊢
  -- the way from the global variables to the first closure
  have htable : (w'.heap.table (w'.globals (knotted.freshSession ⟨0⟩).1)).get (.text "R") =
      .table ⟨23⟩ := by
    subst hw
    exact Value.rawEq_table.1 (by decide +kernel)
  have hsecond : (w'.heap.table ⟨23⟩).get (.int 2) = .table ⟨24⟩ := by
    subst hw
    exact Value.rawEq_table.1 (by decide +kernel)
  have hfirst : (w'.heap.table ⟨24⟩).get (.int 1) = .func ⟨80⟩ := by
    subst hw
    exact Value.rawEq_func.1 (by decide +kernel)
  have hin : w'.InSession (knotted.freshSession ⟨0⟩).1 (.func ⟨80⟩) :=
    ⟨_, .inl rfl, .tail (.tail (.single (.of_get htable Value.noConfusion))
      (.of_get hsecond Value.noConfusion)) (.of_get hfirst Value.noConfusion)⟩
  obtain ⟨hhalf, -, -⟩ := hleft ⟨0⟩ ⟨80⟩ (by decide +kernel) hin (by decide +kernel)
  refine ⟨hin, hhalf, ?_, ?_⟩
  · subst hw
    decide +kernel
  · subst hw
    exact Value.rawEq_table.1 (by decide +kernel)

end World
end ScriptShell
