import ScriptShell.Proofs.CapabilityTables
import ScriptShell.Proofs.CopiedFunctions

/-! # References to capability tables

The copy of a session has a capability table of its own, with parts of its own, for the same shell
(`World.IsFresh.isCapabilityTable`).  What refers to the capability table of the original refers to
that one in the copy, as the tables have the same name.  The parts have no name among the global
variables, so what refers to one of them from elsewhere refers in the copy to a new table, which the
functions of its metatable do not follow (`World.capability_references`).
-/

namespace ScriptShell

open Guest

/-- Ways into property tables stay. -/
theorem Copying.Extends.offers {c c' : Copying} (x : c.Extends c') {t : TableRef}
    {p : PropertyTable} (ht : c.heap.Offers t p) : c'.heap.Offers t p := by
  obtain ⟨m, hm, hlt, hmeta, hl⟩ := ht
  exact ⟨m, hm, Nat.lt_of_lt_of_le hlt x.size, x.metatable t m hmeta,
    hl.mono (x.slot m) x.functions⟩

namespace World

variable {w : World} {s : SessionRef} {new : World} {fresh : SessionRef}

/-- What is in a field of the new session stays there. -/
theorem IsFresh.field_afterCopy (h : w.IsFresh s new fresh) {t : TableRef} {name : String}
    (hne : new.heap.field t name ≠ .nil) :
    (w.afterCopy s new fresh).heap.field t name = new.heap.field t name := by
  obtain ⟨-, hheap⟩ := sameHeap_startCopy w s new fresh
  have hslot := h.advances.later.slot t (.text name)
  rw [hheap] at hslot
  exact hslot hne

/-- A table of the new session that nothing is merged into stays as it was. -/
theorem IsFresh.table_afterCopy (h : w.IsFresh s new fresh) {u : TableRef}
    (hlt : u.id < new.heap.tables.size) (hu : ∀ t, ¬w.Merges s new fresh t u) :
    (w.afterCopy s new fresh).heap.table u = new.heap.table u := by
  obtain ⟨⟨done, m, -, honly⟩, -⟩ := h.mergedAll
  obtain ⟨-, hheap⟩ := sameHeap_startCopy w s new fresh
  have hrest := m.rest u
  rw [hheap] at hrest
  refine hrest hlt fun hmem => ?_
  obtain ⟨e, he, rfl⟩ := List.mem_map.1 hmem
  exact hu e.1 (honly e he)

/-- Nothing is merged into the parts of the capability table. -/
theorem IsFresh.not_merges_part (h : w.IsFresh s new fresh) {own c : TableRef} {p : PropertyTable}
    (hown : new.heap.field (new.globals fresh) (w.session s).config.namespaceName = .table own)
    (hlt : (new.globals fresh).id < own.id) (hc : new.heap.IsPart own c p) (t : TableRef) :
    ¬w.Merges s new fresh t c := by
  intro hm
  cases hm with
  | globals => exact Nat.lt_asymm hlt hc.behind
  | share _ hu =>
    obtain ⟨share, -, hempty, -, -, -, hshare, -⟩ := h.own
    rw [hshare] at hu
    cases hu
    obtain ⟨m, -, -, hmeta, -⟩ := hc.offers
    rw [hempty] at hmeta
    cases hmeta
  | own _ hu =>
    rw [hown] at hu
    cases hu
    exact Nat.lt_irrefl _ hc.behind

/-- The copy has the capability table that the new session was built with. -/
theorem IsFresh.isCapabilityTable (h : w.IsFresh s new fresh) {own : TableRef}
    {capabilities : Capabilities} {hooks : RegistryRef}
    (hown : new.heap.field (new.globals fresh) (w.session s).config.namespaceName = .table own)
    (hlt : (new.globals fresh).id < own.id)
    (ht : new.heap.IsCapabilityTable own capabilities hooks) :
    (w.afterCopy s new fresh).heap.IsCapabilityTable own capabilities hooks := by
  obtain ⟨-, hheap⟩ := sameHeap_startCopy w s new fresh
  have x := h.advances.later
  have hoffers {t : TableRef} {p : PropertyTable} (hp : new.heap.Offers t p) :
      (w.afterCopy s new fresh).heap.Offers t p := by
    rw [← hheap] at hp
    exact x.offers hp
  -- the parts keep their places, and nothing was merged into them
  have hpart {name : String} {p : PropertyTable} (hp : new.heap.HasPart own name p) :
      (w.afterCopy s new fresh).heap.HasPart own name p := by
    obtain ⟨c, hfield, hc⟩ := hp
    refine ⟨c, (h.field_afterCopy (by rw [hfield]; exact Value.noConfusion)).trans hfield,
      hc.behind, ?_, fun k => ?_, hoffers hc.offers⟩
    · have hsize := x.size
      rw [hheap] at hsize
      exact Nat.lt_of_lt_of_le hc.lt hsize
    · rw [h.table_afterCopy hc.lt (h.not_merges_part hown hlt hc), hc.empty]
  exact ⟨hoffers ht.offers, fun kind hk => hpart (ht.collections kind hk),
    fun hk => hpart (ht.keys hk)⟩

/-- The capability table of the new session, behind its global variables. -/
theorem isCapabilityTable_freshSession (w : World) (s : SessionRef)
    (hname : (w.session s).config.namespaceName ≠ "share") :
    ∃ own, (w.freshSession s).2.heap.field ((w.freshSession s).2.globals (w.freshSession s).1)
        (w.session s).config.namespaceName = .table own ∧
      ((w.freshSession s).2.globals (w.freshSession s).1).id < own.id ∧
      (w.freshSession s).2.heap.IsCapabilityTable own (w.session s).capabilities
        ((w.freshSession s).2.session (w.freshSession s).1).hooks := by
  obtain ⟨own, hown, ht⟩ := w.capabilities_placeSession (w.session s).shell
    (w.session s).capabilities (w.session s).config hname
  obtain ⟨t, share, hlt, -, -, -, -, hfield⟩ := w.own_placeSession (w.session s).shell
    (w.session s).capabilities (w.session s).config
  rw [if_neg hname, hown] at hfield
  cases hfield
  rw [globals_freshSession, freshSession, session_placeSession]
  exact ⟨own, hown, hlt, ht⟩

/-! ## What becomes of references -/

/-- What refers to a table that both sessions have refers to its counterpart. -/
theorem Corresponds.eq_of_isPairedWith (h : w.IsFresh s new fresh) {t u : TableRef} {v' : Value}
    (hc : w.Corresponds s new fresh (.table t) v') (hp : w.IsPairedWith s new fresh t u) :
    v' = .table u := by
  obtain ⟨u', hl, rfl⟩ := (hc.pairs h).2 trivial
  rw [h.advances.later.lookupTable t u hp] at hl
  cases hl
  rfl

theorem IsFresh.isTableCopy_of_lookup (h : w.IsFresh s new fresh) {t u : TableRef}
    (hp : ¬w.IsPaired s new fresh t)
    (hl : (w.copyInto s new fresh).2.tables.lookup t = some u) :
    w.IsTableCopy s new fresh t u := by
  obtain ⟨-, hheap⟩ := sameHeap_startCopy w s new fresh
  have hmade := Copying.made_of_lookup h.advances.sound (lookup_of_unpaired hp) hl
  rw [hheap] at hmade
  exact ⟨hmade, hl⟩

/-- What refers to a table that only the old session has refers to a copy. -/
theorem Corresponds.exists_isTableCopy (h : w.IsFresh s new fresh) {t : TableRef} {v' : Value}
    (hc : w.Corresponds s new fresh (.table t) v') (hp : ¬w.IsPaired s new fresh t) :
    ∃ u, v' = .table u ∧ w.IsTableCopy s new fresh t u := by
  obtain ⟨u, hl, rfl⟩ := (hc.pairs h).2 trivial
  exact ⟨u, rfl, h.isTableCopy_of_lookup hp hl⟩

/-- A table that has a name in both sessions has a counterpart, which has one of these names. -/
theorem isPairedWith_of_names {name : String} {t u : TableRef} (hne : t ≠ w.globals s)
    (ht : w.heap.field (w.globals s) name = .table t)
    (hu : new.heap.field (new.globals fresh) name = .table u)
    (honly : ∀ name' u', (w.heap.table (w.globals s)).get (.str name') = .table t →
      (new.heap.table (new.globals fresh)).get (.str name') = .table u' → u' = u) :
    w.IsPairedWith s new fresh t u := by
  have hp : w.IsPaired s new fresh t := .inr ⟨Utf8.encode name, u, ht, hu⟩
  obtain ⟨u', hl⟩ := Option.isSome_iff_exists.1 (isPaired_iff.1 hp)
  rcases IsPairedWith.name hl with ⟨he, -⟩ | ⟨name', ht', hu'⟩
  · exact absurd he hne
  · rw [← honly name' u' ht' hu']
    exact hl

/-- A copied table does not lead to properties if its metatable is copied as well, with a function
for reads that has no place in the new session. -/
theorem IsTableCopy.not_offers (h : w.IsFresh s new fresh) {t u : TableRef}
    (hc : w.IsTableCopy s new fresh t u)
    (hmeta : ∀ m, (w.heap.table t).metatable? = some m → ¬w.IsPaired s new fresh m ∧
      ∀ f g, w.heap.field m "__index" = .func f → ¬w.IsNamesake s new fresh f g)
    (p : PropertyTable) : ¬(w.afterCopy s new fresh).heap.Offers u p := by
  rintro ⟨m', -, -, hm', ⟨g, r, hfield, hfun⟩, -, -⟩
  -- its metatable is a copy of the one of the original
  obtain ⟨m₀, hm₀, hl⟩ := h.advances.sound.tables.metatable t u m' hc.made hc.2 hm'
  rw [h.source_copyInto] at hm₀
  obtain ⟨hunpaired, hnone⟩ := hmeta m₀ hm₀
  -- the function for reads stands for the one of the original
  have hplace : w.Corresponds s new fresh (w.heap.field m₀ "__index")
      ((w.afterCopy s new fresh).heap.field m' "__index") :=
    .field (h.isTableCopy_of_lookup hunpaired hl) (isKeyCopy_str _)
  have hpairs := (hplace.pairs h).1 (by rw [hfield]; exact Value.noConfusion)
  rw [hfield] at hpairs
  cases hv : w.heap.field m₀ "__index" with
  | func f =>
    rw [hv] at hpairs
    obtain ⟨g', hmem, he⟩ := hpairs
    cases he
    cases h.represents hmem with
    | namesake hn => exact hnone f g hv hn
    | copy _ _ _ hg _ _ =>
      -- only closures are copied, and the functions for reads are built in
      rw [hfun] at hg
      cases hg
  | table _ =>
    rw [hv] at hpairs
    obtain ⟨_, -, he⟩ := hpairs
    cases he
  | user _ =>
    rw [hv] at hpairs
    obtain ⟨_, _, -, -, he⟩ := hpairs
    cases he
  | thread _ | light _ =>
    rw [hv] at hpairs
    exact hpairs.elim
  | _ =>
    rw [hv] at hpairs
    cases hpairs

/-- An open session is copied, and the copy has a capability table of its own for the same shell,
with all parts.  What refers to the capability table of the original in a place of the copy refers
to that one, provided that the table has its name, is not the table of the global variables and has
no other name that belongs to another table in a new session.  What refers to a table that only the
old session has, such as a part of its capability table, refers to a new table; that one leads to
no properties, unless scripts have given its metatable or the function for reads a name that
counts. -/
theorem capability_references (w : World) (s : SessionRef)
    (hopen : (w.session s).closed = false)
    (hvalid : (w.session s).capabilities.validate = .ok ()) :
    ∃ copy w' own, w.copySession s = .ok (copy, w') ∧
      w'.heap.field (w'.globals copy) (w.session s).config.namespaceName = .table own ∧
      ((w.session s).config.namespaceName ≠ "share" →
        w'.heap.IsCapabilityTable own (w.session s).capabilities (w'.session copy).hooks) ∧
      (∀ t v', w.heap.field (w.globals s) (w.session s).config.namespaceName = .table t →
        t ≠ w.globals s →
        (∀ name u, (w.heap.table (w.globals s)).get (.str name) = .table t →
          ((w.freshSession s).2.heap.table ((w.freshSession s).2.globals copy)).get (.str name) =
            .table u → u = own) →
        w.Corresponds s (w.freshSession s).2 copy (.table t) v' → v' = .table own) ∧
      ∀ t v', ¬w.IsPaired s (w.freshSession s).2 copy t →
        w.Corresponds s (w.freshSession s).2 copy (.table t) v' →
          ∃ u, v' = .table u ∧ (w.freshSession s).2.heap.tables.size ≤ u.id ∧
            ((∀ m, (w.heap.table t).metatable? = some m →
                ¬w.IsPaired s (w.freshSession s).2 copy m ∧
                ∀ f g, w.heap.field m "__index" = .func f →
                  ¬w.IsNamesake s (w.freshSession s).2 copy f g) →
              ∀ p, ¬w'.heap.Offers u p) := by
  have h := w.isFresh_freshSession s
  have hcapability := w.isCapabilityTable_freshSession s
  obtain ⟨-, own, -, -, -, -, -, hown⟩ := h.own
  refine ⟨_, _, own, w.copySession_eq s hopen hvalid, ?_⟩
  generalize (w.freshSession s).2 = new at h hown hcapability ⊢
  generalize (w.freshSession s).1 = fresh at h hown hcapability ⊢
  refine ⟨?_, fun hname => ?_, fun t v' ht hne honly hc => ?_, fun t v' hp hc => ?_⟩
  · rw [globals_afterCopy, h.field_afterCopy (by rw [hown]; exact Value.noConfusion), hown]
  · obtain ⟨own', hown', hlt, htable⟩ := hcapability hname
    rw [hown] at hown'
    cases hown'
    exact h.isCapabilityTable hown hlt htable
  -- the table has its name in both sessions, so the two capability tables are counterparts
  · exact hc.eq_of_isPairedWith h (isPairedWith_of_names hne ht hown honly)
  · obtain ⟨u, rfl, hu⟩ := hc.exists_isTableCopy h hp
    exact ⟨u, rfl, hu.1, fun hmeta => hu.not_offers h hmeta⟩

/-- A session with variables, whose scripts have put its capability table and the table of the
variables into global variables. -/
def aliased : World :=
  let w := (placeSession {} ⟨0⟩ { collections := [.env] } {}).2
  { w with
    heap := (w.heap.setField (w.globals ⟨0⟩) "M" (.table ⟨17⟩)).setField (w.globals ⟨0⟩) "E"
      (.table ⟨19⟩) }

/-- What the session has under the names. -/
theorem names_of_aliased :
    (aliased.heap.field (aliased.globals ⟨0⟩) "moonsh").rawEq (.table ⟨17⟩) = true ∧
      (aliased.heap.field (aliased.globals ⟨0⟩) "M").rawEq (.table ⟨17⟩) = true ∧
      (aliased.heap.field ⟨17⟩ "env").rawEq (.table ⟨19⟩) = true ∧
      (aliased.heap.field (aliased.globals ⟨0⟩) "E").rawEq (.table ⟨19⟩) = true ∧
      ∀ e ∈ (aliased.heap.table (aliased.globals ⟨0⟩)).pairs, e.2.rawEq (.table ⟨17⟩) = true →
        e.1 = .text "moonsh" ∨ e.1 = .text "M" := by
  decide +kernel

/-- What the new session has under the names. -/
theorem names_of_new_aliased :
    let new := (aliased.freshSession ⟨0⟩).2
    let globals := new.globals (aliased.freshSession ⟨0⟩).1
    (new.heap.field globals "moonsh").rawEq (.table ⟨39⟩) = true ∧
      (new.heap.field globals "M").isNil = true ∧ (new.heap.field globals "E").isNil = true := by
  decide +kernel

/-- The metatable of the variables and its function for reads have no names that count. -/
theorem metatable_of_aliased :
    (aliased.heap.table ⟨19⟩).metatable? = some ⟨20⟩ ∧
      (aliased.heap.field ⟨20⟩ "__index").rawEq (.func ⟨78⟩) = true ∧
      (∀ t ∈ [⟨19⟩, ⟨20⟩],
        ¬aliased.IsPaired ⟨0⟩ (aliased.freshSession ⟨0⟩).2 (aliased.freshSession ⟨0⟩).1 t) ∧
      ∀ e ∈ (aliased.startCopy ⟨0⟩ (aliased.freshSession ⟨0⟩).2
        (aliased.freshSession ⟨0⟩).1).functions, e.1 ≠ ⟨78⟩ := by
  decide +kernel

/-- What the copy has under the names. -/
theorem names_of_copied_aliased :
    let w' := aliased.afterCopy ⟨0⟩ (aliased.freshSession ⟨0⟩).2 (aliased.freshSession ⟨0⟩).1
    let globals := w'.globals (aliased.freshSession ⟨0⟩).1
    (w'.heap.field globals "moonsh").rawEq (.table ⟨39⟩) = true ∧
      (w'.heap.field ⟨39⟩ "env").rawEq (.table ⟨41⟩) = true ∧
      (w'.heap.field globals "E").rawEq (.table ⟨44⟩) = true ∧
      (w'.heap.table ⟨44⟩).metatable? = some ⟨45⟩ ∧
      (w'.heap.field ⟨45⟩ "__index").isNil = true := by
  decide +kernel

/-- The variables are not reached in the copy through the global variable that held their table. -/
theorem aliased_apart : ∃ copy w', aliased.copySession ⟨0⟩ = .ok (copy, w') ∧
    ∃ own env own' env' e m,
      aliased.heap.field (aliased.globals ⟨0⟩) "moonsh" = .table own ∧
      aliased.heap.field own "env" = .table env ∧
      aliased.heap.field (aliased.globals ⟨0⟩) "E" = .table env ∧
      w'.heap.field (w'.globals copy) "moonsh" = .table own' ∧
      w'.heap.field own' "env" = .table env' ∧ w'.heap.field (w'.globals copy) "E" = .table e ∧
      e ≠ env' ∧ (w'.heap.table e).metatable? = some m ∧ w'.heap.field m "__index" = .nil := by
  obtain ⟨hown, -, henv, he, -⟩ := names_of_aliased
  obtain ⟨hown', henv', he', hmeta, hindex⟩ := names_of_copied_aliased
  exact ⟨_, _, copySession_eq aliased ⟨0⟩ rfl rfl, ⟨17⟩, ⟨19⟩, ⟨39⟩, ⟨41⟩, ⟨44⟩, ⟨45⟩,
    Value.rawEq_table.1 hown, Value.rawEq_table.1 henv, Value.rawEq_table.1 he,
    Value.rawEq_table.1 hown', Value.rawEq_table.1 henv', Value.rawEq_table.1 he', by decide,
    hmeta, Value.isNil_iff.1 hindex⟩

/-- The other global variable holds the capability table of the copy, and this one a new table that
leads nowhere. -/
theorem aliased_references : ∃ copy w' own, aliased.copySession ⟨0⟩ = .ok (copy, w') ∧
    w'.heap.IsCapabilityTable own { collections := [.env] } (w'.session copy).hooks ∧
    w'.heap.field (w'.globals copy) "M" = .table own ∧
    ∃ u, w'.heap.field (w'.globals copy) "E" = .table u ∧ ∀ p, ¬w'.heap.Offers u p := by
  have hopen : (aliased.session ⟨0⟩).closed = false := rfl
  have hvalid : (aliased.session ⟨0⟩).capabilities.validate = .ok () := rfl
  obtain ⟨copy, w', own, hcopy, hown, htable, hnamed, hother⟩ :=
    capability_references aliased ⟨0⟩ hopen hvalid
  refine ⟨copy, w', own, hcopy, htable (by decide), ?_⟩
  rw [copySession_eq _ _ hopen hvalid] at hcopy
  cases hcopy
  obtain ⟨hmoonsh, hm, -, he, honly⟩ := names_of_aliased
  obtain ⟨hnew, hlackm, hlacke⟩ := names_of_new_aliased
  obtain ⟨hmeta, hindex, hunpaired, hnone⟩ := metatable_of_aliased
  obtain ⟨hcopied, -⟩ := names_of_copied_aliased
  cases hown.symm.trans (Value.rawEq_table.1 hcopied)
  rw [globals_afterCopy]
  refine ⟨hnamed ⟨17⟩ _ (Value.rawEq_table.1 hmoonsh) (by decide +kernel) (fun name u ht hu => ?_)
    (.of_field .globals (Value.rawEq_table.1 hm) (Value.isNil_iff.1 hlackm)), ?_⟩
  · -- the table has two names, and only one of them is known to the new session
    have hmem := Table.mem_pairs.2 ⟨ht, Value.noConfusion⟩
    have hnames : Key.str name = .text "moonsh" ∨ Key.str name = .text "M" :=
      honly _ hmem (Value.rawEq_table.2 rfl)
    rcases hnames with hname | hname
    · rw [hname] at hu
      cases hu.symm.trans (Value.rawEq_table.1 hnew)
      rfl
    · rw [hname] at hu
      cases hu.symm.trans (Value.isNil_iff.1 hlackm)
  · obtain ⟨u, hu, -, hleads⟩ := hother ⟨19⟩ _ (hunpaired _ (by decide))
      (.of_field .globals (Value.rawEq_table.1 he) (Value.isNil_iff.1 hlacke))
    refine ⟨u, hu, hleads fun m hm => ?_⟩
    cases hm.symm.trans hmeta
    refine ⟨hunpaired _ (by decide), fun f g hf hn => ?_⟩
    cases hf.symm.trans (Value.rawEq_func.1 hindex)
    exact hnone _ (mem_functions_startCopy.2 hn) rfl

end World
end ScriptShell
