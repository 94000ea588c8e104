import ScriptShell.Proofs.Correspondence

/-! # What functions become in a copy

A function of the old session that has a place in the new one already, under the same name in a
table that both sessions have, becomes the function in that place, wherever else it occurs.  That is
meant for the library, but what counts is the name: a function that a script has put into the place
of a library function becomes the library's own.  Every other function is copied or left out
(`World.functions_represented`).
-/

namespace ScriptShell

open Guest

namespace World

variable (w : World) (s : SessionRef) (new : World) (fresh : SessionRef)

/-- What stands for a function of the old session in the copy. -/
inductive Represents (f g : GuestFunction) : Prop where
  /-- The function that the new session has in its place. -/
  | namesake (h : w.IsNamesake s new fresh f g)
  /-- If there is none, a copy: a closure with the same body.  What it has captured is the copy of
  what the original has captured, unless the original was given up. -/
  | copy {r : RuntimeRef} {p : Proto} {as bs : List CellRef}
    (hnone : ∀ g', ¬w.IsNamesake s new fresh f g') (hc : w.IsCopy s new fresh f g)
    (hf : w.heap.function? f = some ⟨r, .closure p as⟩)
    (hg : (w.afterCopy s new fresh).heap.function? g =
      some ⟨(new.session fresh).runtime, .closure p bs⟩)
    (hlen : as.length = bs.length)
    (hcells : ¬w.IsGivenUp s new fresh f → ∀ e ∈ as.zip bs,
      (w.copyInto s new fresh).2.Pairs (w.heap.cell e.1)
        ((w.afterCopy s new fresh).heap.cell e.2))

variable {w s new fresh} {f g : GuestFunction}

/-- Functions in the places of others were built with the new session. -/
theorem IsFresh.isNew_of_isNamesake (h : w.IsFresh s new fresh)
    (hn : w.IsNamesake s new fresh f g) : w.heap.IsNew new.heap (.func g) := by
  obtain ⟨hsource, hheap⟩ := sameHeap_startCopy w s new fresh
  obtain ⟨g', he, hnew⟩ := h.ready.function _ (mem_functions_startCopy.2 hn)
  cases he
  rwa [hsource, hheap] at hnew

/-- Whatever stands for a function in the end represents it. -/
theorem IsFresh.represents (h : w.IsFresh s new fresh)
    (hm : (f, some g) ∈ (w.copyInto s new fresh).2.functions) : w.Represents s new fresh f g := by
  obtain ⟨-, hheap⟩ := sameHeap_startCopy w s new fresh
  -- it stood for the function from the start, or was made on the way
  rcases (h.advances.sound.functions.function f g hm).2 with hold | hmade
  · exact .namesake (mem_functions_startCopy.1 hold)
  · rw [hheap] at hmade
    have hc : w.IsCopy s new fresh f g := ⟨hmade, hm⟩
    obtain ⟨r, p, as, bs, hf, hg, hlen⟩ := hc.mirrors h
    -- a function with a namesake is never looked into
    have hnone : ∀ g', ¬w.IsNamesake s new fresh f g' := by
      intro g' hn
      have hstart := mem_functions_startCopy.2 hn
      exact absurd rfl (bne_iff_ne.1 (List.lookup_eq_none_iff.1 (hc.copy h).fresh _ hstart))
    refine .copy hnone hc hf hg hlen fun hkept e he => hc.cell h hkept ?_
    rw [Heap.captures_of_closure hf, Heap.captures_of_closure hg]
    exact he

/-- An open session is copied.  Wherever it refers to a function, its copy has in the corresponding
place nothing or what represents that function, and each hook of the copy represents the hook of the
same point.  A function with a namesake is represented by that alone, and a namesake is never a
function of a script. -/
theorem functions_represented (w : World) (s : SessionRef)
    (hopen : (w.session s).closed = false)
    (hvalid : (w.session s).capabilities.validate = .ok ()) :
    ∃ copy w', w.copySession s = .ok (copy, w') ∧
      (∀ f v', w.Corresponds s (w.freshSession s).2 copy (.func f) v' →
        v' = .nil ∨ ∃ g, v' = .func g ∧ w.Represents s (w.freshSession s).2 copy f g) ∧
      (∀ point g, (point, g) ∈ (w'.hooks copy).entries → ∃ f, (point, f) ∈ (w.hooks s).entries ∧
        w.Represents s (w.freshSession s).2 copy f g) ∧
      ∀ f g, w.IsNamesake s (w.freshSession s).2 copy f g →
        ∀ r p cells, w'.heap.function? g ≠ some ⟨r, .closure p cells⟩ := by
  have h := w.isFresh_freshSession s
  refine ⟨_, _, w.copySession_eq s hopen hvalid, ?_⟩
  generalize (w.freshSession s).2 = new at h ⊢
  generalize (w.freshSession s).1 = fresh at h ⊢
  refine ⟨fun f v' hc => ?_, fun point g hm => ?_, fun f g hn r p cells hf => ?_⟩
  · refine or_iff_not_imp_left.2 fun hne => ?_
    obtain ⟨g, hm, rfl⟩ := (hc.pairs h).1 hne
    exact ⟨g, rfl, h.represents hm⟩
  · rw [h.hooks_afterCopy] at hm
    obtain ⟨f, hf, hgiven⟩ := h.mergedAll.2 (point, g) hm
    obtain ⟨g', hm', he⟩ := hgiven.pairs
    cases he
    exact ⟨f, hf, h.represents hm'⟩
  · obtain ⟨hsource, hheap⟩ := sameHeap_startCopy w s new fresh
    have hnew := h.isNew_of_isNamesake hn
    rw [← hsource, ← hheap] at hnew
    have hge := (h.advances.sound.functions.closure g r p cells hnew.1 hf).1
    exact absurd hnew.2 (Nat.not_lt.2 hge)

/-- A script's function in the place of a library function and in a global variable, and another one
that is a global variable and a hook. -/
def renamed : World :=
  { single {
      tables := #[
        { slots := [(.text "string", .table ⟨1⟩), (.text "shout", .func ⟨0⟩),
            (.text "keep", .func ⟨1⟩)], distinct := by decide },
        { slots := [(.text "upper", .func ⟨0⟩)], distinct := by decide }]
      functions := #[⟨⟨0⟩, .closure default []⟩, ⟨⟨0⟩, .closure default []⟩] } with
    host := { registries := #[⟨[(.prompt, ⟨1⟩)]⟩] } }

/-- The first one is represented by the library's function, and the other one by a copy. -/
theorem renamed_represented : ∃ copy w', renamed.copySession ⟨0⟩ = .ok (copy, w') ∧
    (∃ g, w'.heap.field (w'.globals copy) "shout" = .func g ∧
      renamed.IsNamesake ⟨0⟩ (renamed.freshSession ⟨0⟩).2 copy ⟨0⟩ g ∧
      ∀ r p cells, w'.heap.function? g ≠ some ⟨r, .closure p cells⟩) ∧
    ∃ g, (.prompt, g) ∈ (w'.hooks copy).entries ∧
      renamed.Represents ⟨0⟩ (renamed.freshSession ⟨0⟩).2 copy ⟨1⟩ g := by
  have hopen : (renamed.session ⟨0⟩).closed = false := rfl
  have hvalid : (renamed.session ⟨0⟩).capabilities.validate = .ok () := rfl
  obtain ⟨copy, w', hcopy, hplaces, hhooks, hbuilt⟩ :=
    functions_represented renamed ⟨0⟩ hopen hvalid
  refine ⟨copy, w', hcopy, ?_⟩
  rw [copySession_eq _ _ hopen hvalid] at hcopy
  cases hcopy
  obtain ⟨hlack, hfield, hentries, hsize⟩ :
      ((renamed.freshSession ⟨0⟩).2.heap.field ((renamed.freshSession ⟨0⟩).2.globals
        (renamed.freshSession ⟨0⟩).1) "shout").isNil = true ∧
      ((renamed.afterCopy ⟨0⟩ (renamed.freshSession ⟨0⟩).2 (renamed.freshSession ⟨0⟩).1).heap.field
        ((renamed.freshSession ⟨0⟩).2.globals (renamed.freshSession ⟨0⟩).1) "shout").rawEq
          (.func ⟨52⟩) = true ∧
      ((renamed.afterCopy ⟨0⟩ (renamed.freshSession ⟨0⟩).2 (renamed.freshSession ⟨0⟩).1).hooks
        (renamed.freshSession ⟨0⟩).1).entries = [(.prompt, ⟨80⟩)] ∧
      (renamed.freshSession ⟨0⟩).2.heap.functions.size = 80 := by
    decide +kernel
  have hshout := Value.rawEq_func.1 hfield
  rw [globals_afterCopy]
  refine ⟨⟨⟨52⟩, hshout, ?_⟩, ⟨80⟩, ?_⟩
  · have hv : renamed.heap.field (renamed.globals ⟨0⟩) "shout" = .func ⟨0⟩ := rfl
    have hplace := hplaces ⟨0⟩ _ (.of_field .globals hv (Value.isNil_iff.1 hlack))
    rw [hshout] at hplace
    rcases hplace with hnil | ⟨g, hg, hstands⟩
    · cases hnil
    · cases hg
      cases hstands with
      | namesake hn => exact ⟨hn, hbuilt _ _ hn⟩
      | copy _ hc => exact absurd hc.1 (by rw [hsize]; decide)
  · rw [hentries]
    obtain ⟨f, hf, hstands⟩ := hhooks .prompt ⟨80⟩ (hentries ▸ List.mem_singleton_self _)
    cases List.mem_singleton.1 hf
    exact ⟨List.mem_singleton_self _, hstands⟩

end World
end ScriptShell
