import ScriptShell.Proofs.Moments

/-! # States that can follow

Whatever happens to the state of the process happens in single steps: an operation is answered, an
invocation begins or ends, or the host does something of its own.  `World.Follows` are the states
that any number of such steps lead to, in any order, so what holds in all of them holds at every
later moment.  The moments of a run are among them (`World.Follows.of_reaches`), and its end follows
on each of its moments, however deep that lies (`World.Follows.end_of_reaches`).
-/

namespace ScriptShell

open Guest (RuntimeRef)

/-- The states that can follow on another one.  What the host may do of its own is up to
`host`. -/
inductive World.Follows (host : World → World → Prop) (w : World) : World → Prop where
  /-- Nothing happens. -/
  | now : Follows host w w
  /-- An operation is answered. -/
  | answer {w' : World} (before : Follows host w w') (o : Operation) :
      Follows host w (w'.answer o).2
  /-- An invocation begins. -/
  | begins {w' : World} (before : Follows host w w') (i : Invocation) : Follows host w (i.begin w').2
  /-- An invocation ends, and a slot gets back the context that it had. -/
  | ends {w' : World} (before : Follows host w w') (q : RuntimeRef) (c? : Option Context) :
      Follows host w (w'.setContext q c?)
  /-- The host does something. -/
  | acts {w' w'' : World} (before : Follows host w w') (step : host w' w'') : Follows host w w''

namespace World.Follows

variable {host : World → World → Prop} {w w' w'' : World}

theorem trans (h : Follows host w w') (h' : Follows host w' w'') : Follows host w w'' := by
  induction h' with
  | now => exact h
  | answer _ o ih => exact .answer ih o
  | begins _ i ih => exact .begins ih i
  | ends _ q c? ih => exact .ends ih q c?
  | acts _ step ih => exact .acts ih step

/-- What holds over every single step holds over any number of them. -/
theorem relates {R : World → World → Prop} (kept : Kept R)
    (hbegin : ∀ (w : World) (i : Invocation), R w (i.begin w).2)
    (hend : ∀ (w : World) (q : RuntimeRef) (c? : Option Context), R w (w.setContext q c?))
    (hhost : ∀ w w', host w w' → R w w') (h : Follows host w w') : R w w' := by
  induction h with
  | now => exact kept.refl w
  | answer _ o ih => exact kept.trans ih (kept.answer _ o)
  | begins _ i ih => exact kept.trans ih (hbegin _ i)
  | ends _ q c? ih => exact kept.trans ih (hend _ q c?)
  | acts _ step ih => exact kept.trans ih (hhost _ _ step)

/-- Runs are made of such steps. -/
theorem kept : Kept (Follows host) where
  refl _ := .now
  trans := trans
  answer _ o := .answer .now o
  invokeOpen h i w hrun := by
    rw [h.invokeOpen_snd]
    exact .ends ((Follows.begins .now i).trans (hrun _ _)) _ _

section Runs

variable {α : Type} {n b : Nat} {r : RuntimeRef} {p : Program α} {m : Moment}

/-- Every moment of a run follows on its beginning. -/
theorem of_reaches (hm : Reaches n b r p w m) : Follows host w m.world :=
  kept.reaches (fun _ i => .begins .now i) hm

/-- The end of a run follows on every moment of it. -/
theorem end_of_reaches (hm : Reaches n b r p w m) :
    Follows host m.world ((handlerWithin n b r).run p w).2 :=
  kept.reaches_end_of hm (.inr fun _ q c? => .ends .now q c?)

end Runs
end World.Follows
end ScriptShell
