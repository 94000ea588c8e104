import ScriptShell.Proofs.Moments
import ScriptShell.Session.Basic

/-! # Contexts of nested invocations

Every runtime has one slot for the context of the invocation that runs in it.  An invocation fills
the slot of its session's runtime when it begins and puts back what it found when it ends; nothing
else writes there (`World.framed_answer`).  So the slots behave like one stack: at every moment of a run
each slot holds the context of the innermost invocation of its runtime, and what it held at the
start if there is none (`context_of_reaches`).  How an invocation ends does not matter: the frame
law `runtimes_kept` is about the state that is left, not about the outcome.
-/

namespace ScriptShell

open Guest (Value RuntimeRef)

variable {α : Type} {n b : Nat} {r : RuntimeRef}

/-- What the slot of a runtime holds while invocations are under way, innermost first: the context
of the innermost one in that runtime, or what was there before all of them. -/
def contextAfter (q : RuntimeRef) (before : Option Context) : List Activation → Option Context
  | [] => before
  | a :: rest => if a.runtime = q then some a.context else contextAfter q before rest

/-- The outermost invocation fills the slot first. -/
theorem contextAfter_append (q : RuntimeRef) (before : Option Context) (a : Activation)
    (rest : List Activation) :
    contextAfter q before (rest ++ [a]) =
      contextAfter q (if a.runtime = q then some a.context else before) rest := by
  induction rest with
  | nil => rfl
  | cons c rest ih =>
    rw [List.cons_append, contextAfter, contextAfter, ih]

/-- The first activation of a runtime tells what its slot holds. -/
theorem contextAfter_of_find {q : RuntimeRef} {before : Option Context} {acts : List Activation}
    {a : Activation} (h : acts.find? (·.runtime = q) = some a) :
    contextAfter q before acts = some a.context := by
  induction acts with
  | nil => cases h
  | cons c rest ih =>
    rw [contextAfter]
    rw [List.find?_cons] at h
    by_cases hc : c.runtime = q
    · rw [decide_eq_true hc] at h
      cases h
      rw [if_pos hc]
    · rw [decide_eq_false hc] at h
      rw [if_neg hc, ih h]

/-! ## Who writes the slots -/

namespace World

/-- A session that is closed keeps everything else. -/
theorem session_closeSession (w : World) (s t : SessionRef) :
    ∃ closed, (w.closeSession s).session t = { w.session t with closed := closed } := by
  unfold closeSession
  dsimp only
  split
  · exact ⟨_, rfl⟩
  · show ∃ closed, (w.sessions.setIfInBounds s.id { w.session s with closed := true })[t.id]?.getD
      default = { w.session t with closed := closed }
    rw [Array.getElem?_setIfInBounds]
    split
    · next hst =>
      split
      · obtain rfl : s = t := SessionRef.ext hst
        exact ⟨_, rfl⟩
      · next hge =>
        rw [session, Array.getElem?_eq_none (by omega)]
        exact ⟨_, rfl⟩
    · exact ⟨_, rfl⟩

/-- What is under way changes nothing of a session but whether it is closed. -/
theorem session_answer (w : World) (o : Operation) (t : SessionRef) :
    ∃ closed, (w.answer o).2.session t = { w.session t with closed := closed } := by
  rcases (w.framed_answer o).sessions with h | ⟨s, rfl⟩
  · rw [session, h]
    exact ⟨_, rfl⟩
  · exact w.session_closeSession s t

theorem context_setContext (w : World) (q q' : RuntimeRef) (c? : Option Context)
    (hq : q.id < w.runtimes.size) :
    ((w.setContext q' c?).runtime q).context? =
      if q' = q then c? else (w.runtime q).context? := by
  have hq' : q.id < (w.runtimes.modify q'.id fun s => { s with context? := c? }).size := by
    rw [Array.size_modify]
    exact hq
  simp only [runtime, setContext, Array.getElem?_eq_getElem hq', Array.getElem?_eq_getElem hq,
    Array.getElem_modify, Option.getD_some]
  by_cases h : q' = q
  · rw [if_pos (congrArg RuntimeRef.id h), if_pos h]
  · have hid : q'.id ≠ q.id := fun he => h (by cases q; cases q'; exact congrArg RuntimeRef.mk he)
    rw [if_neg hid, if_neg h]

/-- Putting back what was found leaves no trace. -/
theorem setContext_restore {w w' : World} {q : RuntimeRef} {c? : Option Context}
    (h : w'.runtimes = (w.setContext q c?).runtimes) :
    (w'.setContext q (w.runtime q).context?).runtimes = w.runtimes := by
  have hs : w'.runtimes = w.runtimes.modify q.id fun s => { s with context? := c? } := h
  show (w'.runtimes.modify q.id fun s => { s with context? := (w.runtime q).context? }) = _
  rw [hs]
  refine Array.ext (by simp only [Array.size_modify]) fun j hj hj' => ?_
  rw [Array.getElem_modify, Array.getElem_modify]
  by_cases hid : q.id = j
  · subst hid
    have hget : w.runtime q = w.runtimes[q.id] := by
      simp only [runtime, Array.getElem?_eq_getElem hj', Option.getD_some]
    simp only [if_true, hget]
  · rw [if_neg hid, if_neg hid]

end World

namespace Invocation

/-- An invocation begins by filling the slot of its session's runtime. -/
theorem begin_runtimes (i : Invocation) (w : World) :
    (i.begin w).2.runtimes =
      (w.setContext (i.begin w).1.runtime (some (i.begin w).1.context)).runtimes := by
  unfold begin
  dsimp only
  split <;> rfl

/-- It leaves the sessions alone. -/
theorem begin_sessions (i : Invocation) (w : World) : (i.begin w).2.sessions = w.sessions := by
  unfold begin
  dsimp only
  split <;> rfl

end Invocation

/-! ## Slots over whole runs -/

/-- The slots are the same before and after. -/
theorem runtimes_kept : Kept fun w w' : World => w'.runtimes = w.runtimes where
  refl _ := rfl
  trans h h' := h'.trans h
  answer w o := (w.framed_answer o).runtimes
  invokeOpen h i w hrun := by
    have hw := (hrun (i.begin w).1 (i.begin w).2).trans (i.begin_runtimes w)
    rw [h.invokeOpen_snd]
    exact World.setContext_restore hw

/-- At every moment the slot of a runtime holds the context of the innermost invocation in it. -/
theorem context_of_reaches {p : Program α} {w : World} {m : Moment} (hm : Reaches n b r p w m)
    {q : RuntimeRef} (hq : q.id < w.runtimes.size) :
    (m.world.runtime q).context? = contextAfter q (w.runtime q).context? m.activations := by
  -- the runtimes before a step and after it are the same, but for the slot that an invocation fills
  have same {w w' : World} (h : w'.runtimes = w.runtimes) :
      q.id < w.runtimes.size → q.id < w'.runtimes.size := fun hq => h ▸ hq
  have slot {w w' : World} (h : w'.runtimes = w.runtimes) :
      (w'.runtime q).context? = (w.runtime q).context? := by
    rw [World.runtime, World.runtime, h]
  induction hm with
  | now => rfl
  | @perform n b r α o k w m _ ih =>
    have h := (w.framed_answer o).runtimes
    rw [ih (same h hq), slot h]
  | inCall _ _ ih => exact ih hq
  | @afterCall n b r α f args sites k w w' m vs returns _ ih =>
    have h := runtimes_kept.call n b r f args sites w
    rw [returns] at h
    rw [ih (same h hq), slot h]
  | @afterError n b r α f args sites k w w' m v fails _ ih =>
    have h := runtimes_kept.call n b r f args sites w
    rw [fails] at h
    rw [ih (same h hq), slot h]
  | @inInvocation n b r α i k w m _ _ _ ih =>
    have h := i.begin_runtimes w
    have hq' : q.id < (i.begin w).2.runtimes.size := by
      rw [h, World.setContext, Array.size_modify]
      exact hq
    have hslot : ((i.begin w).2.runtime q).context? = if (i.begin w).1.runtime = q then
        some (i.begin w).1.context else (w.runtime q).context? := by
      rw [← w.context_setContext q _ _ hq, World.runtime, h, World.runtime]
    rw [ih hq', hslot, contextAfter_append]
  | @afterInvocation n b r α i k w w' m result returns _ ih =>
    have h := runtimes_kept.invoke n b r i w
    rw [returns] at h
    rw [ih (same h hq), slot h]

/-! ## Sessions and their runtimes -/

/-- Every session has a runtime. -/
def World.Linked (w : World) : Prop :=
  ∀ s : SessionRef, (w.session s).runtime.id < w.runtimes.size

/-- A new session comes with a runtime of its own. -/
theorem World.linked_placeSession {w : World} (shell : ShellRef) (capabilities : Capabilities)
    (config : Config)
    (hw : ∀ s : SessionRef, s.id < w.sessions.size → (w.session s).runtime.id < w.runtimes.size) :
    (w.placeSession shell capabilities config).2.Linked := by
  intro s
  let state : SessionState :=
    { runtime := ⟨w.runtimes.size⟩, hooks := w.addRegistry.1, capabilities := capabilities,
      shell := shell, config := config }
  show ((w.sessions.push state)[s.id]?.getD default).runtime.id <
    (w.runtimes.push { runtime := _ }).size
  rw [Array.size_push, Array.getElem?_push]
  by_cases hs : s.id < w.sessions.size
  · rw [if_neg (by omega)]
    exact Nat.lt_succ_of_lt (hw s hs)
  · by_cases he : s.id = w.sessions.size
    · rw [if_pos he]
      exact Nat.lt_succ_self _
    · rw [if_neg he, Array.getElem?_eq_none (by omega)]
      exact Nat.succ_pos _

/-- The same sessions have the same runtimes. -/
structure SameRuntimes (w w' : World) : Prop where
  /-- There are as many runtimes. -/
  size : w'.runtimes.size = w.runtimes.size
  /-- Every session has the runtime that it had. -/
  session : ∀ s, (w'.session s).runtime = (w.session s).runtime

namespace SameRuntimes

variable {w w' : World}

theorem of_sessions (hr : w'.runtimes.size = w.runtimes.size) (hs : w'.sessions = w.sessions) :
    SameRuntimes w w' :=
  ⟨hr, fun s => by rw [World.session, World.session, hs]⟩

theorem linked (h : SameRuntimes w w') (hw : w.Linked) : w'.Linked := fun s => by
  rw [h.session, h.size]
  exact hw s

theorem setContext (w : World) (q : RuntimeRef) (c? : Option Context) :
    SameRuntimes w (w.setContext q c?) :=
  of_sessions (Array.size_modify ..) rfl

theorem begin (w : World) (i : Invocation) : SameRuntimes w (i.begin w).2 := by
  refine of_sessions ?_ (i.begin_sessions w)
  rw [i.begin_runtimes w]
  exact Array.size_modify ..

theorem kept : Kept SameRuntimes where
  refl _ := ⟨rfl, fun _ => rfl⟩
  trans h h' := ⟨h'.size.trans h.size, fun s => (h'.session s).trans (h.session s)⟩
  answer w o := by
    refine ⟨congrArg Array.size (w.framed_answer o).runtimes, fun t => ?_⟩
    obtain ⟨_, h⟩ := w.session_answer o t
    rw [h]
  invokeOpen h i w hrun := by
    rw [h.invokeOpen_snd]
    have hb := begin w i
    have hr := hrun (i.begin w).1 (i.begin w).2
    have hc := setContext (h.run (i.body (i.begin w).1) (i.begin w).2).2
      (w.session i.session).runtime (w.runtime (w.session i.session).runtime).context?
    exact ⟨hc.size.trans (hr.size.trans hb.size),
      fun s => (hc.session s).trans ((hr.session s).trans (hb.session s))⟩

end SameRuntimes

/-- Whatever is under way, it runs in a runtime that exists. -/
theorem runtime_of_reaches {p : Program α} {w : World} {m : Moment} (hm : Reaches n b r p w m)
    (hw : w.Linked) {a : Activation} (ha : a ∈ m.activations) :
    a.runtime.id < w.runtimes.size := by
  induction hm with
  | now => cases ha
  | @perform n b r α o k w m _ ih =>
    have h := SameRuntimes.kept.answer w o
    exact h.size ▸ ih (h.linked hw) ha
  | inCall _ _ ih => exact ih hw ha
  | @afterCall n b r α f args sites k w w' m vs returns _ ih =>
    have h := SameRuntimes.kept.call n b r f args sites w
    rw [returns] at h
    exact h.size ▸ ih (h.linked hw) ha
  | @afterError n b r α f args sites k w w' m v fails _ ih =>
    have h := SameRuntimes.kept.call n b r f args sites w
    rw [fails] at h
    exact h.size ▸ ih (h.linked hw) ha
  | @inInvocation n b r α i k w m _ _ _ ih =>
    have h := SameRuntimes.begin w i
    rcases List.mem_append.1 ha with ha | ha
    · exact h.size ▸ ih (h.linked hw) ha
    · rw [List.mem_singleton.1 ha]
      exact hw i.session
  | @afterInvocation n b r α i k w w' m result returns _ ih =>
    have h := SameRuntimes.kept.invoke n b r i w
    rw [returns] at h
    exact h.size ▸ ih (h.linked hw) ha

/-! ## The main result -/

/-- **Every invocation leaves the slots as it found them, and what runs in it finds its own
context.**  The first part is about every way in which an invocation can end, at whatever depth.
The second is about every moment of every run: whatever invocations are under way, the slot of the
runtime of the innermost one holds the context of that one.  The third is about the time after an
invocation that was made inside another: wherever the same invocations are under way, the slots of
their runtimes hold the same contexts. -/
theorem invocations_restore_contexts (n b : Nat) (r : RuntimeRef) (p : Program α) (w : World)
    (hw : w.Linked) :
    (∀ (i : Invocation) (w' : World), ((handlerWithin n b r).invoke i w').2.runtimes = w'.runtimes) ∧
    (∀ m, Reaches n b r p w m → ∀ a rest, m.activations = a :: rest →
      (m.world.answer (.context a.runtime)).1 = some a.context) ∧
    (∀ m m', Reaches n b r p w m → Reaches n b r p w m' → m'.activations = m.activations →
      ∀ a ∈ m.activations,
        (m'.world.answer (.context a.runtime)).1 = (m.world.answer (.context a.runtime)).1) := by
  refine ⟨fun i w' => runtimes_kept.invoke n b r i w', fun m hm a rest ha => ?_,
    fun m m' hm hm' hsame a ha => ?_⟩
  · have hq := runtime_of_reaches hm hw (ha ▸ List.mem_cons_self)
    show (m.world.runtime a.runtime).context? = some a.context
    rw [context_of_reaches hm hq, ha, contextAfter, if_pos rfl]
  · have hq := runtime_of_reaches hm hw ha
    show (m'.world.runtime a.runtime).context? = (m.world.runtime a.runtime).context?
    rw [context_of_reaches hm hq, context_of_reaches hm' hq, hsame]

/-- An invocation made for the context number three: inside it the slot holds the context number
seven, made for the shell. -/
theorem context_inside_invocation :
    let outer : Context := ⟨3, default, none⟩
    let inner : Context := ⟨7, default, some ⟨0⟩⟩
    let w : World :=
      { runtimes := #[{ runtime := default, context? := some outer }], contextCount := 7 }
    let i : Invocation := ⟨⟨0⟩, outer, ⟨0⟩, []⟩
    w.Linked ∧ ∃ m, Reaches 1 0 ⟨0⟩ (.invoke i .done) w m ∧
      (m.world.answer (.context ⟨0⟩)).1 = some inner := by
  intro outer inner w i
  have hw : w.Linked := fun s => Nat.one_pos
  have hm : Reaches 1 0 ⟨0⟩ (.invoke i .done) w _ := .inInvocation rfl rfl .now
  exact ⟨hw, _, hm, (invocations_restore_contexts 1 0 ⟨0⟩ _ w hw).2.1 _ hm _ [] rfl⟩

end ScriptShell
