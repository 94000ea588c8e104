import ScriptShell.Proofs.HeapGrowth

/-! # Stream scopes

What entering and leaving a stream scope does to the state.  Entering looks up the guest's `io`
table, which may run code of the guest, and then puts three new streams over its fields; from there
on nothing can fail.  Leaving runs no code at all: it closes the three streams and puts back what
the fields held (`run_leave`), so what a scope leaves behind can be said as a change of the heap.
-/

namespace ScriptShell.Guest.StreamScope

open Guest (Heap)

/-! ## Leaving -/

/-- The heap after the streams of a scope are closed. -/
def closed (streams : List (StreamName × UserRef × Value)) (h : Heap) : Heap :=
  streams.foldl (fun h s => h.closeUser s.2.1) h

/-- The heap after the fields have what they held before. -/
def restored (io : TableRef) (streams : List (StreamName × UserRef × Value)) (h : Heap) : Heap :=
  streams.foldl (fun h s => h.setField io s.1.field s.2.2) h

theorem run_closeStreams (hd : Handler) (streams : List (StreamName × UserRef × Value))
    (w : World) :
    hd.run (closeStreams streams) w = (.value (), { w with heap := closed streams w.heap }) := by
  induction streams generalizing w with
  | nil => rfl
  | cons s rest ih =>
    rw [closeStreams, Handler.run_ask_bind, ih]
    rfl

theorem run_restoreFields (hd : Handler) (io : TableRef)
    (streams : List (StreamName × UserRef × Value)) (w : World) :
    hd.run (restoreFields io streams) w =
      (.value (), { w with heap := restored io streams w.heap }) := by
  induction streams generalizing w with
  | nil => rfl
  | cons s rest ih =>
    rw [restoreFields, Handler.run_ask_bind, ih]
    rfl

/-- Leaving a scope always succeeds, and it changes the heap only. -/
theorem run_leave (hd : Handler) (scope : StreamScope) (w : World) :
    hd.run scope.leave w =
      (.value { scope with streams := [] },
        { w with heap := restored scope.io scope.streams (closed scope.streams w.heap) }) := by
  rw [leave, Handler.run_bind_of_value (run_closeStreams hd scope.streams w),
    Handler.run_bind_of_value (run_restoreFields hd scope.io scope.streams _)]
  rfl

theorem grows_closed (streams : List (StreamName × UserRef × Value)) (h : Heap) :
    h.Grows (closed streams h) := by
  induction streams generalizing h with
  | nil => exact .refl h
  | cons s rest ih => exact (Heap.Grows.closeUser h s.2.1).trans (ih _)

theorem users_restored (io : TableRef) (streams : List (StreamName × UserRef × Value)) (h : Heap) :
    (restored io streams h).users = h.users := by
  induction streams generalizing h with
  | nil => rfl
  | cons s rest ih => exact ih _

theorem size_restored (io : TableRef) (streams : List (StreamName × UserRef × Value)) (h : Heap) :
    (restored io streams h).tables.size = h.tables.size := by
  induction streams generalizing h with
  | nil => rfl
  | cons s rest ih => exact (ih _).trans (Heap.size_modifyTable ..)

/-- Closing streams touches no table. -/
theorem table_closed (streams : List (StreamName × UserRef × Value)) (h : Heap) (t : TableRef) :
    (closed streams h).table t = h.table t := by
  induction streams generalizing h with
  | nil => rfl
  | cons s rest ih => exact ih (h.closeUser s.2.1)

/-- Closing streams leaves other objects alone. -/
theorem user_closed_of_ne {streams : List (StreamName × UserRef × Value)} {u : UserRef}
    (hne : ∀ e ∈ streams, e.2.1.id ≠ u.id) (h : Heap) :
    (closed streams h).user u = h.user u := by
  induction streams generalizing h with
  | nil => rfl
  | cons e rest ih =>
    refine (ih (fun e' he' => hne e' (List.mem_cons_of_mem e he')) (h.closeUser e.2.1)).trans ?_
    rw [Heap.user, Heap.user, Heap.closeUser, Array.getElem?_modify,
      if_neg (hne e List.mem_cons_self)]

theorem sizes_closed (streams : List (StreamName × UserRef × Value)) (h : Heap) :
    (closed streams h).tables.size = h.tables.size ∧
      (closed streams h).users.size = h.users.size := by
  induction streams generalizing h with
  | nil => exact ⟨rfl, rfl⟩
  | cons e rest ih =>
    obtain ⟨htables, husers⟩ := ih (h.closeUser e.2.1)
    exact ⟨htables, husers.trans Array.size_modify⟩

/-- No other table than that of the scope is restored. -/
theorem table_restored {io t : TableRef} (ht : io ≠ t)
    (streams : List (StreamName × UserRef × Value)) (h : Heap) :
    (restored io streams h).table t = h.table t := by
  induction streams generalizing h with
  | nil => rfl
  | cons s rest ih =>
    refine (ih (h.setField io s.1.field s.2.2)).trans ?_
    rw [Heap.setField, Heap.setSlot, Heap.table_modifyTable, if_neg fun he => ht he.1]

/-- A stream of the scope is closed in the end. -/
theorem closed_of_mem {streams : List (StreamName × UserRef × Value)} {h : Heap}
    {s : StreamName × UserRef × Value} (hs : s ∈ streams) {x : Stream}
    (hx : h.user s.2.1 = .stream x) :
    ∃ y, (closed streams h).user s.2.1 = .stream y ∧ y.pipe? = none := by
  induction streams generalizing h x with
  | nil => cases hs
  | cons e rest ih =>
    rcases List.mem_cons.1 hs with rfl | hs
    · have hc := Heap.Grows.user_closeUser h s.2.1 s.2.1 x hx
      rw [if_pos rfl] at hc
      obtain ⟨y, hy, hp⟩ := (grows_closed rest (h.closeUser s.2.1)).stream _ _ hc
      exact ⟨y, hy, hp rfl⟩
    · exact ih hs (Heap.Grows.user_closeUser h e.2.1 s.2.1 x hx)

/-- A field that is not restored keeps its value. -/
theorem field_restored_of_not_mem {io : TableRef} {streams : List (StreamName × UserRef × Value)}
    {h : Heap} (hio : io.id < h.tables.size) {field : String}
    (hn : ∀ s ∈ streams, s.1.field ≠ field) :
    (restored io streams h).field io field = h.field io field := by
  induction streams generalizing h with
  | nil => rfl
  | cons e rest ih =>
    have hio' : io.id < (h.setField io e.1.field e.2.2).tables.size := by
      rw [Heap.setField, Heap.setSlot, Heap.size_modifyTable]
      exact hio
    show (restored io rest (h.setField io e.1.field e.2.2)).field io field = _
    rw [ih hio' fun s hs => hn s (List.mem_cons_of_mem e hs), Heap.field_setField h hio,
      if_neg fun he => hn e List.mem_cons_self he.2]

/-- A field that is restored holds what it held before the scope. -/
theorem field_restored {io : TableRef} {streams : List (StreamName × UserRef × Value)}
    {h : Heap} (hio : io.id < h.tables.size) (hd : (streams.map fun s => s.1.field).Nodup)
    {s : StreamName × UserRef × Value} (hs : s ∈ streams) :
    (restored io streams h).field io s.1.field = s.2.2 := by
  induction streams generalizing h with
  | nil => cases hs
  | cons e rest ih =>
    have hio' : io.id < (h.setField io e.1.field e.2.2).tables.size := by
      rw [Heap.setField, Heap.setSlot, Heap.size_modifyTable]
      exact hio
    rw [List.map_cons, List.nodup_cons] at hd
    rcases List.mem_cons.1 hs with rfl | hs
    · show (restored io rest (h.setField io s.1.field s.2.2)).field io s.1.field = _
      rw [field_restored_of_not_mem hio' fun x hx he => hd.1 (List.mem_map.2 ⟨x, hx, he⟩),
        Heap.field_setField h hio, if_pos ⟨rfl, rfl⟩]
    · exact ih hio' hd.2 hs

/-! ## Entering -/

theorem run_enterStream (hd : Handler) (t : TableRef) (io : CommandIo) (cancel? : Option Signal)
    (name : StreamName) (w : World) :
    hd.run (enterStream t io cancel? name) w =
      (.value (name, ⟨w.heap.users.size⟩, w.heap.field t name.field),
        { w with
          heap := (w.heap.addUser (.stream (Stream.ofIo io cancel? name))).2.setField t name.field
            (.user ⟨w.heap.users.size⟩) }) := rfl

/-- What is known of some streams that were opened over the fields of a table. -/
structure Opened (t : TableRef) (io : CommandIo) (cancel? : Option Signal)
    (names : List StreamName) (streams : List (StreamName × UserRef × Value)) (h h' : Heap) :
    Prop where
  /-- There is one for every name. -/
  names : streams.map (·.1) = names
  /-- The values that the fields had are kept. -/
  prior : ∀ s ∈ streams, s.2.2 = h.field t s.1.field
  /-- They are open streams over the given pipes. -/
  stream : ∀ s ∈ streams, h'.user s.2.1 = .stream (Stream.ofIo io cancel? s.1)
  /-- Objects are only added. -/
  users : StartsWith h.users h'.users
  /-- There are as many tables. -/
  tables : h'.tables.size = h.tables.size

theorem run_openStreams (hd : Handler) (t : TableRef) (io : CommandIo) (cancel? : Option Signal)
    {names : List StreamName} (hn : (names.map StreamName.field).Nodup) (w : World) :
    ∃ streams w', hd.run (Program.forAll (enterStream t io cancel?) names) w =
        (.value streams, w') ∧ Opened t io cancel? names streams w.heap w'.heap := by
  induction names generalizing w with
  | nil => exact ⟨[], w, rfl, rfl, by simp, by simp, .refl _, rfl⟩
  | cons name rest ih =>
    rw [List.map_cons, List.nodup_cons] at hn
    obtain ⟨streams, w', hr, ho⟩ := ih hn.2 { w with
      heap := (w.heap.addUser (.stream (Stream.ofIo io cancel? name))).2.setField t name.field
        (.user ⟨w.heap.users.size⟩) }
    have hu : StartsWith (w.heap.users.push (.stream (Stream.ofIo io cancel? name)))
        w'.heap.users := ho.users
    refine ⟨(name, ⟨w.heap.users.size⟩, w.heap.field t name.field) :: streams, w', ?_, ?_⟩
    · rw [Program.forAll, Handler.run_bind_of_value (run_enterStream hd t io cancel? name w),
        Handler.run_bind_of_value hr]
      rfl
    · refine ⟨?_, fun s hs => ?_, fun s hs => ?_, ?_, ?_⟩
      · rw [List.map_cons, ho.names]
      · rcases List.mem_cons.1 hs with rfl | hs
        · rfl
        -- the other fields are as they were before this stream was put into its own
        · have hne : name.field ≠ s.1.field := fun he => hn.1 (List.mem_map.2
            ⟨s.1, ho.names ▸ List.mem_map_of_mem hs, he.symm⟩)
          rw [ho.prior s hs, Heap.field_setField_of_ne _ _ hne]
          rfl
      · rcases List.mem_cons.1 hs with rfl | hs
        · rw [Heap.user, hu.get _ (by rw [Array.size_push]; exact Nat.lt_succ_self _),
            Array.getElem?_push_size]
          rfl
        · exact ho.stream s hs
      · exact ((StartsWith.refl _).push _).trans hu
      · exact ho.tables.trans (Heap.size_modifyTable ..)

/-- **Entering a scope.**  Once the `io` table is found, three streams are opened over its
fields. -/
theorem run_enter {hd : Handler} {r : RuntimeRef} {io : CommandIo} {cancel? : Option Signal}
    {w w' : World} {scope : StreamScope}
    (hr : hd.run (enter r io cancel?) w = (.value scope, w')) :
    ∃ w₀, hd.run (ioTable r) w = (.value scope.io, w₀) ∧
      Opened scope.io io cancel? StreamName.all scope.streams w₀.heap w'.heap := by
  obtain ⟨t, w₀, ht, hr⟩ := Handler.run_bind_value hr
  obtain ⟨streams, w₁, hs, hr⟩ := Handler.run_bind_value hr
  cases hr
  have hn : (StreamName.all.map StreamName.field).Nodup := by decide
  obtain ⟨streams', w₂, hs', ho⟩ := run_openStreams hd t io cancel? hn w₀
  rw [hs] at hs'
  cases hs'
  exact ⟨w₀, ht, ho⟩

/-- A scope can be entered if there is an `io` table. -/
theorem run_enter_of_ioTable {hd : Handler} {r : RuntimeRef} (io : CommandIo)
    (cancel? : Option Signal) {w w₀ : World} {t : TableRef}
    (ht : hd.run (ioTable r) w = (.value t, w₀)) :
    ∃ scope w', hd.run (enter r io cancel?) w = (.value scope, w') := by
  have hn : (StreamName.all.map StreamName.field).Nodup := by decide
  obtain ⟨streams, w', hs, -⟩ := run_openStreams hd t io cancel? hn w₀
  refine ⟨⟨t, streams⟩, w', ?_⟩
  rw [enter, Handler.run_bind_of_value ht, Handler.run_bind_of_value hs]
  rfl

theorem run_viaHost {α : Type} {hd : Handler} {here : Here} {p : Program α} {w w' : World} {a : α}
    (hr : hd.run p w = (.value a, w')) : hd.run (viaHost here p) w = (.value a, w') := by
  rw [viaHost, Handler.run_bind_of_value (Handler.run_attempt_ok.2 hr)]
  rfl

/-- A field with a value is read without running any code. -/
theorem run_index (hd : Handler) (here : Here) (w : World) {t : TableRef} {name : String}
    (hv : w.heap.field t name ≠ .nil) :
    hd.run (here.index none (.table t) (.text name)) w = (.value (w.heap.field t name), w) := by
  have hnil : (w.heap.field t name).isNil = false := Value.isNil_eq_false.2 hv
  rw [Here.index, chainLimit, Here.indexWithin]
  rw [Handler.run_ask_bind]
  show hd.run (if (!(w.heap.field t name).isNil) = true then pure (w.heap.field t name) else _) w = _
  rw [hnil]
  rfl

/-- A global variable `io` that is a table is found without running any code. -/
theorem run_ioTable (hd : Handler) {r : RuntimeRef} {w : World} {t : TableRef}
    (ht : w.heap.field (w.runtime r).runtime.globals "io" = .table t) :
    hd.run (ioTable r) w = (.value t, w) := by
  have hi := run_index hd (hostSide r) w (by rw [ht]; exact Value.noConfusion)
  rw [ht] at hi
  rw [ioTable, Handler.run_ask_bind]
  exact Handler.run_bind_of_value (run_viaHost hi)

/-! ## A whole scope -/

/-- **What a scope leaves behind** in the fields of its table: what they held when it was entered,
whatever has been done to the heap in between. -/
theorem field_after {t : TableRef} {io : CommandIo} {cancel? : Option Signal}
    {streams : List (StreamName × UserRef × Value)} {h₀ h₁ h₂ : Heap}
    (ho : Opened t io cancel? StreamName.all streams h₀ h₁)
    (hle : h₀.tables.size ≤ h₂.tables.size) (name : StreamName) :
    (restored t streams h₂).field t name.field = h₀.field t name.field := by
  rcases Nat.lt_or_ge t.id h₂.tables.size with hlt | hge
  · have hm : name ∈ streams.map (·.1) := by
      rw [ho.names]
      cases name <;> decide
    obtain ⟨s, hs, rfl⟩ := List.mem_map.1 hm
    have hd : (streams.map fun s => s.1.field).Nodup := by
      have he : (streams.map fun s => s.1.field) = StreamName.all.map StreamName.field := by
        rw [← ho.names, List.map_map]
        rfl
      rw [he]
      decide
    rw [field_restored hlt hd hs, ho.prior s hs]
  · rw [Heap.field_of_ge (by rw [size_restored]; exact hge),
      Heap.field_of_ge (Nat.le_trans hle hge)]

/-- How a call in a scope can return: after a scope that was left again, or without a scope. -/
theorem run_callInScope {n b : Nat} {r' r : RuntimeRef} {io : CommandIo} {signal : Signal}
    {f : GuestFunction} {args : List HostValue} {w w' : World}
    {result : Except BridgeError (List HostValue)}
    (hr : (handlerWithin n b r').run (callInScope r io signal f args) w = (.value result, w')) :
    (∃ scope w₁ w₂,
      (handlerWithin n b r').run (enter r io (some signal)) w = (.value scope, w₁) ∧
      w₁.Ages w₂ ∧
      w' = { w₂ with heap := restored scope.io scope.streams (closed scope.streams w₂.heap) }) ∨
    ∀ scope w₁, (handlerWithin n b r').run (enter r io (some signal)) w ≠ (.value scope, w₁) := by
  obtain ⟨x, w₁, he, hr⟩ := Handler.run_bind_value hr
  cases x with
  | error e =>
    refine .inr fun scope w₂ hs => ?_
    rw [Handler.run_attempt_ok.2 hs] at he
    cases he
  | ok scope =>
    left
    obtain ⟨result', w₂, hc, hr⟩ := Handler.run_bind_value hr
    have hages : w₁.Ages w₂ := by
      have hk := World.Ages.kept.run n b r' (callForHost r signal f args) w₁
      rw [hc] at hk
      exact hk
    refine ⟨scope, w₁, w₂, Handler.run_attempt_ok.1 he, hages, ?_⟩
    obtain ⟨left, w₃, hl, hr⟩ := Handler.run_bind_value hr
    rw [run_leave] at hl
    cases hl
    -- what comes after the scope only reads
    cases result' with
    | error e =>
      cases hr
      rfl
    | ok vs =>
      rw [Handler.run_ask_bind] at hr
      split at hr
      · cases hr
        rfl
      · cases hr
        rfl

end ScriptShell.Guest.StreamScope
