import Mathlib.Logic.Function.Basic
import ScriptShell.Proofs.CapabilityKeys
import ScriptShell.Proofs.CapabilityTables
import ScriptShell.Proofs.PropertyAccess
import ScriptShell.Session.Copy

/-! # Tables that hand assignments on

The collections and the key table claim every key, so the shell answers for an assignment to one of
them (`World.delegate`): it takes the value or it refuses, and the table itself stays empty.  That
is so for every key with a host form, `nil` and floats that are no numbers included.  A key without
one, such as a coroutine or a table that holds itself, cannot be handed on, and the function for
writes puts it into the table as if the shell did not claim it; from then on the table answers for
this key by itself.  `storage` tells from the assignments made so far what the table holds:
`Delegates.assign_cases` is one assignment, `AssignmentHistory.delegates` all of them, and
`World.collection_assignments` says what this means for the tables of a new session.
-/

namespace ScriptShell

open Guest

variable {w w' : World} {c t : TableRef} {k v : Value} {p : PropertyTable}

/-! ## What the shell makes of an assignment -/

/-- An assignment that is handed on: the shell takes the value, which changes its side only, or a
failure is raised, because the value has no host form or because the shell refuses it. -/
def World.delegate (w : World) (p : PropertyTable) (key : HostValue) (v : Value) :
    Outcome Unit × World :=
  match Marshal.toHost w.heap v with
  | .error e => (.error (.user ⟨w.heap.users.size⟩), w.raised (.marshal e))
  | .ok x =>
    match p.set w.host key x with
    | .ok host => (.value (), { w with host := host })
    | .error e => (.error (.user ⟨w.heap.users.size⟩), w.raised (.property e))

/-- The shell answers for every key. -/
def PropertyTable.ClaimsAll (p : PropertyTable) : Prop := ∀ key, p.claims key = true

theorem claimsAll_collection (kind : CollectionKind) :
    (PropertyTable.collection kind).ClaimsAll := fun _ => rfl

theorem claimsAll_keys (hooks : RegistryRef) : (PropertyTable.keys hooks).ClaimsAll := fun _ => rfl

/-- What is handed on leaves the tables and the functions alone. -/
theorem keeps_delegate (w : World) (p : PropertyTable) (key : HostValue) (v : Value) :
    w.heap.Keeps (w.delegate p key v).2.heap := by
  unfold World.delegate
  split
  · exact (Heap.Keeps.refl _).addUser _
  · split
    · exact .refl _
    · exact (Heap.Keeps.refl _).addUser _

/-- What cannot cross to the shell is a key all the same: the two values that are no keys, `nil` and
a float that is no number, have host forms. -/
theorem exists_key_of_no_form {h : Heap} {e : MarshalError} (hk : Marshal.toHost h k = .error e) :
    ∃ key, Key.ofValue k = .ok key := by
  rw [Marshal.toHost, Marshal.maxDepth] at hk
  cases k with
  | nil =>
    rw [Marshal.toHostWithin] at hk
    cases hk
  | num x =>
    rw [Marshal.toHostWithin] at hk
    cases hk
  | _ => exact ⟨_, rfl⟩

/-! ## What the table holds -/

/-- An assignment that raised no error. -/
structure Assigned where
  /-- The heap at that point. -/
  heap : Heap
  /-- The key. -/
  key : Value
  /-- The value. -/
  value : Value

namespace Assigned

/-- The key could be handed on. -/
def HasForm (a : Assigned) : Prop := ∃ x, Marshal.toHost a.heap a.key = .ok x

instance (a : Assigned) : Decidable a.HasForm :=
  match h : Marshal.toHost a.heap a.key with
  | .ok x => isTrue ⟨x, h⟩
  | .error _ => isFalse fun ⟨_, hx⟩ => Except.noConfusion rfl rfl (heq_of_eq (h.symm.trans hx))

/-- What a table holds itself after the assignment.  It takes what cannot be handed on, and what is
under a key that it holds by then. -/
def leave (a : Assigned) (stored : Key → Value) : Key → Value :=
  match Key.ofValue a.key with
  | .error _ => stored
  | .ok key =>
    if a.HasForm ∧ (stored key).isNil then stored else Function.update stored key a.value

variable {a : Assigned} {stored : Key → Value}

theorem leave_of_form (hform : a.HasForm)
    (habsent : ∀ key, Key.ofValue a.key = .ok key → stored key = .nil) :
    a.leave stored = stored := by
  rw [leave]
  split
  · rfl
  · next key hkey => rw [if_pos ⟨hform, by rw [habsent key hkey]; rfl⟩]

theorem leave_of_key {key : Key} (hkey : Key.ofValue a.key = .ok key)
    (hn : ¬(a.HasForm ∧ stored key = .nil)) :
    a.leave stored = Function.update stored key a.value := by
  rw [leave, hkey]
  exact if_neg fun h => hn ⟨h.1, Value.isNil_iff.1 h.2⟩

end Assigned

/-- What the table itself holds after assignments, of which the latest comes first. -/
def storage (made : List Assigned) : Key → Value := made.foldr Assigned.leave fun _ => .nil

/-- Without keys that cannot be handed on the table stays empty. -/
theorem storage_eq_nil {made : List Assigned} (hform : ∀ a ∈ made, a.HasForm) :
    storage made = fun _ => .nil := by
  induction made with
  | nil => rfl
  | cons a before ih =>
    have hbefore := ih fun a' ha' => hform a' (List.mem_cons_of_mem a ha')
    show a.leave (storage before) = _
    rw [hbefore]
    exact Assigned.leave_of_form (hform a List.mem_cons_self) fun _ _ => rfl

/-- A table that offers what the shell has, and what it holds itself. -/
structure Delegates (p : PropertyTable) (c : TableRef) (w : World) (stored : Key → Value) :
    Prop where
  /-- It leads to the shell. -/
  offers : w.heap.Offers c p
  /-- It holds this. -/
  stored : ∀ key, (w.heap.table c).get key = stored key

namespace Delegates

variable {stored : Key → Value} {n b : Nat} {r : RuntimeRef}

theorem lt (hd : Delegates p c w stored) : c.id < w.heap.tables.size := by
  obtain ⟨m, hm, hlt, -⟩ := hd.offers
  exact Nat.lt_trans hm hlt

theorem keepsTable (hd : Delegates p c w stored) (hk : w.heap.KeepsTable c w'.heap) :
    Delegates p c w' stored :=
  ⟨hk.offers hd.offers, fun key => (hk.fields key).trans (hd.stored key)⟩

theorem delegate (hd : Delegates p c w stored) (key : HostValue) (v : Value) :
    Delegates p c (w.delegate p key v).2 stored :=
  hd.keepsTable (.of_keeps (keeps_delegate w p key v) hd.offers)

theorem setSlot (hd : Delegates p c w stored) (key : Key) (v : Value) :
    Delegates p c { w with heap := w.heap.setSlot c key v } (Function.update stored key v) := by
  refine ⟨hd.offers.setSlot key v, fun key' => ?_⟩
  show ((w.heap.setSlot c key v).table c).get key' = _
  by_cases hk : key' = key
  · rw [Heap.get_setSlot _ hd.lt, if_pos ⟨rfl, hk.symm⟩, hk, Function.update_self]
  · rw [Heap.get_setSlot_of_ne _ _ (Ne.symm hk), Function.update_of_ne hk, hd.stored]

variable (here : Here) (name? : Option (String × String))

/-- With room for the function for writes, a key with a host form that the table does not hold is
handed on. -/
theorem run_setIndex_of_form (hd : Delegates p c w stored) (hp : p.ClaimsAll) {x : HostValue}
    (hk : Marshal.toHost w.heap k = .ok x) (habsent : w.heap.rawGet c k = .nil) (v : Value) :
    (handlerWithin (n + 1) (b + 1) r).run (here.setIndex name? (.table c) k v) w =
      w.delegate p x v := by
  unfold World.delegate
  cases hv : Marshal.toHost w.heap v with
  | error e => exact run_setIndex_of_error hd.offers habsent hk (hp x) hv here name?
  | ok y => exact run_setIndex_of_claims hd.offers habsent hk (hp x) hv here name?

/-- A key without a host form is put into the table. -/
theorem run_setIndex_of_no_form (hd : Delegates p c w stored) {e : MarshalError} {key : Key}
    (hk : Marshal.toHost w.heap k = .error e) (hkey : Key.ofValue k = .ok key) (v : Value) :
    (handlerWithin (n + 1) (b + 1) r).run (here.setIndex name? (.table c) k v) w =
      (.value (), { w with heap := w.heap.setSlot c key v }) := by
  by_cases hv : (w.heap.table c).get key = .nil
  · have habsent : w.heap.rawGet c k = .nil := by rw [Heap.rawGet_eq _ _ hkey, hv]
    refine run_setIndex_of_own hd.offers habsent hkey (fun x hx => ?_) here name?
    rw [hk] at hx
    cases hx
  · exact Handler.run_setIndex_of_present here name? v hkey hv

/-- What an assignment does: nothing for want of room, or it is handed on, or the table takes it. -/
theorem assign_cases (hd : Delegates p c w stored) (hp : p.ClaimsAll) (k v : Value) :
    ((n = 0 ∨ b = 0) ∧ w.heap.rawGet c k = .nil ∧
      ∃ e, (handlerWithin n b r).run (here.setIndex name? (.table c) k v) w = (.error e, w)) ∨
    (w.heap.rawGet c k = .nil ∧ ∃ x, Marshal.toHost w.heap k = .ok x ∧
      (handlerWithin n b r).run (here.setIndex name? (.table c) k v) w = w.delegate p x v) ∨
    (∃ key, Key.ofValue k = .ok key ∧
      ¬((∃ x, Marshal.toHost w.heap k = .ok x) ∧ stored key = .nil) ∧
      (handlerWithin n b r).run (here.setIndex name? (.table c) k v) w =
        (.value (), { w with heap := w.heap.setSlot c key v })) := by
  by_cases habsent : w.heap.rawGet c k = .nil
  · by_cases hdeep : n = 0 ∨ b = 0
    · exact .inl ⟨hdeep, habsent, run_setIndex_of_tooDeep hd.offers habsent hdeep here name? v⟩
    · obtain ⟨n, b, rfl, rfl⟩ := exists_room hdeep
      cases hk : Marshal.toHost w.heap k with
      | ok x =>
        exact .inr (.inl ⟨habsent, x, rfl, hd.run_setIndex_of_form here name? hp hk habsent v⟩)
      | error e =>
        obtain ⟨key, hkey⟩ := exists_key_of_no_form hk
        refine .inr (.inr ⟨key, hkey, ?_, hd.run_setIndex_of_no_form here name? hk hkey v⟩)
        rintro ⟨⟨x, hx⟩, -⟩
        cases hx
  · -- only what is a key can be there
    cases hkey : Key.ofValue k with
    | error fault => exact absurd (by rw [Heap.rawGet, hkey]) habsent
    | ok key =>
      rw [Heap.rawGet_eq _ _ hkey] at habsent
      refine .inr (.inr ⟨key, rfl, fun hn => habsent ((hd.stored key).trans hn.2), ?_⟩)
      exact Handler.run_setIndex_of_present here name? v hkey habsent

end Delegates

/-! ## All assignments -/

/-- What can happen to a table from some state on, with the assignments that raised no error, the
latest one first.  Guests assign under any keys, from anywhere, and other things happen in
between. -/
inductive AssignmentHistory (c : TableRef) (w₀ : World) : World → List Assigned → Prop
  /-- Nothing has happened yet. -/
  | start : AssignmentHistory c w₀ w₀ []
  /-- A guest assigns. -/
  | assign {w w' : World} {made : List Assigned} (h : AssignmentHistory c w₀ w made) (n b : Nat)
      (r : RuntimeRef) (here : Here) (name? : Option (String × String)) (k v : Value)
      (run : (handlerWithin n b r).run (here.setIndex name? (.table c) k v) w =
        (.value (), w')) :
      AssignmentHistory c w₀ w' (⟨w.heap, k, v⟩ :: made)
  /-- An assignment of a guest fails. -/
  | fail {w w' : World} {made : List Assigned} (h : AssignmentHistory c w₀ w made) (n b : Nat)
      (r : RuntimeRef) (here : Here) (name? : Option (String × String)) (k v e : Value)
      (run : (handlerWithin n b r).run (here.setIndex name? (.table c) k v) w =
        (.error e, w')) :
      AssignmentHistory c w₀ w' made
  /-- Something else happens. -/
  | other {w w' : World} {made : List Assigned} (h : AssignmentHistory c w₀ w made)
      (apart : w.heap.KeepsTable c w'.heap) : AssignmentHistory c w₀ w' made

/-- At every point of a history the table holds what the assignments so far have left there. -/
theorem AssignmentHistory.delegates {w₀ : World} (hp : p.ClaimsAll)
    (hstart : Delegates p c w₀ fun _ => .nil) {made : List Assigned}
    (h : AssignmentHistory c w₀ w made) : Delegates p c w (storage made) := by
  induction h with
  | start => exact hstart
  | @assign w w' made _ n b r here name? k v run ih =>
    rcases ih.assign_cases (n := n) (b := b) (r := r) here name? hp k v with
      ⟨-, -, e, he⟩ | ⟨habsent, x, hx, hw⟩ | ⟨key, hkey, hn, hw⟩
    · rw [run] at he
      cases he
    · rw [run] at hw
      have hd := ih.delegate x v
      rw [← hw] at hd
      -- the table has nothing under the key, so nothing is added to what it holds
      show Delegates p c w' (Assigned.leave ⟨w.heap, k, v⟩ (storage made))
      rw [Assigned.leave_of_form ⟨x, hx⟩ fun key hkey => ?_]
      · exact hd
      · rw [← ih.stored, ← Heap.rawGet_eq _ _ hkey]
        exact habsent
    · rw [run] at hw
      cases hw
      show Delegates p c _ (Assigned.leave ⟨w.heap, k, v⟩ (storage made))
      rw [Assigned.leave_of_key (a := ⟨w.heap, k, v⟩) hkey hn]
      exact ih.setSlot key v
  | @fail w w' made _ n b r here name? k v e run ih =>
    rcases ih.assign_cases (n := n) (b := b) (r := r) here name? hp k v with
      ⟨-, -, e', he⟩ | ⟨-, x, -, hw⟩ | ⟨key, -, -, hw⟩
    · rw [run] at he
      cases he
      exact ih
    · have hd := ih.delegate x v
      rw [← hw, run] at hd
      exact hd
    · rw [run] at hw
      cases hw
  | other _ apart ih => exact ih.keepsTable apart

/-! ## New sessions -/

/-- The fields of a capability table that hold tables which hand assignments on. -/
inductive Capabilities.Delegated (capabilities : Capabilities) (hooks : RegistryRef) :
    String → PropertyTable → Prop
  /-- A collection. -/
  | collection {kind : CollectionKind} (h : kind ∈ capabilities.collections) :
      Delegated capabilities hooks kind.field (.collection kind)
  /-- The keys. -/
  | keys (h : capabilities.keys = true) : Delegated capabilities hooks "key" (.keys hooks)

theorem Capabilities.Delegated.claimsAll {capabilities : Capabilities} {hooks : RegistryRef}
    {name : String} (h : capabilities.Delegated hooks name p) : p.ClaimsAll := by
  cases h with
  | collection _ => exact claimsAll_collection _
  | keys _ => exact claimsAll_keys hooks

theorem Guest.Heap.IsCapabilityTable.hasPart {h : Heap} {capabilities : Capabilities}
    {hooks : RegistryRef} {name : String} (ht : h.IsCapabilityTable t capabilities hooks)
    (hp : capabilities.Delegated hooks name p) : h.HasPart t name p := by
  cases hp with
  | collection hm => exact ht.collections _ hm
  | keys hk => exact ht.keys hk

namespace World

/-- A session whose capabilities are valid can be added, and its collections and its key table
behave as follows, at every point of every history of assignments with keys and values of any kind.
The table itself holds what was assigned under keys without a host form and nothing else, so it is
empty if there were none.  With room for the function for writes, an assignment under a key with a
host form is handed on, unless the table holds the key by then; one under a key without a host form
puts the value into the table, and the shell hears nothing of it.  Without room it fails.  A key
that the table holds is read and written there, whatever the shell has under it. -/
theorem collection_assignments (w : World) (shell : ShellRef) (capabilities : Capabilities)
    (config : Config) (hvalid : capabilities.validate = .ok ()) :
    ∃ session new t, w.addSession shell capabilities config = .ok (session, new) ∧
      (config.namespaceName ≠ "share" →
        new.heap.field (new.globals session) config.namespaceName = .table t) ∧
      ∀ name p, capabilities.Delegated (new.session session).hooks name p →
        ∃ c, new.heap.field t name = .table c ∧
          ∀ w' made, AssignmentHistory c new w' made →
            (∀ key, (w'.heap.table c).get key = storage made key) ∧
            ((∀ a ∈ made, a.HasForm) → ∀ key, (w'.heap.table c).get key = .nil) ∧
            ∀ (n b : Nat) (r : RuntimeRef) (here : Here) (name? : Option (String × String))
              (k v : Value),
              (∀ x, Marshal.toHost w'.heap k = .ok x → w'.heap.rawGet c k = .nil →
                (handlerWithin (n + 1) (b + 1) r).run (here.setIndex name? (.table c) k v) w' =
                  w'.delegate p x v) ∧
              (∀ e, Marshal.toHost w'.heap k = .error e → ∃ key, Key.ofValue k = .ok key ∧
                (handlerWithin (n + 1) (b + 1) r).run (here.setIndex name? (.table c) k v) w' =
                  (.value (), { w' with heap := w'.heap.setSlot c key v })) ∧
              (n = 0 ∨ b = 0 → w'.heap.rawGet c k = .nil →
                ∃ e, (handlerWithin n b r).run (here.setIndex name? (.table c) k v) w' =
                  (.error e, w')) ∧
              ∀ key, Key.ofValue k = .ok key → storage made key ≠ .nil →
                (handlerWithin n b r).run (here.setIndex name? (.table c) k v) w' =
                  (.value (), { w' with heap := w'.heap.setSlot c key v }) ∧
                (handlerWithin n b r).run (here.index name? (.table c) k) w' =
                  (.value (storage made key), w') := by
  have hadd : w.addSession shell capabilities config =
      .ok (w.placeSession shell capabilities config) := by
    rw [addSession, hvalid]
  obtain ⟨-, htable, -, hfield⟩ := w.nextCapabilities_placeSession shell capabilities config
  have hsession := w.session_placeSession shell capabilities config
  have hruntime := w.runtime_placeSession shell capabilities config
  generalize w.placeSession shell capabilities config = placed
    at hadd htable hfield hsession hruntime
  obtain ⟨session, new⟩ := placed
  refine ⟨session, new, (w.nextCapabilities capabilities).1, hadd, ?_⟩
  rw [globals, hsession, hruntime]
  refine ⟨hfield, fun name p hp => ?_⟩
  obtain ⟨c, hc, hpart⟩ := htable.hasPart hp
  refine ⟨c, hc, fun w' made h => ?_⟩
  -- the table begins empty, so whatever is in it was assigned
  have hd := h.delegates hp.claimsAll ⟨hpart.offers, hpart.empty⟩
  refine ⟨hd.stored, fun hform key => ?_, fun n b r here name? k v => ⟨?_, ?_, ?_, ?_⟩⟩
  · rw [hd.stored, storage_eq_nil hform]
  · intro x hk habsent
    exact hd.run_setIndex_of_form here name? hp.claimsAll hk habsent v
  · intro e hk
    obtain ⟨key, hkey⟩ := exists_key_of_no_form hk
    exact ⟨key, hkey, hd.run_setIndex_of_no_form here name? hk hkey v⟩
  · intro hdeep habsent
    exact run_setIndex_of_tooDeep hd.offers habsent hdeep here name? v
  · intro key hkey hstored
    rw [← hd.stored] at hstored ⊢
    exact ⟨Handler.run_setIndex_of_present here name? v hkey hstored,
      Handler.run_index_of_present here name? hkey hstored⟩

/-- A shell that offers its variables. -/
def variablesOffer : Capabilities := { collections := [.env] }

/-- A variable under a text is set on the side of the shell.  Under a coroutine, which is no name of
a variable, the table takes the value, and keeps it. -/
theorem variable_under_coroutine :
    ∃ session new t c, addSession {} ⟨0⟩ variablesOffer {} = .ok (session, new) ∧
      new.heap.field t "env" = .table c ∧
      ∀ (r : RuntimeRef) (here : Here) (name? : Option (String × String)),
        (handler r).run (here.setIndex name? (.table c) (.text "A") (.text "x")) new =
          new.delegate (.collection .env) (.text "A") (.text "x") ∧
        ∃ w', (handler r).run (here.setIndex name? (.table c) (.thread ⟨0⟩) (.text "x")) new =
            (.value (), w') ∧
          w'.host = new.host ∧ (w'.heap.table c).get (.thread ⟨0⟩) = .text "x" := by
  obtain ⟨session, new, t, hadd, -, hparts⟩ :=
    collection_assignments {} ⟨0⟩ variablesOffer {} rfl
  have henv : variablesOffer.Delegated (new.session session).hooks "env" (.collection .env) :=
    @Capabilities.Delegated.collection variablesOffer _ .env List.mem_cons_self
  obtain ⟨c, hc, hmade⟩ := hparts "env" (.collection .env) henv
  refine ⟨session, new, t, c, hadd, hc, fun r here name? => ?_⟩
  obtain ⟨hstored, -, hassign⟩ := hmade new [] .start
  have htext : Marshal.toHost new.heap (.text "A") = .ok (.text "A") := by
    rw [Value.text, toHost_str, keyOf, Utf8.decode?_encode]
  have hthread : Marshal.toHost new.heap (.thread ⟨0⟩) = .error (.unsupportedGuest "thread") := by
    rw [Marshal.toHost, Marshal.maxDepth, Marshal.toHostWithin]
  refine ⟨?_, ?_⟩
  · refine (hassign 5999 198 r here name? (.text "A") (.text "x")).1 (.text "A") htext ?_
    rw [Heap.rawGet_eq _ _ rfl, hstored]
    rfl
  · obtain ⟨key, hkey, hrun⟩ :=
      (hassign 5999 198 r here name? (.thread ⟨0⟩) (.text "x")).2.1 _ hthread
    cases hkey
    refine ⟨_, hrun, rfl, ?_⟩
    obtain ⟨hthen, -⟩ := hmade _ _ (.assign .start 6000 199 r here name? _ _ hrun)
    rw [hthen]
    show Assigned.leave ⟨new.heap, .thread ⟨0⟩, .text "x"⟩ (storage []) (.thread ⟨0⟩) = _
    have hvalue : Key.ofValue (.thread ⟨0⟩) = .ok (.thread ⟨0⟩) := rfl
    rw [Assigned.leave_of_key (a := ⟨new.heap, .thread ⟨0⟩, .text "x"⟩) hvalue,
      Function.update_self]
    rintro ⟨⟨x, hx⟩, -⟩
    cases hthread.symm.trans hx

end World
end ScriptShell
