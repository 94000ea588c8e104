import ScriptShell.Proofs.CapabilityTables
import ScriptShell.Proofs.StreamScopes

/-! # Reading and writing through property tables

A guest that reads or writes a field of a table with a metatable gets to the functions of the
metatable only where the table itself has nothing (`run_index_of_absent`,
`run_setIndex_of_absent`).  For a table that offers properties these functions are the shell's, and
what such a read or write does is said here once for all property tables: with what the shell has
under a key, what it refuses, and what it leaves to the table itself.  They are called like
metamethods, so they need room for one more call that comes from inside an operator; without that
room there is an error and nothing happens (`run_index_of_tooDeep`, `run_setIndex_of_tooDeep`).
-/

namespace ScriptShell

open Guest

variable {α β : Type}

/-- An outcome with another value. -/
def Outcome.map (f : α → β) : Outcome α → Outcome β
  | value a => .value (f a)
  | error v => .error v
  | exhausted => .exhausted

/-- The state after a failure was raised.  The failure is a new object, and all else is as it
was. -/
def World.raised (w : World) (f : Failure) : World :=
  { w with heap := (w.heap.addUser (.failure (.callback f))).2 }

/-- What a table holds under a value, without metamethods. -/
def Guest.Heap.rawGet (h : Heap) (t : TableRef) (k : Value) : Value :=
  match Key.ofValue k with
  | .ok key => (h.table t).get key
  | .error _ => .nil

theorem Guest.Heap.rawGet_eq (h : Heap) (t : TableRef) {k : Value} {key : Key}
    (hk : Key.ofValue k = .ok key) : h.rawGet t k = (h.table t).get key := by
  rw [rawGet, hk]

variable {w : World} {t m : TableRef} {k v : Value} {key : Key} {p : PropertyTable}

namespace Handler

variable {hd : Handler}

theorem run_callValue (f : Value) (args : List Value) (sites : CallSites) (w : World) :
    hd.run (Program.callValue f args sites) w = hd.call f args sites w := by
  rw [Program.callValue, run]
  cases hc : hd.call f args sites w with
  | mk result w' => cases result <;> rfl

theorem run_callFirst (here : Here) (event : String) (f : Value) (args : List Value) (w : World) :
    hd.run (here.callFirst event f args) w =
      ((hd.call f args (here.calling event) w).1.map first,
        (hd.call f args (here.calling event) w).2) := by
  show hd.run ((Program.callValue f args (here.calling event)).bind fun vs => .done (first vs)) w = _
  rw [run_bind, run_callValue]
  cases hc : hd.call f args (here.calling event) w with
  | mk result w' => cases result <;> rfl

/-! ## Fields of tables -/

/-- A field with a value is read without any metamethod. -/
theorem run_index_of_present (here : Here) (name? : Option (String × String))
    (hk : Key.ofValue k = .ok key) (hv : (w.heap.table t).get key ≠ .nil) :
    hd.run (here.index name? (.table t) k) w = (.value ((w.heap.table t).get key), w) := by
  have hnil : ((w.heap.table t).get key).isNil = false := Value.isNil_eq_false.2 hv
  rw [Here.index, chainLimit, Here.indexWithin, run_ask_bind, hk]
  show hd.run (if (!((w.heap.table t).get key).isNil) = true then
    pure ((w.heap.table t).get key) else _) w = _
  rw [hnil]
  rfl

/-- Such a field is also written without any. -/
theorem run_setIndex_of_present (here : Here) (name? : Option (String × String)) (v : Value)
    (hk : Key.ofValue k = .ok key) (hv : (w.heap.table t).get key ≠ .nil) :
    hd.run (here.setIndex name? (.table t) k v) w =
      (.value (), { w with heap := w.heap.setSlot t key v }) := by
  have hnil : ((w.heap.table t).get key).isNil = false := Value.isNil_eq_false.2 hv
  rw [Here.setIndex, chainLimit, Here.setIndexWithin, run_ask_bind, hk]
  show hd.run (if (!((w.heap.table t).get key).isNil) = true then
    (here.rawSet t k v).bind fun _ => .done () else _) w = _
  rw [hnil, Here.rawSet, hk]
  rfl

/-- A field without a value is read by the function for reads in the metatable. -/
theorem run_index_of_absent (here : Here) (name? : Option (String × String)) {f : GuestFunction}
    (habsent : w.heap.rawGet t k = .nil) (hm : (w.heap.table t).metatable? = some m)
    (hf : w.heap.field m "__index" = .func f) :
    hd.run (here.index name? (.table t) k) w =
      ((hd.call (.func f) [.table t, k] (here.calling "index") w).1.map first,
        (hd.call (.func f) [.table t, k] (here.calling "index") w).2) := by
  have hmeta : (w.answer (.table t)).1.metatable? = some m := hm
  have ha : (w.answer (.table m)).1.get (.text "__index") = .func f := hf
  rw [← run_callFirst, Here.index, chainLimit, Here.indexWithin, run_ask_bind]
  show hd.run (if (!(w.heap.rawGet t k).isNil) = true then pure (w.heap.rawGet t k) else _) w = _
  rw [habsent, hmeta]
  show hd.run (Program.ask (.table m) >>= _) w = _
  rw [run_ask_bind, ha]
  rfl

/-- And it is written by the function for writes. -/
theorem run_setIndex_of_absent (here : Here) (name? : Option (String × String)) (v : Value)
    {f : GuestFunction} (habsent : w.heap.rawGet t k = .nil)
    (hm : (w.heap.table t).metatable? = some m) (hf : w.heap.field m "__newindex" = .func f) :
    hd.run (here.setIndex name? (.table t) k v) w =
      ((hd.call (.func f) [.table t, k, v] (here.calling "newindex") w).1.map fun _ => (),
        (hd.call (.func f) [.table t, k, v] (here.calling "newindex") w).2) := by
  have hmeta : (w.answer (.table t)).1.metatable? = some m := hm
  have ha : (w.answer (.table m)).1.get (.text "__newindex") = .func f := hf
  rw [Here.setIndex, chainLimit, Here.setIndexWithin, run_ask_bind]
  show hd.run (ite _ _ _) w = _
  rw [if_neg, hmeta]
  · show hd.run (Program.ask (.table m) >>= _) w = _
    rw [run_ask_bind, ha]
    show hd.run ((here.callFirst "newindex" (.func f) [.table t, k, v]).bind fun _ => .done ()) w = _
    rw [run_bind, run_callFirst]
    cases hc : hd.call (.func f) [.table t, k, v] (here.calling "newindex") w with
    | mk result w' => cases result <;> rfl
  · -- the table has nothing under the key
    cases hk : Key.ofValue k with
    | error e => exact Bool.false_ne_true
    | ok key =>
      rw [Heap.rawGet_eq _ _ hk] at habsent
      show ¬(!((w.heap.table t).get key).isNil) = true
      rw [habsent]
      exact Bool.false_ne_true

/-! ## The functions of the metatable -/

theorem run_bind_of_error {q : Program α} {g : α → Program β} {w' : World} {e : Value}
    (hq : hd.run q w = (.error e, w')) : hd.run (q >>= g) w = (.error e, w') := by
  show hd.run (q.bind g) w = _
  rw [run_bind, hq]

theorem run_hostValue {x : HostValue} (hv : Marshal.toHost w.heap v = .ok x) :
    hd.run (LibraryCall.hostValue v) w = (.value x, w) := by
  have ha : Marshal.toHost (w.answer .heap).1 v = .ok x := hv
  rw [LibraryCall.hostValue, run_ask_bind, ha]
  rfl

theorem run_hostValue_of_error {e : MarshalError} (hv : Marshal.toHost w.heap v = .error e) :
    hd.run (LibraryCall.hostValue v) w =
      (.error (.user ⟨w.heap.users.size⟩), w.raised (.marshal e)) := by
  have ha : Marshal.toHost (w.answer .heap).1 v = .error e := hv
  rw [LibraryCall.hostValue, run_ask_bind, ha]
  rfl

theorem run_guestValue (c : LibraryCall) {x : HostValue} {h : Heap}
    (hx : Marshal.toGuest w.natives c.runtime x w.heap = (.ok v, h)) :
    hd.run (c.guestValue x) w = (.value v, { w with heap := h }) := by
  have ha : w.answer (.toGuest c.runtime x) = (.ok v, { w with heap := h }) := by
    show World.withHeap w (Marshal.toGuest w.natives c.runtime x) = _
    rw [World.withHeap]
    dsimp only
    rw [hx]
  rw [LibraryCall.guestValue, run_ask_bind, ha]
  rfl

section Methods

variable (r : RuntimeRef) (sites : CallSites) (name : String)

/-- Where the shell has nothing there is `nil`. -/
theorem run_propertyGet_of_none {key : HostValue} (hk : Marshal.toHost w.heap k = .ok key)
    (hp : p.get w.host key = none) :
    hd.run (LibraryCall.propertyGet ⟨r, sites, name, [.table t, k]⟩ p) w = (.value [.nil], w) := by
  have hget : p.get (w.answer .host).1 key = none := hp
  show hd.run (LibraryCall.hostValue k >>= _) w = _
  rw [run_bind_of_value (run_hostValue hk), run_ask_bind, hget]
  rfl

/-- What the shell has is given in its guest form. -/
theorem run_propertyGet_of_some {key x : HostValue} {h : Heap}
    (hk : Marshal.toHost w.heap k = .ok key) (hp : p.get w.host key = some x)
    (hx : Marshal.toGuest w.natives r x w.heap = (.ok v, h)) :
    hd.run (LibraryCall.propertyGet ⟨r, sites, name, [.table t, k]⟩ p) w =
      (.value [v], { w with heap := h }) := by
  have hget : p.get (w.answer .host).1 key = some x := hp
  show hd.run (LibraryCall.hostValue k >>= _) w = _
  rw [run_bind_of_value (run_hostValue hk), run_ask_bind, hget]
  exact run_bind_of_value (run_guestValue ⟨r, sites, name, [.table t, k]⟩ hx)

/-- What the shell does not claim is put into the table itself. -/
theorem run_propertySet_of_own (hk : Key.ofValue k = .ok key)
    (hp : ∀ x, Marshal.toHost w.heap k = .ok x → p.claims x = false) :
    hd.run (LibraryCall.propertySet ⟨r, sites, name, [.table t, k, v]⟩ p) w =
      (.value [], { w with heap := w.heap.setSlot t key v }) := by
  -- a key without a host form goes the same way as one that is not claimed
  let here : Here := ⟨r, .host :: sites⟩
  have hown : hd.run (viaHost here (here.rawSet t k v) >>= fun _ => pure []) w =
      (.value ([] : List Value), { w with heap := w.heap.setSlot t key v }) := by
    have hset : hd.run (here.rawSet t k v) w =
        (.value (), { w with heap := w.heap.setSlot t key v }) := by
      rw [Here.rawSet, hk]
      rfl
    exact run_bind_of_value (StreamScope.run_viaHost hset)
  rw [LibraryCall.propertySet]
  show hd.run (Program.ask .heap >>= _) w = _
  rw [run_ask_bind]
  cases hx : Marshal.toHost w.heap k with
  | error e =>
    have hkey : Marshal.toHost (w.answer .heap).1
        (LibraryCall.arg ⟨r, sites, name, [.table t, k, v]⟩ 2) = .error e := hx
    rw [hkey]
    exact hown
  | ok x =>
    have hkey : Marshal.toHost (w.answer .heap).1
        (LibraryCall.arg ⟨r, sites, name, [.table t, k, v]⟩ 2) = .ok x := hx
    rw [hkey]
    show hd.run (if p.claims x = true then _ else _) w = _
    rw [hp x hx]
    exact hown

/-- What the shell claims needs a host form. -/
theorem run_propertySet_of_error {key : HostValue} {e : MarshalError}
    (hk : Marshal.toHost w.heap k = .ok key) (hp : p.claims key = true)
    (hv : Marshal.toHost w.heap v = .error e) :
    hd.run (LibraryCall.propertySet ⟨r, sites, name, [.table t, k, v]⟩ p) w =
      (.error (.user ⟨w.heap.users.size⟩), w.raised (.marshal e)) := by
  have hkey : Marshal.toHost (w.answer .heap).1
      (LibraryCall.arg ⟨r, sites, name, [.table t, k, v]⟩ 2) = .ok key := hk
  rw [LibraryCall.propertySet]
  show hd.run (Program.ask .heap >>= _) w = _
  rw [run_ask_bind, hkey]
  show hd.run (if p.claims key = true then _ else _) w = _
  rw [hp]
  exact run_bind_of_error (run_hostValue_of_error hv)

/-- What the shell claims is written on its side, or refused. -/
theorem run_propertySet_of_claims {key x : HostValue} (hk : Marshal.toHost w.heap k = .ok key)
    (hp : p.claims key = true) (hv : Marshal.toHost w.heap v = .ok x) :
    hd.run (LibraryCall.propertySet ⟨r, sites, name, [.table t, k, v]⟩ p) w =
      match p.set w.host key x with
      | .ok host => (.value [], { w with host := host })
      | .error e => (.error (.user ⟨w.heap.users.size⟩), w.raised (.property e)) := by
  have hkey : Marshal.toHost (w.answer .heap).1
      (LibraryCall.arg ⟨r, sites, name, [.table t, k, v]⟩ 2) = .ok key := hk
  rw [LibraryCall.propertySet]
  show hd.run (Program.ask .heap >>= _) w = _
  rw [run_ask_bind, hkey]
  show hd.run (if p.claims key = true then _ else _) w = _
  rw [hp]
  show hd.run (LibraryCall.hostValue v >>= _) w = _
  rw [run_bind_of_value (run_hostValue hv), run_ask_bind]
  cases hs : p.set w.host key x with
  | ok host =>
    have ha : w.answer (.setProperty p key x) = (.ok (), { w with host := host }) := by
      show w.updateHost (p.set w.host key x) = _
      rw [hs]
      rfl
    rw [ha]
    rfl
  | error e =>
    have ha : w.answer (.setProperty p key x) = (.error e, w) := by
      show w.updateHost (p.set w.host key x) = _
      rw [hs]
      rfl
    rw [ha]
    rfl

end Methods
end Handler

/-! ## Calls from inside operators -/

/-- Metamethods are called from inside an operator, whoever uses it. -/
theorem isBoundary_calling (here : Here) (event : String) :
    (here.calling event).isBoundary = true := by
  obtain ⟨r, sites⟩ := here
  cases sites with
  | nil => rfl
  | cons site rest =>
    cases site with
    | guest chunk line callee? tail => rfl
    | host => rfl

section Offers

variable {n b : Nat} {r r' : RuntimeRef} {f : GuestFunction} {code : Code}

/-- Without room for the call there is an error, and nothing happens. -/
theorem call_of_tooDeep (hdeep : n = 0 ∨ b = 0) (f : Value) (args : List Value) (here : Here)
    (event : String) (w : World) :
    ∃ e, (handlerWithin n b r).call f args (here.calling event) w = (.error e, w) := by
  -- a call from an operator is a boundary, and none may be crossed any more
  refine exists_error_of_tooDeep w (hdeep.imp_right fun hb => ?_)
  rw [isBoundary_calling, hb]
  rfl

theorem exists_room (hroom : ¬(n = 0 ∨ b = 0)) : ∃ n' b', n = n' + 1 ∧ b = b' + 1 := by
  obtain ⟨hn, hb⟩ := not_or.1 hroom
  exact ⟨n - 1, b - 1, by omega, by omega⟩

/-- With room for it the function runs, in its own runtime. -/
theorem call_of_function (hf : w.heap.function? f = some ⟨r', code⟩)
    (hcode : ∀ g, code ≠ .host g) (args : List Value) (here : Here) (event : String) :
    (handlerWithin (n + 1) (b + 1) r).call (.func f) args (here.calling event) w =
      (handlerWithin n b r').run
        (callBody w.heap r' (.func f) args (here.calling event)) w := by
  have hbody : bodyOf w r (.func f) args (here.calling event) =
      (r', callBody w.heap r' (.func f) args (here.calling event)) := by
    rw [bodyOf, hf]
    cases code with
    | host g => exact absurd rfl (hcode g)
    | _ => rfl
  simp only [handlerWithin, isBoundary_calling, hbody]
  rfl

/-! ## Tables that offer properties -/

/-- A read of a field without a value runs the function for reads. -/
theorem exists_run_index (ho : w.heap.Offers t p) (habsent : w.heap.rawGet t k = .nil) :
    ∃ r', ∀ (n b : Nat) (r : RuntimeRef) (here : Here) (name? : Option (String × String)),
      (handlerWithin (n + 1) (b + 1) r).run (here.index name? (.table t) k) w =
        (((handlerWithin n b r').run
            (LibraryCall.propertyGet ⟨r', here.calling "index", "?", [.table t, k]⟩ p) w).1.map first,
          ((handlerWithin n b r').run
            (LibraryCall.propertyGet ⟨r', here.calling "index", "?", [.table t, k]⟩ p) w).2) := by
  obtain ⟨m, -, -, hm, ⟨f, r', hfield, hf⟩, -, -⟩ := ho
  refine ⟨r', fun n b r here name? => ?_⟩
  have hbody : callBody w.heap r' (.func f) [.table t, k] (here.calling "index") =
      LibraryCall.propertyGet ⟨r', here.calling "index", "?", [.table t, k]⟩ p := by
    rw [callBody, hf]
  rw [Handler.run_index_of_absent here name? habsent hm hfield,
    call_of_function hf (fun _ => Code.noConfusion), hbody]

/-- A write of such a field runs the function for writes. -/
theorem exists_run_setIndex (ho : w.heap.Offers t p) (habsent : w.heap.rawGet t k = .nil)
    (v : Value) :
    ∃ r', ∀ (n b : Nat) (r : RuntimeRef) (here : Here) (name? : Option (String × String)),
      (handlerWithin (n + 1) (b + 1) r).run (here.setIndex name? (.table t) k v) w =
        (((handlerWithin n b r').run (LibraryCall.propertySet
            ⟨r', here.calling "newindex", "?", [.table t, k, v]⟩ p) w).1.map fun _ => (),
          ((handlerWithin n b r').run (LibraryCall.propertySet
            ⟨r', here.calling "newindex", "?", [.table t, k, v]⟩ p) w).2) := by
  obtain ⟨m, -, -, hm, -, ⟨f, r', hfield, hf⟩, -⟩ := ho
  refine ⟨r', fun n b r here name? => ?_⟩
  have hbody : callBody w.heap r' (.func f) [.table t, k, v] (here.calling "newindex") =
      LibraryCall.propertySet ⟨r', here.calling "newindex", "?", [.table t, k, v]⟩ p := by
    rw [callBody, hf]
  rw [Handler.run_setIndex_of_absent here name? v habsent hm hfield,
    call_of_function hf (fun _ => Code.noConfusion), hbody]

variable (ho : w.heap.Offers t p) (habsent : w.heap.rawGet t k = .nil)
include ho habsent

/-- Where there is no room for a metamethod, reading a field fails and changes nothing. -/
theorem run_index_of_tooDeep (hdeep : n = 0 ∨ b = 0) (here : Here)
    (name? : Option (String × String)) :
    ∃ e, (handlerWithin n b r).run (here.index name? (.table t) k) w = (.error e, w) := by
  obtain ⟨m, -, -, hm, ⟨f, r', hfield, -⟩, -, -⟩ := ho
  obtain ⟨e, he⟩ := call_of_tooDeep (r := r) hdeep (.func f) [.table t, k] here "index" w
  refine ⟨e, ?_⟩
  rw [Handler.run_index_of_absent here name? habsent hm hfield, he]
  rfl

/-- Nor does writing one change anything. -/
theorem run_setIndex_of_tooDeep (hdeep : n = 0 ∨ b = 0) (here : Here)
    (name? : Option (String × String)) (v : Value) :
    ∃ e, (handlerWithin n b r).run (here.setIndex name? (.table t) k v) w = (.error e, w) := by
  obtain ⟨m, -, -, hm, -, ⟨f, r', hfield, -⟩, -⟩ := ho
  obtain ⟨e, he⟩ := call_of_tooDeep (r := r) hdeep (.func f) [.table t, k, v] here "newindex" w
  refine ⟨e, ?_⟩
  rw [Handler.run_setIndex_of_absent here name? v habsent hm hfield, he]
  rfl

section Keyed

variable {x : HostValue} (hk : Marshal.toHost w.heap k = .ok x)
include hk

/-- Reading a field under which the shell has nothing gives `nil`. -/
theorem run_index_of_none (hp : p.get w.host x = none) (here : Here)
    (name? : Option (String × String)) :
    (handlerWithin (n + 1) (b + 1) r).run (here.index name? (.table t) k) w = (.value .nil, w) := by
  obtain ⟨r', hrun⟩ := exists_run_index ho habsent
  rw [hrun, Handler.run_propertyGet_of_none r' _ _ hk hp]
  rfl

/-- Reading a field under which the shell has something gives that in its guest form. -/
theorem run_index_of_some {y : HostValue} {h : Heap} (hp : p.get w.host x = some y)
    (hy : ∀ r, Marshal.toGuest w.natives r y w.heap = (.ok v, h)) (here : Here)
    (name? : Option (String × String)) :
    (handlerWithin (n + 1) (b + 1) r).run (here.index name? (.table t) k) w =
      (.value v, { w with heap := h }) := by
  obtain ⟨r', hrun⟩ := exists_run_index ho habsent
  rw [hrun, Handler.run_propertyGet_of_some r' _ _ hk hp (hy r')]
  rfl

/-- A field that the shell claims takes no value without a host form. -/
theorem run_setIndex_of_error (hp : p.claims x = true) {e : MarshalError}
    (hv : Marshal.toHost w.heap v = .error e) (here : Here) (name? : Option (String × String)) :
    (handlerWithin (n + 1) (b + 1) r).run (here.setIndex name? (.table t) k v) w =
      (.error (.user ⟨w.heap.users.size⟩), w.raised (.marshal e)) := by
  obtain ⟨r', hrun⟩ := exists_run_setIndex ho habsent v
  rw [hrun, Handler.run_propertySet_of_error r' _ _ hk hp hv]
  rfl

/-- A field that the shell claims is written on its side, or refused. -/
theorem run_setIndex_of_claims (hp : p.claims x = true) {y : HostValue}
    (hv : Marshal.toHost w.heap v = .ok y) (here : Here) (name? : Option (String × String)) :
    (handlerWithin (n + 1) (b + 1) r).run (here.setIndex name? (.table t) k v) w =
      match p.set w.host x y with
      | .ok host => (.value (), { w with host := host })
      | .error e => (.error (.user ⟨w.heap.users.size⟩), w.raised (.property e)) := by
  obtain ⟨r', hrun⟩ := exists_run_setIndex ho habsent v
  rw [hrun, Handler.run_propertySet_of_claims r' _ _ hk hp hv]
  cases p.set w.host x y <;> rfl

end Keyed

/-- A field that the shell does not claim is put into the table. -/
theorem run_setIndex_of_own (hk : Key.ofValue k = .ok key)
    (hp : ∀ x, Marshal.toHost w.heap k = .ok x → p.claims x = false) (here : Here)
    (name? : Option (String × String)) :
    (handlerWithin (n + 1) (b + 1) r).run (here.setIndex name? (.table t) k v) w =
      (.value (), { w with heap := w.heap.setSlot t key v }) := by
  obtain ⟨r', hrun⟩ := exists_run_setIndex ho habsent v
  rw [hrun, Handler.run_propertySet_of_own r' _ _ hk hp]
  rfl

end Offers
end ScriptShell
