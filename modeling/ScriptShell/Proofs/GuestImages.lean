import ScriptShell.Proofs.HostForms
import ScriptShell.Proofs.RoundTrips

/-! # Images of host values

What a value comes back as from a guest is settled when it has been converted.  Its guest form is
made of tables and objects that are new, and whatever is done to older ones, and whatever is added
later, it is read in the same way (`Marshal.settled_toGuest`).  So values that are converted one
after the other can be read together, in any later state that has left the new tables and objects
alone, and each of them is read as its own image (`Marshal.exists_images`).

`Heap.AgreesFrom` relates such states.  A table that is being filled holds values whose own tables
come later, as for the round trip; `Marshal.HoldsSettled` says that these are settled, and then the
table itself is, one level further up (`Marshal.HoldsSettled.isSettled`).
-/

namespace ScriptShell

open Guest

namespace Guest.Heap

/-- The later heap has the tables and the objects of the host from these places on as they were. -/
structure AgreesFrom (tables users : Nat) (h h' : Heap) : Prop where
  /-- No table goes away. -/
  tablesSize : h.tables.size ≤ h'.tables.size
  /-- The tables. -/
  table : ∀ t : TableRef, tables ≤ t.id → t.id < h.tables.size → h'.table t = h.table t
  /-- No object goes away. -/
  usersSize : h.users.size ≤ h'.users.size
  /-- The objects. -/
  user : ∀ u : UserRef, users ≤ u.id → u.id < h.users.size → h'.user u = h.user u

namespace AgreesFrom

variable {base base' users users' : Nat} {h h' h'' : Heap}

theorem refl (base users : Nat) (h : Heap) : AgreesFrom base users h h :=
  ⟨Nat.le_refl _, fun _ _ _ => rfl, Nat.le_refl _, fun _ _ _ => rfl⟩

theorem trans (a : AgreesFrom base users h h') (a' : AgreesFrom base users h' h'') :
    AgreesFrom base users h h'' :=
  ⟨Nat.le_trans a.tablesSize a'.tablesSize,
    fun t hb hlt =>
      (a'.table t hb (Nat.lt_of_lt_of_le hlt a.tablesSize)).trans (a.table t hb hlt),
    Nat.le_trans a.usersSize a'.usersSize,
    fun u hb hlt =>
      (a'.user u hb (Nat.lt_of_lt_of_le hlt a.usersSize)).trans (a.user u hb hlt)⟩

theorem mono (a : AgreesFrom base users h h') (hb : base ≤ base') (hu : users ≤ users') :
    AgreesFrom base' users' h h' :=
  ⟨a.tablesSize, fun t ht => a.table t (Nat.le_trans hb ht), a.usersSize,
    fun u hle => a.user u (Nat.le_trans hu hle)⟩

theorem of_keepsFrom (k : KeepsFrom base h h') (users : Nat) : AgreesFrom base users h h' :=
  ⟨k.size, k.table, k.users.size, fun u _ hlt => by rw [Heap.user, k.users.get _ hlt, Heap.user]⟩

theorem of_keeps (k : Keeps h h') (base users : Nat) : AgreesFrom base users h h' :=
  of_keepsFrom (.of_keeps k) users

end AgreesFrom
end Guest.Heap

open Guest.Heap

namespace Marshal

variable {base base' users users' n depth depth' : Nat} {h h' h'' : Heap} {t : TableRef}
  {key : Key} {g : Value} {natives : Array NativeForm} {r : RuntimeRef}

/-! ## Settled values -/

/-- What a value is read as does not change any more, and this many levels are enough to read it. -/
structure IsSettled (base users : Nat) (h : Heap) (depth : Nat) (g : Value) : Prop where
  /-- It is read in the same way in every later heap that agrees. -/
  same : ∀ h', AgreesFrom base users h h' → ∀ n, toHostWithin h' n g = toHostWithin h n g
  /-- It has a form. -/
  form : ∃ x, toHostWithin h depth g = .ok x

namespace IsSettled

theorem later (s : IsSettled base users h depth g) (a : AgreesFrom base users h h') :
    IsSettled base users h' depth g := by
  refine ⟨fun h'' a' n => ?_, ?_⟩
  · rw [s.same h'' (a.trans a') n, s.same h' a n]
  · rw [s.same h' a]
    exact s.form

theorem mono (s : IsSettled base users h depth g) (hb : base' ≤ base) (hu : users' ≤ users)
    (hd : depth ≤ depth') : IsSettled base' users' h depth' g := by
  obtain ⟨x, hx⟩ := s.form
  exact ⟨fun h' a => s.same h' (a.mono hb hu), x, toHostWithin_mono hd hx⟩

end IsSettled

/-- A value that is neither a table nor an object is read without the heap. -/
theorem isSettled_of_const {x : HostValue} (hg : ∀ (h : Heap) (n : Nat), toHostWithin h n g = .ok x)
    (base users : Nat) (h : Heap) (depth : Nat) : IsSettled base users h depth g :=
  ⟨fun h' _ n => (hg h' n).trans (hg h n).symm, x, hg h depth⟩

theorem isSettled_str (s : Bytes) (base users : Nat) (h : Heap) (depth : Nat) :
    IsSettled base users h depth (.str s) := by
  refine isSettled_of_const (x := (HostValue.bytes s).normal) (fun h n => ?_) base users h depth
  rw [toHostWithin, HostValue.normal]
  cases Utf8.decode? s <;> rfl

theorem isSettled_handle {u : UserRef} {x : Handle} (hu : h.user u = .handle x)
    (hle : users ≤ u.id) (hlt : u.id < h.users.size) (base depth : Nat) :
    IsSettled base users h depth (.user u) := by
  have hform (n : Nat) : toHostWithin h n (.user u) = .ok (.handle x) := by
    rw [toHostWithin, hu]
  refine ⟨fun h' a n => ?_, _, hform depth⟩
  rw [hform, toHostWithin, a.user u hle hlt, hu]

/-! ## Settled tables -/

/-- Pairs whose keys and values have the same forms are read as the same map. -/
theorem entries_congr {es : List (Key × Value)}
    (hsame : ∀ p ∈ es, toHostWithin h' n p.1.toValue = toHostWithin h n p.1.toValue ∧
      toHostWithin h' n p.2 = toHostWithin h n p.2) (m : HostMap) :
    toHostWithin.entries h' n m es = toHostWithin.entries h n m es := by
  induction es generalizing m with
  | nil => simp only [toHostWithin.entries]
  | cons p rest ih =>
    obtain ⟨hkey, hvalue⟩ := hsame p List.mem_cons_self
    have hrest := fun m => ih (fun p' hp' => hsame p' (List.mem_cons_of_mem p hp')) m
    obtain ⟨k, v⟩ := p
    simp only [toHostWithin.entries, hkey, hvalue, hrest]

/-- The table exists, and all that it holds is settled, whatever happens to the table itself and to
those in front of it. -/
structure HoldsSettled (users : Nat) (h : Heap) (t : TableRef) (depth : Nat) : Prop where
  /-- The table exists. -/
  lt : t.id < h.tables.size
  /-- Keys and values are settled. -/
  settled : ∀ w, Holds h t w → IsSettled (t.id + 1) users h depth w

namespace HoldsSettled

/-- A new table holds nothing. -/
theorem addTable (users : Nat) (h : Heap) (depth : Nat) :
    HoldsSettled users (h.addTable {}).2 (h.addTable {}).1 depth := by
  have hget (key : Key) : ((h.addTable {}).2.table (h.addTable {}).1).get key = .nil := by
    rw [table_addTable, Heap.addTable, if_pos rfl, Table.get_empty]
  refine ⟨by simp [Heap.addTable], fun w hw => ?_⟩
  cases hw with
  | key hk => exact absurd (hget _) hk
  | value hk => exact absurd (hget _) hk

theorem later (f : HoldsSettled users h t depth) (a : AgreesFrom t.id users h h') :
    HoldsSettled users h' t depth := by
  refine ⟨Nat.lt_of_lt_of_le f.lt a.tablesSize, fun w hw => ?_⟩
  have htable := a.table t (Nat.le_refl _) f.lt
  have hheld : Holds h t w := by
    rw [holds_iff] at hw ⊢
    rwa [htable] at hw
  exact (f.settled w hheld).later (a.mono (Nat.le_succ _) (Nat.le_refl _))

/-- A slot may be set to a settled value under a settled key. -/
theorem setSlot (f : HoldsSettled users h t depth)
    (hk : IsSettled (t.id + 1) users h depth key.toValue)
    (hg : IsSettled (t.id + 1) users h depth g) :
    HoldsSettled users (h.setSlot t key g) t depth := by
  have hagrees : AgreesFrom (t.id + 1) users h (h.setSlot t key g) :=
    .of_keepsFrom (.of_keepsBut (.setSlot h t key g) (Nat.lt_succ_self _)) users
  have hget (key' : Key) : ((h.setSlot t key g).table t).get key' =
      if key = key' then g else (h.table t).get key' := by
    rw [get_setSlot h f.lt]
    simp
  refine ⟨Nat.lt_of_lt_of_le f.lt hagrees.tablesSize, fun w hw => ?_⟩
  cases hw with
  | @key key' hk' =>
    by_cases he : key = key'
    · exact he ▸ hk.later hagrees
    · rw [hget, if_neg he] at hk'
      exact (f.settled _ (.key hk')).later hagrees
  | @value key' hk' =>
    rw [hget] at hk' ⊢
    split
    · exact hg.later hagrees
    · next he =>
      rw [if_neg he] at hk'
      exact (f.settled _ (.value hk')).later hagrees

/-- A table that holds settled values is settled itself, one level further up. -/
theorem isSettled (f : HoldsSettled users h t depth) :
    IsSettled t.id users h (depth + 1) (.table t) := by
  refine ⟨fun h' a n => ?_, exists_form_table_iff.2 fun w hw => (f.settled w hw).form⟩
  cases n with
  | zero => rw [toHostWithin_table_zero, toHostWithin_table_zero]
  | succ n =>
    have hinner : AgreesFrom (t.id + 1) users h h' := a.mono (Nat.le_succ _) (Nat.le_refl _)
    have hsame : ∀ p ∈ (h.table t).enumerate,
        toHostWithin h' n p.1.toValue = toHostWithin h n p.1.toValue ∧
          toHostWithin h' n p.2 = toHostWithin h n p.2 := fun p hp =>
      ⟨(f.settled _ (holds_iff.2 ⟨p, hp, .inl rfl⟩)).same h' hinner n,
        (f.settled _ (holds_iff.2 ⟨p, hp, .inr rfl⟩)).same h' hinner n⟩
    rw [toHostWithin, toHostWithin, a.table t (Nat.le_refl _) f.lt, entries_congr hsame]

/-- A value that was converted after the table was made may be put into it. -/
theorem put (f : HoldsSettled users h t depth) (kept : h.Keeps h')
    (hk : IsSettled (t.id + 1) users h' depth key.toValue)
    (hg : IsSettled h.tables.size h.users.size h' depth' g) (hu : users ≤ h.users.size)
    (hd : depth' ≤ depth) :
    HoldsSettled users (h'.setSlot t key g) t depth ∧ h.KeepsBut t (h'.setSlot t key g) :=
  ⟨(f.later (.of_keeps kept _ _)).setSlot hk (hg.mono f.lt hu hd),
    (KeepsBut.of_keeps kept t).trans (.setSlot ..)⟩

end HoldsSettled

/-! ## Conversions settle values -/

open HostValue

/-- A key of a map with a guest form is no `nil`, so it becomes a key. -/
theorem key_of_ofValue {k : HostValue} (hk : k.isPlain = true)
    (hg : toGuest natives r k h = (.ok g, h')) (hkey : Key.ofValue g = .ok key) :
    g = key.toValue := by
  have hne : k ≠ .nil := by
    rintro rfl
    cases hg
    cases hkey
  have hplain : ∀ o, k ≠ .native o := by
    rintro o rfl
    exact Bool.false_ne_true hk
  obtain ⟨key', rfl⟩ := key_of_toGuest hplain hne (congrArg Prod.fst hg)
  rw [Key.ofValue_toValue] at hkey
  rw [Except.ok.inj hkey]

mutual

/-- The guest form of a value without parts that convert themselves is settled from where the heap
ended before. -/
theorem settled_toGuest (natives : Array NativeForm) (r : RuntimeRef) :
    ∀ (v : HostValue) (h : Heap) {g : Value} {h' : Heap}, v.isPlain = true →
      toGuest natives r v h = (.ok g, h') →
      h.Keeps h' ∧ IsSettled h.tables.size h.users.size h' v.nesting g
  | .nil, h, _, _, _, hg => by
    cases hg
    exact ⟨.refl h, isSettled_of_const (x := .nil) (fun _ _ => by simp only [toHostWithin]) ..⟩
  | .bool b, h, _, _, _, hg => by
    cases hg
    exact ⟨.refl h, isSettled_of_const (x := .bool b) (fun _ _ => by simp only [toHostWithin]) ..⟩
  | .int i, h, _, _, _, hg => by
    cases hg
    exact ⟨.refl h, isSettled_of_const (x := .int i) (fun _ _ => by simp only [toHostWithin]) ..⟩
  | .callable f, h, _, _, _, hg => by
    cases hg
    exact ⟨.refl h,
      isSettled_of_const (x := .callable f) (fun _ _ => by simp only [toHostWithin]) ..⟩
  | .function f, h, _, _, _, hg => by
    cases hg
    exact ⟨(Keeps.refl h).addFunction _, isSettled_of_const (x := .callable ⟨h.functions.size⟩)
      (fun _ _ => by simp only [toHostWithin]) ..⟩
  | .text s, h, _, _, _, hg | .error s, h, _, _, _, hg => by
    cases hg
    exact ⟨.refl h, isSettled_str ..⟩
  | .bytes b, h, _, _, _, hg => by
    cases hg
    exact ⟨.refl h, isSettled_str ..⟩
  | .handle x, h, _, _, _, hg => by
    cases hg
    exact ⟨(Keeps.refl h).addUser _, isSettled_handle (x := x) (by simp [Heap.user])
      (Nat.le_refl _) (by simp) ..⟩
  | .native _, _, _, _, hv, _ => absurd hv Bool.false_ne_true
  | .seq items, h, _, _, hv, hg => by
    unfold toGuest at hg
    dsimp only at hg
    split at hg
    · next h₁ hitems =>
      cases hg
      -- the new table is filled from empty, and all that is made for it lies behind it
      obtain ⟨kept, hholds⟩ := settled_toGuestItems natives r (h.addTable {}).1 1 items _
        (.addTable h.users.size h (nestingItems items)) (Nat.le_refl _) hv (Nat.le_refl _) hitems
      exact ⟨kept.keeps ((Keeps.refl h).addTable _) (Nat.le_refl _), hholds.isSettled⟩
    · cases hg
  | .map entries, h, _, _, hv, hg => by
    unfold toGuest at hg
    dsimp only at hg
    split at hg
    · next h₁ hentries =>
      cases hg
      obtain ⟨kept, hholds⟩ := settled_toGuestEntries natives r (h.addTable {}).1 entries _
        (.addTable h.users.size h (nestingEntries entries)) (Nat.le_refl _) hv (Nat.le_refl _)
        hentries
      exact ⟨kept.keeps ((Keeps.refl h).addTable _) (Nat.le_refl _), hholds.isSettled⟩
    · cases hg
termination_by structural v => v

/-- A table goes on holding settled values while items are put into it. -/
theorem settled_toGuestItems (natives : Array NativeForm) (r : RuntimeRef) (t : TableRef)
    (p : Nat) :
    ∀ (items : List HostValue) (h : Heap) {h' : Heap} {users depth : Nat},
      HoldsSettled users h t depth → users ≤ h.users.size → plainItems items = true →
      nestingItems items ≤ depth → toGuestItems natives r t p items h = (.ok (), h') →
      h.KeepsBut t h' ∧ HoldsSettled users h' t depth
  | [], h, _, _, _, hholds, _, _, _, hg => by
    cases hg
    exact ⟨.of_keeps (.refl h) t, hholds⟩
  | v :: rest, h, _, users, depth, hholds, hu, hv, hd, hg => by
    obtain ⟨hv, hrest⟩ := Bool.and_eq_true_iff.1 hv
    obtain ⟨hdv, hdrest⟩ := Nat.max_le.1 hd
    unfold toGuestItems at hg
    split at hg
    · next g h₁ hthis =>
      obtain ⟨kept₁, hsettled⟩ := settled_toGuest natives r v h hv hthis
      have hposition : IsSettled (t.id + 1) users h₁ depth (Key.int (Int64.ofNat p)).toValue :=
        isSettled_of_const (x := .int (Int64.ofNat p))
          (fun _ _ => by simp only [Key.toValue, toHostWithin]) ..
      obtain ⟨hholds₂, kept₂⟩ := hholds.put kept₁ hposition hsettled hu hdv
      obtain ⟨kept₃, hholds₃⟩ := settled_toGuestItems natives r t (p + 1) rest _ hholds₂
        (Nat.le_trans hu kept₂.users.size) hrest hdrest hg
      exact ⟨kept₂.trans kept₃, hholds₃⟩
    · cases hg
termination_by structural items => items

/-- It does so while pairs are put into it. -/
theorem settled_toGuestEntries (natives : Array NativeForm) (r : RuntimeRef) (t : TableRef) :
    ∀ (entries : List (HostValue × HostValue)) (h : Heap) {h' : Heap} {users depth : Nat},
      HoldsSettled users h t depth → users ≤ h.users.size → plainEntries entries = true →
      nestingEntries entries ≤ depth → toGuestEntries natives r t entries h = (.ok (), h') →
      h.KeepsBut t h' ∧ HoldsSettled users h' t depth
  | [], h, _, _, _, hholds, _, _, _, hg => by
    cases hg
    exact ⟨.of_keeps (.refl h) t, hholds⟩
  | (k, v) :: rest, h, _, users, depth, hholds, hu, he, hd, hg => by
    obtain ⟨⟨hk, hv⟩, hrest⟩ :
        (k.isPlain = true ∧ v.isPlain = true) ∧ plainEntries rest = true := by
      simpa only [plainEntries, Bool.and_eq_true] using he
    obtain ⟨⟨hdk, hdv⟩, hdrest⟩ := (Nat.max_le.1 hd).imp_left Nat.max_le.1
    unfold toGuestEntries at hg
    split at hg
    · cases hg
    · next gk h₁ hthis =>
      obtain ⟨kept₁, hkey⟩ := settled_toGuest natives r k h hk hthis
      split at hg
      · cases hg
      · next key hofValue =>
        cases key_of_ofValue hk hthis hofValue
        split at hg
        · next g h₂ hvalue =>
          obtain ⟨kept₂, hsettled⟩ := settled_toGuest natives r v h₁ hv hvalue
          have hholds₁ := hholds.later (.of_keeps kept₁ _ _)
          have hu₁ := Nat.le_trans hu kept₁.users.size
          have hkey₂ := (hkey.mono hholds.lt hu hdk).later (.of_keeps kept₂ _ _)
          obtain ⟨hholds₃, kept₃⟩ := hholds₁.put kept₂ hkey₂ hsettled hu₁ hdv
          obtain ⟨kept₄, hholds₄⟩ := settled_toGuestEntries natives r t rest _ hholds₃
            (Nat.le_trans hu₁ kept₃.users.size) hrest hdrest hg
          exact ⟨((KeepsBut.of_keeps kept₁ t).trans kept₃).trans kept₄, hholds₄⟩
        · cases hg
termination_by structural entries => entries

end

/-! ## Images -/

/-- What a host value is read as when it comes back from a guest at once. -/
def throughGuest (natives : Array NativeForm) (r : RuntimeRef) (h : Heap) (v : HostValue) :
    Except MarshalError HostValue :=
  match toGuest natives r v h with
  | (.ok g, h) => toHost h g
  | (.error e, _) => .error e

/-- One value is read as the other one when it comes back from a guest, in some state of it. -/
def IsImage (natives : Array NativeForm) (r : RuntimeRef) (v x : HostValue) : Prop :=
  ∃ h, throughGuest natives r h v = .ok x

section Scalars

variable (natives : Array NativeForm) (r : RuntimeRef) (h : Heap)

theorem throughGuest_bool (b : Bool) : throughGuest natives r h (.bool b) = .ok (.bool b) := by
  show toHostWithin h _ _ = _
  rw [toHostWithin]

theorem throughGuest_int (i : Int64) : throughGuest natives r h (.int i) = .ok (.int i) := by
  show toHostWithin h _ _ = _
  rw [toHostWithin]

theorem throughGuest_bytes (b : Bytes) :
    throughGuest natives r h (.bytes b) = .ok (HostValue.bytes b).normal := by
  show toHostWithin h _ (.str b) = _
  rw [toHostWithin, HostValue.normal]
  cases Utf8.decode? b <;> rfl

theorem throughGuest_text (s : String) : throughGuest natives r h (.text s) = .ok (.text s) := by
  have hbytes := throughGuest_bytes natives r h (Utf8.encode s)
  rwa [HostValue.normal, Utf8.decode?_encode] at hbytes

end Scalars

/-- A value has a guest form that can be read: no part of it converts itself, no pair in it is
without a key, and it is not too deep. -/
structure Survives (v : HostValue) : Prop where
  /-- No part converts itself. -/
  plain : v.isPlain = true
  /-- Every pair has a key. -/
  keyed : v.hasNilKey = false
  /-- It is not too deep. -/
  shallow : v.nesting ≤ maxDepth

/-- The guest forms of several values, one after the other, up to the first one that has none. -/
def listToGuest (natives : Array NativeForm) (r : RuntimeRef) :
    List HostValue → Heap → Except MarshalError (List Value) × Heap
  | [], h => (.ok [], h)
  | v :: rest, h =>
    match toGuest natives r v h with
    | (.error e, h) => (.error e, h)
    | (.ok g, h) =>
      match listToGuest natives r rest h with
      | (.error e, h) => (.error e, h)
      | (.ok gs, h) => (.ok (g :: gs), h)

/-- A value that survives has an image, which it is read as in every later state that agrees. -/
theorem exists_image {v : HostValue} (hv : Survives v) (natives : Array NativeForm)
    (r : RuntimeRef) (h : Heap) :
    ∃ g h' x, toGuest natives r v h = (.ok g, h') ∧ h.Keeps h' ∧ IsImage natives r v x ∧
      ∀ h'', AgreesFrom h.tables.size h.users.size h' h'' → toHost h'' g = .ok x := by
  obtain ⟨g, h', hg⟩ : ∃ g h', toGuest natives r v h = (.ok g, h') := by
    have hends := ends_toGuest natives r v h hv.plain
    rw [hv.keyed] at hends
    generalize toGuest natives r v h = x at hends ⊢
    cases hends with
    | ok g h' => exact ⟨g, h', rfl⟩
  obtain ⟨kept, hsettled⟩ := settled_toGuest natives r v h hv.plain hg
  obtain ⟨x, hx⟩ := (hsettled.mono (Nat.le_refl _) (Nat.le_refl _) hv.shallow).form
  refine ⟨g, h', x, hg, kept, ⟨h, ?_⟩, fun h'' a => (hsettled.same h'' a maxDepth).trans hx⟩
  rw [throughGuest, hg]
  exact hx

/-- Values that survive have images, and converted one after the other they are read as these. -/
theorem exists_images {vs : List HostValue} (hvs : ∀ v ∈ vs, Survives v)
    (natives : Array NativeForm) (r : RuntimeRef) (h : Heap) :
    ∃ gs h' xs, listToGuest natives r vs h = (.ok gs, h') ∧ h.Keeps h' ∧
      List.Forall₂ (IsImage natives r) vs xs ∧
      ∀ h'', AgreesFrom h.tables.size h.users.size h' h'' → listToHost h'' gs = .ok xs := by
  induction vs generalizing h with
  | nil => exact ⟨[], h, [], rfl, .refl h, .nil, fun _ _ => rfl⟩
  | cons v rest ih =>
    obtain ⟨g, h₁, x, hg, kept₁, himage, hread⟩ :=
      exists_image (hvs v List.mem_cons_self) natives r h
    obtain ⟨gs, h₂, xs, hgs, kept₂, himages, hreads⟩ :=
      ih (fun v' hv' => hvs v' (List.mem_cons_of_mem v hv')) h₁
    refine ⟨g :: gs, h₂, x :: xs, ?_, kept₁.trans kept₂, .cons himage himages, fun h'' a => ?_⟩
    · rw [listToGuest, hg]
      dsimp only
      rw [hgs]
    · -- the first value was converted before the others, the others after it
      have hfirst := hread h'' ((AgreesFrom.of_keeps kept₂ _ _).trans a)
      have hothers := hreads h'' (a.mono kept₁.tables.size kept₁.users.size)
      rw [listToHost] at hothers ⊢
      rw [List.mapM_cons, hfirst, hothers]
      rfl

end Marshal
end ScriptShell
