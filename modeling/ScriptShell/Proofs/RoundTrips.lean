import ScriptShell.Proofs.HeapGrowth
import ScriptShell.Proofs.NormalForms

/-! # To a guest and back

A host value that was converted for a guest is read back in its normal form
(`Marshal.toHost_toGuest`).  The guest's tables are filled slot by slot, each slot with a value
whose own tables come later in the heap, so that filling does not disturb what was converted before.
That is `ReadsAs`: what a value is read as, in every later heap that keeps the tables from some place
on.
`IsTableOf` relates a table to the map that was assigned to it so far; setting a slot is an
assignment (`IsTableOf.setSlot`), and a filled table is read as its map (`IsTableOf.readsAs`).
-/

namespace ScriptShell

open Guest

namespace Guest.Heap

/-- The later heap has the tables from `base` on and the objects of the host as they were. -/
structure KeepsFrom (base : Nat) (h h' : Heap) : Prop where
  /-- No table goes away. -/
  size : h.tables.size ≤ h'.tables.size
  /-- The tables from `base` on. -/
  table : ∀ t : TableRef, base ≤ t.id → t.id < h.tables.size → h'.table t = h.table t
  /-- The objects of the host. -/
  users : StartsWith h.users h'.users

namespace KeepsFrom

variable {base base' : Nat} {h h' h'' : Heap}

theorem refl (base : Nat) (h : Heap) : KeepsFrom base h h :=
  ⟨Nat.le_refl _, fun _ _ _ => rfl, .refl _⟩

theorem trans (k : KeepsFrom base h h') (k' : KeepsFrom base h' h'') : KeepsFrom base h h'' :=
  ⟨Nat.le_trans k.size k'.size,
    fun t hb hlt => (k'.table t hb (Nat.lt_of_lt_of_le hlt k.size)).trans (k.table t hb hlt),
    k.users.trans k'.users⟩

theorem mono (k : KeepsFrom base h h') (hb : base ≤ base') : KeepsFrom base' h h' :=
  ⟨k.size, fun t ht => k.table t (Nat.le_trans hb ht), k.users⟩

theorem of_keeps (k : Keeps h h') : KeepsFrom base h h' :=
  ⟨k.tables.size, fun _ _ hlt => k.table hlt, k.users⟩

/-- A change to a table in front of the kept ones does not count. -/
theorem of_keepsBut {into : TableRef} (k : KeepsBut into h h') (hb : into.id < base) :
    KeepsFrom base h h' := by
  refine ⟨k.size, fun t ht hlt => k.table (fun he => ?_) hlt, k.users⟩
  rw [he] at ht
  omega

end KeepsFrom
end Guest.Heap

open Guest.Heap

namespace Marshal

variable {base base' n : Nat} {h h' : Heap} {t : TableRef} {key key' : Key} {k k' x : HostValue}
  {g : Value} {m : HostMap}

/-! ## Keys -/

/-- The keys of guest tables that simple values become. -/
inductive IsKeyOf (h : Heap) : Key → HostValue → Prop
  /-- A truth value is itself. -/
  | bool (b : Bool) : IsKeyOf h (.bool b) (.bool b)
  /-- So is a number. -/
  | int (i : Int64) : IsKeyOf h (.int i) (.int i)
  /-- A string is a text if it can be one. -/
  | str (s : Bytes) : IsKeyOf h (.str s) (HostValue.bytes s).normal
  /-- A function is itself. -/
  | func (f : GuestFunction) : IsKeyOf h (.func f) (.callable f)
  /-- A handle is an object with that handle. -/
  | user {u : UserRef} {x : Handle} (hlt : u.id < h.users.size) (hu : h.user u = .handle x) :
    IsKeyOf h (.user u) (.handle x)

/-- The key that a simple value other than a handle becomes. -/
def keyOf? : HostValue → Option Key
  | .bool b => some (.bool b)
  | .int i => some (.int i)
  | .text s => some (.text s)
  | .bytes b => some (.str b)
  | .callable f => some (.func f)
  | _ => none

namespace IsKeyOf

theorem isSimple (hk : IsKeyOf h key k) : k.isSimple = true := by
  cases hk with
  | str s => exact HostValue.isSimple_normal rfl
  | _ => rfl

theorem text (h : Heap) (s : String) : IsKeyOf h (.text s) (.text s) := by
  have hs := IsKeyOf.str (h := h) (Utf8.encode s)
  rwa [HostValue.normal, Utf8.decode?_encode] at hs

theorem mono (hk : IsKeyOf h key k) (kept : StartsWith h.users h'.users) : IsKeyOf h' key k := by
  cases hk with
  | bool b => exact .bool b
  | int i => exact .int i
  | str s => exact .str s
  | func f => exact .func f
  | user hlt hu =>
    refine .user (Nat.lt_of_lt_of_le hlt kept.size) ?_
    rw [Heap.user, kept.get _ hlt]
    exact hu

/-- A key is read as the value that it stands for, in whatever depth. -/
theorem reads (hk : IsKeyOf h key k) (n : Nat) : toHostWithin h n key.toValue = .ok k := by
  cases hk with
  | str s =>
    rw [Key.toValue, toHostWithin, HostValue.normal]
    cases Utf8.decode? s <;> rfl
  | user _ hu => rw [Key.toValue, toHostWithin, hu]
  | _ => rw [Key.toValue, toHostWithin]

/-- A key stands for one value. -/
theorem value_unique (hk : IsKeyOf h key k) (hk' : IsKeyOf h key k') : k = k' :=
  Except.ok.inj ((hk.reads 0).symm.trans (hk'.reads 0))

/-- It is the one that the value becomes, unless it is an object. -/
theorem eq_keyOf? (hk : IsKeyOf h key k) (hh : ∀ x, k ≠ .handle x) : keyOf? k = some key := by
  cases hk with
  | str s =>
    rw [HostValue.normal]
    cases hs : Utf8.decode? s with
    | none => rfl
    | some t => exact congrArg (some <| Key.str ·) (Utf8.encode_of_decode? hs)
  | user _ _ => exact absurd rfl (hh _)
  | _ => rfl

/-- Two keys for one value are the same, unless they are objects with one handle. -/
theorem key_unique (hk : IsKeyOf h key k) (hk' : IsKeyOf h key' k) (hh : ∀ x, k ≠ .handle x) :
    key = key' :=
  Option.some.inj ((hk.eq_keyOf? hh).symm.trans (hk'.eq_keyOf? hh))

end IsKeyOf

/-- A simple value becomes a key, and nothing but an object is added to the heap. -/
theorem toGuest_of_isSimple (natives : Array NativeForm) (r : RuntimeRef) (hk : k.isSimple = true)
    (h : Heap) : ∃ key h', toGuest natives r k h = (.ok key.toValue, h') ∧ h.Keeps h' ∧
      IsKeyOf h' key k.normal := by
  cases k with
  | nil | function _ | seq _ | map _ | native _ => exact absurd hk Bool.false_ne_true
  | bool b => exact ⟨.bool b, h, rfl, .refl h, .bool b⟩
  | int i => exact ⟨.int i, h, rfl, .refl h, .int i⟩
  | text s => exact ⟨.text s, h, rfl, .refl h, .text h s⟩
  | error s => exact ⟨.text s, h, rfl, .refl h, .text h s⟩
  | bytes b => exact ⟨.str b, h, rfl, .refl h, .str b⟩
  | callable f => exact ⟨.func f, h, rfl, .refl h, .func f⟩
  | handle x =>
    refine ⟨.user (h.addUser (.handle x)).1, _, rfl, (Keeps.refl h).addUser _, .user ?_ ?_⟩
    · simp [addUser]
    · simp [addUser, Heap.user]

/-! ## What a value is read as -/

/-- In every later heap that keeps the tables from `base` on, the value is read as one that equals
`x`. -/
def ReadsAs (base : Nat) (h : Heap) (n : Nat) (g : Value) (x : HostValue) : Prop :=
  ∀ h', KeepsFrom base h h' → ∃ y, toHostWithin h' n g = .ok y ∧ (y == x) = true

theorem ReadsAs.mono (hr : ReadsAs base h n g x) (k : KeepsFrom base' h h') (hb : base' ≤ base) :
    ReadsAs base' h' n g x :=
  fun h'' k' => hr h'' ((k.trans k').mono hb)

theorem IsKeyOf.readsAs (hk : IsKeyOf h key k) (base n : Nat) :
    ReadsAs base h n key.toValue k := fun _ k' =>
  ⟨_, (hk.mono k'.users).reads n, (HostValue.beq_iff hk.isSimple k).2 rfl⟩

theorem readsAs_nil (base : Nat) (h : Heap) (n : Nat) : ReadsAs base h n .nil .nil :=
  fun h' _ => ⟨.nil, by rw [toHostWithin], rfl⟩

/-! ## Tables -/

/-- A table has what was assigned to a map, with its keys and values in their guest form. -/
structure IsTableOf (h : Heap) (t : TableRef) (n : Nat) (m : HostMap) : Prop where
  /-- The table exists. -/
  lt : t.id < h.tables.size
  /-- The keys of the map are simple and different. -/
  simple : m.IsSimple
  /-- Each of them has a value in the table. -/
  entry : ∀ k ∈ m.keys, ∃ key, IsKeyOf h key k ∧ (h.table t).get key ≠ .nil
  /-- Each value in the table is one of the map, under its key. -/
  pair : ∀ key, (h.table t).get key ≠ .nil →
    ∃ e ∈ m, IsKeyOf h key e.1 ∧ ReadsAs (t.id + 1) h n ((h.table t).get key) e.2

namespace IsTableOf

/-- A new table has what is assigned to an empty map. -/
theorem addTable (h : Heap) (n : Nat) : IsTableOf (h.addTable {}).2 (h.addTable {}).1 n [] := by
  have hget (key : Key) : ((h.addTable {}).2.table (h.addTable {}).1).get key = .nil := by
    rw [table_addTable, Heap.addTable, if_pos rfl, Table.get_empty]
  refine ⟨?_, HostMap.isSimple_nil, fun k hk => (List.not_mem_nil hk).elim, fun key hkey => ?_⟩
  · simp [Heap.addTable]
  · exact absurd (hget key) hkey

theorem mono (ht : IsTableOf h t n m) (k : KeepsFrom t.id h h') : IsTableOf h' t n m := by
  have htable := k.table t (Nat.le_refl _) ht.lt
  refine ⟨Nat.lt_of_lt_of_le ht.lt k.size, ht.simple, fun x hx => ?_, fun key hkey => ?_⟩
  · obtain ⟨key, hkey, hget⟩ := ht.entry x hx
    exact ⟨key, hkey.mono k.users, by rwa [htable]⟩
  · rw [htable] at hkey ⊢
    obtain ⟨e, he, hek, her⟩ := ht.pair key hkey
    exact ⟨e, he, hek.mono k.users, her.mono (k.mono (Nat.le_succ _)) (Nat.le_refl _)⟩

/-- Setting a slot is an assignment.  A handle becomes a new object each time, so it has to be a new
key of the map too. -/
theorem setSlot (ht : IsTableOf h t n m) (hk : IsKeyOf h key k)
    (hfresh : ∀ y, k = .handle y → k ∉ m.keys) (hr : ReadsAs (t.id + 1) h n g x)
    (hnil : g = .nil ↔ x = .nil) : IsTableOf (h.setSlot t key g) t n (m.assign k x) := by
  have kept : KeepsFrom (t.id + 1) h (h.setSlot t key g) :=
    .of_keepsBut (.setSlot h t key g) (Nat.lt_succ_self _)
  have hget (key' : Key) : ((h.setSlot t key g).table t).get key' =
      if key = key' then g else (h.table t).get key' := by
    rw [get_setSlot h ht.lt]
    simp
  refine ⟨?_, ht.simple.assign hk.isSimple x, fun k' hk' => ?_, fun key' hkey' => ?_⟩
  · rw [Heap.setSlot, size_modifyTable]
    exact ht.lt
  · obtain ⟨e, he, rfl⟩ := List.mem_map.1 hk'
    rcases (HostMap.mem_assign ht.simple k x).1 he with ⟨rfl, hx⟩ | ⟨he, hne⟩
    · refine ⟨key, hk.mono kept.users, ?_⟩
      rw [hget, if_pos rfl]
      exact mt hnil.1 hx
    · obtain ⟨key', hkey', hval⟩ := ht.entry e.1 (HostMap.mem_keys_of_mem he)
      refine ⟨key', hkey'.mono kept.users, ?_⟩
      rw [hget, if_neg (fun heq => hne ?_)]
      · exact hval
      · subst heq
        exact hkey'.value_unique hk
  · rw [hget] at hkey' ⊢
    by_cases heq : key = key'
    · subst heq
      rw [if_pos rfl] at hkey' ⊢
      exact ⟨(k, x), (HostMap.mem_assign ht.simple k x).2 (.inl ⟨rfl, mt hnil.2 hkey'⟩),
        hk.mono kept.users, hr.mono kept (Nat.le_refl _)⟩
    · -- another slot of the table is under another key of the map
      rw [if_neg heq] at hkey' ⊢
      obtain ⟨e, he, hek, her⟩ := ht.pair key' hkey'
      refine ⟨e, (HostMap.mem_assign ht.simple k x).2 (.inr ⟨he, fun hee => heq ?_⟩),
        hek.mono kept.users, her.mono kept (Nat.le_refl _)⟩
      rw [hee] at hek
      refine hk.key_unique hek fun y hy => ?_
      exact hfresh y hy (hee ▸ HostMap.mem_keys_of_mem he)

end IsTableOf

/-! ### Reading a table -/

/-- Each pair of a map has its key and an equal value in another map. -/
def Matches (m' m : HostMap) : Prop := ∀ e ∈ m', ∃ e' ∈ m, e'.1 = e.1 ∧ (e.2 == e'.2) = true

/-- Reading pairs that stand for pairs of a map gives a map with their keys, which matches it. -/
theorem exists_entries {m : HostMap} :
    ∀ (es : List (Key × Value)) (m' : HostMap), m'.IsSimple → Matches m' m →
      (∀ e ∈ es, ∃ e' ∈ m, IsKeyOf h e.1 e'.1 ∧
        ∃ y, toHostWithin h n e.2 = .ok y ∧ (y == e'.2) = true) →
      ∃ m'', toHostWithin.entries h n m' es = .ok m'' ∧ m''.IsSimple ∧ Matches m'' m ∧
        (∀ k ∈ m'.keys, k ∈ m''.keys) ∧ ∀ e ∈ es, ∀ k, IsKeyOf h e.1 k → k ∈ m''.keys
  | [], m', hs, hm, _ =>
    ⟨m', by rw [toHostWithin.entries], hs, hm, fun _ => id, fun _ he => (List.not_mem_nil he).elim⟩
  | (key, g) :: rest, m', hs, hm, hes => by
    obtain ⟨⟨k, x⟩, he', hk, y, hy, heq⟩ := hes (key, g) (List.mem_cons_self ..)
    -- a later pair with the same key takes the place of an earlier one, and matches as well
    have hinsert : Matches (m'.insert k y) m := by
      intro e he
      rcases (HostMap.mem_insert hs k y).1 he with rfl | ⟨he, -⟩
      · exact ⟨(k, x), he', rfl, heq⟩
      · exact hm e he
    obtain ⟨m'', hm'', hs'', hmatch, hkeys, hrest⟩ := exists_entries rest _
      (hs.insert hk.isSimple y) hinsert fun e he => hes e (List.mem_cons_of_mem _ he)
    have hmem : k ∈ m''.keys :=
      hkeys k (HostMap.mem_keys_of_mem ((HostMap.mem_insert hs k y).2 (.inl rfl)))
    refine ⟨m'', ?_, hs'', hmatch, fun k' hk' => ?_, fun e he k' hk' => ?_⟩
    · rw [toHostWithin.entries, hk.reads n]
      dsimp only
      rw [hy]
      exact hm''
    · obtain ⟨e, he, rfl⟩ := List.mem_map.1 hk'
      by_cases hek : e.1 = k
      · rw [hek]
        exact hmem
      · exact hkeys e.1 (HostMap.mem_keys_of_mem ((HostMap.mem_insert hs k y).2 (.inr ⟨he, hek⟩)))
    · rcases List.mem_cons.1 he with rfl | he
      · rw [hk'.value_unique hk]
        exact hmem
      · exact hrest e he k' hk'

/-- A table that has what was assigned to a map is read as that map. -/
theorem IsTableOf.readsAs (ht : IsTableOf h t n m) :
    ReadsAs t.id h (n + 1) (.table t) (.map m) := by
  intro h' kept
  have ht' := ht.mono kept
  have hpairs : ∀ e ∈ (h'.table t).enumerate, ∃ e' ∈ m, IsKeyOf h' e.1 e'.1 ∧
      ∃ y, toHostWithin h' n e.2 = .ok y ∧ (y == e'.2) = true := by
    rintro ⟨key, g⟩ he
    obtain ⟨rfl, hg⟩ := Table.mem_enumerate.1 he
    obtain ⟨e', he', hk, hr⟩ := ht'.pair key hg
    exact ⟨e', he', hk, hr h' (.refl _ h')⟩
  obtain ⟨m', hm', hs, hmatch, -, hkeys⟩ := exists_entries (h'.table t).enumerate []
    HostMap.isSimple_nil (fun _ he => (List.not_mem_nil he).elim) hpairs
  refine ⟨.map m', ?_, HostMap.beq_of_keys hs ht.simple hmatch fun e' he' => ?_⟩
  · rw [toHostWithin, hm']
    rfl
  · obtain ⟨key, hk, hg⟩ := ht'.entry e'.1 (HostMap.mem_keys_of_mem he')
    exact hkeys _ (Table.mem_enumerate.2 ⟨rfl, hg⟩) _ hk

/-! ## Values -/

variable {natives : Array NativeForm} {r : RuntimeRef}

/-- What is a value, and does not convert itself, becomes one that can be a key. -/
theorem key_of_toGuest {v : HostValue} (hv : ∀ o, v ≠ .native o) (hne : v ≠ .nil)
    (hg : (toGuest natives r v h).1 = .ok g) : ∃ key : Key, g = key.toValue := by
  cases v with
  | nil => exact absurd rfl hne
  | native o => exact absurd rfl (hv o)
  | bool b => exact ⟨.bool b, (Except.ok.inj hg).symm⟩
  | int i => exact ⟨.int i, (Except.ok.inj hg).symm⟩
  | text s => exact ⟨.text s, (Except.ok.inj hg).symm⟩
  | error s => exact ⟨.text s, (Except.ok.inj hg).symm⟩
  | bytes b => exact ⟨.str b, (Except.ok.inj hg).symm⟩
  | callable f => exact ⟨.func f, (Except.ok.inj hg).symm⟩
  | handle x => exact ⟨.user _, (Except.ok.inj hg).symm⟩
  | function f => exact ⟨.func _, (Except.ok.inj hg).symm⟩
  | seq items | map entries =>
    refine ⟨.table (h.addTable {}).1, ?_⟩
    unfold toGuest at hg
    dsimp only at hg
    split at hg
    · exact (Except.ok.inj hg).symm
    · cases hg

/-- Only no value becomes `nil`. -/
theorem toGuest_eq_nil {v : HostValue} (hv : ∀ o, v ≠ .native o)
    (hg : (toGuest natives r v h).1 = .ok g) : g = .nil ↔ v = .nil := by
  constructor
  · rintro rfl
    by_contra hne
    obtain ⟨key, hkey⟩ := key_of_toGuest hv hne hg
    cases key <;> cases hkey
  · rintro rfl
    exact (Except.ok.inj hg).symm

/-- Converting a value and then setting a slot to it assigns it to the map of the table. -/
theorem IsTableOf.put (ht : IsTableOf h t n m) (kept : h.Keeps h') (hk : IsKeyOf h' key k)
    (hfresh : ∀ y, k = .handle y → k ∉ m.keys) (hr : ReadsAs h.tables.size h' n g x)
    (hnil : g = .nil ↔ x = .nil) :
    IsTableOf (h'.setSlot t key g) t n (m.assign k x) ∧ h.KeepsBut t (h'.setSlot t key g) :=
  ⟨(ht.mono (.of_keeps kept)).setSlot hk hfresh (hr.mono (.refl _ _) ht.lt) hnil,
    (KeepsBut.of_keeps kept t).trans (.setSlot ..)⟩

open HostValue

theorem ne_native_of_crosses {v : HostValue} (hv : v.crosses = true) : ∀ o, v ≠ .native o := by
  rintro o rfl
  exact Bool.false_ne_true hv

theorem exists_toGuest_of_isSimple (natives : Array NativeForm) (r : RuntimeRef) (k : HostValue)
    (hk : k.isSimple = true) (h : Heap) (n : Nat) :
    ∃ g h', toGuest natives r k h = (.ok g, h') ∧ h.Keeps h' ∧
      ReadsAs h.tables.size h' n g k.normal := by
  obtain ⟨key, h', hg, kept, hkey⟩ := toGuest_of_isSimple natives r hk h
  exact ⟨_, h', hg, kept, hkey.readsAs h.tables.size n⟩

mutual

/-- What crosses is converted, and read as its normal form if that is not too deep. -/
theorem exists_toGuest (natives : Array NativeForm) (r : RuntimeRef) :
    ∀ (v : HostValue) (h : Heap) (n : Nat), v.crosses = true → v.nesting ≤ n →
      ∃ g h', toGuest natives r v h = (.ok g, h') ∧ h.Keeps h' ∧
        ReadsAs h.tables.size h' n g v.normal
  | .nil, h, n, _, _ => ⟨.nil, h, rfl, .refl h, readsAs_nil h.tables.size h n⟩
  | .bool b, h, n, _, _ => exists_toGuest_of_isSimple natives r (.bool b) rfl h n
  | .int i, h, n, _, _ => exists_toGuest_of_isSimple natives r (.int i) rfl h n
  | .text s, h, n, _, _ => exists_toGuest_of_isSimple natives r (.text s) rfl h n
  | .error s, h, n, _, _ => exists_toGuest_of_isSimple natives r (.error s) rfl h n
  | .bytes b, h, n, _, _ => exists_toGuest_of_isSimple natives r (.bytes b) rfl h n
  | .handle x, h, n, _, _ => exists_toGuest_of_isSimple natives r (.handle x) rfl h n
  | .callable f, h, n, _, _ => exists_toGuest_of_isSimple natives r (.callable f) rfl h n
  | .function _, _, _, hv, _ | .native _, _, _, hv, _ => absurd hv Bool.false_ne_true
  | .seq items, h, n + 1, hv, hn => by
    obtain ⟨h', hg, kept, ht⟩ := exists_toGuestItems natives r (h.addTable {}).1 1 items _ n []
      (.addTable h n) hv (Nat.le_of_succ_le_succ hn)
    refine ⟨.table (h.addTable {}).1, h', ?_, ?_, ht.readsAs⟩
    · unfold toGuest
      dsimp only
      rw [hg]
    · exact kept.keeps ((Keeps.refl h).addTable _) (Nat.le_refl _)
  | .map entries, h, n + 1, hv, hn => by
    obtain ⟨h', hg, kept, ht⟩ := exists_toGuestEntries natives r (h.addTable {}).1 entries _ n []
      (.addTable h n) hv (Nat.le_of_succ_le_succ hn) fun _ _ _ _ => List.not_mem_nil
    refine ⟨.table (h.addTable {}).1, h', ?_, ?_, ht.readsAs⟩
    · unfold toGuest
      dsimp only
      rw [hg]
    · exact kept.keeps ((Keeps.refl h).addTable _) (Nat.le_refl _)
  | .seq _, _, 0, _, hn | .map _, _, 0, _, hn => absurd hn (Nat.not_succ_le_zero _)
termination_by structural v => v

/-- Items are assigned to a table, position by position. -/
theorem exists_toGuestItems (natives : Array NativeForm) (r : RuntimeRef) (t : TableRef) (p : Nat) :
    ∀ (items : List HostValue) (h : Heap) (n : Nat) (m : HostMap), IsTableOf h t n m →
      crossItems items = true → nestingItems items ≤ n →
      ∃ h', toGuestItems natives r t p items h = (.ok (), h') ∧ h.KeepsBut t h' ∧
        IsTableOf h' t n (normalItems p m items)
  | [], h, n, m, ht, _, _ => ⟨h, rfl, .of_keeps (.refl h) t, ht⟩
  | v :: rest, h, n, m, ht, hv, hn => by
    obtain ⟨hv, hrest⟩ := Bool.and_eq_true_iff.1 hv
    obtain ⟨hnv, hnrest⟩ := Nat.max_le.1 hn
    obtain ⟨g, h₁, hg, kept₁, hr⟩ := exists_toGuest natives r v h n hv hnv
    have hnil := toGuest_eq_nil (ne_native_of_crosses hv) (congrArg Prod.fst hg)
    obtain ⟨ht₂, kept₂⟩ := ht.put kept₁ (.int (Int64.ofNat p)) (fun _ hy => nomatch hy) hr
      (hnil.trans normal_eq_nil.symm)
    obtain ⟨h₃, hg₃, kept₃, ht₃⟩ :=
      exists_toGuestItems natives r t (p + 1) rest _ n _ ht₂ hrest hnrest
    refine ⟨h₃, ?_, kept₂.trans kept₃, ht₃⟩
    rw [toGuestItems, hg]
    exact hg₃
termination_by structural items => items

/-- Pairs are assigned to a table, in their order. -/
theorem exists_toGuestEntries (natives : Array NativeForm) (r : RuntimeRef) (t : TableRef) :
    ∀ (entries : List (HostValue × HostValue)) (h : Heap) (n : Nat) (m : HostMap),
      IsTableOf h t n m → crossEntries entries = true → nestingEntries entries ≤ n →
      (∀ e ∈ entries, ∀ x, e.1 = .handle x → e.1 ∉ m.keys) →
      ∃ h', toGuestEntries natives r t entries h = (.ok (), h') ∧ h.KeepsBut t h' ∧
        IsTableOf h' t n (normalEntries m entries)
  | [], h, n, m, ht, _, _, _ => ⟨h, rfl, .of_keeps (.refl h) t, ht⟩
  | (k, v) :: rest, h, n, m, ht, he, hn, hfresh => by
    obtain ⟨⟨⟨hk, hother⟩, hv⟩, hrest⟩ : ((k.isSimple = true ∧
        (rest.all fun e => !(e.1 == k)) = true) ∧ v.crosses = true) ∧ crossEntries rest = true := by
      simpa only [crossEntries, Bool.and_eq_true] using he
    obtain ⟨⟨-, hnv⟩, hnrest⟩ := (Nat.max_le.1 hn).imp_left Nat.max_le.1
    obtain ⟨key, h₁, hg, kept₁, hkey⟩ := toGuest_of_isSimple natives r hk h
    obtain ⟨g, h₂, hg₂, kept₂, hr⟩ := exists_toGuest natives r v h₁ n hv hnv
    have hnil := toGuest_eq_nil (ne_native_of_crosses hv) (congrArg Prod.fst hg₂)
    -- a handle becomes a new object each time, so that a second pair would not replace the first
    have hnew : ∀ x, k.normal = .handle x → k.normal ∉ m.keys := by
      intro x hx
      have hkx := eq_of_normal_handle hx
      rw [hx, ← hkx]
      exact hfresh (k, v) (List.mem_cons_self ..) x hkx
    obtain ⟨ht₃, kept₃⟩ := (ht.mono (.of_keeps kept₁)).put kept₂ (hkey.mono kept₂.users) hnew hr
      (hnil.trans normal_eq_nil.symm)
    -- no later key is this handle either, as the keys of a map are different
    have hfresh₃ : ∀ e ∈ rest, ∀ x, e.1 = .handle x →
        e.1 ∉ (m.assign k.normal v.normal).keys := by
      intro e he x hx hmem
      obtain ⟨e', he', hkey'⟩ := List.mem_map.1 hmem
      rcases (HostMap.mem_assign ht.simple k.normal v.normal).1 he' with ⟨rfl, -⟩ | ⟨he', -⟩
      · have hke : k = e.1 := (eq_of_normal_handle (hkey'.trans hx)).trans hx.symm
        have hne := List.all_eq_true.1 hother e he
        rw [← hke, (beq_iff hk k).2 rfl] at hne
        cases hne
      · exact hfresh e (List.mem_cons_of_mem _ he) x hx (hkey' ▸ HostMap.mem_keys_of_mem he')
    obtain ⟨h₄, hg₄, kept₄, ht₄⟩ :=
      exists_toGuestEntries natives r t rest _ n _ ht₃ hrest hnrest hfresh₃
    refine ⟨h₄, ?_, ((KeepsBut.of_keeps kept₁ t).trans kept₃).trans kept₄, ht₄⟩
    rw [toGuestEntries, hg]
    dsimp only
    rw [Key.ofValue_toValue]
    dsimp only
    rw [hg₂]
    exact hg₄
termination_by structural entries => entries

end

/-! ## Keys without a value -/

/-- How a conversion ends: it fails for want of a key, or it succeeds. -/
inductive Ends {α : Type} : Bool → Except MarshalError α × Heap → Prop
  /-- A key is missing. -/
  | nilKey (h : Heap) : Ends true (.error .nilKey, h)
  /-- No key is. -/
  | ok (a : α) (h : Heap) : Ends false (.ok a, h)

mutual

/-- A value without parts that convert themselves is converted, unless a map in it has a pair
without a key. -/
theorem ends_toGuest (natives : Array NativeForm) (r : RuntimeRef) :
    ∀ (v : HostValue) (h : Heap), v.isPlain = true →
      Ends v.hasNilKey (toGuest natives r v h)
  | .nil, _, _ | .bool _, _, _ | .int _, _, _ | .text _, _, _ | .error _, _, _ | .bytes _, _, _
  | .handle _, _, _ | .callable _, _, _ | .function _, _, _ => .ok _ _
  | .native _, _, hv => absurd hv Bool.false_ne_true
  | .seq items, h, hv => by
    have hitems := ends_toGuestItems natives r (h.addTable {}).1 1 items (h.addTable {}).2 hv
    rw [hasNilKey, toGuest]
    dsimp only
    generalize toGuestItems natives r _ 1 items _ = x at hitems ⊢
    generalize nilKeyInItems items = b at hitems ⊢
    cases hitems with
    | nilKey h' => exact .nilKey h'
    | ok _ h' => exact .ok _ h'
  | .map entries, h, hv => by
    have hentries := ends_toGuestEntries natives r (h.addTable {}).1 entries (h.addTable {}).2 hv
    rw [hasNilKey, toGuest]
    dsimp only
    generalize toGuestEntries natives r _ entries _ = x at hentries ⊢
    generalize nilKeyInEntries entries = b at hentries ⊢
    cases hentries with
    | nilKey h' => exact .nilKey h'
    | ok _ h' => exact .ok _ h'
termination_by structural v => v

theorem ends_toGuestItems (natives : Array NativeForm) (r : RuntimeRef) (t : TableRef) (p : Nat) :
    ∀ (items : List HostValue) (h : Heap), plainItems items = true →
      Ends (nilKeyInItems items) (toGuestItems natives r t p items h)
  | [], h, _ => .ok () h
  | v :: rest, h, hv => by
    obtain ⟨hv, hrest⟩ := Bool.and_eq_true_iff.1 hv
    have hthis := ends_toGuest natives r v h hv
    have hother := fun h' => ends_toGuestItems natives r t (p + 1) rest h' hrest
    rw [nilKeyInItems, toGuestItems]
    generalize toGuest natives r v h = x at hthis ⊢
    generalize v.hasNilKey = b at hthis ⊢
    cases hthis with
    | nilKey h' => exact .nilKey h'
    | ok g h' => exact hother _
termination_by structural items => items

theorem ends_toGuestEntries (natives : Array NativeForm) (r : RuntimeRef) (t : TableRef) :
    ∀ (entries : List (HostValue × HostValue)) (h : Heap), plainEntries entries = true →
      Ends (nilKeyInEntries entries) (toGuestEntries natives r t entries h)
  | [], h, _ => .ok () h
  | (k, v) :: rest, h, he => by
    obtain ⟨⟨hk, hv⟩, hrest⟩ :
        (k.isPlain = true ∧ v.isPlain = true) ∧ plainEntries rest = true := by
      simpa only [plainEntries, Bool.and_eq_true] using he
    have hkey := ends_toGuest natives r k h hk
    have hval := fun h' => ends_toGuest natives r v h' hv
    have hother := fun h' => ends_toGuestEntries natives r t rest h' hrest
    rw [nilKeyInEntries, toGuestEntries]
    by_cases hnil : k = .nil
    · subst hnil
      exact .nilKey h
    have hform : ∀ g, (toGuest natives r k h).1 = .ok g → ∃ key : Key, g = key.toValue := by
      refine fun g => key_of_toGuest (fun o ho => ?_) hnil
      rw [ho] at hk
      cases hk
    rw [Bool.eq_false_iff.2 (mt isNil_iff.1 hnil), Bool.false_or]
    generalize toGuest natives r k h = x at hkey hform ⊢
    generalize k.hasNilKey = b at hkey ⊢
    cases hkey with
    | nilKey h₁ => exact .nilKey h₁
    | ok g h₁ =>
      obtain ⟨key, rfl⟩ := hform g rfl
      specialize hval h₁
      dsimp only
      rw [Key.ofValue_toValue, Bool.false_or]
      dsimp only
      generalize toGuest natives r v h₁ = y at hval ⊢
      generalize v.hasNilKey = c at hval ⊢
      cases hval with
      | nilKey h₂ => exact .nilKey h₂
      | ok g' h₂ => exact hother _
termination_by structural entries => entries

end

/-! ## The round trip -/

/-- **Host values and their guest forms.**  A value without parts that convert themselves is
converted exactly if no map in it has a pair without a key.  One that consists of what has a host
form again, not too deep, comes back equal to its normal form; a map with text keys and a value for
each of them keeps its keys. -/
theorem toHost_toGuest (natives : Array NativeForm) (r : RuntimeRef) (v : HostValue) (h : Heap) :
    (v.isPlain = true →
      (v.hasNilKey = true → ∃ h', toGuest natives r v h = (.error .nilKey, h')) ∧
      (v.hasNilKey = false → ∃ g h', toGuest natives r v h = (.ok g, h'))) ∧
    (v.crosses = true → v.nesting ≤ maxDepth →
      ∃ g h' x, toGuest natives r v h = (.ok g, h') ∧ toHost h' g = .ok x ∧
        (x == v.normal) = true ∧
        ∀ entries, v = .map entries → (∀ e ∈ entries, ∃ s, e.1 = .text s) →
          (∀ e ∈ entries, e.2 ≠ .nil) →
          (x == .map (entries.map fun e => (e.1, e.2.normal))) = true) := by
  refine ⟨fun hv => ?_, fun hv hn => ?_⟩
  · have hends := ends_toGuest natives r v h hv
    generalize toGuest natives r v h = x at hends ⊢
    generalize v.hasNilKey = b at hends ⊢
    cases hends with
    | nilKey h' => exact ⟨fun _ => ⟨h', rfl⟩, fun hb => absurd hb.symm Bool.false_ne_true⟩
    | ok g h' => exact ⟨fun hb => absurd hb Bool.false_ne_true, fun _ => ⟨g, h', rfl⟩⟩
  · obtain ⟨g, h', hg, -, hr⟩ := exists_toGuest natives r v h maxDepth hv hn
    obtain ⟨x, hx, heq⟩ := hr h' (.refl _ h')
    refine ⟨g, h', x, hg, hx, heq, ?_⟩
    rintro entries rfl htext hval
    rwa [← normal_map hv htext hval]

/-- A map of texts to a sequence with a gap and to bytes that are no text comes back with the gap
left out; under one more pair, without a key, it does not become a guest value at all. -/
theorem map_with_gap_round_trip :
    (∃ h', toGuest #[] ⟨0⟩ (.seq [.map [(.nil, .bool true)], .int 1]) {} = (.error .nilKey, h')) ∧
    (∃ g h', toGuest #[] ⟨0⟩ (.seq [.map [(.text "a", .bool true)], .int 1]) {} = (.ok g, h')) ∧
    ∃ g h' x, toGuest #[] ⟨0⟩
        (.map [(.text "a", .seq [.int 1, .nil, .error "x"]), (.text "b", .handle ⟨7⟩)]) {} =
          (.ok g, h') ∧
      toHost h' g = .ok x ∧
      (x == .map [(.text "a", .map [(.int 1, .int 1), (.int 3, .text "x")]),
        (.text "b", .handle ⟨7⟩)]) = true := by
  refine ⟨?_, ?_, ?_⟩
  · exact ((toHost_toGuest #[] ⟨0⟩ (.seq [.map [(.nil, .bool true)], .int 1]) {}).1 rfl).1 rfl
  · exact ((toHost_toGuest #[] ⟨0⟩ (.seq [.map [(.text "a", .bool true)], .int 1]) {}).1 rfl).2 rfl
  · obtain ⟨g, h', x, hg, hx, -, htext⟩ := (toHost_toGuest #[] ⟨0⟩
      (.map [(.text "a", .seq [.int 1, .nil, .error "x"]), (.text "b", .handle ⟨7⟩)]) {}).2
        (by decide) (by decide)
    exact ⟨g, h', x, hg, hx, htext _ rfl (by simp) (by simp)⟩

end Marshal
end ScriptShell
