import ScriptShell.Proofs.RoundTrips
import ScriptShell.Proofs.TableEntries

/-! # To the host and back

What came to the host from a guest can always go back (`Marshal.isPlain_form`,
`Marshal.hasNilKey_form`): nothing on the guest's side converts itself, and no key of a table is
`nil`.  What consists of simple values in tables with simple keys comes back as a tree of the same
shape (`Marshal.toGuest_toHost`).  Its keys keep apart on the way (`keysDiffer_of_isPlain`), so that
each pair of the map is one pair of the original; filling the new table makes one slot after the
other like the original's (`fill_entries`), and what was filled stays so, as the tables of later
values come later in the heap.
-/

namespace ScriptShell.Marshal

open Guest Guest.Heap HostValue

variable {h h' : Heap} {n : Nat} {t t' : TableRef} {v g : Value} {x y : HostValue} {k k' : Key}
  {natives : Array NativeForm} {r : RuntimeRef}

/-! ## What comes from a guest can go back -/

theorem plainEntries_iff {m : HostMap} :
    plainEntries m = true ↔ m.Within fun v => v.isPlain = true := by
  induction m with
  | nil => simp [plainEntries, HostMap.Within]
  | cons e rest ih =>
    rw [plainEntries, Bool.and_eq_true, Bool.and_eq_true, ih, HostMap.Within, HostMap.Within,
      List.forall_mem_cons]

theorem nilKeyInEntries_eq_false {m : HostMap} :
    nilKeyInEntries m = false ↔
      (∀ e ∈ m, e.1 ≠ .nil) ∧ m.Within fun v => v.hasNilKey = false := by
  induction m with
  | nil => simp [nilKeyInEntries, HostMap.Within]
  | cons e rest ih =>
    rw [nilKeyInEntries, Bool.or_eq_false_iff, Bool.or_eq_false_iff, Bool.or_eq_false_iff, ih,
      HostMap.Within, HostMap.Within, List.forall_mem_cons, List.forall_mem_cons,
      ← Bool.not_eq_true (isNil _), HostValue.isNil_iff]
    tauto

/-- Nothing of a guest converts itself. -/
theorem isPlain_form (hx : toHostWithin h n v = .ok x) : x.isPlain = true := by
  refine form_induction (P := fun _ _ x => x.isPlain = true) (fun n v x hv hx => ?_)
    (fun n t ps hps ih => ?_) hx
  · exact (form_of_ne_table hv hx).2
  · refine plainEntries_iff.2 (HostMap.within_ofPairs fun p hp => ?_)
    obtain ⟨e, -, hform⟩ := exists_source hps hp
    exact ⟨ih _ _ hform.key, ih _ _ hform.value⟩

theorem form_key_ne_nil (hx : toHostWithin h n k.toValue = .ok x) : x ≠ .nil := by
  rintro rfl
  cases k with
  | table t =>
    cases n with
    | zero =>
      rw [Key.toValue, toHostWithin_table_zero] at hx
      cases hx
    | succ n =>
      obtain ⟨ps, -, hnil⟩ := toHostWithin_table_eq_ok.1 hx
      cases hnil
  | str s =>
    rw [Key.toValue, toHostWithin] at hx
    split at hx <;> cases hx
  | user u =>
    rw [Key.toValue, toHostWithin] at hx
    split at hx <;> cases hx
  | _ =>
    rw [Key.toValue, toHostWithin] at hx
    cases hx

/-- No table of a guest has a key that is no value. -/
theorem hasNilKey_form (hx : toHostWithin h n v = .ok x) : x.hasNilKey = false := by
  refine form_induction (P := fun _ _ x => x.hasNilKey = false) (fun n v x hv hx => ?_)
    (fun n t ps hps ih => ?_) hx
  · have hleaf := (form_of_ne_table hv hx).1
    cases x with
    | seq _ | map _ => simp [nesting] at hleaf
    | _ => rfl
  · refine nilKeyInEntries_eq_false.2 ⟨fun e he => ?_, HostMap.within_ofPairs fun p hp => ?_⟩
    · obtain ⟨⟨p, hp, hkey⟩, -⟩ := HostMap.mem_of_mem_ofPairs he
      obtain ⟨e', -, hform⟩ := exists_source hps hp
      rw [hkey]
      exact form_key_ne_nil hform.key
    · obtain ⟨e, -, hform⟩ := exists_source hps hp
      exact ⟨ih _ _ hform.key, ih _ _ hform.value⟩

/-! ## Trees -/

/-- Whether a key is a truth value, an integer or a string. -/
def isPlainKey : Key → Bool
  | .bool _ | .int _ | .str _ => true
  | _ => false

/-- What consists of truth values, integers and strings, in tables with such keys that do not lead
back to themselves. -/
inductive IsTree (h : Heap) : Value → Prop
  /-- No value. -/
  | nil : IsTree h .nil
  /-- A truth value. -/
  | bool (b : Bool) : IsTree h (.bool b)
  /-- An integer. -/
  | int (i : Int64) : IsTree h (.int i)
  /-- A string. -/
  | str (s : Bytes) : IsTree h (.str s)
  /-- A table of such values. -/
  | table {t : TableRef} (hk : ∀ k, (h.table t).get k ≠ .nil → isPlainKey k = true)
    (hv : ∀ k, IsTree h ((h.table t).get k)) : IsTree h (.table t)

/-- A table is a tree if its pairs are. -/
theorem isTree_of_pairs
    (hp : ∀ p ∈ (h.table t).pairs, isPlainKey p.1 = true ∧ IsTree h p.2) : IsTree h (.table t) := by
  refine .table (fun k hk => (hp (k, _) (Table.mem_pairs.2 ⟨rfl, hk⟩)).1) fun k => ?_
  by_cases hk : (h.table t).get k = .nil
  · rw [hk]
    exact .nil
  · exact (hp (k, _) (Table.mem_pairs.2 ⟨rfl, hk⟩)).2

/-- A value in one heap has the same structure as one in another: it is the same, or both are tables
that have under each key values of the same structure, or none. -/
inductive SameShape (h h' : Heap) : Value → Value → Prop
  /-- No value. -/
  | nil : SameShape h h' .nil .nil
  /-- One truth value. -/
  | bool (b : Bool) : SameShape h h' (.bool b) (.bool b)
  /-- One integer. -/
  | int (i : Int64) : SameShape h h' (.int i) (.int i)
  /-- Strings with the same bytes. -/
  | str (s : Bytes) : SameShape h h' (.str s) (.str s)
  /-- Tables that are alike under each key. -/
  | table {t t' : TableRef}
    (hv : ∀ k, SameShape h h' ((h.table t).get k) ((h'.table t').get k)) :
    SameShape h h' (.table t) (.table t')

/-! ## Keys -/

/-- A host value becomes a key, with nothing new in the heap. -/
def IsKeyBack (natives : Array NativeForm) (r : RuntimeRef) (x : HostValue) (k : Key) : Prop :=
  ∀ h, toGuest natives r x h = (.ok k.toValue, h)

theorem IsKeyBack.unique (hk : IsKeyBack natives r x k) (hk' : IsKeyBack natives r x k') :
    k = k' := by
  have heq := Except.ok.inj (congrArg Prod.fst ((hk {}).symm.trans (hk' {})))
  have hkey := congrArg Key.ofValue heq
  rw [Key.ofValue_toValue, Key.ofValue_toValue] at hkey
  exact Except.ok.inj hkey

/-- A string comes back with all its bytes. -/
theorem toGuest_form_str {s : Bytes} (hx : toHostWithin h n (.str s) = .ok x) (h₁ : Heap) :
    toGuest natives r x h₁ = (.ok (.str s), h₁) := by
  rw [toHostWithin] at hx
  split at hx
  · next s' hs =>
    cases hx
    rw [toGuest, Value.text, Utf8.encode_of_decode? hs]
  · cases hx
    rw [toGuest]

theorem isKeyBack_form (natives : Array NativeForm) (r : RuntimeRef) (hk : isPlainKey k = true)
    (hx : toHostWithin h n k.toValue = .ok x) : IsKeyBack natives r x k := by
  intro h₁
  cases k with
  | str s => exact toGuest_form_str hx h₁
  | bool b | int i =>
    rw [Key.toValue, toHostWithin] at hx
    cases hx
    rfl
  | _ => cases hk

theorem nesting_form_of_isPlainKey (hk : isPlainKey k = true)
    (hx : toHostWithin h n k.toValue = .ok x) : x.nesting = 0 := by
  refine (form_of_ne_table (fun t ht => ?_) hx).1
  cases k with
  | table _ => cases hk
  | _ => cases ht

/-- Plain keys have different forms. -/
theorem keysDiffer_of_isPlain (hk : ∀ k, (h.table t).get k ≠ .nil → isPlainKey k = true) :
    KeysDiffer h t := by
  intro k k' x x' hne hne' hx hx' heq
  obtain rfl := eq_of_beq_leaf (nesting_form_of_isPlainKey (hk k hne) hx) heq
  exact (isKeyBack_form #[] ⟨0⟩ (hk k hne) hx).unique (isKeyBack_form #[] ⟨0⟩ (hk k' hne') hx')

/-! ## Filling a table -/

/-- A host value becomes a guest value of the same shape as `v`, with its tables behind all that were
there. -/
def ComesBack (natives : Array NativeForm) (r : RuntimeRef) (h : Heap) (v : Value) (x : HostValue) :
    Prop :=
  ∀ h₁, ∃ g h₂, toGuest natives r x h₁ = (.ok g, h₂) ∧ h₁.Keeps h₂ ∧
    ∀ h₃, KeepsFrom h₁.tables.size h₂ h₃ → SameShape h h₃ v g

/-- A slot of the new table is like the original's, and stays so while only tables up to the new one
change. -/
def IsFilled (h : Heap) (t : TableRef) (h₁ : Heap) (t' : TableRef) (k : Key) : Prop :=
  ∀ h₃, KeepsFrom (t'.id + 1) h₁ h₃ →
    SameShape h h₃ ((h.table t).get k) ((h₁.table t').get k)

theorem IsFilled.setSlot {h₁ h₂ : Heap} (hf : IsFilled h t h₁ t' k') (ht' : t'.id < h₁.tables.size)
    (kept : h₁.Keeps h₂) (hne : k ≠ k') (g : Value) : IsFilled h t (h₂.setSlot t' k g) t' k' := by
  intro h₃ kept'
  rw [get_setSlot_of_ne h₂ t' hne, kept.table ht']
  have hset : KeepsFrom (t'.id + 1) h₂ (h₂.setSlot t' k g) :=
    .of_keepsBut (.setSlot h₂ t' k g) (Nat.lt_succ_self _)
  exact hf h₃ (((KeepsFrom.of_keeps kept).trans hset).trans kept')

/-- Filling a table from the pairs that its original became makes each slot like the original's: those
that were so before stay so, and the others get their turn. -/
theorem fill_entries {es : List (HostValue × HostValue)} {h₁ : Heap}
    (hes : ∀ e ∈ es, ∃ k, IsKeyBack natives r e.1 k ∧
      ComesBack natives r h ((h.table t).get k) e.2)
    (ht' : t'.id < h₁.tables.size)
    (hfill : ∀ k, IsFilled h t h₁ t' k ∨ ∃ e ∈ es, IsKeyBack natives r e.1 k) :
    ∃ h₂, toGuestEntries natives r t' es h₁ = (.ok (), h₂) ∧ h₁.KeepsBut t' h₂ ∧
      ∀ k, IsFilled h t h₂ t' k := by
  induction es generalizing h₁ with
  | nil =>
    refine ⟨h₁, rfl, .of_keeps (.refl h₁) t', fun k => ?_⟩
    obtain hf | ⟨e, he, -⟩ := hfill k
    · exact hf
    · cases he
  | cons e rest ih =>
    obtain ⟨⟨k, hk, hback⟩, hrest⟩ := List.forall_mem_cons.1 hes
    obtain ⟨g, h₂, hg, kept, hshape⟩ := hback h₁
    have hkeepsBut : h₁.KeepsBut t' (h₂.setSlot t' k g) :=
      (KeepsBut.of_keeps kept t').trans (.setSlot h₂ t' k g)
    have ht₂ : t'.id < h₂.tables.size := Nat.lt_of_lt_of_le ht' kept.tables.size
    have hfill' : ∀ k', IsFilled h t (h₂.setSlot t' k g) t' k' ∨
        ∃ e ∈ rest, IsKeyBack natives r e.1 k' := by
      intro k'
      by_cases hkk' : k = k'
      · -- the slot that was just set
        subst hkk'
        refine .inl fun h₃ kept' => ?_
        rw [get_setSlot h₂ ht₂, if_pos ⟨rfl, rfl⟩]
        have hset : KeepsFrom (t'.id + 1) h₂ (h₂.setSlot t' k g) :=
          .of_keepsBut (.setSlot h₂ t' k g) (Nat.lt_succ_self _)
        exact hshape h₃ ((hset.trans kept').mono ht')
      · obtain hf | ⟨e', he', hk'⟩ := hfill k'
        · exact .inl (hf.setSlot ht' kept hkk' g)
        · obtain rfl | he' := List.mem_cons.1 he'
          · exact absurd (hk.unique hk') hkk'
          · exact .inr ⟨e', he', hk'⟩
    obtain ⟨h₃, hg₃, kept₃, hfilled⟩ := ih hrest
      (Nat.lt_of_lt_of_le ht' hkeepsBut.size) hfill'
    refine ⟨h₃, ?_, hkeepsBut.trans kept₃, hfilled⟩
    rw [toGuestEntries, hk h₁]
    dsimp only
    rw [Key.ofValue_toValue]
    dsimp only
    rw [hg]
    exact hg₃

/-! ## The way back -/

/-- A simple value comes back as itself. -/
theorem comesBack_leaf (natives : Array NativeForm) (r : RuntimeRef) (hv : ∀ t, v ≠ .table t)
    (htree : IsTree h v) (hx : toHostWithin h n v = .ok x) : ComesBack natives r h v x := by
  intro h₁
  cases htree with
  | table _ _ => exact absurd rfl (hv _)
  | str s => exact ⟨.str s, h₁, toGuest_form_str hx h₁, .refl h₁, fun _ _ => .str s⟩
  | nil =>
    rw [toHostWithin] at hx
    cases hx
    exact ⟨.nil, h₁, rfl, .refl h₁, fun _ _ => .nil⟩
  | bool b =>
    rw [toHostWithin] at hx
    cases hx
    exact ⟨.bool b, h₁, rfl, .refl h₁, fun _ _ => .bool b⟩
  | int i =>
    rw [toHostWithin] at hx
    cases hx
    exact ⟨.int i, h₁, rfl, .refl h₁, fun _ _ => .int i⟩

/-- A new table lacks nothing but the pairs of the map. -/
theorem isFilled_addTable {m : HostMap} (he : IsEntriesOf h t m)
    (hkeys : ∀ k, (h.table t).get k ≠ .nil → isPlainKey k = true) (h₁ : Heap) (k : Key) :
    IsFilled h t (h₁.addTable {}).2 (h₁.addTable {}).1 k ∨
      ∃ e ∈ m, IsKeyBack natives r e.1 k := by
  by_cases hk : (h.table t).get k = .nil
  · refine .inl fun h₃ _ => ?_
    rw [hk, table_addTable, Heap.addTable, if_pos rfl, Table.get_empty]
    exact .nil
  · obtain ⟨y, hy, e, hm, hey⟩ := he.entry k hk
    obtain ⟨k', hk', hkey⟩ := he.source e hm
    obtain rfl := eq_of_beq_leaf (nesting_form_of_isPlainKey (hkeys k' hk') hkey) hey
    exact .inr ⟨e, hm, isKeyBack_form natives r (hkeys k hk) hy⟩

/-- A table comes back if its keys are simple and what is in it comes back. -/
theorem comesBack_table {m : HostMap} (he : IsEntriesOf h t m)
    (hkeys : ∀ k, (h.table t).get k ≠ .nil → isPlainKey k = true)
    (hes : ∀ e ∈ m, ∃ k, IsKeyBack natives r e.1 k ∧
      ComesBack natives r h ((h.table t).get k) e.2) :
    ComesBack natives r h (.table t) (.map m) := by
  intro h₁
  have hlt : (h₁.addTable {}).1.id < (h₁.addTable {}).2.tables.size := by simp [Heap.addTable]
  obtain ⟨h₂, hg, kept, hfilled⟩ := fill_entries hes hlt (isFilled_addTable he hkeys h₁)
  refine ⟨.table (h₁.addTable {}).1, h₂, ?_, ?_, fun h₃ kept₃ => .table fun k => ?_⟩
  · unfold toGuest
    dsimp only
    rw [hg]
  · exact kept.keeps ((Keeps.refl h₁).addTable _) (Nat.le_refl _)
  · rw [kept₃.table (h₁.addTable {}).1 (Nat.le_refl _) (Nat.lt_of_lt_of_le hlt kept.size)]
    exact hfilled k h₃ (kept₃.mono (Nat.le_succ _))

/-- A tree comes back from the host. -/
theorem comesBack_form (natives : Array NativeForm) (r : RuntimeRef) (hn : n ≤ maxDepth)
    (hv : IsTree h v) (hx : toHostWithin h n v = .ok x) : ComesBack natives r h v x := by
  refine form_induction (P := fun n v x => n ≤ maxDepth → IsTree h v → ComesBack natives r h v x)
    ?_ ?_ hx hn hv
  · exact fun n v x hv hx _ htree => comesBack_leaf natives r hv htree hx
  · intro n t ps hps ih hn htree
    obtain _ | _ | _ | _ | ⟨hkeys, hvals⟩ := htree
    have hn : n ≤ maxDepth := by omega
    have he := isEntriesOf_ofPairs hn hps
    have hb := HostMap.within_ofPairs (isBuilt_forms hps)
    refine comesBack_table he hkeys fun e hm => ?_
    -- each pair of the map is one pair of the table
    obtain ⟨k, hk, hkey⟩ := he.source e hm
    obtain ⟨z, hz, hget⟩ := he.get?_eq (keysDiffer_of_isPlain hkeys) hk hkey
    rw [HostMap.get?_of_mem he.apart hb hm] at hget
    obtain rfl := Option.some.inj hget
    obtain ⟨y, hy⟩ := exists_form_of_holds (toHostWithin_table_eq_ok.2 ⟨ps, hps, rfl⟩)
      (Holds.value hk)
    obtain rfl := form_unique hy hz
    exact ⟨k, isKeyBack_form natives r (hkeys k hk) hkey, ih _ _ hy hn (hvals k)⟩

/-- **Guest values and their host forms.**  A guest value that has a host form gets a guest form from
it, with all that was in the heap as it was; and if it is a tree of truth values, integers and
strings, that form is a tree of the same shape, with the same bytes in each string and key. -/
theorem toGuest_toHost (natives : Array NativeForm) (r : RuntimeRef) (h h₁ : Heap) (v : Value)
    (x : HostValue) (hx : toHost h v = .ok x) :
    ∃ g h₂, toGuest natives r x h₁ = (.ok g, h₂) ∧ (IsTree h v → SameShape h h₂ v g) := by
  have hends := ends_toGuest natives r x h₁ (isPlain_form hx)
  rw [hasNilKey_form hx] at hends
  generalize hgx : toGuest natives r x h₁ = p at hends
  cases hends with
  | ok g h₂ =>
    refine ⟨g, h₂, rfl, fun htree => ?_⟩
    obtain ⟨g', h₂', hg', -, hshape⟩ := comesBack_form natives r (Nat.le_refl _) htree hx h₁
    rw [hgx] at hg'
    cases hg'
    exact hshape h₂ (.refl _ h₂)

/-- A table in a table, under a string that is no text. -/
def nested : Heap where
  tables := #[{ slots := [(.str [0xff], .table ⟨1⟩)], distinct := by simp },
    { slots := [(.bool true, .int 7)], distinct := by simp }]

/-- It comes back as it was. -/
theorem nested_comes_back : ∃ x g h', toHost nested (.table ⟨0⟩) = .ok x ∧
    toGuest #[] ⟨0⟩ x nested = (.ok g, h') ∧ SameShape nested h' (.table ⟨0⟩) g := by
  have hinner : toHostWithin nested 63 (.table ⟨1⟩) = .ok (.map [(.bool true, .int 7)]) := by
    refine toHostWithin_table_eq_ok (n := 62).2
      ⟨[(.bool true, .int 7)], .cons ⟨?_, ?_⟩ .nil, rfl⟩
    · rw [Key.toValue, toHostWithin]
    · rw [toHostWithin]
  have houter : toHost nested (.table ⟨0⟩) =
      .ok (.map [(.bytes [0xff], .map [(.bool true, .int 7)])]) := by
    refine toHostWithin_table_eq_ok (n := 63).2
      ⟨[(.bytes [0xff], .map [(.bool true, .int 7)])], .cons ⟨?_, hinner⟩ .nil, rfl⟩
    rw [Key.toValue, toHostWithin]
    rfl
  have htree : IsTree nested (.table ⟨0⟩) := by
    refine isTree_of_pairs fun p hp => ?_
    obtain rfl := List.mem_singleton.1 hp
    refine ⟨rfl, isTree_of_pairs fun p hp => ?_⟩
    obtain rfl := List.mem_singleton.1 hp
    exact ⟨rfl, .int 7⟩
  obtain ⟨g, h', hg, hshape⟩ := toGuest_toHost #[] ⟨0⟩ nested nested (.table ⟨0⟩) _ houter
  exact ⟨_, g, h', houter, hg, hshape htree⟩

end ScriptShell.Marshal
