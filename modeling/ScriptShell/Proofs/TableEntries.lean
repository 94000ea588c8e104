import ScriptShell.Proofs.HostEquality
import ScriptShell.Proofs.TableChains

/-! # The entries of a table on the host's side

A table becomes a map, and the map keeps one entry for all keys of the table whose forms are equal
(`Marshal.IsEntriesOf`).  Floats lose their fractions on the way, handles and failures are known by
what they stand for, and tables by what they hold, so that different keys can have equal forms, in
these ways and no other ones (`Marshal.keys_collide`).  Where keys do not collide nothing is lost:
the map is as long as the table, has each value under its key, and comes out equal in whatever order
the table is traversed (`Marshal.forms_agree`).
-/

namespace ScriptShell.Marshal

open Guest

variable {h h' : Heap} {n : Nat} {t : TableRef} {v w : Value} {x y z : HostValue} {k k' : Key}

/-! ## Forms are built by inserting -/

/-- What is no table becomes neither a map nor a sequence nor something that converts itself. -/
theorem form_of_ne_table (hv : ∀ t, v ≠ .table t) (hx : toHostWithin h n v = .ok x) :
    x.nesting = 0 ∧ x.isPlain = true := by
  cases v with
  | table t => exact absurd rfl (hv t)
  | str s =>
    rw [toHostWithin] at hx
    split at hx <;> cases hx <;> exact ⟨rfl, rfl⟩
  | user u =>
    rw [toHostWithin] at hx
    split at hx <;> cases hx <;> exact ⟨rfl, rfl⟩
  | _ =>
    rw [toHostWithin] at hx
    cases hx <;> exact ⟨rfl, rfl⟩

/-- A form is a value that was built by inserting, at every depth. -/
theorem isBuilt_of_form (hx : toHostWithin h n v = .ok x) : x.IsBuilt := by
  refine form_induction (P := fun _ _ x => x.IsBuilt) (fun n v x hv hx => ?_)
    (fun n t ps hps ih => ?_) hx
  · exact .leaf (form_of_ne_table hv hx).1
  · refine HostMap.isBuilt_ofPairs fun p hp => ?_
    obtain ⟨e, -, hform⟩ := exists_source hps hp
    exact ⟨ih _ _ hform.key, ih _ _ hform.value⟩

theorem isBuilt_forms {es : List (Key × Value)} {ps : List (HostValue × HostValue)}
    (hps : List.Forall₂ (IsPairForm h n) es ps) : ∀ p ∈ ps, p.1.IsBuilt ∧ p.2.IsBuilt := by
  intro p hp
  obtain ⟨e, -, hform⟩ := exists_source hps hp
  exact ⟨isBuilt_of_form hform.key, isBuilt_of_form hform.value⟩

/-! ## One entry for equal forms -/

/-- Whether a key has a form that equals `y`. -/
def hasForm (h : Heap) (y : HostValue) (k : Key) : Bool :=
  match toHost h k.toValue with
  | .ok x => x == y
  | .error _ => false

/-- No two keys of a table have equal forms. -/
def KeysDiffer (h : Heap) (t : TableRef) : Prop :=
  ∀ k k' x x', (h.table t).get k ≠ .nil → (h.table t).get k' ≠ .nil →
    toHost h k.toValue = .ok x → toHost h k'.toValue = .ok x' → (x == x') = true → k = k'

/-- What a map has of a table. -/
structure IsEntriesOf (h : Heap) (t : TableRef) (m : HostMap) : Prop where
  /-- No two keys are equal. -/
  apart : m.KeysApart
  /-- Each key is the form of a key of the table. -/
  source : ∀ e ∈ m, ∃ k, (h.table t).get k ≠ .nil ∧ toHost h k.toValue = .ok e.1
  /-- Each key of the table has a form, which equals a key. -/
  entry : ∀ k, (h.table t).get k ≠ .nil →
    ∃ y, toHost h k.toValue = .ok y ∧ ∃ e ∈ m, (e.1 == y) = true
  /-- Under such a form is the form of a value of the table: of the last one, in the order of a
  traversal, whose key has an equal form. -/
  last : ∀ k y, (h.table t).get k ≠ .nil → toHost h k.toValue = .ok y →
    ∃ p z, ((h.table t).enumerate.reverse.find? fun p => hasForm h y p.1) = some p ∧
      toHost h p.2 = .ok z ∧ m.get? y = some z

theorem IsPairForm.toHost_key {e : Key × Value} {p : HostValue × HostValue}
    (hp : IsPairForm h n e p) (hn : n ≤ maxDepth) : toHost h e.1.toValue = .ok p.1 :=
  toHostWithin_mono hn hp.key

theorem IsPairForm.toHost_value {e : Key × Value} {p : HostValue × HostValue}
    (hp : IsPairForm h n e p) (hn : n ≤ maxDepth) : toHost h e.2 = .ok p.2 :=
  toHostWithin_mono hn hp.value

theorem find?_related {α β : Type} {R : α → β → Prop} {p : α → Bool} {q : β → Bool} {as : List α}
    {bs : List β} (hr : List.Forall₂ R as bs) (hpq : ∀ a b, R a b → p a = q b) {b : β}
    (hb : bs.find? q = some b) : ∃ a, as.find? p = some a ∧ R a b := by
  induction hr with
  | nil => cases hb
  | @cons a b' as bs hab _ ih =>
    rw [List.find?_cons] at hb ⊢
    rw [hpq a b' hab]
    cases hq : q b' with
    | true =>
      rw [hq] at hb
      cases hb
      exact ⟨a, rfl, hab⟩
    | false =>
      rw [hq] at hb
      exact ih hb

/-- The map that the forms of a table's pairs make. -/
theorem isEntriesOf_ofPairs {ps : List (HostValue × HostValue)} (hn : n ≤ maxDepth)
    (hps : List.Forall₂ (IsPairForm h n) (h.table t).enumerate ps) :
    IsEntriesOf h t (HostMap.ofPairs ps) := by
  have hlast : ∀ k y, (h.table t).get k ≠ .nil → toHost h k.toValue = .ok y →
      ∃ p z, ((h.table t).enumerate.reverse.find? fun p => hasForm h y p.1) = some p ∧
        toHost h p.2 = .ok z ∧ (HostMap.ofPairs ps).get? y = some z := by
    intro k y hk hy
    have hby := isBuilt_of_form hy
    obtain ⟨p, hp, hform⟩ := exists_related hps (Table.mem_enumerate.2 ⟨rfl, hk⟩)
    obtain rfl : p.1 = y := Except.ok.inj ((hform.toHost_key hn).symm.trans hy)
    -- some pair has this key, so one is the last that has
    obtain ⟨q, hq⟩ : ∃ q, (ps.reverse.find? fun q => q.1 == p.1) = some q := by
      refine Option.isSome_iff_exists.1 (List.find?_isSome.2 ⟨p, List.mem_reverse.2 hp, ?_⟩)
      exact HostValue.beq_refl hby
    obtain ⟨e, he, hform'⟩ := find?_related (p := fun e => hasForm h p.1 e.1)
      (List.forall₂_reverse_iff.2 hps)
      (fun e q hform => by rw [hasForm, hform.toHost_key hn]) hq
    refine ⟨e, q.2, he, hform'.toHost_value hn, ?_⟩
    rw [HostMap.get?_ofPairs (isBuilt_forms hps) hby, hq]
    rfl
  refine ⟨HostMap.keysApart_ofPairs ps, fun e he => ?_, fun k hk => ?_, hlast⟩
  · obtain ⟨⟨p, hp, hkey⟩, -⟩ := HostMap.mem_of_mem_ofPairs he
    obtain ⟨⟨k, v⟩, he', hform⟩ := exists_source hps hp
    obtain ⟨rfl, hne⟩ := Table.mem_enumerate.1 he'
    exact ⟨k, hne, hkey ▸ hform.toHost_key hn⟩
  · obtain ⟨p, hp, hform⟩ := exists_related hps (Table.mem_enumerate.2 ⟨rfl, hk⟩)
    obtain ⟨-, z, -, -, hget⟩ := hlast k p.1 hk (hform.toHost_key hn)
    obtain ⟨e, he, hep, -⟩ := HostMap.exists_of_get? hget
    exact ⟨p.1, hform.toHost_key hn, e, he, hep⟩

/-! ## Tables whose keys differ -/

namespace IsEntriesOf

variable {m : HostMap}

theorem isBuilt_key (he : IsEntriesOf h t m) {e : HostValue × HostValue} (hm : e ∈ m) :
    e.1.IsBuilt := by
  obtain ⟨k, -, hk⟩ := he.source e hm
  exact isBuilt_of_form hk

/-- There is an entry for each pair. -/
theorem length_eq (he : IsEntriesOf h t m) (hd : KeysDiffer h t) :
    m.length = (h.table t).pairs.length := by
  have hS := HostValue.isEqvOn_isBuilt
  apply Nat.le_antisymm
  · refine length_le_of_matched (R := fun e p => toHost h p.1.toValue = .ok e.1) (fun e hm => ?_) ?_
    · obtain ⟨k, hk, hform⟩ := he.source e hm
      exact ⟨(k, _), Table.mem_pairs.2 ⟨rfl, hk⟩, hform⟩
    · refine List.Pairwise.imp_of_mem (fun {a b} ha _ hne p _ hpa hpb => ?_) he.apart
      have hab : a.1 = b.1 := Except.ok.inj (hpa.symm.trans hpb)
      rw [← hab, HostValue.beq_refl (he.isBuilt_key ha)] at hne
      cases hne
  · refine length_le_of_matched
      (R := fun p e => ∃ y, toHost h p.1.toValue = .ok y ∧ (e.1 == y) = true) (fun p hp => ?_) ?_
    · obtain ⟨y, hy, e, hm, hey⟩ := he.entry p.1 fun hnil => by
        obtain ⟨hget, hne⟩ := Table.mem_pairs.1 hp
        exact hne (hget.symm.trans hnil)
      exact ⟨e, hm, y, hy, hey⟩
    · have hnodup := List.pairwise_map.1 (h.table t).distinct_pairs
      refine List.Pairwise.imp_of_mem (fun {p q} hp hq hne e hm => ?_) hnodup
      rintro ⟨y, hy, hey⟩ ⟨y', hy', hey'⟩
      obtain ⟨hp, hpne⟩ := Table.mem_pairs.1 hp
      obtain ⟨hq, hqne⟩ := Table.mem_pairs.1 hq
      have hye := hS.symm (he.isBuilt_key hm) (isBuilt_of_form hy) hey
      have hyy := hS.trans (isBuilt_of_form hy) (he.isBuilt_key hm) (isBuilt_of_form hy') hye hey'
      exact hne (hd p.1 q.1 y y' (hp ▸ hpne) (hq ▸ hqne) hy hy' hyy)

/-- Each value is under its key. -/
theorem get?_eq (he : IsEntriesOf h t m) (hd : KeysDiffer h t) (hk : (h.table t).get k ≠ .nil)
    (hy : toHost h k.toValue = .ok y) :
    ∃ z, toHost h ((h.table t).get k) = .ok z ∧ m.get? y = some z := by
  obtain ⟨p, z, hfind, hz, hget⟩ := he.last k y hk hy
  have hform : hasForm h y p.1 = true :=
    List.find?_some (p := fun p : Key × Value => hasForm h y p.1) hfind
  obtain ⟨hp, hne⟩ := Table.mem_enumerate.1 (List.mem_reverse.1 (List.mem_of_find?_eq_some hfind))
  have hpk : p.1 = k := by
    rw [hasForm] at hform
    split at hform
    · next x hx => exact hd p.1 k x y (hp ▸ hne) hk hx hy hform
    · cases hform
  exact ⟨z, by rw [← hpk, hp]; exact hz, hget⟩

end IsEntriesOf

/-! ## Other orders -/

/-- The tables hold the same in both heaps, in whatever order they are traversed, and the objects of
the host are the same. -/
structure SameContents (h h' : Heap) : Prop where
  /-- What is under a key of a table. -/
  get : ∀ t k, (h'.table t).get k = (h.table t).get k
  /-- The objects of the host. -/
  user : ∀ u, h'.user u = h.user u

namespace SameContents

theorem holds (hs : SameContents h h') (hw : Holds h t w) : Holds h' t w := by
  obtain @⟨k, hk⟩ | @⟨k, hk⟩ := hw
  · exact .key (hs.get t k ▸ hk)
  · rw [← hs.get t k] at hk ⊢
    exact .value hk

theorem symm (hs : SameContents h h') : SameContents h' h :=
  ⟨fun t k => (hs.get t k).symm, fun u => (hs.user u).symm⟩

theorem form_eq (hs : SameContents h h') (hv : ∀ t, v ≠ .table t) (n : Nat) :
    toHostWithin h' n v = toHostWithin h n v := by
  cases v with
  | table t => exact absurd rfl (hv t)
  | user u => rw [toHostWithin, toHostWithin, hs.user]
  | _ => simp only [toHostWithin]

theorem pairs_perm (hs : SameContents h h') (t : TableRef) :
    (h.table t).pairs.Perm (h'.table t).pairs := by
  refine (List.perm_ext_iff_of_nodup ?_ ?_).2 fun p => ?_
  · exact List.Nodup.of_map _ (h.table t).distinct_pairs
  · exact List.Nodup.of_map _ (h'.table t).distinct_pairs
  · obtain ⟨k, v⟩ := p
    rw [Table.mem_pairs, Table.mem_pairs, hs.get]

/-- What a table holds has equal forms in both heaps. -/
def AgreeOn (h h' : Heap) (n : Nat) (t : TableRef) : Prop :=
  ∀ w y, Holds h t w → toHostWithin h n w = .ok y →
    ∃ y', toHostWithin h' n w = .ok y' ∧ (y == y') = true

/-- If the keys of a table differ in one heap, then they do in the other one. -/
theorem keysDiffer (hs : SameContents h h') (hn : n ≤ maxDepth) (hagree : AgreeOn h h' n t)
    (hforms : ∀ w, Holds h t w → ∃ y, toHostWithin h n w = .ok y) (hd : KeysDiffer h t) :
    KeysDiffer h' t := by
  have hS := HostValue.isEqvOn_isBuilt
  have hkey : ∀ k x, (h'.table t).get k ≠ .nil → toHost h' k.toValue = .ok x →
      (h.table t).get k ≠ .nil ∧ ∃ y, toHost h k.toValue = .ok y ∧ (y == x) = true := by
    intro k x hk hx
    rw [hs.get] at hk
    obtain ⟨y, hy⟩ := hforms _ (.key hk)
    obtain ⟨y', hy', heq⟩ := hagree _ y (.key hk) hy
    rw [form_unique hy' hx] at heq
    exact ⟨hk, y, toHostWithin_mono hn hy, heq⟩
  intro k k' x x' hk hk' hx hx' heq
  obtain ⟨hk, y, hy, hyx⟩ := hkey k x hk hx
  obtain ⟨hk', y', hy', hyx'⟩ := hkey k' x' hk' hx'
  have hb := isBuilt_of_form hy
  have hb' := isBuilt_of_form hy'
  have hbx := isBuilt_of_form hx
  have hbx' := isBuilt_of_form hx'
  refine hd k k' y y' hk hk' hy hy' ?_
  exact hS.trans hb hbx hb' hyx (hS.trans hbx hbx' hb' heq (hS.symm hb' hbx' hyx'))

/-- Tables with the same contents make equal maps. -/
theorem map_beq (hs : SameContents h h') {m m' : HostMap} (hagree : AgreeOn h h' n t)
    (hn : n ≤ maxDepth) (hforms : ∀ w, Holds h t w → ∃ y, toHostWithin h n w = .ok y)
    (hd : KeysDiffer h t) (he : IsEntriesOf h t m) (he' : IsEntriesOf h' t m')
    (hb : m.Within HostValue.IsBuilt) (hb' : m'.Within HostValue.IsBuilt) :
    (HostValue.map m == HostValue.map m') = true := by
  have hS := HostValue.isEqvOn_isBuilt
  have hd' := hs.keysDiffer hn hagree hforms hd
  refine (HostMap.beq_iff hS he'.apart hb hb').2 ⟨?_, fun e hm => ?_⟩
  · rw [he.length_eq hd, he'.length_eq hd', (hs.pairs_perm t).length_eq]
  · obtain ⟨k, hk, hkey⟩ := he.source e hm
    have hk' : (h'.table t).get k ≠ .nil := hs.get t k ▸ hk
    -- the key in both heaps
    obtain ⟨y, hy⟩ := hforms _ (.key hk)
    obtain rfl := form_unique hy hkey
    obtain ⟨y', hy', hyy'⟩ := hagree _ _ (.key hk) hy
    -- the value in both heaps
    obtain ⟨z, hz, hget⟩ := he.get?_eq hd hk hkey
    rw [HostMap.get?_of_mem he.apart hb hm] at hget
    obtain ⟨z₁, hz₁⟩ := hforms _ (.value hk)
    obtain ⟨z', hz', hzz'⟩ := hagree _ _ (.value hk) hz₁
    obtain rfl := form_unique hz₁ hz
    obtain ⟨z₂, hz₂, hget'⟩ := he'.get?_eq hd' hk' (toHostWithin_mono hn hy')
    rw [hs.get] at hz₂
    obtain rfl := form_unique hz' hz₂
    obtain ⟨e', hm', hkey', hval'⟩ := HostMap.exists_of_get? hget'
    refine ⟨e', hm', ?_, ?_⟩
    · exact hS.trans (hb e hm).1 (isBuilt_of_form hy') (hb' e' hm').1 hyy'
        (hS.symm (hb' e' hm').1 (isBuilt_of_form hy') hkey')
    · rw [Option.some.inj hget, hval']
      exact hzz'

end SameContents

/-- Where no two keys of a table have equal forms, the order in which tables are traversed does not
matter. -/
theorem forms_agree (hs : SameContents h h') (hn : n ≤ maxDepth)
    (hd : ∀ u, Reachable h v (.table u) → KeysDiffer h u) (hx : toHostWithin h n v = .ok x) :
    ∃ x', toHostWithin h' n v = .ok x' ∧ (x == x') = true := by
  refine form_induction (P := fun n v x => n ≤ maxDepth →
    (∀ u, Reachable h v (.table u) → KeysDiffer h u) →
    ∃ x', toHostWithin h' n v = .ok x' ∧ (x == x') = true) ?_ ?_ hx hn hd
  · intro n v x hv hx _ _
    exact ⟨x, (hs.form_eq hv n).trans hx, HostValue.beq_refl (isBuilt_of_form hx)⟩
  · intro n t ps hps ih hn hd
    have hn : n ≤ maxDepth := by omega
    have hforms := exists_form_table_iff.1 ⟨_, toHostWithin_table_eq_ok.2 ⟨ps, hps, rfl⟩⟩
    have hagree : SameContents.AgreeOn h h' n t := fun w y hw hy =>
      ih w y hy hn fun u hu => hd u (reachable_table_iff.2 (.inr ⟨w, hw, hu⟩))
    have hforms' : ∀ w, Holds h' t w → ∃ y, toHostWithin h' n w = .ok y := by
      intro w hw
      obtain ⟨y, hy⟩ := hforms w (hs.symm.holds hw)
      obtain ⟨y', hy', -⟩ := hagree w y (hs.symm.holds hw) hy
      exact ⟨y', hy'⟩
    obtain ⟨x', hx'⟩ := exists_form_table_iff.2 hforms'
    obtain ⟨ps', hps', rfl⟩ := toHostWithin_table_eq_ok.1 hx'
    refine ⟨_, hx', ?_⟩
    exact hs.map_beq hagree hn hforms (hd t .refl) (isEntriesOf_ofPairs hn hps)
      (isEntriesOf_ofPairs hn hps') (HostMap.within_ofPairs (isBuilt_forms hps))
      (HostMap.within_ofPairs (isBuilt_forms hps'))

/-! ### Every order occurs -/

/-- The heap whose tables have their pairs in a given order. -/
def arranged (h : Heap) (order : TableRef → List (Key × Value))
    (ho : ∀ t, (order t).Perm (h.table t).pairs) : Heap :=
  { h with
    tables := Array.ofFn fun i : Fin h.tables.size =>
      { slots := order ⟨i⟩
        metatable? := (h.table ⟨i⟩).metatable?
        distinct := ((ho ⟨i⟩).map _).nodup_iff.2 (h.table ⟨i⟩).distinct_pairs } }

theorem get_of_pairs_perm {a b : Table} (hp : a.pairs.Perm b.pairs) (k : Key) :
    a.get k = b.get k := by
  by_cases ha : a.get k = .nil
  · by_contra hne
    rw [ha] at hne
    have hmem := hp.mem_iff.2 (Table.mem_pairs.2 ⟨rfl, Ne.symm hne⟩)
    exact hne (ha.symm.trans (Table.mem_pairs.1 hmem).1)
  · exact (Table.mem_pairs.1 (hp.mem_iff.1 (Table.mem_pairs.2 ⟨rfl, ha⟩))).1.symm

/-- Without an array part a table is traversed from the oldest key to the newest. -/
theorem enumerate_of_layout {a : Table} (ha : a.layout = {}) : a.enumerate = a.pairs := by
  have hall : ∀ e ∈ a.pairs, (!Table.inArray 0 e.1) = true := by
    rintro ⟨k, v⟩ -
    cases k with
    | int i =>
      simp only [Table.inArray, Bool.not_eq_true', Bool.and_eq_false_iff, decide_eq_false_iff_not]
      omega
    | _ => rfl
  rw [Table.enumerate, ha]
  exact List.filter_eq_self.2 hall

theorem enumerate_arranged (h : Heap) (order : TableRef → List (Key × Value))
    (ho : ∀ t, (order t).Perm (h.table t).pairs) (t : TableRef) :
    ((arranged h order ho).table t).pairs = order t ∧
      ((arranged h order ho).table t).enumerate = order t := by
  have hpairs : ((arranged h order ho).table t).pairs = order t := by
    by_cases ht : t.id < h.tables.size
    · have htable : (arranged h order ho).table t =
          { slots := order t
            metatable? := (h.table t).metatable?
            distinct := ((ho t).map _).nodup_iff.2 (h.table t).distinct_pairs } := by
        simp [Heap.table, arranged, ht]
      rw [htable]
      refine List.filter_eq_self.2 fun e he => ?_
      exact (List.mem_filter.1 ((ho t).mem_iff.1 he)).2
    · have hnil : order t = [] := by
        have hperm := ho t
        rw [Heap.table_of_ge (Nat.le_of_not_lt ht)] at hperm
        exact List.Perm.eq_nil hperm
      rw [hnil, Heap.table_of_ge (by simpa [arranged] using ht)]
      rfl
  refine ⟨hpairs, ?_⟩
  rw [enumerate_of_layout, hpairs]
  by_cases ht : t.id < h.tables.size
  · simp [Heap.table, arranged, ht]
  · rw [Heap.table_of_ge (by simpa [arranged] using ht)]

theorem sameContents_arranged (h : Heap) (order : TableRef → List (Key × Value))
    (ho : ∀ t, (order t).Perm (h.table t).pairs) : SameContents h (arranged h order ho) := by
  refine ⟨fun t k => get_of_pairs_perm ?_ k, fun u => rfl⟩
  rw [(enumerate_arranged h order ho t).1]
  exact ho t

/-! ## Keys with equal forms -/

/-- The integer that a number becomes. -/
def truncated? : Key → Option Int64
  | .int i => some i
  | .num x => some (truncate x)
  | _ => none

/-- The text that a string or a failure becomes. -/
def message? (h : Heap) : Key → Option String
  | .str s => Utf8.decode? s
  | .user u =>
    match h.user u with
    | .failure f => some f.bareMessage
    | _ => none
  | _ => none

/-- The ways in which different keys can come to have equal forms. -/
inductive Collide (h : Heap) : Key → Key → Prop
  /-- Numbers that are cut off to the same integer; integers are that only if they are the same. -/
  | number {k k' : Key} {i : Int64} (hk : truncated? k = some i) (hk' : truncated? k' = some i) :
    Collide h k k'
  /-- Failures, or a failure and a string, with one text. -/
  | message {k k' : Key} {s : String} (hk : message? h k = some s) (hk' : message? h k' = some s) :
    Collide h k k'
  /-- Objects with one handle. -/
  | handle {u u' : UserRef} {x : Handle} (hu : h.user u = .handle x) (hu' : h.user u' = .handle x) :
    Collide h (.user u) (.user u')
  /-- Tables. -/
  | table (t t' : TableRef) : Collide h (.table t) (.table t')

/-- What a key is read as. -/
inductive ReadsKey (h : Heap) : Key → HostValue → Prop
  /-- A truth value is itself. -/
  | bool (b : Bool) : ReadsKey h (.bool b) (.bool b)
  /-- A number loses its fraction. -/
  | number {k : Key} {i : Int64} (hk : truncated? k = some i) : ReadsKey h k (.int i)
  /-- A string that is UTF-8 is a text, and so is a failure. -/
  | message {k : Key} {s : String} (hk : message? h k = some s) : ReadsKey h k (.text s)
  /-- Another string is its bytes. -/
  | bytes {s : Bytes} (hs : Utf8.decode? s = none) : ReadsKey h (.str s) (.bytes s)
  /-- A function is itself. -/
  | func (f : GuestFunction) : ReadsKey h (.func f) (.callable f)
  /-- An object with a handle is the handle. -/
  | handle {u : UserRef} {x : Handle} (hu : h.user u = .handle x) : ReadsKey h (.user u) (.handle x)
  /-- A table is a map. -/
  | table (t : TableRef) (m : HostMap) : ReadsKey h (.table t) (.map m)

theorem readsKey_of_form (hx : toHost h k.toValue = .ok x) : ReadsKey h k x := by
  rw [toHost] at hx
  cases k with
  | table t =>
    obtain ⟨ps, -, rfl⟩ := toHostWithin_table_eq_ok (n := 63).1 hx
    exact .table t _
  | str s =>
    rw [Key.toValue, toHostWithin] at hx
    split at hx
    · next hs =>
      cases hx
      exact .message hs
    · next hs =>
      cases hx
      exact .bytes hs
  | user u =>
    rw [Key.toValue, toHostWithin] at hx
    split at hx
    · next y hu =>
      cases hx
      exact .handle hu
    · next f hu =>
      cases hx
      exact .message (by rw [message?, hu])
    · cases hx
  | bool b =>
    rw [Key.toValue, toHostWithin] at hx
    cases hx
    exact .bool b
  | int _ | num _ =>
    rw [Key.toValue, toHostWithin] at hx
    cases hx
    exact .number rfl
  | func f =>
    rw [Key.toValue, toHostWithin] at hx
    cases hx
    exact .func f
  | thread _ | light _ =>
    rw [Key.toValue, toHostWithin] at hx
    cases hx

/-- Different keys with equal forms are of these kinds. -/
theorem keys_collide (hx : toHost h k.toValue = .ok x) (hy : toHost h k'.toValue = .ok y)
    (heq : (x == y) = true) (hne : k ≠ k') : Collide h k k' := by
  have hk := readsKey_of_form hx
  have hk' := readsKey_of_form hy
  cases hk with
  | table t m =>
    obtain ⟨m', rfl⟩ := HostValue.eq_map_of_beq heq
    cases hk'
    exact .table t _
  | bool b =>
    obtain rfl := HostValue.eq_of_beq_leaf rfl heq
    cases hk'
    exact absurd rfl hne
  | number hk =>
    obtain rfl := HostValue.eq_of_beq_leaf rfl heq
    cases hk' with
    | number hk' => exact .number hk hk'
  | message hk =>
    obtain rfl := HostValue.eq_of_beq_leaf rfl heq
    cases hk' with
    | message hk' => exact .message hk hk'
  | bytes hs =>
    obtain rfl := HostValue.eq_of_beq_leaf rfl heq
    cases hk'
    exact absurd rfl hne
  | func f =>
    obtain rfl := HostValue.eq_of_beq_leaf rfl heq
    cases hk'
    exact absurd rfl hne
  | handle hu =>
    obtain rfl := HostValue.eq_of_beq_leaf rfl heq
    cases hk' with
    | handle hu' => exact .handle hu hu'

/-! ## The result -/

/-- **The entries of a table.**  A table that has a form becomes a map with one entry for all keys
whose forms are equal, which holds the value that a traversal meets last.  If no two keys have equal
forms, the map has as many entries as the table, with each value under its key; if that holds of all
tables inside as well, then in every order of traversal the map is an equal one, and any order of the
pairs of any table is that of some heap.  Different keys have equal forms only if they `Collide`. -/
theorem table_entries (h : Heap) (t : TableRef) :
    (∀ x, toHost h (.table t) = .ok x → ∃ m : HostMap, x = .map m ∧ IsEntriesOf h t m ∧
      (KeysDiffer h t → m.length = (h.table t).pairs.length ∧
        ∀ k v, (k, v) ∈ (h.table t).pairs →
          ∃ y z, toHost h k.toValue = .ok y ∧ toHost h v = .ok z ∧ m.get? y = some z)) ∧
    (∀ h', SameContents h h' → (∀ u, Reachable h (.table t) (.table u) → KeysDiffer h u) →
      ∀ x, toHost h (.table t) = .ok x →
        ∃ x', toHost h' (.table t) = .ok x' ∧ (x == x') = true) ∧
    (∀ order : TableRef → List (Key × Value), (∀ u, (order u).Perm (h.table u).pairs) →
      ∃ h', SameContents h h' ∧ ∀ u, (h'.table u).enumerate = order u) ∧
    ∀ k k' y y', toHost h k.toValue = .ok y → toHost h k'.toValue = .ok y' → (y == y') = true →
      k ≠ k' → Collide h k k' := by
  refine ⟨fun x hx => ?_, fun h' hs hd x hx => forms_agree hs (Nat.le_refl _) hd hx,
    fun order ho => ?_, fun k k' y y' => keys_collide⟩
  · obtain ⟨ps, hps, rfl⟩ := toHostWithin_table_eq_ok (n := 63).1 hx
    have he := isEntriesOf_ofPairs (by decide) hps
    refine ⟨HostMap.ofPairs ps, rfl, he, fun hd => ⟨he.length_eq hd, fun k v hmem => ?_⟩⟩
    obtain ⟨rfl, hne⟩ := Table.mem_pairs.1 hmem
    obtain ⟨y, hy, -⟩ := he.entry k hne
    obtain ⟨z, hz, hget⟩ := he.get?_eq hd hne hy
    exact ⟨y, z, hy, hz, hget⟩
  · exact ⟨arranged h order ho, sameContents_arranged h order ho,
      fun u => (enumerate_arranged h order ho u).2⟩

/-- A table with `true` under 1 and `false` under one and a half. -/
def halves : Heap where
  tables := #[{
    slots := [(.int 1, .bool true),
      (@Key.num (Float.ofBits 0x3FF8000000000000) ⟨rfl, rfl⟩, .bool false)]
    distinct := by simp }]

/-- One of the two values is lost, and it is not under its key either. -/
theorem halves_lost :
    (halves.table ⟨0⟩).pairs.length = 2 ∧
    toHost halves (.table ⟨0⟩) = .ok (.map [(.int 1, .bool false)]) ∧
    (Key.int 1, Value.bool true) ∈ (halves.table ⟨0⟩).pairs ∧
    HostMap.get? [(.int 1, .bool false)] (.int 1) = some (.bool false) := by
  refine ⟨rfl, ?_, List.mem_cons_self, rfl⟩
  refine toHostWithin_table_eq_ok (n := 63).2
    ⟨[(.int 1, .bool true), (.int 1, .bool false)], ?_, rfl⟩
  refine .cons ⟨?_, ?_⟩ (.cons ⟨?_, ?_⟩ .nil)
  · rw [Key.toValue, toHostWithin]
  · rw [toHostWithin]
  · rw [Key.toValue, toHostWithin]
    rfl
  · rw [toHostWithin]

/-- A table with `true` under 1 and `false` under `true`. -/
def mixed : Heap where
  tables := #[{ slots := [(.int 1, .bool true), (.bool true, .bool false)], distinct := by simp }]

theorem keysDiffer_mixed : KeysDiffer mixed ⟨0⟩ := by
  have hkeys : ∀ k, (mixed.table ⟨0⟩).get k ≠ .nil → k = .int 1 ∨ k = .bool true := by
    intro k hk
    have hmem : (k, _) ∈ [(Key.int 1, Value.bool true), (.bool true, .bool false)] :=
      Table.mem_pairs.2 ⟨rfl, hk⟩
    obtain he | he := List.mem_cons.1 hmem
    · exact .inl (congrArg Prod.fst he)
    · exact .inr (congrArg Prod.fst (List.mem_singleton.1 he))
  intro k k' x x' hk hk' hx hx' heq
  by_contra hne
  have hc := keys_collide hx hx' heq hne
  obtain rfl | rfl := hkeys k hk <;> obtain rfl | rfl := hkeys k' hk' <;> cases hc <;>
    first | exact absurd rfl hne | contradiction

/-- Both values of it are kept, each under its key. -/
theorem mixed_kept : ∃ m : HostMap, toHost mixed (.table ⟨0⟩) = .ok (.map m) ∧ m.length = 2 ∧
    m.get? (.int 1) = some (.bool true) ∧ m.get? (.bool true) = some (.bool false) := by
  have hx : toHost mixed (.table ⟨0⟩) =
      .ok (.map (HostMap.ofPairs [(.int 1, .bool true), (.bool true, .bool false)])) := by
    refine toHostWithin_table_eq_ok (n := 63).2 ⟨_, ?_, rfl⟩
    refine .cons ⟨?_, ?_⟩ (.cons ⟨?_, ?_⟩ .nil) <;> simp only [Key.toValue, toHostWithin]
  obtain ⟨m, hm, -, hkept⟩ := (table_entries mixed ⟨0⟩).1 _ hx
  obtain ⟨hlen, hget⟩ := hkept keysDiffer_mixed
  refine ⟨m, hm ▸ hx, hlen, ?_, ?_⟩
  · obtain ⟨y, z, hy, hz, hyz⟩ := hget (.int 1) (.bool true) List.mem_cons_self
    simp only [toHost, Key.toValue, toHostWithin] at hy hz
    cases hy
    cases hz
    exact hyz
  · obtain ⟨y, z, hy, hz, hyz⟩ := hget (.bool true) (.bool false)
      (List.mem_cons_of_mem _ List.mem_cons_self)
    simp only [toHost, Key.toValue, toHostWithin] at hy hz
    cases hy
    cases hz
    exact hyz

end ScriptShell.Marshal
