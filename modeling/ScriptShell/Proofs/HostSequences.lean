import Mathlib.Data.List.TakeWhile
import ScriptShell.Proofs.InsertedMaps
import ScriptShell.Proofs.RoundTrips
import ScriptShell.Proofs.TableEntries

/-! # Maps that are sequences

The host reads a map as a sequence by putting every value into the slot that its key names.  The
keys of a map are apart, so no slot is used twice (`HostMap.matchedApart_position?`); there are as
many slots as pairs, so if every key names one, all of them are filled (`HostMap.exists_mem_of_lt`).
That is all that reading needs: `HostMap.sequence?_eq_some_iff` says of the items what they are, and
with it no other fact of the order of insertion is left to be looked at.

A sequence that has gone to a guest comes back as a map (`Marshal.toHost_toGuest`), in which the
`nil` items have no pair.  Where these stand at the end the others are a sequence again, and where
one of them stands before another item the number of its position is no key
(`Marshal.sequences_through_guests`).
-/

namespace ScriptShell

open HostValue

/-! ## Slots -/

namespace HostMap

variable {m : HostMap} {e : HostValue × HostValue} {k k' : HostValue} {n size : Nat}
  {items : List HostValue}

/-- The keys are the integers from one to the number of pairs. -/
def IsNumbered (m : HostMap) : Prop :=
  (∀ k ∈ m.keys, ∃ i, k = .int i) ∧
    ∀ z : Int, (∃ i : Int64, .int i ∈ m.keys ∧ i.toInt = z) ↔ 1 ≤ z ∧ z ≤ m.length

theorem position?_eq_some :
    position? size k = some n ↔ ∃ i : Int64, k = .int i ∧ i.toInt = n + 1 ∧ n < size := by
  cases k with
  | int i =>
    simp only [position?, HostValue.asInt?]
    split
    · next h =>
      simp only [Bool.and_eq_true, decide_eq_true_eq] at h
      simp only [Option.some.injEq, HostValue.int.injEq]
      constructor
      · intro hn
        exact ⟨i, rfl, by omega, by omega⟩
      · rintro ⟨_, rfl, hi, -⟩
        omega
    · next h =>
      simp only [Bool.and_eq_true, decide_eq_true_eq] at h
      refine iff_of_false (fun hn => nomatch hn) ?_
      rintro ⟨_, hi, hn, hlt⟩
      cases hi
      omega
  | _ => simp [position?, HostValue.asInt?]

/-- The key that names a position. -/
theorem eq_of_position? (h : position? size k = some n) : k = .int (Int64.ofNat (n + 1)) := by
  obtain ⟨i, rfl, hi, -⟩ := position?_eq_some.1 h
  rw [← Int64.ofInt_toInt i, hi]
  rfl

theorem lt_of_position? (h : position? size k = some n) : n < size := by
  obtain ⟨-, -, -, hlt⟩ := position?_eq_some.1 h
  exact hlt

/-- No two keys name one position. -/
theorem matchedApart_position? (hm : m.KeysApart) (size : Nat) (positions : List Nat) :
    MatchedApart (fun e n => position? size e.1 = some n) m positions := by
  refine hm.imp fun {e e'} hne n _ he he' => ?_
  have hself : (e.1 == e'.1) = true := by
    rw [eq_of_position? he, eq_of_position? he']
    exact beq_self_leaf rfl
  exact Bool.eq_false_iff.1 hne hself

/-- If every key names one of as many positions as there are pairs, then each of these is named. -/
theorem exists_mem_of_lt (hm : m.KeysApart)
    (hpos : ∀ e ∈ m, ∃ n, position? m.length e.1 = some n) (hn : n < m.length) :
    ∃ e ∈ m, position? m.length e.1 = some n := by
  have hlength : m.length = (List.range m.length).length := List.length_range.symm
  refine exists_preimage hlength (fun e he => ?_) (matchedApart_position? hm m.length _) n
    (List.mem_range.2 hn)
  obtain ⟨n, hpn⟩ := hpos e he
  exact ⟨n, List.mem_range.2 (lt_of_position? hpn), hpn⟩

theorem fillSlots_eq_none {slots : List (Option HostValue)} (he : e ∈ m)
    (hk : position? size e.1 = none) : fillSlots size slots m = none := by
  induction m generalizing slots with
  | nil => cases he
  | cons a rest ih =>
    rw [fillSlots]
    rcases List.mem_cons.1 he with rfl | he
    · rw [hk]
    · split
      · exact ih he
      · rfl

/-- Every value gets into the slot that its key names, and the other slots stay as they are. -/
theorem exists_fillSlots (hm : m.KeysApart) (hpos : ∀ e ∈ m, ∃ n, position? size e.1 = some n)
    (slots : List (Option HostValue)) (hsize : slots.length = size) :
    ∃ filled, fillSlots size slots m = some filled ∧ filled.length = size ∧
      (∀ e ∈ m, ∀ n, position? size e.1 = some n → filled[n]? = some (some e.2)) ∧
      ∀ n, (∀ e ∈ m, position? size e.1 ≠ some n) → filled[n]? = slots[n]? := by
  induction m generalizing slots with
  | nil => exact ⟨slots, rfl, hsize, fun _ he => (List.not_mem_nil he).elim, fun _ _ => rfl⟩
  | cons a rest ih =>
    obtain ⟨n, hn⟩ := hpos a List.mem_cons_self
    obtain ⟨filled, hfill, hlen, hmem, hother⟩ := ih (List.pairwise_cons.1 hm).2
      (fun e he => hpos e (List.mem_cons_of_mem _ he)) (slots.set n (some a.2))
      (List.length_set.trans hsize)
    have hapart := matchedApart_position? hm size [n]
    have hlt := lt_of_position? hn
    refine ⟨filled, by rw [fillSlots, hn]; exact hfill, hlen, fun e he p hp => ?_, fun p hp => ?_⟩
    · rcases List.mem_cons.1 he with rfl | he
      · have hpn : n = p := Option.some.inj (hn.symm.trans hp)
        subst hpn
        have hrest : ∀ e' ∈ rest, position? size e'.1 ≠ some n := fun e' he' =>
          (List.pairwise_cons.1 hapart).1 e' he' n (List.mem_singleton_self n) hn
        rw [hother n hrest, List.getElem?_set_self (hsize ▸ hlt)]
      · exact hmem e he p hp
    · have hne : n ≠ p := fun hnp => hp a List.mem_cons_self (hnp ▸ hn)
      rw [hother p fun e he => hp e (List.mem_cons_of_mem _ he), List.getElem?_set_ne hne]

theorem mapM_id_map_some (items : List HostValue) : (items.map some).mapM id = some items := by
  induction items with
  | nil => rfl
  | cons v rest ih =>
    rw [List.map_cons, List.mapM_cons, ih]
    rfl

/-- If every key names a position, the map is a sequence, with the values at these positions. -/
theorem exists_sequence (hm : m.KeysApart)
    (hpos : ∀ e ∈ m, ∃ n, position? m.length e.1 = some n) :
    ∃ items, m.sequence? = some items ∧ items.length = m.length ∧
      ∀ e ∈ m, ∀ n, position? m.length e.1 = some n → items[n]? = some e.2 := by
  obtain ⟨filled, hfill, hlen, hmem, -⟩ :=
    exists_fillSlots hm hpos (List.replicate m.length none) List.length_replicate
  have hsome : ∀ slot ∈ filled, some (slot.getD .nil) = slot := by
    intro slot hslot
    obtain ⟨n, hn, rfl⟩ := List.getElem_of_mem hslot
    obtain ⟨e, he, hen⟩ := exists_mem_of_lt hm hpos (hlen ▸ hn)
    have hget := hmem e he n hen
    rw [List.getElem?_eq_getElem hn] at hget
    rw [Option.some.inj hget]
    rfl
  have hfilled : filled = (filled.map fun slot => slot.getD .nil).map some := by
    rw [List.map_map]
    exact (List.map_id filled).symm.trans (List.map_congr_left fun slot h => (hsome slot h).symm)
  refine ⟨filled.map fun slot => slot.getD .nil, ?_, List.length_map _ |>.trans hlen,
    fun e he n hn => ?_⟩
  · rw [sequence?, hfill]
    dsimp only
    rw [hfilled, mapM_id_map_some, ← hfilled]
  · rw [List.getElem?_map, hmem e he n hn]
    rfl

/-- A map is a sequence exactly if every key names a position. -/
theorem exists_sequence_iff (hm : m.KeysApart) :
    (∃ items, m.sequence? = some items) ↔ ∀ e ∈ m, ∃ n, position? m.length e.1 = some n := by
  refine ⟨fun ⟨items, h⟩ e he => Option.ne_none_iff_exists'.1 fun hnone => ?_, fun hpos => ?_⟩
  · rw [sequence?, fillSlots_eq_none he hnone] at h
    cases h
  · obtain ⟨items, h, -⟩ := exists_sequence hm hpos
    exact ⟨items, h⟩

/-- **What the sequence of a map is**: as long as the map, with every value at the position that its
key names. -/
theorem sequence?_eq_some_iff (hm : m.KeysApart) :
    m.sequence? = some items ↔ items.length = m.length ∧
      ∀ e ∈ m, ∃ n, position? m.length e.1 = some n ∧ items[n]? = some e.2 := by
  constructor
  · intro h
    have hpos := (exists_sequence_iff hm).1 ⟨items, h⟩
    obtain ⟨items', h', hlen, hat⟩ := exists_sequence hm hpos
    rw [h] at h'
    cases h'
    refine ⟨hlen, fun e he => ?_⟩
    obtain ⟨n, hn⟩ := hpos e he
    exact ⟨n, hn, hat e he n hn⟩
  · rintro ⟨hlen, hat⟩
    have hpos : ∀ e ∈ m, ∃ n, position? m.length e.1 = some n := fun e he =>
      (hat e he).imp fun _ h => h.1
    obtain ⟨items', h', hlen', hat'⟩ := exists_sequence hm hpos
    rw [h', Option.some.injEq]
    refine List.ext_getElem? fun n => ?_
    rcases Nat.lt_or_ge n m.length with hn | hn
    · obtain ⟨e, he, hen⟩ := exists_mem_of_lt hm hpos hn
      obtain ⟨n', hn', hget⟩ := hat e he
      rw [hen] at hn'
      cases hn'
      rw [hat' e he n hen, hget]
    · rw [List.getElem?_eq_none (hlen' ▸ hn), List.getElem?_eq_none (hlen ▸ hn)]

/-- Every key names a position exactly if the keys are the integers from one on. -/
theorem isNumbered_iff (hm : m.KeysApart) :
    m.IsNumbered ↔ ∀ e ∈ m, ∃ n, position? m.length e.1 = some n := by
  constructor
  · rintro ⟨hint, hrange⟩ e he
    obtain ⟨i, hi⟩ := hint e.1 (mem_keys_of_mem he)
    obtain ⟨hone, hle⟩ := (hrange i.toInt).1 ⟨i, hi ▸ mem_keys_of_mem he, rfl⟩
    exact ⟨(i.toInt - 1).toNat, position?_eq_some.2 ⟨i, hi, by omega, by omega⟩⟩
  · intro hpos
    refine ⟨fun k hk => ?_, fun z => ⟨?_, fun ⟨hone, hle⟩ => ?_⟩⟩
    · obtain ⟨e, he, rfl⟩ := List.mem_map.1 hk
      obtain ⟨n, hn⟩ := hpos e he
      exact ⟨_, eq_of_position? hn⟩
    · rintro ⟨i, hi, rfl⟩
      obtain ⟨e, he, hkey⟩ := List.mem_map.1 hi
      obtain ⟨n, hn⟩ := hpos e he
      obtain ⟨j, hj, hto, hlt⟩ := position?_eq_some.1 hn
      cases hkey.symm.trans hj
      omega
    · obtain ⟨e, he, hn⟩ := exists_mem_of_lt hm hpos (n := (z - 1).toNat) (by omega)
      obtain ⟨i, hi, hto, -⟩ := position?_eq_some.1 hn
      exact ⟨i, hi ▸ mem_keys_of_mem he, by omega⟩

/-- What is found under an integer is the value of that key. -/
theorem get?_int_of_mem (hm : m.KeysApart) {i : Int64} {v : HostValue} (he : (.int i, v) ∈ m) :
    m.get? (.int i) = some v := by
  induction m with
  | nil => cases he
  | cons a rest ih =>
    obtain ⟨hne, hrest⟩ := List.pairwise_cons.1 hm
    rw [get?, List.find?_cons]
    rcases List.mem_cons.1 he with rfl | he
    · rw [beq_self_leaf rfl]
      rfl
    · rw [hne _ he]
      exact ih hrest he

/-- The item at a position is the value of the map under the number of the position. -/
theorem getElem?_of_sequence? (hm : m.KeysApart) (h : m.sequence? = some items)
    (hn : n < m.length) :
    ∃ v, items[n]? = some v ∧ m.get? (.int (Int64.ofNat (n + 1))) = some v := by
  have hpos := (exists_sequence_iff hm).1 ⟨items, h⟩
  obtain ⟨e, he, hen⟩ := exists_mem_of_lt hm hpos hn
  obtain ⟨n', hn', hget⟩ := ((sequence?_eq_some_iff hm).1 h).2 e he
  rw [hen] at hn'
  cases hn'
  refine ⟨e.2, hget, get?_int_of_mem hm ?_⟩
  rw [← eq_of_position? hen]
  exact he

end HostMap

/-! ## Positions of items -/

namespace HostValue

variable {items kept rest : List HostValue} {n : Nat} {e : HostValue × HostValue}

/-- The pairs of the items that are values. -/
theorem mem_positioned : e ∈ positioned n items ↔
    ∃ j v, items[j]? = some v ∧ v ≠ .nil ∧ e = (.int (Int64.ofNat (n + j)), v.normal) := by
  induction items generalizing n with
  | nil => simp [positioned]
  | cons a rest ih =>
    rw [positioned, List.mem_append, ih]
    constructor
    · rintro (he | ⟨j, v, hj, hv, rfl⟩)
      · split at he
        · cases he
        · next ha =>
          exact ⟨0, a, rfl, mt isNil_iff.2 ha, List.mem_singleton.1 he⟩
      · exact ⟨j + 1, v, hj, hv, by rw [Nat.add_right_comm, Nat.add_assoc]⟩
    · rintro ⟨j, v, hj, hv, rfl⟩
      cases j with
      | zero =>
        cases hj
        rw [if_neg (mt isNil_iff.1 hv)]
        exact .inl (List.mem_singleton_self _)
      | succ j => exact .inr ⟨j, v, hj, hv, by rw [Nat.add_right_comm, Nat.add_assoc]⟩

theorem length_positioned (n : Nat) (items : List HostValue) :
    (positioned n items).length = (items.filter fun v => !v.isNil).length := by
  induction items generalizing n with
  | nil => rfl
  | cons a rest ih =>
    rw [positioned, List.length_append, ih, List.filter_cons]
    cases a.isNil with
    | true => exact Nat.zero_add _
    | false => exact Nat.add_comm _ _

theorem filter_eq_self_of_ne_nil (h : ∀ v ∈ items, v ≠ .nil) :
    items.filter (fun v => !v.isNil) = items := by
  refine List.filter_eq_self.2 fun v hv => ?_
  rw [Bool.eq_false_iff.2 (mt isNil_iff.1 (h v hv))]
  rfl

/-- What equals a map whose keys are integers has its keys, with equal values. -/
theorem matches_of_beq {x : HostValue} {m : HostMap} (hint : ∀ e ∈ m, ∃ i, e.1 = .int i)
    (h : (x == .map m) = true) :
    ∃ m', x = .map m' ∧ m'.length = m.length ∧ Marshal.Matches m' m := by
  cases x with
  | map m' =>
    have hand : (m'.length == m.length && eqvEntries m' m) = true := h
    rw [Bool.and_eq_true, beq_iff_eq, HostMap.eqvEntries_iff] at hand
    refine ⟨m', rfl, hand.1, fun e he => ?_⟩
    obtain ⟨e', hfind, hval⟩ := hand.2 e he
    have he' := List.mem_of_find?_eq_some hfind
    have hkey : (e.1 == e'.1) = true :=
      List.find?_some (p := fun x : HostValue × HostValue => e.1 == x.1) hfind
    obtain ⟨i, hi⟩ := hint e' he'
    refine ⟨e', he', ?_, hval⟩
    rw [hi] at hkey ⊢
    cases hk : e.1 with
    | seq _ | map _ =>
      rw [hk] at hkey
      cases hkey
    | _ =>
      rw [hk] at hkey
      exact (eq_of_beq_leaf rfl hkey).symm
  | _ => cases h

end HostValue

namespace Marshal

open Guest (Heap RuntimeRef)
open HostMap

variable {kept rest after items : List HostValue} {m : HostMap}

/-- A pair that matches one of the items is at its position. -/
theorem exists_item_of_matches {xs : List HostValue} (hlen : xs.length < 2 ^ 63)
    (hmatch : Matches m (positioned 1 xs)) {e : HostValue × HostValue} (he : e ∈ m) :
    ∃ j v, xs[j]? = some v ∧ v ≠ .nil ∧ (e.2 == v.normal) = true ∧
      ∀ size n, position? size e.1 = some n ↔ n = j ∧ j < size := by
  obtain ⟨e', he', hkey, hval⟩ := hmatch e he
  obtain ⟨j, v, hj, hv, rfl⟩ := mem_positioned.1 he'
  obtain ⟨hlt, -⟩ := List.getElem?_eq_some_iff.1 hj
  refine ⟨j, v, hj, hv, hval, fun size n => ?_⟩
  have hto : (Int64.ofNat (1 + j)).toInt = 1 + j := Int64.toInt_ofNat_of_lt (by omega)
  rw [← hkey, position?_eq_some]
  constructor
  · rintro ⟨i, hi, hn, hsize⟩
    cases hi
    omega
  · rintro ⟨rfl, hsize⟩
    exact ⟨_, rfl, by omega, hsize⟩

/-- Items before nothing but `nil` are a sequence again. -/
theorem exists_sequence_of_matches (hkept : ∀ v ∈ kept, v ≠ .nil) (hrest : ∀ v ∈ rest, v = .nil)
    (hlen : (kept ++ rest).length < 2 ^ 63) (hm : m.KeysApart)
    (hsize : m.length = (positioned 1 (kept ++ rest)).length)
    (hmatch : Matches m (positioned 1 (kept ++ rest))) :
    ∃ items, m.sequence? = some items ∧
      (HostValue.seq items == .seq (kept.map HostValue.normal)) = true := by
  have hnone : rest.filter (fun v => !v.isNil) = [] := by
    refine List.filter_eq_nil_iff.2 fun v hv => ?_
    rw [hrest v hv]
    simp [HostValue.isNil]
  rw [length_positioned, List.filter_append, hnone, List.append_nil,
    filter_eq_self_of_ne_nil hkept] at hsize
  -- a pair cannot stand for an item of the rest
  have hitem : ∀ e ∈ m, ∃ j v, kept[j]? = some v ∧ (e.2 == v.normal) = true ∧
      ∀ n, position? m.length e.1 = some n ↔ n = j := by
    intro e he
    obtain ⟨j, v, hj, hv, hval, hpos⟩ := exists_item_of_matches hlen hmatch he
    have hlt : j < kept.length := by
      by_contra hge
      rw [List.getElem?_append_right (Nat.le_of_not_lt hge)] at hj
      exact hv (hrest v (List.mem_of_getElem? hj))
    rw [List.getElem?_append_left hlt] at hj
    exact ⟨j, v, hj, hval, fun n => (hpos _ n).trans (and_iff_left (hsize ▸ hlt))⟩
  have hpos : ∀ e ∈ m, ∃ n, position? m.length e.1 = some n := by
    intro e he
    obtain ⟨j, -, -, -, hpos⟩ := hitem e he
    exact ⟨j, (hpos j).2 rfl⟩
  obtain ⟨items, hitems, hlength, hat⟩ := exists_sequence hm hpos
  refine ⟨items, hitems, seq_beq_iff.2 (List.forall₂_iff_get.2 ⟨?_, fun n hn hn' => ?_⟩)⟩
  · rw [hlength, hsize, List.length_map]
  · obtain ⟨e, he, hen⟩ := exists_mem_of_lt hm hpos (hlength ▸ hn)
    obtain ⟨j, v, hj, hval, hpos'⟩ := hitem e he
    have hjn := (hpos' n).1 hen
    have hget := hat e he n hen
    rw [List.getElem?_eq_getElem hn, Option.some.injEq] at hget
    have hnormal : (kept.map HostValue.normal)[n]? = some v.normal := by
      rw [List.getElem?_map, hjn, hj]
      rfl
    rw [List.getElem?_eq_getElem hn', Option.some.injEq] at hnormal
    rw [List.get_eq_getElem, List.get_eq_getElem]
    simp only [hget, hnormal]
    exact hval

/-- With a `nil` before another item the position of the `nil` is no key. -/
theorem sequence?_of_gap (hkept : ∀ v ∈ kept, v ≠ .nil) {v : HostValue} (hv : v ∈ after)
    (hne : v ≠ .nil) (hlen : (kept ++ .nil :: after).length < 2 ^ 63) (hm : m.KeysApart)
    (hsize : m.length = (positioned 1 (kept ++ .nil :: after)).length)
    (hmatch : Matches m (positioned 1 (kept ++ .nil :: after))) : m.sequence? = none := by
  have hmore : 0 < (after.filter fun v => !v.isNil).length := by
    refine List.length_pos_of_mem (List.mem_filter.2 ⟨hv, ?_⟩)
    rw [Bool.eq_false_iff.2 (mt isNil_iff.1 hne)]
    rfl
  rw [length_positioned, List.filter_append, filter_eq_self_of_ne_nil hkept,
    List.length_append, List.filter_cons_of_neg (by simp [HostValue.isNil])] at hsize
  refine Option.eq_none_iff_forall_not_mem.2 fun items hitems => ?_
  have hpos := (exists_sequence_iff hm).1 ⟨items, hitems⟩
  obtain ⟨e, he, hen⟩ := exists_mem_of_lt hm hpos (n := kept.length) (by omega)
  obtain ⟨j, w, hj, hw, -, hpos'⟩ := exists_item_of_matches hlen hmatch he
  obtain ⟨rfl, -⟩ := (hpos' _ _).1 hen
  rw [List.getElem?_append_right (Nat.le_refl _), Nat.sub_self] at hj
  exact hw (Option.some.inj hj).symm

/-- What comes back of a sequence that has gone to a guest. -/
theorem exists_map_of_seq (natives : Array NativeForm) (r : RuntimeRef) (h : Heap)
    {xs : List HostValue} (hcross : crossItems xs = true) (hnest : nestingItems xs ≤ 63)
    (hlen : xs.length < 2 ^ 63) :
    ∃ (g : Guest.Value) (h' : Heap) (m : HostMap),
      toGuest natives r (.seq xs) h = (.ok g, h') ∧ toHost h' g = .ok (.map m) ∧
      m.KeysApart ∧ m.length = (positioned 1 xs).length ∧ Matches m (positioned 1 xs) := by
  obtain ⟨g, h', x, hg, hx, hbeq, -⟩ := (toHost_toGuest natives r (.seq xs) h).2 hcross
    (Nat.succ_le_succ hnest)
  rw [normal_seq hlen] at hbeq
  have hint : ∀ e ∈ positioned 1 xs, ∃ i, e.1 = .int i := by
    intro e he
    obtain ⟨j, v, -, -, rfl⟩ := mem_positioned.1 he
    exact ⟨_, rfl⟩
  obtain ⟨m, rfl, hsize, hmatch⟩ := matches_of_beq hint hbeq
  refine ⟨g, h', m, hg, hx, ?_, hsize, hmatch⟩
  cases isBuilt_of_form hx with
  | leaf hv => cases hv
  | map _ _ hm => exact hm

/-- **Sequences of the host, before and after a guest has had them.**  A map made by inserting is read
as a sequence exactly if its keys are the integers from one to the number of its pairs, and then the
item at each position is the value under its number.  A sequence without host functions and objects
that convert themselves, in whose maps all keys are simple, and no deeper than a guest can give it
back, comes back as one that equals the items up to the first `nil` in their normal form, if nothing
but `nil` stands behind them; if anything else does, what comes back is no sequence.  The positions
of its items are integers of 64 bits: no sequence in memory has as many as `2 ^ 63` of them. -/
theorem sequences_through_guests :
    (∀ ps : List (HostValue × HostValue),
      ((∃ items, (HostValue.map (ofPairs ps)).sequence? = some items) ↔
        (ofPairs ps).IsNumbered) ∧
      ∀ items, (HostValue.map (ofPairs ps)).sequence? = some items →
        items.length = (ofPairs ps).length ∧
        ∀ n < (ofPairs ps).length, ∃ v, items[n]? = some v ∧
          (ofPairs ps).get? (.int (Int64.ofNat (n + 1))) = some v) ∧
    ∀ (natives : Array NativeForm) (r : RuntimeRef) (h : Heap) (xs : List HostValue),
      crossItems xs = true → nestingItems xs ≤ 63 → xs.length < 2 ^ 63 →
      ∃ g h' x, toGuest natives r (.seq xs) h = (.ok g, h') ∧ toHost h' g = .ok x ∧
        let kept := xs.takeWhile fun v => !v.isNil
        let rest := xs.dropWhile fun v => !v.isNil
        ((∀ v ∈ rest, v = .nil) → ∃ items, x.sequence? = some items ∧
          (HostValue.seq items == .seq (kept.map HostValue.normal)) = true) ∧
        ((∃ v ∈ rest, v ≠ .nil) → x.sequence? = none) := by
  refine ⟨fun ps => ?_, fun natives r h xs hcross hnest hlen => ?_⟩
  · have hm := keysApart_ofPairs ps
    refine ⟨(exists_sequence_iff hm).trans (isNumbered_iff hm).symm, fun items hitems => ?_⟩
    exact ⟨((sequence?_eq_some_iff hm).1 hitems).1, fun n hn => getElem?_of_sequence? hm hitems hn⟩
  · obtain ⟨g, h', m, hg, hx, hm, hsize, hmatch⟩ := exists_map_of_seq natives r h hcross hnest hlen
    refine ⟨g, h', .map m, hg, hx, ?_⟩
    intro kept rest
    have hsplit : kept ++ rest = xs := List.takeWhile_append_dropWhile
    have hkept : ∀ v ∈ kept, v ≠ .nil := by
      rintro _ hv rfl
      exact absurd (List.mem_takeWhile_imp hv) (by simp [HostValue.isNil])
    rw [← hsplit] at hlen hsize hmatch
    refine ⟨fun hrest => exists_sequence_of_matches hkept hrest hlen hm hsize hmatch, ?_⟩
    rintro ⟨v, hv, hne⟩
    -- the rest begins with the first `nil`
    have hhead := List.head?_dropWhile_not (fun v : HostValue => !v.isNil) xs
    cases hr : rest with
    | nil =>
      rw [hr] at hv
      cases hv
    | cons a after =>
      have hdrop : xs.dropWhile (fun v => !v.isNil) = a :: after := hr
      rw [hdrop] at hhead
      rw [hr] at hv hlen hsize hmatch
      have ha : a = .nil := isNil_iff.1 (by simpa using hhead)
      subst ha
      rcases List.mem_cons.1 hv with rfl | hv
      · exact absurd rfl hne
      · exact sequence?_of_gap hkept hv hne hlen hm hsize hmatch

/-- Two pairs make a sequence in either order of insertion.  A `nil` at the end of a sequence is left
out by a guest, and with one in the middle there is no sequence any more. -/
theorem gap_ends_sequence :
    (ofPairs [(.int 2, .text "b"), (.int 1, .text "a")]).IsNumbered ∧
    (∃ g h' x, toGuest #[] ⟨0⟩ (.seq [.error "a", .nil]) {} = (.ok g, h') ∧ toHost h' g = .ok x ∧
      ∃ items, x.sequence? = some items ∧ (HostValue.seq items == .seq [.text "a"]) = true) ∧
    ∃ g h' x, toGuest #[] ⟨0⟩ (.seq [.text "a", .nil, .text "b"]) {} = (.ok g, h') ∧
      toHost h' g = .ok x ∧ x.sequence? = none := by
  obtain ⟨hmaps, hseqs⟩ := sequences_through_guests
  refine ⟨(hmaps _).1.1 ⟨[.text "a", .text "b"], rfl⟩, ?_, ?_⟩
  · obtain ⟨g, h', x, hg, hx, hkept, -⟩ :=
      hseqs #[] ⟨0⟩ {} [.error "a", .nil] (by decide) (by decide) (by decide)
    exact ⟨g, h', x, hg, hx, hkept (List.forall_mem_singleton.2 rfl)⟩
  · obtain ⟨g, h', x, hg, hx, -, hgap⟩ :=
      hseqs #[] ⟨0⟩ {} [.text "a", .nil, .text "b"] (by decide) (by decide) (by decide)
    exact ⟨g, h', x, hg, hx, hgap ⟨.text "b", by simp [HostValue.isNil], by simp⟩⟩

end Marshal
end ScriptShell
