import ScriptShell.Proofs.HostEquality

/-! # Equality of values whose maps were made by inserting

Every host map comes about by inserting pairs one after the other (`HostValue.IsInserted`, at every
depth and also in keys).  That no key equals a later one is all that there is to it
(`HostValue.isInserted_iff`): inserting the pairs of such a map again makes the same map
(`HostMap.ofPairs_eq_self`).  So equality is an equivalence on these values, and what it says of two
maps is that they have the same keys with equal values (`HostMap.beq_iff_sameKeys`), in which the
order of the pairs has no part (`HostValue.equality_ignores_insertion_order`).
-/

namespace ScriptShell

open HostValue

namespace HostMap

variable {m m' : HostMap} {k : HostValue}

/-! ## Maps as their own pairs -/

theorem insert_of_fresh (hm : ∀ e ∈ m, (e.1 == k) = false) (v : HostValue) :
    m.insert k v = m ++ [(k, v)] := by
  induction m with
  | nil => rfl
  | cons e rest ih =>
    obtain ⟨he, hrest⟩ := List.forall_mem_cons.1 hm
    rw [insert, he, if_neg Bool.false_ne_true, ih hrest, List.cons_append]

/-- A map with unequal keys is what inserting its own pairs makes. -/
theorem ofPairs_eq_self (hm : m.KeysApart) : ofPairs m = m := by
  induction m using List.reverseRecOn with
  | nil => rfl
  | append_singleton init e ih =>
    obtain ⟨hinit, -, hlast⟩ := List.pairwise_append.1 hm
    have hfresh : ∀ e' ∈ init, (e'.1 == e.1) = false :=
      fun e' he' => hlast e' he' e (List.mem_singleton_self e)
    rw [ofPairs_append_singleton, ih hinit, insert_of_fresh hfresh]

/-! ## Maps with the same keys -/

/-- Each key of one map equals a key of the other. -/
def SameKeys (m m' : HostMap) : Prop :=
  (∀ e ∈ m, ∃ e' ∈ m', (e.1 == e'.1) = true) ∧ ∀ e' ∈ m', ∃ e ∈ m, (e.1 == e'.1) = true

/-- The values of equal keys are equal. -/
def SameValues (m m' : HostMap) : Prop :=
  ∀ e ∈ m, ∀ e' ∈ m', (e.1 == e'.1) = true → (e.2 == e'.2) = true

variable {S : HostValue → Prop}

theorem Covers.sameValues (hS : IsEqvOn S) (hm' : m'.KeysApart) (hs : m.Within S)
    (hs' : m'.Within S) (h : m'.Covers m) : m.SameValues m' := by
  intro e he e' he' hkey
  obtain ⟨x, hx, hkeyx, hvalx⟩ := h e he
  -- `e'` and what covers `e` have one key
  rw [match_unique hS hm' hs' (hs e he).1 he' hx hkey hkeyx]
  exact hvalx

theorem Covers.of_sameKeys (hk : ∀ e ∈ m, ∃ e' ∈ m', (e.1 == e'.1) = true)
    (hv : m.SameValues m') : m'.Covers m := by
  intro e he
  obtain ⟨e', he', hkey⟩ := hk e he
  exact ⟨e', he', hkey, hv e he e' he' hkey⟩

theorem SameValues.symm (hS : IsEqvOn S) (hs : m.Within S) (hs' : m'.Within S)
    (hv : m.SameValues m') : m'.SameValues m := by
  intro e' he' e he hkey
  have hkey' := hS.symm (hs' e' he').1 (hs e he).1 hkey
  exact hS.symm (hs e he).2 (hs' e' he').2 (hv e he e' he' hkey')

/-- Two maps are equal if they have the same keys with equal values, and only then. -/
theorem beq_iff_sameKeys (hS : IsEqvOn S) (hm : m.KeysApart) (hm' : m'.KeysApart)
    (hs : m.Within S) (hs' : m'.Within S) :
    (HostValue.map m == HostValue.map m') = true ↔ m.SameKeys m' ∧ m.SameValues m' := by
  rw [beq_iff hS hm' hs hs']
  constructor
  · rintro ⟨hlen, hcov⟩
    have hcov' : m.Covers m' := hcov.symm hS hm hs hs' hlen
    refine ⟨⟨fun e he => ?_, fun e' he' => ?_⟩, hcov.sameValues hS hm' hs hs'⟩
    · obtain ⟨e', he', hkey, -⟩ := hcov e he
      exact ⟨e', he', hkey⟩
    · obtain ⟨e, he, hkey, -⟩ := hcov' e' he'
      exact ⟨e, he, hS.symm (hs' e' he').1 (hs e he).1 hkey⟩
  · rintro ⟨⟨hkeys, hkeys'⟩, hv⟩
    have hcov : m'.Covers m := .of_sameKeys hkeys hv
    have hcov' : m.Covers m' := by
      refine .of_sameKeys (fun e' he' => ?_) (hv.symm hS hs hs')
      obtain ⟨e, he, hkey⟩ := hkeys' e' he'
      exact ⟨e, he, hS.symm (hs e he).1 (hs' e' he').1 hkey⟩
    -- neither map has more keys than the other has matches for
    have hle := length_le_of_matched hcov (hm.matchedApart hS hs hs')
    have hge := length_le_of_matched hcov' (hm'.matchedApart hS hs' hs)
    exact ⟨Nat.le_antisymm hle hge, hcov⟩

/-- To cover a map is to have, under each key of it, a value equal to the value there. -/
theorem covers_iff_get? (hS : IsEqvOn S) (hm' : m'.KeysApart) (hs : m.Within S)
    (hs' : m'.Within S) :
    m'.Covers m ↔ ∀ e ∈ m, ∃ v, m'.get? e.1 = some v ∧ (v == e.2) = true := by
  refine forall_congr' fun e => forall_congr' fun he => ?_
  constructor
  · rintro ⟨e', he', hkey, hval⟩
    exact ⟨e'.2, get?_of_beq hS hm' hs' (hs e he).1 he' hkey,
      hS.symm (hs e he).2 (hs' e' he').2 hval⟩
  · rintro ⟨v, hget, hval⟩
    obtain ⟨e', he', hkey, rfl⟩ := exists_of_get? hget
    exact ⟨e', he', hS.symm (hs' e' he').1 (hs e he).1 hkey,
      hS.symm (hs' e' he').2 (hs e he).2 hval⟩

end HostMap

namespace HostValue

variable {v : HostValue}

/-! ## Values made by inserting -/

/-- Every map in a value, at every depth, also in keys, was made by inserting pairs. -/
inductive IsInserted : HostValue → Prop
  /-- A value that is neither a sequence nor a map. -/
  | leaf {v : HostValue} (hv : v.nesting = 0) : IsInserted v
  /-- A sequence of such values. -/
  | seq {items : List HostValue} (h : ∀ v ∈ items, IsInserted v) : IsInserted (.seq items)
  /-- What inserting such keys and values, one pair after the other, makes. -/
  | map {ps : List (HostValue × HostValue)} (hk : ∀ p ∈ ps, IsInserted p.1)
    (hv : ∀ p ∈ ps, IsInserted p.2) : IsInserted (.map (HostMap.ofPairs ps))

/-- Inserting is what keeps keys apart, and it makes all maps whose keys are apart. -/
theorem isInserted_iff : v.IsInserted ↔ v.IsBuilt := by
  constructor
  · intro h
    induction h with
    | leaf hv => exact .leaf hv
    | seq _ ih => exact .seq ih
    | map _ _ ihk ihv => exact HostMap.isBuilt_ofPairs fun p hp => ⟨ihk p hp, ihv p hp⟩
  · intro h
    induction h with
    | leaf hv => exact .leaf hv
    | seq _ ih => exact .seq ih
    | map _ _ hm ihk ihv =>
      rw [← HostMap.ofPairs_eq_self hm]
      exact .map ihk ihv

theorem IsInserted.entries {m : HostMap} (h : (HostValue.map m).IsInserted) :
    m.KeysApart ∧ m.Within IsBuilt := by
  cases isInserted_iff.1 h with
  | leaf hv => simp [nesting] at hv
  | map hk hv hm => exact ⟨hm, fun e he => ⟨hk e he, hv e he⟩⟩

/-- Equality is an equivalence on these values. -/
theorem beq_equivalence :
    Equivalence fun a b : { v : HostValue // v.IsInserted } => (a.1 == b.1) = true where
  refl a := beq_refl (isInserted_iff.1 a.2)
  symm {a b} hab := isEqvOn_isBuilt.symm (isInserted_iff.1 a.2) (isInserted_iff.1 b.2) hab
  trans {a b c} hab hbc :=
    isEqvOn_isBuilt.trans (isInserted_iff.1 a.2) (isInserted_iff.1 b.2) (isInserted_iff.1 c.2) hab hbc

end HostValue

namespace HostMap

/-! ## The order of insertion -/

variable {ps qs : List (HostValue × HostValue)}

/-- Keys that are apart are so in any order. -/
theorem KeysApart.perm (hps : ∀ p ∈ ps, p.1.IsBuilt) (hk : KeysApart ps) (hperm : ps.Perm qs) :
    KeysApart qs := by
  -- equality is symmetric on built keys only, so the relation to permute speaks of those
  have hbuilt : ps.Pairwise fun p q => p.1.IsBuilt → q.1.IsBuilt → (p.1 == q.1) = false :=
    List.Pairwise.imp (fun hne _ _ => hne) hk
  have hsymm : ∀ {p q : HostValue × HostValue},
      (p.1.IsBuilt → q.1.IsBuilt → (p.1 == q.1) = false) →
      q.1.IsBuilt → p.1.IsBuilt → (q.1 == p.1) = false := by
    intro p q hne hq hp
    rw [Bool.eq_false_iff]
    exact fun hqp => Bool.eq_false_iff.1 (hne hp hq) (isEqvOn_isBuilt.symm hq hp hqp)
  refine List.Pairwise.imp_of_mem (fun hp hq hne => ?_) ((hperm.pairwise_iff hsymm).1 hbuilt)
  exact hne (hps _ (hperm.mem_iff.2 hp)) (hps _ (hperm.mem_iff.2 hq))

/-- Inserting pairs with unequal keys makes equal maps in any order. -/
theorem ofPairs_perm (hps : ∀ p ∈ ps, p.1.IsBuilt ∧ p.2.IsBuilt) (hk : KeysApart ps)
    (hperm : ps.Perm qs) : (HostValue.map (ofPairs ps) == .map (ofPairs qs)) = true := by
  have hk' : KeysApart qs := hk.perm (fun p hp => (hps p hp).1) hperm
  have hqs : Within IsBuilt qs := fun p hp => hps p (hperm.mem_iff.2 hp)
  rw [ofPairs_eq_self hk, ofPairs_eq_self hk', beq_iff isEqvOn_isBuilt hk' hps hqs]
  refine ⟨hperm.length_eq, fun p hp => ?_⟩
  exact ⟨p, hperm.mem_iff.1 hp, beq_refl (hps p hp).1, beq_refl (hps p hp).2⟩

end HostMap

/-- **Equality of host values** is an equivalence on all values whose maps were made by inserting.
Maps that were made by inserting the same pairs with unequal keys are equal, whatever the order.  Two
maps are equal exactly if they have the same keys with equal values, and for that it is enough that
they are as long as each other and that each key of the one is found in the other. -/
theorem HostValue.equality_ignores_insertion_order :
    (Equivalence fun a b : { v : HostValue // v.IsInserted } => (a.1 == b.1) = true) ∧
    (∀ ps qs : List (HostValue × HostValue), (∀ p ∈ ps, p.1.IsInserted ∧ p.2.IsInserted) →
      ps.Pairwise (fun p q => (p.1 == q.1) = false) → ps.Perm qs →
      (HostValue.map (HostMap.ofPairs ps) == .map (HostMap.ofPairs qs)) = true) ∧
    ∀ m m' : HostMap, (HostValue.map m).IsInserted → (HostValue.map m').IsInserted →
      ((HostValue.map m == .map m') = true ↔ m.SameKeys m' ∧ m.SameValues m') ∧
      ((HostValue.map m == .map m') = true ↔ m.length = m'.length ∧
        ∀ e ∈ m, ∃ v, m'.get? e.1 = some v ∧ (v == e.2) = true) := by
  refine ⟨beq_equivalence, fun ps qs hps hk hperm => ?_, fun m m' hm hm' => ?_⟩
  · exact HostMap.ofPairs_perm
      (fun p hp => ⟨isInserted_iff.1 (hps p hp).1, isInserted_iff.1 (hps p hp).2⟩) hk hperm
  · obtain ⟨hkeys, hs⟩ := hm.entries
    obtain ⟨hkeys', hs'⟩ := hm'.entries
    rw [← HostMap.covers_iff_get? isEqvOn_isBuilt hkeys' hs hs']
    exact ⟨HostMap.beq_iff_sameKeys isEqvOn_isBuilt hkeys hkeys' hs hs',
      HostMap.beq_iff isEqvOn_isBuilt hkeys' hs hs'⟩

/-- Two pairs inserted in either order make equal maps; maps with these as their keys are equal too,
either way round. -/
theorem HostValue.maps_as_keys_equal :
    let pairs : List (HostValue × HostValue) := [(.int 1, .text "a"), (.text "k", .seq [.nil])]
    let forth : HostValue := .map (HostMap.ofPairs pairs)
    let back : HostValue := .map (HostMap.ofPairs pairs.reverse)
    let outer (key : HostValue) : HostMap := HostMap.ofPairs [(key, .bool true)]
    (forth == back) = true ∧
      ((HostValue.map (outer forth) == .map (outer back)) = true ↔
        (outer forth).SameKeys (outer back) ∧ (outer forth).SameValues (outer back)) ∧
      (HostValue.map (outer back) == .map (outer forth)) = true := by
  intro pairs forth back outer
  obtain ⟨hequiv, horder, hsame⟩ := equality_ignores_insertion_order
  have hpairs : ∀ p ∈ pairs, p.1.IsInserted ∧ p.2.IsInserted := by
    have hitems : ∀ v ∈ [HostValue.nil], v.IsInserted :=
      List.forall_mem_singleton.2 (.leaf rfl)
    exact List.forall_mem_cons.2 ⟨⟨.leaf rfl, .leaf rfl⟩,
      List.forall_mem_singleton.2 ⟨.leaf rfl, .seq hitems⟩⟩
  have hforth : forth.IsInserted := .map (fun p hp => (hpairs p hp).1) fun p hp => (hpairs p hp).2
  have hback : back.IsInserted :=
    .map (fun p hp => (hpairs p (List.mem_reverse.1 hp)).1)
      fun p hp => (hpairs p (List.mem_reverse.1 hp)).2
  have houter {key : HostValue} (h : key.IsInserted) : (HostValue.map (outer key)).IsInserted :=
    .map (List.forall_mem_singleton.2 h) (List.forall_mem_singleton.2 (.leaf rfl))
  have hkeys : (forth == back) = true :=
    horder pairs pairs.reverse hpairs (by decide) (List.reverse_perm pairs).symm
  have hiff := (hsame (outer forth) (outer back) (houter hforth) (houter hback)).1
  have heq : (HostValue.map (outer forth) == .map (outer back)) = true :=
    hiff.2 ⟨⟨List.forall_mem_singleton.2 ⟨_, List.mem_singleton_self _, hkeys⟩,
        List.forall_mem_singleton.2 ⟨_, List.mem_singleton_self _, hkeys⟩⟩,
      List.forall_mem_singleton.2 (List.forall_mem_singleton.2 fun _ => rfl)⟩
  exact ⟨hkeys, hiff,
    hequiv.symm (x := ⟨_, houter hforth⟩) (y := ⟨_, houter hback⟩) heq⟩

end ScriptShell
