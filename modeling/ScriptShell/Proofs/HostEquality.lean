import Mathlib.Data.Fintype.EquivFin
import Mathlib.Data.List.Forall2
import ScriptShell.Proofs.NormalForms

/-! # Equality of host values

Two maps are equal if they are as long as each other and each pair of the one has its match in the
other.  For maps that have two equal keys this says little; for those that were built by inserting
pairs, at every depth (`HostValue.IsBuilt`), it is an equivalence
(`HostValue.isEqvOn_isBuilt`, `HostValue.beq_refl`).  Symmetry and transitivity come together, by
induction on the nesting: different keys of a map cannot have one match (`HostMap.match_unique`), so
that as many matches as there are keys use up the other map (`exists_preimage`), and what is found
first is the only match (`HostMap.find?_eq`).

Maps that pairs are inserted into one after the other are described at the end: their keys are apart
(`HostMap.keysApart_ofPairs`), and each key has the value that was inserted last
(`HostMap.get?_ofPairs`).
-/

namespace ScriptShell

/-! ## Lists that are matched one to one -/

section OneToOne

variable {α β : Type} {R : α → β → Prop} {as : List α} {bs : List β}

/-- No two members of the first list have one match in the second. -/
def MatchedApart (R : α → β → Prop) (as : List α) (bs : List β) : Prop :=
  as.Pairwise fun a a' => ∀ b ∈ bs, R a b → ¬R a' b

theorem exists_injection (hR : ∀ a ∈ as, ∃ b ∈ bs, R a b) (hapart : MatchedApart R as bs) :
    ∃ f : Fin as.length → Fin bs.length, Function.Injective f ∧ ∀ i, R (as.get i) (bs.get (f i)) := by
  have hget : ∀ i : Fin as.length, ∃ j : Fin bs.length, R (as.get i) (bs.get j) := by
    intro i
    obtain ⟨b, hb, hr⟩ := hR (as.get i) (List.get_mem as i)
    obtain ⟨j, rfl⟩ := List.get_of_mem hb
    exact ⟨j, hr⟩
  choose f hf using hget
  refine ⟨f, fun i j hij => ?_, hf⟩
  have hlt : ∀ i j : Fin as.length, i < j → f i ≠ f j := by
    intro i j hlt he
    have hi := hf i
    rw [he] at hi
    exact List.pairwise_iff_get.1 hapart i j hlt _ (List.get_mem bs _) hi (hf j)
  obtain hlt' | he | hgt := lt_trichotomy i j
  · exact absurd hij (hlt i j hlt')
  · exact he
  · exact absurd hij.symm (hlt j i hgt)

theorem length_le_of_matched (hR : ∀ a ∈ as, ∃ b ∈ bs, R a b) (hapart : MatchedApart R as bs) :
    as.length ≤ bs.length := by
  obtain ⟨f, hf, -⟩ := exists_injection hR hapart
  simpa using Fintype.card_le_of_injective f hf

/-- If there are as many, then all of the second list are matches. -/
theorem exists_preimage (hlen : as.length = bs.length) (hR : ∀ a ∈ as, ∃ b ∈ bs, R a b)
    (hapart : MatchedApart R as bs) : ∀ b ∈ bs, ∃ a ∈ as, R a b := by
  obtain ⟨f, hf, hr⟩ := exists_injection hR hapart
  have hsurj := ((Fintype.bijective_iff_injective_and_card f).2 ⟨hf, by simp [hlen]⟩).2
  intro b hb
  obtain ⟨j, rfl⟩ := List.get_of_mem hb
  obtain ⟨i, rfl⟩ := hsurj j
  exact ⟨as.get i, List.get_mem as i, hr i⟩

end OneToOne

open HostValue

/-! ## Maps with unequal keys -/

namespace HostMap

/-- No key equals a later one. -/
def KeysApart (m : HostMap) : Prop := m.Pairwise fun e e' => (e.1 == e'.1) = false

/-- Each pair of the first map has an equal pair in the second. -/
def Covers (m' m : HostMap) : Prop :=
  ∀ e ∈ m, ∃ e' ∈ m', (e.1 == e'.1) = true ∧ (e.2 == e'.2) = true

end HostMap

namespace HostValue

/-- Whether equality is symmetric and transitive among some values. -/
structure IsEqvOn (S : HostValue → Prop) : Prop where
  /-- It is symmetric. -/
  symm : ∀ {a b}, S a → S b → (a == b) = true → (b == a) = true
  /-- It is transitive. -/
  trans : ∀ {a b c}, S a → S b → S c → (a == b) = true → (b == c) = true → (a == c) = true

end HostValue

namespace HostMap

/-- All keys and values are among some values. -/
def Within (S : HostValue → Prop) (m : HostMap) : Prop := ∀ e ∈ m, S e.1 ∧ S e.2

variable {S : HostValue → Prop} {m m' m'' : HostMap} {e e' x : HostValue × HostValue}
  {k k' v : HostValue}

/-- The pair of a key is the only one. -/
theorem match_unique (hS : IsEqvOn S) (hm : m.KeysApart) (hs : m.Within S) (hk : S k) (he : e ∈ m)
    (he' : e' ∈ m) (hke : (k == e.1) = true) (hke' : (k == e'.1) = true) : e = e' := by
  have hee' := hS.trans (hs e he).1 hk (hs e' he').1 (hS.symm hk (hs e he).1 hke) hke'
  have he'e := hS.symm (hs e he).1 (hs e' he').1 hee'
  obtain ⟨i, rfl⟩ := List.get_of_mem he
  obtain ⟨j, rfl⟩ := List.get_of_mem he'
  have hapart := List.pairwise_iff_get.1 hm
  obtain hlt | heq | hgt := lt_trichotomy i j
  · exact absurd hee' (Bool.eq_false_iff.1 (hapart i j hlt))
  · rw [heq]
  · exact absurd he'e (Bool.eq_false_iff.1 (hapart j i hgt))

/-- What is found first is the only match. -/
theorem find?_eq (hS : IsEqvOn S) (hm : m.KeysApart) (hs : m.Within S) (hk : S k) (he : e ∈ m)
    (hke : (k == e.1) = true) : (m.find? fun x => k == x.1) = some e := by
  obtain ⟨x, hx⟩ : ∃ x, (m.find? fun x => k == x.1) = some x :=
    Option.isSome_iff_exists.1 (List.find?_isSome.2 ⟨e, he, hke⟩)
  have hkx : (k == x.1) = true :=
    List.find?_some (p := fun x : HostValue × HostValue => k == x.1) hx
  rw [hx, match_unique hS hm hs hk (List.mem_of_find?_eq_some hx) he hkx hke]

theorem eqvEntries_iff {es : HostMap} :
    eqvEntries es m = true ↔
      ∀ e ∈ es, ∃ e', (m.find? fun x => e.1 == x.1) = some e' ∧ (e.2 == e'.2) = true := by
  induction es with
  | nil => exact iff_of_true rfl fun _ he => (List.not_mem_nil he).elim
  | cons a rest ih =>
    obtain ⟨k, v⟩ := a
    rw [List.forall_mem_cons, ← ih, eqvEntries, Bool.and_eq_true]
    refine and_congr_left fun _ => ?_
    show _ ↔ ∃ e', (m.find? fun x => eqv k x.1) = some e' ∧ eqv v e'.2 = true
    cases m.find? fun x => eqv k x.1 with
    | none => simp
    | some e => simp

/-- Equality of maps, where it behaves well on what they consist of. -/
theorem beq_iff (hS : IsEqvOn S) (hm' : m'.KeysApart) (hs : m.Within S) (hs' : m'.Within S) :
    (HostValue.map m == HostValue.map m') = true ↔ m.length = m'.length ∧ m'.Covers m := by
  show (m.length == m'.length && eqvEntries m m') = true ↔ _
  rw [Bool.and_eq_true, beq_iff_eq, eqvEntries_iff]
  refine and_congr_right fun _ => forall_congr' fun e => imp_congr_right fun he => ?_
  constructor
  · rintro ⟨e', hfind, hval⟩
    exact ⟨e', List.mem_of_find?_eq_some hfind,
      List.find?_some (p := fun x : HostValue × HostValue => e.1 == x.1) hfind, hval⟩
  · rintro ⟨e', he', hkey, hval⟩
    exact ⟨e', find?_eq hS hm' hs' (hs e he).1 he' hkey, hval⟩

theorem Covers.trans (hS : IsEqvOn S) (hs : m.Within S) (hs' : m'.Within S) (hs'' : m''.Within S)
    (h : m'.Covers m) (h' : m''.Covers m') : m''.Covers m := by
  intro e he
  obtain ⟨e', he', hkey, hval⟩ := h e he
  obtain ⟨e'', he'', hkey', hval'⟩ := h' e' he'
  exact ⟨e'', he'', hS.trans (hs e he).1 (hs' e' he').1 (hs'' e'' he'').1 hkey hkey',
    hS.trans (hs e he).2 (hs' e' he').2 (hs'' e'' he'').2 hval hval'⟩

/-- Different keys have different matches. -/
theorem KeysApart.matchedApart (hS : IsEqvOn S) (hm : m.KeysApart) (hs : m.Within S)
    (hs' : m'.Within S) :
    MatchedApart (fun e e' : HostValue × HostValue => (e.1 == e'.1) = true ∧ (e.2 == e'.2) = true)
      m m' := by
  refine List.Pairwise.imp_of_mem (fun {a b} ha hb hne => ?_) hm
  rintro e' he' ⟨hae, -⟩ ⟨hbe, -⟩
  have hkey := hS.symm (hs b hb).1 (hs' e' he').1 hbe
  exact Bool.eq_false_iff.1 hne (hS.trans (hs a ha).1 (hs' e' he').1 (hs b hb).1 hae hkey)

theorem Covers.symm (hS : IsEqvOn S) (hm : m.KeysApart) (hs : m.Within S) (hs' : m'.Within S)
    (hlen : m.length = m'.length) (h : m'.Covers m) : m.Covers m' := by
  intro e' he'
  obtain ⟨e, he, hkey, hval⟩ := exists_preimage hlen h (hm.matchedApart hS hs hs') e' he'
  exact ⟨e, he, hS.symm (hs e he).1 (hs' e' he').1 hkey, hS.symm (hs e he).2 (hs' e' he').2 hval⟩

end HostMap

/-! ## Values that were built by inserting -/

namespace HostValue

/-- The maps in a value, at every depth, also in keys, have no two equal keys. -/
inductive IsBuilt : HostValue → Prop
  /-- A value that is neither a sequence nor a map. -/
  | leaf {v : HostValue} (hv : v.nesting = 0) : IsBuilt v
  /-- A sequence of such values. -/
  | seq {items : List HostValue} (h : ∀ v ∈ items, IsBuilt v) : IsBuilt (.seq items)
  /-- A map of such keys and values. -/
  | map {m : HostMap} (hk : ∀ e ∈ m, IsBuilt e.1) (hv : ∀ e ∈ m, IsBuilt e.2)
    (hm : m.KeysApart) : IsBuilt (.map m)

variable {a b : HostValue} {n : Nat}

theorem nestingItems_le {items : List HostValue} :
    nestingItems items ≤ n ↔ ∀ v ∈ items, v.nesting ≤ n := by
  induction items with
  | nil => simp [nestingItems]
  | cons v rest ih => rw [nestingItems, Nat.max_le, ih, List.forall_mem_cons]

theorem nestingEntries_le {m : HostMap} :
    nestingEntries m ≤ n ↔ m.Within fun v => v.nesting ≤ n := by
  induction m with
  | nil => simp [nestingEntries, HostMap.Within]
  | cons e rest ih =>
    rw [nestingEntries, Nat.max_le, Nat.max_le, ih, HostMap.Within, HostMap.Within,
      List.forall_mem_cons]

/-- Apart from sequences and maps, what is equal is the same. -/
theorem eq_of_beq_leaf (ha : a.nesting = 0) (h : (a == b) = true) : a = b := by
  cases a with
  | seq _ | map _ => simp [nesting] at ha
  | _ => cases b <;> simp_all [eqv, show ∀ x y : HostValue, (x == y) = eqv x y from fun _ _ => rfl]

theorem eq_text_of_beq {v : HostValue} {s : String} (h : (v == .text s) = true) : v = .text s := by
  cases v with
  | seq _ | map _ => cases h
  | _ => exact eq_of_beq_leaf rfl h

theorem beq_self_leaf (ha : a.nesting = 0) : (a == a) = true := by
  show eqv a a = true
  cases a with
  | seq _ | map _ => simp [nesting] at ha
  | _ => simp [eqv]

theorem seq_beq_iff {as bs : List HostValue} :
    (seq as == seq bs) = true ↔ List.Forall₂ (fun a b => (a == b) = true) as bs := by
  show eqvItems as bs = true ↔ _
  induction as generalizing bs with
  | nil => cases bs <;> simp [eqvItems]
  | cons a as ih =>
    cases bs with
    | nil => simp [eqvItems]
    | cons b bs =>
      rw [eqvItems, Bool.and_eq_true, ih, List.forall₂_cons]
      rfl

theorem eq_seq_of_beq {as : List HostValue} (h : (seq as == b) = true) : ∃ bs, b = .seq bs := by
  cases b with
  | seq bs => exact ⟨bs, rfl⟩
  | _ => cases h

theorem eq_map_of_beq {m : HostMap} (h : (HostValue.map m == b) = true) : ∃ m', b = .map m' := by
  cases b with
  | map m' => exact ⟨m', rfl⟩
  | _ => cases h

theorem IsEqvOn.forall₂_symm {S : HostValue → Prop} (hS : IsEqvOn S) {as bs : List HostValue}
    (has : ∀ v ∈ as, S v) (hbs : ∀ v ∈ bs, S v)
    (h : List.Forall₂ (fun a b => (a == b) = true) as bs) :
    List.Forall₂ (fun a b => (a == b) = true) bs as := by
  induction h with
  | nil => exact .nil
  | cons hab _ ih =>
    rw [List.forall_mem_cons] at has hbs
    exact .cons (hS.symm has.1 hbs.1 hab) (ih has.2 hbs.2)

theorem IsEqvOn.forall₂_trans {S : HostValue → Prop} (hS : IsEqvOn S) {as bs cs : List HostValue}
    (has : ∀ v ∈ as, S v) (hbs : ∀ v ∈ bs, S v) (hcs : ∀ v ∈ cs, S v)
    (h : List.Forall₂ (fun a b => (a == b) = true) as bs)
    (h' : List.Forall₂ (fun a b => (a == b) = true) bs cs) :
    List.Forall₂ (fun a b => (a == b) = true) as cs := by
  induction h generalizing cs with
  | nil => exact h'
  | cons hab _ ih =>
    obtain _ | ⟨hbc, hrest⟩ := h'
    rw [List.forall_mem_cons] at has hbs hcs
    exact .cons (hS.trans has.1 hbs.1 hcs.1 hab hbc) (ih has.2 hbs.2 hcs.2 hrest)

/-- The values that are built and not nested deeper than `n`. -/
def BuiltWithin (n : Nat) (v : HostValue) : Prop := v.IsBuilt ∧ v.nesting ≤ n

theorem BuiltWithin.items {items : List HostValue} (h : BuiltWithin (n + 1) (.seq items)) :
    ∀ v ∈ items, BuiltWithin n v := by
  obtain ⟨hb, hn⟩ := h
  have hle := nestingItems_le.1 (Nat.le_of_succ_le_succ hn)
  cases hb with
  | leaf hv => simp [nesting] at hv
  | seq hitems => exact fun v hv => ⟨hitems v hv, hle v hv⟩

theorem BuiltWithin.entries {m : HostMap} (h : BuiltWithin (n + 1) (.map m)) :
    m.Within (BuiltWithin n) ∧ m.KeysApart := by
  obtain ⟨hb, hn⟩ := h
  have hle := nestingEntries_le.1 (Nat.le_of_succ_le_succ hn)
  cases hb with
  | leaf hv => simp [nesting] at hv
  | map hk hv hm => exact ⟨fun e he => ⟨⟨hk e he, (hle e he).1⟩, hv e he, (hle e he).2⟩, hm⟩

/-- Equality is symmetric and transitive down to any depth. -/
theorem isEqvOn_builtWithin (n : Nat) : IsEqvOn (BuiltWithin n) := by
  induction n with
  | zero =>
    refine ⟨fun {a b} ha hb hab => ?_, fun {a b c} ha _ _ hab hbc => ?_⟩
    · have heq := eq_of_beq_leaf (Nat.le_zero.1 ha.2) hab
      exact heq ▸ hab
    · have heq := eq_of_beq_leaf (Nat.le_zero.1 ha.2) hab
      exact heq ▸ hbc
  | succ n hS =>
    constructor
    · intro a b ha hb hab
      cases a with
      | seq as =>
        obtain ⟨bs, rfl⟩ := eq_seq_of_beq hab
        exact seq_beq_iff.2 (hS.forall₂_symm ha.items hb.items (seq_beq_iff.1 hab))
      | map m =>
        obtain ⟨m', rfl⟩ := eq_map_of_beq hab
        obtain ⟨hs, hm⟩ := ha.entries
        obtain ⟨hs', hm'⟩ := hb.entries
        obtain ⟨hlen, hcov⟩ := (HostMap.beq_iff hS hm' hs hs').1 hab
        -- with as many pairs on both sides, covering one way is covering the other way
        exact (HostMap.beq_iff hS hm hs' hs).2 ⟨hlen.symm, hcov.symm hS hm hs hs' hlen⟩
      | _ => exact eq_of_beq_leaf rfl hab ▸ hab
    · intro a b c ha hb hc hab hbc
      cases a with
      | seq as =>
        obtain ⟨bs, rfl⟩ := eq_seq_of_beq hab
        obtain ⟨cs, rfl⟩ := eq_seq_of_beq hbc
        exact seq_beq_iff.2 (hS.forall₂_trans ha.items hb.items hc.items (seq_beq_iff.1 hab)
          (seq_beq_iff.1 hbc))
      | map m =>
        obtain ⟨m', rfl⟩ := eq_map_of_beq hab
        obtain ⟨m'', rfl⟩ := eq_map_of_beq hbc
        obtain ⟨hs, hm⟩ := ha.entries
        obtain ⟨hs', hm'⟩ := hb.entries
        obtain ⟨hs'', hm''⟩ := hc.entries
        obtain ⟨hlen, hcov⟩ := (HostMap.beq_iff hS hm' hs hs').1 hab
        obtain ⟨hlen', hcov'⟩ := (HostMap.beq_iff hS hm'' hs' hs'').1 hbc
        exact (HostMap.beq_iff hS hm'' hs hs'').2
          ⟨hlen.trans hlen', hcov.trans hS hs hs' hs'' hcov'⟩
      | _ => exact eq_of_beq_leaf rfl hab ▸ hbc

/-- Equality is symmetric and transitive among all built values. -/
theorem isEqvOn_isBuilt : IsEqvOn IsBuilt := by
  constructor
  · intro a b ha hb
    exact (isEqvOn_builtWithin (max a.nesting b.nesting)).symm ⟨ha, Nat.le_max_left ..⟩
      ⟨hb, Nat.le_max_right ..⟩
  · intro a b c ha hb hc
    exact (isEqvOn_builtWithin (max a.nesting (max b.nesting c.nesting))).trans
      ⟨ha, by omega⟩ ⟨hb, by omega⟩ ⟨hc, by omega⟩

theorem beq_comm (ha : a.IsBuilt) (hb : b.IsBuilt) : (a == b) = (b == a) :=
  Bool.eq_iff_iff.2 ⟨isEqvOn_isBuilt.symm ha hb, isEqvOn_isBuilt.symm hb ha⟩

/-- A built value equals itself. -/
theorem beq_refl (ha : a.IsBuilt) : (a == a) = true := by
  induction ha with
  | leaf hv => exact beq_self_leaf hv
  | seq _ ih => exact seq_beq_iff.2 (List.forall₂_same.2 ih)
  | @map m hk hv hm ihk ihv =>
    have hs : m.Within IsBuilt := fun e he => ⟨hk e he, hv e he⟩
    refine (HostMap.beq_iff isEqvOn_isBuilt hm hs hs).2 ⟨rfl, fun e he => ?_⟩
    exact ⟨e, he, ihk e he, ihv e he⟩

end HostValue

/-! ## Inserting -/

namespace HostMap

variable {m m' : HostMap} {e : HostValue × HostValue} {k k' v : HostValue}
  {ps : List (HostValue × HostValue)}

/-- A pair of a map after an insertion is the new one, perhaps with an equal key of before, or one of
before. -/
theorem mem_of_mem_insert (he : e ∈ m.insert k v) :
    (e.2 = v ∧ (e.1 = k ∨ (e.1 == k) = true ∧ ∃ e' ∈ m, e'.1 = e.1)) ∨ e ∈ m := by
  induction m with
  | nil => exact .inl (by simp [List.mem_singleton.1 he])
  | cons a rest ih =>
    rw [insert] at he
    split at he
    · next hk =>
      obtain rfl | he := List.mem_cons.1 he
      · exact .inl ⟨rfl, .inr ⟨hk, a, List.mem_cons_self, rfl⟩⟩
      · exact .inr (List.mem_cons_of_mem a he)
    · obtain rfl | he := List.mem_cons.1 he
      · exact .inr List.mem_cons_self
      · obtain ⟨hv, hk | ⟨hk, e', he', hkey⟩⟩ | he := ih he
        · exact .inl ⟨hv, .inl hk⟩
        · exact .inl ⟨hv, .inr ⟨hk, e', List.mem_cons_of_mem a he', hkey⟩⟩
        · exact .inr (List.mem_cons_of_mem a he)

theorem KeysApart.insert (hm : m.KeysApart) (k v : HostValue) : (m.insert k v).KeysApart := by
  induction m with
  | nil => exact List.pairwise_singleton _ _
  | cons a rest ih =>
    obtain ⟨ha, hrest⟩ := List.pairwise_cons.1 hm
    rw [HostMap.insert]
    split
    · exact List.pairwise_cons.2 ⟨ha, hrest⟩
    · next hk =>
      refine List.pairwise_cons.2 ⟨fun e he => ?_, ih hrest⟩
      obtain ⟨-, hkey | ⟨-, e', he', hkey⟩⟩ | he := mem_of_mem_insert he
      · rw [hkey]
        exact Bool.eq_false_iff.2 hk
      · rw [← hkey]
        exact ha e' he'
      · exact ha e he

/-- The keys of a map that pairs were inserted into are apart. -/
theorem keysApart_ofPairs (ps : List (HostValue × HostValue)) : (ofPairs ps).KeysApart := by
  have hfold : ∀ m : HostMap, m.KeysApart →
      KeysApart (ps.foldl (fun m p => m.insert p.1 p.2) m) := by
    induction ps with
    | nil => exact fun m hm => hm
    | cons p rest ih => exact fun m hm => ih _ (hm.insert p.1 p.2)
  exact hfold [] .nil

theorem ofPairs_append_singleton (ps : List (HostValue × HostValue)) (p : HostValue × HostValue) :
    ofPairs (ps ++ [p]) = (ofPairs ps).insert p.1 p.2 := by
  rw [ofPairs, List.foldl_append]
  rfl

/-- Each pair of it has a key and a value that were inserted. -/
theorem mem_of_mem_ofPairs (he : e ∈ ofPairs ps) :
    (∃ p ∈ ps, e.1 = p.1) ∧ ∃ p ∈ ps, e.2 = p.2 := by
  induction ps using List.reverseRecOn generalizing e with
  | nil => cases he
  | append_singleton ps p ih =>
    rw [ofPairs_append_singleton] at he
    have hold {e' : HostValue × HostValue} (he' : e' ∈ ofPairs ps) :
        (∃ q ∈ ps ++ [p], e'.1 = q.1) ∧ ∃ q ∈ ps ++ [p], e'.2 = q.2 := by
      obtain ⟨⟨q, hq, hk⟩, q', hq', hv⟩ := ih he'
      exact ⟨⟨q, List.mem_append_left _ hq, hk⟩, q', List.mem_append_left _ hq', hv⟩
    have hlast : p ∈ ps ++ [p] := List.mem_append_right ps (List.mem_singleton_self p)
    obtain ⟨hv, hk | ⟨-, e', he', hkey⟩⟩ | he := mem_of_mem_insert he
    · exact ⟨⟨p, hlast, hk⟩, p, hlast, hv⟩
    · rw [← hkey]
      exact ⟨(hold he').1, p, hlast, hv⟩
    · exact hold he

theorem within_ofPairs {S : HostValue → Prop} (hps : ∀ p ∈ ps, S p.1 ∧ S p.2) :
    (ofPairs ps).Within S := by
  intro e he
  obtain ⟨⟨p, hp, hk⟩, p', hp', hv⟩ := mem_of_mem_ofPairs he
  rw [hk, hv]
  exact ⟨(hps p hp).1, (hps p' hp').2⟩

theorem isBuilt_ofPairs (hps : ∀ p ∈ ps, p.1.IsBuilt ∧ p.2.IsBuilt) :
    (HostValue.map (ofPairs ps)).IsBuilt :=
  .map (fun e he => (within_ofPairs hps e he).1) (fun e he => (within_ofPairs hps e he).2)
    (keysApart_ofPairs ps)

theorem exists_of_get? (h : m.get? k = some v) : ∃ e ∈ m, (e.1 == k) = true ∧ e.2 = v := by
  obtain ⟨e, he, rfl⟩ := Option.map_eq_some_iff.1 h
  exact ⟨e, List.mem_of_find?_eq_some he,
    List.find?_some (p := fun e : HostValue × HostValue => e.1 == k) he, rfl⟩

/-- A pair is found under each key that equals its own. -/
theorem get?_of_beq {S : HostValue → Prop} (hS : IsEqvOn S) (hm : m.KeysApart) (hs : m.Within S)
    (hk : S k) (he : e ∈ m) (hke : (k == e.1) = true) : m.get? k = some e.2 := by
  have hek := hS.symm hk (hs e he).1 hke
  obtain ⟨x, hx⟩ : ∃ x, (m.find? fun x => x.1 == k) = some x :=
    Option.isSome_iff_exists.1 (List.find?_isSome.2 ⟨e, he, hek⟩)
  have hxk : (x.1 == k) = true :=
    List.find?_some (p := fun x : HostValue × HostValue => x.1 == k) hx
  have hxm := List.mem_of_find?_eq_some hx
  rw [get?, hx, match_unique hS hm hs hk hxm he (hS.symm (hs x hxm).1 hk hxk) hke]
  rfl

/-- A pair is found under its key. -/
theorem get?_of_mem (hm : m.KeysApart) (hs : m.Within IsBuilt) (he : e ∈ m) :
    m.get? e.1 = some e.2 :=
  get?_of_beq isEqvOn_isBuilt hm hs (hs e he).1 he (HostValue.beq_refl (hs e he).1)

/-- Looking up a key after an insertion. -/
theorem get?_insert (hm : m.Within IsBuilt) (hk : k.IsBuilt) (hk' : k'.IsBuilt) (v : HostValue) :
    (m.insert k v).get? k' = if k == k' then some v else m.get? k' := by
  have hS := isEqvOn_isBuilt
  induction m with
  | nil =>
    rw [insert, get?, List.find?_cons]
    cases k == k' <;> rfl
  | cons a rest ih =>
    obtain ⟨ha, hrest⟩ := List.forall_mem_cons.1 hm
    rw [insert]
    split
    · next hak =>
      -- the key in the map is equal to `k`, so it is as good for `k'`
      have hiff : (a.1 == k') = (k == k') := by
        rw [Bool.eq_iff_iff]
        exact ⟨hS.trans hk ha.1 hk' (hS.symm ha.1 hk hak), hS.trans ha.1 hk hk' hak⟩
      rw [get?, get?, List.find?_cons, List.find?_cons, hiff]
      cases k == k' <;> rfl
    · next hak =>
      have ih := ih hrest
      rw [get?] at ih ⊢
      rw [List.find?_cons]
      by_cases hak' : (a.1 == k') = true
      · have hkk' : ¬(k == k') = true := fun hkk' =>
          hak (hS.trans ha.1 hk' hk hak' (hS.symm hk hk' hkk'))
        rw [hak', if_neg hkk', get?, List.find?_cons, hak']
      · rw [Bool.eq_false_iff.2 hak', ih, get?, get?, List.find?_cons, Bool.eq_false_iff.2 hak']

/-- Each key has the value that was inserted last under an equal key. -/
theorem get?_ofPairs (hps : ∀ p ∈ ps, p.1.IsBuilt ∧ p.2.IsBuilt) (hk : k.IsBuilt) :
    (ofPairs ps).get? k = (ps.reverse.find? fun p => p.1 == k).map (·.2) := by
  induction ps using List.reverseRecOn with
  | nil => rfl
  | append_singleton ps p ih =>
    obtain ⟨hinit, hlast⟩ := List.forall_mem_append.1 hps
    have hp := hlast p (List.mem_singleton_self p)
    rw [ofPairs_append_singleton, get?_insert (within_ofPairs hinit) hp.1 hk, ih hinit,
      List.reverse_append, List.reverse_singleton, List.singleton_append, List.find?_cons]
    cases p.1 == k <;> rfl

end HostMap
end ScriptShell
