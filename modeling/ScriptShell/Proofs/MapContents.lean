import Mathlib.Data.Finset.Card
import Mathlib.Data.List.Find
import ScriptShell.Proofs.InsertedMaps
import ScriptShell.Proofs.TableEntries

/-! # What insertions leave in a map

An insertion leaves the keys of a map as they are, or adds the new one at the end if none there equals
it (`HostMap.keys_insert`), and that is how keeping the first of equal members goes on with one more
(`eraseDups_concat`).  So after any insertions the keys are those inserted, in the order in which each
was inserted first (`HostMap.keys_ofPairs`).  There are as many as classes of equal keys
(`HostMap.length_ofInserted`), since equality is an equivalence on all that is ever inserted.

Looking up a text goes by what keys read as, so it may find the key of an error or of bytes.  No key
that was read from a guest reads as a text without being it (`Marshal.asText?_eq_some_iff`), so in maps
from there a text is found as any key is (`Marshal.getText?_eq_get?`).
-/

namespace ScriptShell

open HostValue

/-- Keeping the first of equal members, with one more member at the end. -/
theorem eraseDups_concat {α : Type} [BEq α] (as : List α) (a : α) : (as ++ [a]).eraseDups =
    if as.eraseDups.any (a == ·) then as.eraseDups else as.eraseDups ++ [a] := by
  -- the loop keeps what it has met so far, the last first
  have hloop : ∀ met : List α, List.eraseDupsBy.loop (· == ·) (as ++ [a]) met =
      if (List.eraseDupsBy.loop (· == ·) as met).any (a == ·)
      then List.eraseDupsBy.loop (· == ·) as met
      else List.eraseDupsBy.loop (· == ·) as met ++ [a] := by
    induction as with
    | nil =>
      intro met
      rw [List.nil_append, List.eraseDupsBy.loop, List.eraseDupsBy.loop, List.any_reverse]
      cases met.any (a == ·) with
      | true => rfl
      | false => exact List.reverse_cons
    | cons b rest ih =>
      intro met
      rw [List.cons_append, List.eraseDupsBy.loop, List.eraseDupsBy.loop]
      cases met.any (b == ·) with
      | true => exact ih met
      | false => exact ih (b :: met)
  exact hloop []

/-! ## Values that are inserted -/

namespace HostValue

/-- A value of the host: every map in it was made by inserting pairs. -/
abbrev Inserted := { v : HostValue // v.IsInserted }

/-- Equal values are in one class. -/
instance : Setoid Inserted := ⟨_, beq_equivalence⟩

instance : DecidableRel (α := Inserted) (· ≈ ·) := fun a b =>
  inferInstanceAs (Decidable ((a.1 == b.1) = true))

/-- Values up to equality, as keys are told apart. -/
abbrev KeyClass := Quotient (inferInstance : Setoid Inserted)

/-- A value stands somewhere in another one, or is that one. -/
inductive HasPart : HostValue → HostValue → Prop
  /-- The value itself. -/
  | refl (x : HostValue) : HasPart x x
  /-- Something in an item of a sequence. -/
  | item {items : List HostValue} {x y : HostValue} (hx : x ∈ items) (hy : HasPart x y) :
    HasPart (.seq items) y
  /-- Something in a key of a map. -/
  | key {m : HostMap} {e : HostValue × HostValue} {y : HostValue} (he : e ∈ m)
    (hy : HasPart e.1 y) : HasPart (.map m) y
  /-- Something in a value of a map. -/
  | value {m : HostMap} {e : HostValue × HostValue} {y : HostValue} (he : e ∈ m)
    (hy : HasPart e.2 y) : HasPart (.map m) y

end HostValue

namespace HostMap

variable {m : HostMap} {k : HostValue} {ps : List (HostValue × HostValue)}

/-! ## The keys -/

/-- An insertion leaves the keys as they are, or adds a new one at the end. -/
theorem keys_insert (hm : m.Within IsBuilt) (hk : k.IsBuilt) (v : HostValue) :
    (m.insert k v).keys = if m.keys.any (k == ·) then m.keys else m.keys ++ [k] := by
  induction m with
  | nil => rfl
  | cons e rest ih =>
    obtain ⟨he, hrest⟩ := List.forall_mem_cons.1 hm
    show keys (if e.1 == k then (e.1, v) :: rest else e :: insert rest k v) =
      if k == e.1 || (keys rest).any (k == ·) then e.1 :: keys rest else e.1 :: (keys rest ++ [k])
    rw [HostValue.beq_comm he.1 hk]
    cases k == e.1 with
    | true => rfl
    | false =>
      show e.1 :: keys (insert rest k v) = if (keys rest).any (k == ·) then _ else _
      rw [ih hrest, apply_ite (e.1 :: ·)]

/-- The keys are those inserted, in the order in which each was inserted first. -/
theorem keys_ofPairs (hps : ∀ p ∈ ps, p.1.IsBuilt ∧ p.2.IsBuilt) :
    (ofPairs ps).keys = (ps.map (·.1)).eraseDups := by
  induction ps using List.reverseRecOn with
  | nil => rfl
  | append_singleton ps p ih =>
    obtain ⟨hinit, hlast⟩ := List.forall_mem_append.1 hps
    have hp := hlast p (List.mem_singleton_self p)
    rw [ofPairs_append_singleton, keys_insert (within_ofPairs hinit) hp.1, ih hinit, List.map_append,
      List.map_singleton, eraseDups_concat]

theorem length_insert (hm : m.Within IsBuilt) (hk : k.IsBuilt) (v : HostValue) :
    (m.insert k v).length = if m.keys.any (k == ·) then m.length else m.length + 1 := by
  have hkeys := congrArg List.length (keys_insert hm hk v)
  rw [keys, List.length_map] at hkeys
  rw [hkeys]
  split
  · exact List.length_map ..
  · rw [List.length_append, List.length_singleton, keys, List.length_map]

/-- A key equals one of the map exactly if it equals one that was inserted. -/
theorem any_keys_ofPairs (hps : ∀ p ∈ ps, p.1.IsBuilt ∧ p.2.IsBuilt) (hk : k.IsBuilt) :
    (ofPairs ps).keys.any (k == ·) = true ↔ ∃ p ∈ ps, (k == p.1) = true := by
  rw [List.any_eq_true]
  constructor
  · rintro ⟨k', hk', heq⟩
    obtain ⟨e, he, rfl⟩ := List.mem_map.1 hk'
    obtain ⟨⟨p, hp, hkey⟩, -⟩ := mem_of_mem_ofPairs he
    exact ⟨p, hp, hkey ▸ heq⟩
  · rintro ⟨p, hp, heq⟩
    -- something was inserted under an equal key, so something is found there
    obtain ⟨q, hq⟩ : ∃ q, (ps.reverse.find? fun q => q.1 == k) = some q := by
      refine Option.isSome_iff_exists.1 (List.find?_isSome.2 ⟨p, List.mem_reverse.2 hp, ?_⟩)
      rw [HostValue.beq_comm (hps p hp).1 hk]
      exact heq
    have hget : (ofPairs ps).get? k = some q.2 := by
      rw [get?_ofPairs hps hk, hq]
      rfl
    obtain ⟨e, he, hkey, -⟩ := exists_of_get? hget
    refine ⟨e.1, mem_keys_of_mem he, ?_⟩
    rw [HostValue.beq_comm hk (within_ofPairs hps e he).1]
    exact hkey

/-! ## Insertions -/

/-- The map that inserting pairs one after the other makes. -/
def ofInserted (ps : List (Inserted × Inserted)) : HostMap :=
  ofPairs (ps.map fun p => (p.1.1, p.2.1))

theorem isBuilt_of_mem_map {ps : List (Inserted × Inserted)} :
    ∀ q ∈ ps.map (fun p => (p.1.1, p.2.1)), q.1.IsBuilt ∧ q.2.IsBuilt := by
  intro q hq
  obtain ⟨p, -, rfl⟩ := List.mem_map.1 hq
  exact ⟨isInserted_iff.1 p.1.2, isInserted_iff.1 p.2.2⟩

theorem isInserted_ofInserted (ps : List (Inserted × Inserted)) :
    (HostValue.map (ofInserted ps)).IsInserted :=
  isInserted_iff.2 (isBuilt_ofPairs isBuilt_of_mem_map)

/-- There are as many keys as classes of keys were inserted. -/
theorem length_ofInserted (ps : List (Inserted × Inserted)) :
    (ofInserted ps).length = (ps.map fun p => (⟦p.1⟧ : KeyClass)).toFinset.card := by
  induction ps using List.reverseRecOn with
  | nil => rfl
  | append_singleton ps p ih =>
    have hp := isInserted_iff.1 p.1.2
    -- a key that the map has is of a class that is there, so both grow or neither does
    have hmem : (⟦p.1⟧ : KeyClass) ∈ (ps.map fun p => (⟦p.1⟧ : KeyClass)).toFinset ↔
        (ofInserted ps).keys.any (p.1.1 == ·) = true := by
      rw [ofInserted, any_keys_ofPairs isBuilt_of_mem_map hp, List.mem_toFinset, List.mem_map]
      constructor
      · rintro ⟨q, hq, heq⟩
        exact ⟨_, List.mem_map_of_mem hq, Quotient.exact heq.symm⟩
      · rintro ⟨_, hmem, heq⟩
        obtain ⟨q, hq, rfl⟩ := List.mem_map.1 hmem
        exact ⟨q, hq, (Quotient.sound heq).symm⟩
    rw [ofInserted, List.map_append, List.map_singleton, ofPairs_append_singleton,
      length_insert (within_ofPairs isBuilt_of_mem_map) hp, List.map_append, List.map_singleton,
      List.toFinset_append, List.toFinset_cons, List.toFinset_nil, insert_empty_eq,
      Finset.union_comm, ← Finset.insert_eq, Finset.card_insert_eq_ite]
    exact if_congr hmem.symm ih (congrArg (· + 1) ih)

end HostMap

/-! ## Maps that were read from a guest -/

namespace Marshal

open Guest

variable {h : Heap} {n : Nat} {v : Value} {x y : HostValue} {m : HostMap}

/-- What was read is a map of what was read, or has nothing in it. -/
theorem form_cases (hx : toHostWithin h n v = .ok x) : x.nesting = 0 ∨ ∃ n' t ps,
    List.Forall₂ (IsPairForm h n') (h.table t).enumerate ps ∧ x = .map (HostMap.ofPairs ps) :=
  form_induction (P := fun _ _ x => x.nesting = 0 ∨ ∃ n' t ps,
      List.Forall₂ (IsPairForm h n') (h.table t).enumerate ps ∧ x = .map (HostMap.ofPairs ps))
    (fun _ _ _ hv hx => .inl (form_of_ne_table hv hx).1)
    (fun n t ps hps _ => .inr ⟨n, t, ps, hps, rfl⟩) hx

/-- The keys and values of a map that was read were read too. -/
theorem exists_form_of_mem (hx : toHostWithin h n v = .ok (.map m)) {e : HostValue × HostValue}
    (he : e ∈ m) : ∃ n' w w', toHostWithin h n' w = .ok e.1 ∧ toHostWithin h n' w' = .ok e.2 := by
  rcases form_cases hx with hleaf | ⟨n', t, ps, hps, hm⟩
  · cases hleaf
  · cases hm
    obtain ⟨⟨p, hp, hkey⟩, q, hq, hval⟩ := HostMap.mem_of_mem_ofPairs he
    obtain ⟨a, -, ha⟩ := exists_source hps hp
    obtain ⟨b, -, hb⟩ := exists_source hps hq
    exact ⟨n', _, _, hkey ▸ ha.key, hval ▸ hb.value⟩

/-- Whatever stands in a value that was read was read itself. -/
theorem exists_form_of_hasPart (hx : toHostWithin h n v = .ok x) (hy : x.HasPart y) :
    ∃ n' w, toHostWithin h n' w = .ok y := by
  induction hy generalizing n v with
  | refl x => exact ⟨n, v, hx⟩
  | item _ _ _ =>
    -- no sequence is read
    obtain hleaf | ⟨_, _, _, _, hm⟩ := form_cases hx
    · cases hleaf
    · cases hm
  | key he _ ih =>
    obtain ⟨n', w, -, hw, -⟩ := exists_form_of_mem hx he
    exact ih hw
  | value he _ ih =>
    obtain ⟨n', -, w, -, hw⟩ := exists_form_of_mem hx he
    exact ih hw

/-- What was read from a guest reads as a text only if it is that text. -/
theorem asText?_eq_some_iff (hx : toHostWithin h n v = .ok x) (s : String) :
    x.asText? = some s ↔ x = .text s := by
  refine form_induction (P := fun _ _ x => x.asText? = some s ↔ x = .text s)
    (fun n v x hv hx => ?_) (fun _ _ _ _ _ => by simp [asText?]) hx
  cases v with
  | table t => exact absurd rfl (hv t)
  | str b =>
    rw [toHostWithin] at hx
    split at hx
    · cases hx
      simp [asText?]
    · next hb =>
      -- bytes stay bytes because they are no text
      cases hx
      simp [asText?, hb]
  | user u =>
    rw [toHostWithin] at hx
    split at hx <;> cases hx <;> simp [asText?]
  | _ =>
    rw [toHostWithin] at hx
    cases hx <;> simp [asText?]

/-- Looking up a text in a map that was read is looking up this key. -/
theorem getText?_eq_get? (hx : toHostWithin h n v = .ok (.map m)) (s : String) :
    m.getText? s = m.get? (.text s) := by
  refine congrArg (Option.map Prod.snd) (List.find?_congr fun e he => ?_)
  obtain ⟨n', w, -, hw, -⟩ := exists_form_of_mem hx he
  rw [Bool.eq_iff_iff, beq_iff_eq, asText?_eq_some_iff hw]
  constructor
  · intro hkey
    rw [hkey]
    exact beq_self_leaf rfl
  · exact eq_text_of_beq

/-- The key of an error is found by its text, but is not that text. -/
example : HostMap.getText? [(.error "k", .bool true)] "k" = some (.bool true) ∧
    HostMap.get? [(.error "k", .bool true)] (.text "k") = none :=
  ⟨rfl, rfl⟩

end Marshal

/-- **What insertions leave.**  After any insertions the keys of a map are unequal, they stand in the
order in which each was inserted first, there are as many as classes of equal keys were inserted,
and under each key is what was inserted last under an equal one, if anything was.  In a map that
stands anywhere in a value read from a guest, looking up a text finds what is under this text. -/
theorem HostMap.insertions_held :
    (∀ ps : List (Inserted × Inserted),
      (ofInserted ps).Pairwise (fun e e' => (e.1 == e'.1) = false ∧ (e'.1 == e.1) = false) ∧
      (ofInserted ps).keys = (ps.map (·.1.1)).eraseDups ∧
      (ofInserted ps).length = (ps.map fun p => (⟦p.1⟧ : KeyClass)).toFinset.card ∧
      ∀ k : Inserted, (ofInserted ps).get? k.1 =
        (ps.reverse.find? fun p => p.1.1 == k.1).map fun p => p.2.1) ∧
    ∀ (h : Guest.Heap) (v : Guest.Value) (x : HostValue) (m : HostMap),
      Marshal.toHost h v = .ok x → x.HasPart (.map m) →
      ∀ s, m.getText? s = m.get? (.text s) := by
  refine ⟨fun ps => ⟨?_, ?_, length_ofInserted ps, fun k => ?_⟩, fun h v x m hx hm s => ?_⟩
  · have hwithin : (ofInserted ps).Within IsBuilt := within_ofPairs isBuilt_of_mem_map
    refine List.Pairwise.imp_of_mem (fun {e e'} he he' hne => ⟨hne, ?_⟩) (keysApart_ofPairs _)
    rw [HostValue.beq_comm (hwithin e' he').1 (hwithin e he).1]
    exact hne
  · rw [ofInserted, keys_ofPairs isBuilt_of_mem_map, List.map_map]
    rfl
  · rw [ofInserted, get?_ofPairs isBuilt_of_mem_map (isInserted_iff.1 k.2), ← List.map_reverse,
      List.find?_map, Option.map_map]
    rfl
  · obtain ⟨n, w, hw⟩ := Marshal.exists_form_of_hasPart hx hm
    exact Marshal.getText?_eq_get? hw s

/-- A table with `true` under a name. -/
def named : Guest.Heap where
  tables := #[{ slots := [(.str (Utf8.encode "a"), .bool true)], distinct := by simp }]

/-- Two maps with the same pairs are one key, which stays where it was and keeps its form; and a name
in what was read from a table is found either way. -/
theorem HostMap.insertions_held_under_maps :
    let one : Inserted := ⟨.int 1, .leaf rfl⟩
    let two : Inserted := ⟨.int 2, .leaf rfl⟩
    let forth : Inserted := ⟨.map (ofInserted [(one, two), (two, one)]), isInserted_ofInserted _⟩
    let back : Inserted := ⟨.map (ofInserted [(two, one), (one, two)]), isInserted_ofInserted _⟩
    let m := ofInserted [(forth, one), (two, two), (back, two)]
    m.keys = [forth.1, two.1] ∧ m.length = 2 ∧ m.get? back.1 = some (.int 2) ∧
      m.get? one.1 = none ∧
      Marshal.toHost named (.table ⟨0⟩) = .ok (.map [(.text "a", .bool true)]) ∧
      getText? [(.text "a", .bool true)] "a" = get? [(.text "a", .bool true)] (.text "a") := by
  intro one two forth back m
  obtain ⟨hheld, htexts⟩ := insertions_held
  obtain ⟨-, hkeys, hlength, hget⟩ := hheld [(forth, one), (two, two), (back, two)]
  have hread : Marshal.toHost named (.table ⟨0⟩) = .ok (.map [(.text "a", .bool true)]) := by
    refine Marshal.toHostWithin_table_eq_ok (n := 63).2 ⟨[(.text "a", .bool true)], ?_, rfl⟩
    refine .cons ⟨?_, ?_⟩ .nil
    · rw [Guest.Key.toValue, Marshal.toHostWithin, Utf8.decode?_encode]
    · rw [Marshal.toHostWithin]
  refine ⟨hkeys.trans rfl, hlength.trans (by decide), (hget back).trans rfl, (hget one).trans rfl,
    hread, htexts named _ _ _ hread (.refl _) "a"⟩

end ScriptShell
