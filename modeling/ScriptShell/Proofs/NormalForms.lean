import Mathlib.Algebra.Group.Nat.Defs
import Mathlib.Data.List.Nodup
import ScriptShell.Host.Value

/-! # Normal forms of host values

What a host value is to a guest and back: an error is its message, bytes that are UTF-8 are a text,
a sequence is a map from positions, and no map holds pairs without a value.  `HostValue.normal` says
so by itself, without a guest; `HostValue.crosses` tells the values for which it is meant.

The keys of such values are simple, and for simple keys equality of host values is equality
(`HostValue.beq_iff`), so that a map is known by its pairs (`HostMap.beq_of_keys`).  Maps that are
made by inserting pairs have no two equal keys (`HostValue.crosses_ofPairs`).
-/

namespace ScriptShell

namespace HostMap

/-- Removes the pair of a key. -/
def erase (m : HostMap) (k : HostValue) : HostMap := m.filter fun e => !(e.1 == k)

/-- Puts a value under a key, as an assignment does: no value removes the key. -/
def assign (m : HostMap) (k v : HostValue) : HostMap :=
  if v.isNil then m.erase k else m.insert k v

/-- The keys, in the order of the pairs. -/
def keys (m : HostMap) : List HostValue := m.map (·.1)

end HostMap

namespace HostValue

/-! ## Definitions -/

/-- Whether a value is a key that guests keep apart from others by what it is: neither `nil` nor a
composite nor something that has no host form again. -/
def isSimple : HostValue → Bool
  | .bool _ | .int _ | .text _ | .bytes _ | .error _ | .handle _ | .callable _ => true
  | .nil | .function _ | .seq _ | .map _ | .native _ => false

mutual

/-- The form in which a value comes back from a guest. -/
def normal : HostValue → HostValue
  | .error message => .text message
  | .bytes b =>
    match Utf8.decode? b with
    | some s => .text s
    | none => .bytes b
  | .seq items => .map (normalItems 1 [] items)
  | .map entries => .map (normalEntries [] entries)
  | v => v
termination_by structural v => v

/-- Assigns the normal forms of items to positions from `n` on. -/
def normalItems (n : Nat) (m : HostMap) : List HostValue → HostMap
  | [] => m
  | v :: rest => normalItems (n + 1) (m.assign (.int (Int64.ofNat n)) (normal v)) rest
termination_by structural items => items

/-- Assigns the normal forms of pairs, in their order. -/
def normalEntries (m : HostMap) : List (HostValue × HostValue) → HostMap
  | [] => m
  | (k, v) :: rest => normalEntries (m.assign (normal k) (normal v)) rest
termination_by structural entries => entries

end

mutual

/-- Whether a value consists of what has a host form again: neither host functions nor objects that
convert themselves, in maps with simple keys no two of which are equal. -/
def crosses : HostValue → Bool
  | .function _ | .native _ => false
  | .seq items => crossItems items
  | .map entries => crossEntries entries
  | _ => true
termination_by structural v => v

/-- Whether all items do. -/
def crossItems : List HostValue → Bool
  | [] => true
  | v :: rest => crosses v && crossItems rest
termination_by structural items => items

/-- Whether all keys and values do, and no key occurs twice. -/
def crossEntries : List (HostValue × HostValue) → Bool
  | [] => true
  | (k, v) :: rest =>
    k.isSimple && rest.all (fun e => !(e.1 == k)) && crosses v && crossEntries rest
termination_by structural entries => entries

end

mutual

/-- How many sequences and maps lie inside one another. -/
def nesting : HostValue → Nat
  | .seq items => nestingItems items + 1
  | .map entries => nestingEntries entries + 1
  | _ => 0
termination_by structural v => v

/-- The greatest nesting of an item. -/
def nestingItems : List HostValue → Nat
  | [] => 0
  | v :: rest => max (nesting v) (nestingItems rest)
termination_by structural items => items

/-- The greatest nesting of a key or a value. -/
def nestingEntries : List (HostValue × HostValue) → Nat
  | [] => 0
  | (k, v) :: rest => max (max (nesting k) (nesting v)) (nestingEntries rest)
termination_by structural entries => entries

end

mutual

/-- Whether no part of a value converts itself. -/
def isPlain : HostValue → Bool
  | .native _ => false
  | .seq items => plainItems items
  | .map entries => plainEntries entries
  | _ => true
termination_by structural v => v

/-- Whether this holds of all items. -/
def plainItems : List HostValue → Bool
  | [] => true
  | v :: rest => isPlain v && plainItems rest
termination_by structural items => items

/-- Whether this holds of all keys and values. -/
def plainEntries : List (HostValue × HostValue) → Bool
  | [] => true
  | (k, v) :: rest => isPlain k && isPlain v && plainEntries rest
termination_by structural entries => entries

end

mutual

/-- Whether a map anywhere in a value has a pair without a key. -/
def hasNilKey : HostValue → Bool
  | .seq items => nilKeyInItems items
  | .map entries => nilKeyInEntries entries
  | _ => false
termination_by structural v => v

/-- Whether an item has one. -/
def nilKeyInItems : List HostValue → Bool
  | [] => false
  | v :: rest => hasNilKey v || nilKeyInItems rest
termination_by structural items => items

/-- Whether a pair is one, or its key or value has one. -/
def nilKeyInEntries : List (HostValue × HostValue) → Bool
  | [] => false
  | (k, v) :: rest => k.isNil || hasNilKey k || hasNilKey v || nilKeyInEntries rest
termination_by structural entries => entries

end

/-! ## Simple values -/

theorem isNil_iff {v : HostValue} : v.isNil = true ↔ v = .nil := by
  cases v <;> simp [isNil]

/-- A simple value equals itself and nothing else. -/
theorem beq_iff {k : HostValue} (hk : k.isSimple = true) (k' : HostValue) :
    (k == k') = true ↔ k = k' := by
  show eqv k k' = true ↔ k = k'
  cases k with
  | nil | function _ | seq _ | map _ | native _ => exact absurd hk Bool.false_ne_true
  | _ => cases k' <;> simp [eqv]

theorem isSimple_normal {k : HostValue} (hk : k.isSimple = true) : k.normal.isSimple = true := by
  cases k with
  | nil | function _ | seq _ | map _ | native _ => exact absurd hk Bool.false_ne_true
  | bytes b =>
    rw [normal]
    split <;> rfl
  | _ => rfl

/-- Only a handle comes back as that handle. -/
theorem eq_of_normal_handle {k : HostValue} {x : Handle} (h : k.normal = .handle x) :
    k = .handle x := by
  cases k with
  | handle y => exact h
  | bytes b =>
    rw [normal] at h
    split at h <;> cases h
  | _ => cases h

/-- Only `nil` comes back as no value. -/
theorem normal_eq_nil {v : HostValue} : v.normal = .nil ↔ v = .nil := by
  cases v with
  | bytes b =>
    rw [normal]
    split <;> simp
  | _ => simp [normal]

end HostValue

open HostValue

/-! ## Maps with simple keys -/

namespace HostMap

/-- All keys are simple, and no two are the same. -/
structure IsSimple (m : HostMap) : Prop where
  /-- The keys are simple. -/
  simple : ∀ e ∈ m, e.1.isSimple = true
  /-- They are different ones. -/
  distinct : m.keys.Nodup

variable {m m' : HostMap} {k v : HostValue} {e e' : HostValue × HostValue}

theorem mem_keys_of_mem (he : e ∈ m) : e.1 ∈ m.keys := List.mem_map_of_mem he

theorem isSimple_nil : IsSimple [] := ⟨fun _ he => (List.not_mem_nil he).elim, List.nodup_nil⟩

/-- The pair of a key is the only one. -/
theorem IsSimple.eq_of_key (h : m.IsSimple) (he : e ∈ m) (he' : e' ∈ m) (hk : e.1 = e'.1) :
    e = e' :=
  List.inj_on_of_nodup_map h.distinct he he' hk

theorem IsSimple.tail (h : IsSimple (e :: m)) : m.IsSimple :=
  ⟨fun e' he' => h.simple e' (List.mem_cons_of_mem _ he'), (List.nodup_cons.1 h.distinct).2⟩

theorem mem_insert (h : m.IsSimple) (k v : HostValue) :
    e ∈ m.insert k v ↔ e = (k, v) ∨ e ∈ m ∧ e.1 ≠ k := by
  induction m with
  | nil => simp [insert]
  | cons a rest ih =>
    have hbeq := beq_iff (h.simple a (List.mem_cons_self ..)) k
    have hfresh : a.1 ∉ keys rest := (List.nodup_cons.1 h.distinct).1
    unfold insert
    by_cases ha : a.1 = k
    · rw [if_pos (hbeq.2 ha), List.mem_cons, ha]
      refine or_congr_right ⟨fun he => ⟨List.mem_cons_of_mem _ he, fun hk => hfresh ?_⟩, ?_⟩
      · exact (hk.trans ha.symm) ▸ mem_keys_of_mem he
      · rintro ⟨he, hk⟩
        rcases List.mem_cons.1 he with rfl | he
        · exact absurd ha hk
        · exact he
    · rw [if_neg (mt hbeq.1 ha), List.mem_cons, ih h.tail, List.mem_cons]
      constructor
      · rintro (rfl | rfl | ⟨he, hk⟩)
        · exact .inr ⟨.inl rfl, ha⟩
        · exact .inl rfl
        · exact .inr ⟨.inr he, hk⟩
      · rintro (rfl | ⟨rfl | he, hk⟩)
        · exact .inr (.inl rfl)
        · exact .inl rfl
        · exact .inr (.inr ⟨he, hk⟩)

theorem IsSimple.insert (h : m.IsSimple) (hk : k.isSimple = true) (v : HostValue) :
    (m.insert k v).IsSimple := by
  refine ⟨fun e he => ?_, ?_⟩
  · rcases (mem_insert h k v).1 he with rfl | ⟨he, -⟩
    · exact hk
    · exact h.simple e he
  · induction m with
    | nil => exact List.nodup_singleton k
    | cons a rest ih =>
      have hbeq := beq_iff (h.simple a (List.mem_cons_self ..)) k
      have hfresh : a.1 ∉ keys rest := (List.nodup_cons.1 h.distinct).1
      unfold HostMap.insert
      by_cases ha : a.1 = k
      · rw [if_pos (hbeq.2 ha)]
        exact h.distinct
      · rw [if_neg (mt hbeq.1 ha)]
        refine List.nodup_cons.2 ⟨fun hmem => ?_, ih h.tail⟩
        obtain ⟨e, he, hkey⟩ : ∃ e ∈ HostMap.insert rest k v, e.1 = a.1 := List.mem_map.1 hmem
        rcases (mem_insert h.tail k v).1 he with rfl | ⟨he, -⟩
        · exact ha hkey.symm
        · exact hfresh (hkey ▸ mem_keys_of_mem he)

theorem mem_erase (h : m.IsSimple) (k : HostValue) : e ∈ m.erase k ↔ e ∈ m ∧ e.1 ≠ k := by
  rw [erase, List.mem_filter]
  refine and_congr_right fun he => ?_
  rw [Bool.not_eq_true', ← Bool.not_eq_true, beq_iff (h.simple e he)]

theorem IsSimple.erase (h : m.IsSimple) (k : HostValue) : (m.erase k).IsSimple :=
  ⟨fun e he => h.simple e (List.mem_filter.1 he).1,
    h.distinct.sublist (List.filter_sublist.map _)⟩

/-- What is in a map after an assignment. -/
theorem mem_assign (h : m.IsSimple) (k v : HostValue) :
    e ∈ m.assign k v ↔ e = (k, v) ∧ v ≠ .nil ∨ e ∈ m ∧ e.1 ≠ k := by
  unfold assign
  split
  · next hv =>
    rw [mem_erase h]
    exact (or_iff_right fun he => he.2 (isNil_iff.1 hv)).symm
  · next hv =>
    rw [mem_insert h]
    exact or_congr_left (iff_self_and.2 fun _ hn => hv (isNil_iff.2 hn))

theorem IsSimple.assign (h : m.IsSimple) (hk : k.isSimple = true) (v : HostValue) :
    (m.assign k v).IsSimple := by
  unfold HostMap.assign
  split
  · exact h.erase k
  · exact h.insert hk v

/-- Assigning a value under a new key adds a pair, and assigning no value changes nothing. -/
theorem assign_of_not_mem (h : m.IsSimple) (hk : k ∉ m.keys) (v : HostValue) :
    m.assign k v = m ++ if v.isNil then [] else [(k, v)] := by
  have hne : ∀ e ∈ m, ¬(e.1 == k) = true := fun e he hek =>
    hk ((beq_iff (h.simple e he) k).1 hek ▸ mem_keys_of_mem he)
  unfold assign
  split
  · rw [erase, List.append_nil, List.filter_eq_self]
    intro e he
    rw [Bool.eq_false_iff.2 (hne e he)]
    rfl
  · clear hk h
    induction m with
    | nil => rfl
    | cons e rest ih =>
      rw [HostMap.insert, if_neg (hne e (List.mem_cons_self ..)),
        ih fun e' he' => hne e' (List.mem_cons_of_mem _ he')]
      rfl

/-- Two maps are equal if each key of one has an equal value in the other, and the other has no
further keys. -/
theorem beq_of_keys (h : m.IsSimple) (h' : m'.IsSimple)
    (hsub : ∀ e ∈ m, ∃ e' ∈ m', e'.1 = e.1 ∧ (e.2 == e'.2) = true)
    (hall : ∀ e' ∈ m', e'.1 ∈ m.keys) : (HostValue.map m == HostValue.map m') = true := by
  have hlen : m.length = m'.length := by
    have hkeys : m.keys.Perm m'.keys := by
      refine (List.perm_ext_iff_of_nodup h.distinct h'.distinct).2 fun k =>
        ⟨fun hk => ?_, fun hk => ?_⟩
      · obtain ⟨e, he, rfl⟩ := List.mem_map.1 hk
        obtain ⟨e', he', hkey, -⟩ := hsub e he
        rw [← hkey]
        exact mem_keys_of_mem he'
      · obtain ⟨e', he', rfl⟩ := List.mem_map.1 hk
        exact hall e' he'
    simpa [keys] using hkeys.length_eq
  have hentries : ∀ es : HostMap, (∀ e ∈ es, e ∈ m) → eqvEntries es m' = true := by
    intro es hes
    induction es with
    | nil => rfl
    | cons e rest ih =>
      have he := hes e (List.mem_cons_self ..)
      obtain ⟨e', he', hkey, hval⟩ := hsub e he
      -- the first pair with an equal key is the only one
      have hfind : (m'.find? fun x => eqv e.1 x.1) = some e' := by
        obtain ⟨x, hx⟩ : ∃ x, (m'.find? fun x => eqv e.1 x.1) = some x := by
          refine Option.isSome_iff_exists.1 (List.find?_isSome.2 ⟨e', he', ?_⟩)
          exact (beq_iff (h.simple e he) e'.1).2 hkey.symm
        have heq : eqv e.1 x.1 = true :=
          List.find?_some (p := fun x : HostValue × HostValue => eqv e.1 x.1) hx
        have hkx := (beq_iff (h.simple e he) x.1).1 heq
        rw [hx, h'.eq_of_key (List.mem_of_find?_eq_some hx) he' (hkx.symm.trans hkey.symm)]
      unfold eqvEntries
      rw [hfind]
      exact Bool.and_eq_true_iff.2 ⟨hval, ih fun x hx => hes x (List.mem_cons_of_mem _ hx)⟩
  show (m.length == m'.length && eqvEntries m m') = true
  rw [hlen, hentries m fun e he => he]
  simp

end HostMap

/-! ## Maps that cross -/

namespace HostValue

/-- What the pairs of a map have to be for it to cross. -/
theorem crossEntries_iff {m : HostMap} :
    crossEntries m = true ↔ m.IsSimple ∧ ∀ e ∈ m, e.2.crosses = true := by
  induction m with
  | nil => exact iff_of_true rfl ⟨HostMap.isSimple_nil, fun _ he => (List.not_mem_nil he).elim⟩
  | cons a rest ih =>
    have hother (h : HostMap.IsSimple rest) :
        (rest.all fun e => !(e.1 == a.1)) = true ↔ a.1 ∉ HostMap.keys rest := by
      rw [List.all_eq_true, HostMap.keys, List.mem_map, not_exists]
      refine forall_congr' fun e => ?_
      rw [not_and]
      refine imp_congr_right fun he => ?_
      rw [Bool.not_eq_true', ← Bool.not_eq_true, beq_iff (h.simple e he)]
    simp only [crossEntries, Bool.and_eq_true, ih, List.forall_mem_cons]
    constructor
    · rintro ⟨⟨⟨hk, hall⟩, hv⟩, hrest, hvals⟩
      exact ⟨⟨List.forall_mem_cons.2 ⟨hk, hrest.simple⟩,
        List.nodup_cons.2 ⟨(hother hrest).1 hall, hrest.distinct⟩⟩, hv, hvals⟩
    · rintro ⟨hm, hv, hvals⟩
      have hfresh : a.1 ∉ HostMap.keys rest := (List.nodup_cons.1 hm.distinct).1
      exact ⟨⟨⟨hm.simple a (List.mem_cons_self ..), (hother hm.tail).2 hfresh⟩, hv⟩, hm.tail, hvals⟩

/-- A map that is made by inserting what crosses, under simple keys, crosses. -/
theorem crosses_ofPairs {pairs : List (HostValue × HostValue)}
    (hpairs : ∀ e ∈ pairs, e.1.isSimple = true ∧ e.2.crosses = true) :
    (HostValue.map (HostMap.ofPairs pairs)).crosses = true := by
  have hfold : ∀ (m : HostMap), crossEntries m = true →
      crossEntries (pairs.foldl (fun m e => HostMap.insert m e.1 e.2) m) = true := by
    induction pairs with
    | nil => exact fun m hm => hm
    | cons e rest ih =>
      intro m hm
      obtain ⟨⟨hk, hv⟩, hrest⟩ := List.forall_mem_cons.1 hpairs
      obtain ⟨hsimple, hvals⟩ := crossEntries_iff.1 hm
      refine ih hrest _ (crossEntries_iff.2 ⟨hsimple.insert hk _, fun x hx => ?_⟩)
      rcases (HostMap.mem_insert hsimple e.1 e.2).1 hx with rfl | ⟨hx, -⟩
      · exact hv
      · exact hvals x hx
  exact hfold [] rfl

/-! ## Values without collisions -/

theorem ofNat_injective {i j : Nat} (hi : i < 2 ^ 63) (hj : j < 2 ^ 63)
    (h : Int64.ofNat i = Int64.ofNat j) : i = j := by
  have hto := congrArg Int64.toInt h
  rw [Int64.toInt_ofNat_of_lt hi, Int64.toInt_ofNat_of_lt hj] at hto
  omega

/-- The items that are values, under their positions from `n` on. -/
def positioned (n : Nat) : List HostValue → HostMap
  | [] => []
  | v :: rest =>
    (if v.isNil then [] else [(.int (Int64.ofNat n), v.normal)]) ++ positioned (n + 1) rest

theorem normalItems_eq {n : Nat} {m : HostMap} {items : List HostValue}
    (hlen : n + items.length ≤ 2 ^ 63) (hm : m.IsSimple)
    (hlt : ∀ k ∈ m.keys, ∃ i < n, k = .int (Int64.ofNat i)) :
    normalItems n m items = m ++ positioned n items := by
  induction items generalizing n m with
  | nil => simp [normalItems, positioned]
  | cons v rest ih =>
    rw [List.length_cons] at hlen
    have hnew : .int (Int64.ofNat n) ∉ m.keys := by
      intro hmem
      obtain ⟨i, hi, heq⟩ := hlt _ hmem
      have := ofNat_injective (by omega) (by omega) (HostValue.int.inj heq)
      omega
    have hnil : v.normal.isNil = v.isNil := by
      rw [Bool.eq_iff_iff, isNil_iff, isNil_iff, normal_eq_nil]
    have hkeys : ∀ k ∈ (m.assign (.int (Int64.ofNat n)) v.normal).keys,
        ∃ i < n + 1, k = .int (Int64.ofNat i) := by
      intro k hk
      obtain ⟨e, he, rfl⟩ := List.mem_map.1 hk
      rcases (HostMap.mem_assign hm _ _).1 he with ⟨rfl, -⟩ | ⟨he, -⟩
      · exact ⟨n, Nat.lt_succ_self n, rfl⟩
      · obtain ⟨i, hi, heq⟩ := hlt e.1 (HostMap.mem_keys_of_mem he)
        exact ⟨i, Nat.lt_succ_of_lt hi, heq⟩
    rw [normalItems, ih (by omega) (hm.assign rfl _) hkeys, HostMap.assign_of_not_mem hm hnew, hnil,
      positioned, List.append_assoc]

/-- A sequence becomes the map of its values under their positions. -/
theorem normal_seq {items : List HostValue} (hlen : items.length < 2 ^ 63) :
    (HostValue.seq items).normal = .map (positioned 1 items) := by
  rw [normal, normalItems_eq (by omega) HostMap.isSimple_nil fun _ hk => (List.not_mem_nil hk).elim]
  rfl

/-- Pairs of a text and a value, with different texts, stay what they are. -/
theorem normalEntries_eq {entries m : HostMap} (hm : m.IsSimple)
    (htext : ∀ e ∈ entries, ∃ s, e.1 = .text s) (hval : ∀ e ∈ entries, e.2 ≠ .nil)
    (hentries : entries.IsSimple) (hnew : ∀ e ∈ entries, e.1 ∉ m.keys) :
    normalEntries m entries = m ++ entries.map fun e => (e.1, e.2.normal) := by
  induction entries generalizing m with
  | nil => simp [normalEntries]
  | cons e rest ih =>
    obtain ⟨k, v⟩ := e
    obtain ⟨s, rfl⟩ : ∃ s, k = .text s := htext _ (List.mem_cons_self ..)
    have hv : ¬v.normal.isNil = true := by
      rw [isNil_iff, normal_eq_nil]
      exact hval _ (List.mem_cons_self ..)
    have hassign : m.assign (.text s) v.normal = m ++ [(.text s, v.normal)] := by
      rw [HostMap.assign_of_not_mem hm (hnew _ (List.mem_cons_self ..)), if_neg hv]
    have hfresh : ∀ e ∈ rest, e.1 ∉ HostMap.keys (m ++ [(.text s, v.normal)]) := by
      intro e he hmem
      rw [HostMap.keys, List.map_append, List.mem_append] at hmem
      rcases hmem with hmem | hmem
      · exact hnew e (List.mem_cons_of_mem _ he) hmem
      · have hother : .text s ∉ HostMap.keys rest := (List.nodup_cons.1 hentries.distinct).1
        have he' := HostMap.mem_keys_of_mem he
        rw [List.mem_singleton.1 hmem] at he'
        exact hother he'
    have hkey : (HostValue.text s).normal = .text s := rfl
    rw [normalEntries, hkey, hassign, ih (hassign ▸ hm.assign rfl _)
      (fun e he => htext e (List.mem_cons_of_mem _ he))
      (fun e he => hval e (List.mem_cons_of_mem _ he)) hentries.tail hfresh, List.append_assoc]
    rfl

/-- So a map with text keys keeps its keys. -/
theorem normal_map {entries : List (HostValue × HostValue)}
    (hcross : (HostValue.map entries).crosses = true)
    (htext : ∀ e ∈ entries, ∃ s, e.1 = .text s) (hval : ∀ e ∈ entries, e.2 ≠ .nil) :
    (HostValue.map entries).normal = .map (entries.map fun e => (e.1, e.2.normal)) := by
  have hsimple : HostMap.IsSimple entries := (crossEntries_iff.1 hcross).1
  rw [normal, normalEntries_eq HostMap.isSimple_nil htext hval hsimple fun _ _ => List.not_mem_nil]
  rfl

end HostValue
end ScriptShell
