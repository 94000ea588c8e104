import ScriptShell.Guest.Value

/-! # Guest tables

A table is a list of slots, oldest first; a slot whose value was set to `nil` stays until the table
is next rearranged, so that a traversal can go on from it.  What the table holds is its view
`get`, and `pairs` lists the slots with a value.  The guest's length operator may answer any border
of a table with holes; `border` answers the one that the usual layout gives, with an array part in
front that grows by doubling. -/

namespace ScriptShell.Guest

/-- The layout that decides which border a table answers. -/
structure Layout where
  /-- The integers from one on that lie in the array part. -/
  arraySize : Nat := 0
  /-- The room for other keys. -/
  capacity : Nat := 0
  /-- How much of that room is taken. -/
  used : Nat := 0
  deriving DecidableEq, Repr, Inhabited

/-- A table of the guest. -/
structure Table where
  /-- Keys with their values, oldest key first. -/
  slots : List (Key × Value) := []
  /-- The metatable. -/
  metatable? : Option TableRef := none
  /-- The layout. -/
  layout : Layout := {}
  /-- No key has two slots. -/
  distinct : (slots.map (·.1)).Nodup := by exact List.nodup_nil

namespace Table

instance : Inhabited Table := ⟨{}⟩

/-- The value in the slot of a key. -/
def lookup (k : Key) : List (Key × Value) → Option Value
  | [] => none
  | (k', v) :: rest => if k' = k then some v else lookup k rest

/-- Replaces the value in the slot of a key. -/
def replace (k : Key) (v : Value) : List (Key × Value) → List (Key × Value)
  | [] => []
  | (k', v') :: rest => if k' = k then (k, v) :: rest else (k', v') :: replace k v rest

theorem lookup_eq_none {k : Key} {es : List (Key × Value)} :
    lookup k es = none ↔ k ∉ es.map (·.1) := by
  induction es with
  | nil => simp [lookup]
  | cons e rest ih =>
    by_cases h : e.1 = k
    · simp [lookup, h]
    · simp [lookup, h, ih, Ne.symm h]

theorem mem_of_lookup {k : Key} {v : Value} {es : List (Key × Value)}
    (h : lookup k es = some v) : (k, v) ∈ es := by
  induction es with
  | nil => cases h
  | cons e rest ih =>
    rw [lookup] at h
    split at h
    · next he =>
      cases h
      rw [← he]
      exact List.mem_cons_self
    · exact List.mem_cons_of_mem e (ih h)

theorem lookup_of_mem {k : Key} {v : Value} {es : List (Key × Value)}
    (hd : (es.map (·.1)).Nodup) (h : (k, v) ∈ es) : lookup k es = some v := by
  induction es with
  | nil => cases h
  | cons e rest ih =>
    rw [List.map_cons, List.nodup_cons] at hd
    rcases List.mem_cons.1 h with rfl | h
    · simp [lookup]
    · have hne : e.1 ≠ k := fun he => hd.1 (he ▸ List.mem_map_of_mem h)
      rw [lookup, if_neg hne]
      exact ih hd.2 h

theorem keys_replace (k : Key) (v : Value) (es : List (Key × Value)) :
    (replace k v es).map (·.1) = es.map (·.1) := by
  induction es with
  | nil => rfl
  | cons e rest ih =>
    unfold replace
    split
    · next he => simp [he]
    · simp [ih]

theorem nodup_append {k : Key} (v : Value) {es : List (Key × Value)}
    (hd : (es.map (·.1)).Nodup) (hk : k ∉ es.map (·.1)) :
    ((es ++ [(k, v)]).map (·.1)).Nodup := by
  rw [List.map_append]
  refine List.nodup_append.2 ⟨hd, by simp, fun a ha b hb h => hk ?_⟩
  rw [h, List.mem_singleton.1 hb] at ha
  exact ha

/-- The value under a key. -/
def get (t : Table) (k : Key) : Value := (lookup k t.slots).getD .nil

/-- The slots with a value, oldest first. -/
def pairs (t : Table) : List (Key × Value) := t.slots.filter fun e => !e.2.isNil

theorem distinct_pairs (t : Table) : (t.pairs.map (·.1)).Nodup :=
  t.distinct.sublist (List.filter_sublist.map _)

/-! ## Layout -/

/-- Whether an integer lies in the array part. -/
def inArray (size : Nat) (k : Key) : Bool :=
  match k with
  | .int i => 1 ≤ i.toInt && i.toInt ≤ size
  | _ => false

/-- The least power of two that is at least `n`, and zero for zero; `fuel` bounds the search. -/
def roundUp (n : Nat) : Nat := if n = 0 then 0 else go 64 1
where
  /-- Doubles until `n` is reached. -/
  go : Nat → Nat → Nat
    | 0, p => p
    | f + 1, p => if n ≤ p then p else go f (2 * p)

/-- The positive integers among the keys. -/
def positions (keys : List Key) : List Nat :=
  keys.filterMap fun
    | .int i => if 1 ≤ i.toInt then some i.toInt.toNat else none
    | _ => none

/-- The greatest power of two such that more than half of the integers up to it are present. -/
def bestArraySize (present : List Nat) : Nat := go 64 1 0
where
  /-- Tries one power of two after the other. -/
  go : Nat → Nat → Nat → Nat
    | 0, _, best => best
    | f + 1, p, best =>
      if present.length ≤ p / 2 then best
      else if p / 2 < (present.filter (· ≤ p)).length then go f (2 * p) p
      else go f (2 * p) best

/-- Adds a slot for a new key.  When the room is full the table is rearranged: emptied slots go,
and the sizes fit what is there. -/
def add (t : Table) (k : Key) (v : Value) (hk : lookup k t.slots = none) : Table :=
  have hk := lookup_eq_none.1 hk
  if inArray t.layout.arraySize k then
    { t with slots := t.slots ++ [(k, v)], distinct := nodup_append v t.distinct hk }
  else if t.layout.used < t.layout.capacity then
    { t with
      slots := t.slots ++ [(k, v)]
      layout := { t.layout with used := t.layout.used + 1 }
      distinct := nodup_append v t.distinct hk }
  else
    let slots := t.pairs ++ [(k, v)]
    let size := bestArraySize (positions (slots.map (·.1)))
    let others := (slots.filter fun e => !inArray size e.1).length
    { t with
      slots := slots
      layout := { arraySize := size, capacity := roundUp others, used := others }
      distinct := nodup_append v t.distinct_pairs fun h =>
        hk ((List.filter_sublist.map _).subset h) }

/-- Puts a value under a key. -/
def set (t : Table) (k : Key) (v : Value) : Table :=
  match hk : lookup k t.slots with
  | some _ =>
    { t with slots := replace k v t.slots, distinct := keys_replace k v t.slots ▸ t.distinct }
  | none => if v.isNil then t else t.add k v hk

/-- A table with room for `arraySize` integers from one on. -/
def withRoom (arraySize others : Nat) : Table :=
  { layout := { arraySize := arraySize, capacity := roundUp others } }

/-- Gives the array part room for `size` integers. -/
def growArray (t : Table) (size : Nat) : Table :=
  if t.layout.arraySize < size then { t with layout := { t.layout with arraySize := size } } else t

/-! ## Borders -/

/-- Whether there is a value under a positive integer. -/
def has (t : Table) (n : Nat) : Bool := !(t.get (.int (Int64.ofNat n))).isNil

/-- Searches between `low`, which counts as present, and `high`, which is absent. -/
def bisect (t : Table) : Nat → Nat → Nat → Nat
  | 0, low, _ => low
  | f + 1, low, high =>
    if high - low ≤ 1 then low
    else
      let mid := (low + high) / 2
      if t.has mid then bisect t f mid high else bisect t f low mid

/-- Doubles from `low`, which is present, until an absent integer is found, and searches below
it. -/
def gallop (t : Table) : Nat → Nat → Nat
  | 0, low => low
  | f + 1, low => if t.has (2 * low) then gallop t f (2 * low) else bisect t 64 low (2 * low)

/-- A border: zero or a present integer, with the next one absent. -/
def border (t : Table) : Nat :=
  let size := t.layout.arraySize
  -- positions have 63 bits, so 64 steps are enough for any search
  if 0 < size && !t.has size then bisect t 64 0 size
  -- the array part is full: it ends at a border unless other keys go on from there
  else if !t.has (size + 1) then size
  else gallop t 64 (if size = 0 then 1 else size)

/-- The pairs in the order of a traversal: the array part by position, then all others, oldest
first. -/
def enumerate (t : Table) : List (Key × Value) :=
  let size := t.layout.arraySize
  ((List.range size).filterMap fun i =>
    let k := Key.int (Int64.ofNat (i + 1))
    (lookup k t.slots).bind fun v => if v.isNil then none else some (k, v)) ++
    t.pairs.filter fun e => !inArray size e.1

/-- The slot after the one of `k`, skipping slots without a value; the first such slot if there is
no `k`.  Fails if `k` has no slot. -/
def next? (t : Table) : Option Key → Option (Option (Key × Value))
  | none => some (t.pairs.head?)
  | some k =>
    match t.slots.dropWhile fun e => e.1 != k with
    | [] => none
    | _ :: rest => some (rest.find? fun e => !e.2.isNil)

/-! ## The view -/

theorem lookup_replace_self {k : Key} {v w : Value} {es : List (Key × Value)}
    (h : lookup k es = some w) : lookup k (replace k v es) = some v := by
  induction es with
  | nil => simp [lookup] at h
  | cons e rest ih =>
    unfold replace
    split
    · simp [lookup]
    · next hne =>
      rw [lookup, if_neg hne] at h
      simp [lookup, hne, ih h]

theorem lookup_replace_of_ne {k k' : Key} (hne : k' ≠ k) (v : Value) (es : List (Key × Value)) :
    lookup k (replace k' v es) = lookup k es := by
  induction es with
  | nil => rfl
  | cons e rest ih =>
    unfold replace
    split
    · next he =>
      subst he
      simp [lookup, hne]
    · simp [lookup, ih]

theorem lookup_append (k : Key) (es fs : List (Key × Value)) :
    lookup k (es ++ fs) = (lookup k es).or (lookup k fs) := by
  induction es with
  | nil => simp [lookup]
  | cons e rest ih =>
    by_cases h : e.1 = k <;> simp [lookup, h, ih]

/-- Emptied slots do not count for the view. -/
theorem lookup_pairs (t : Table) (k : Key) : (lookup k t.pairs).getD .nil = t.get k := by
  cases h : lookup k t.pairs with
  | some v =>
    have hm := mem_of_lookup h
    rw [get, lookup_of_mem t.distinct (List.mem_filter.1 hm).1]
  | none =>
    rw [get]
    cases h' : lookup k t.slots with
    | none => rfl
    | some v =>
      by_cases hv : v.isNil
      · rw [Value.isNil_iff.1 hv]
        rfl
      · have hm : (k, v) ∈ t.pairs :=
          List.mem_filter.2 ⟨mem_of_lookup h', by simpa using hv⟩
        rw [lookup_of_mem t.distinct_pairs hm] at h
        cases h

@[simp] theorem get_empty (k : Key) : get {} k = .nil := rfl

theorem get_add {t : Table} {k : Key} (v : Value) (hk : lookup k t.slots = none) (k' : Key) :
    (t.add k v hk).get k' = if k = k' then v else t.get k' := by
  have key (es : List (Key × Value)) (he : lookup k es = none) :
      (lookup k' (es ++ [(k, v)])).getD .nil =
        if k = k' then v else (lookup k' es).getD .nil := by
    rw [lookup_append]
    by_cases h : k = k'
    · subst h
      simp [he, lookup]
    · simp [lookup, h]
  have hp : lookup k t.pairs = none := by
    rw [lookup_eq_none] at hk ⊢
    exact fun h => hk ((List.filter_sublist.map _).subset h)
  unfold add
  dsimp only
  split
  · exact key t.slots hk
  · split
    · exact key t.slots hk
    · rw [← lookup_pairs t k']
      exact key t.pairs hp

/-- Putting a value under a key changes the view there and nowhere else. -/
@[grind =] theorem get_set (t : Table) (k k' : Key) (v : Value) :
    (t.set k v).get k' = if k = k' then v else t.get k' := by
  unfold set
  split
  · next w hw =>
    by_cases h : k = k'
    · subst h
      rw [if_pos rfl, get, lookup_replace_self hw]
      rfl
    · rw [if_neg h, get, lookup_replace_of_ne h]
      rfl
  · next hn =>
    split
    · next hv =>
      split
      · next h =>
        subst h
        rw [get, hn, Value.isNil_iff.1 hv]
        rfl
      · rfl
    · exact get_add v hn k'

@[simp] theorem metatable_set (t : Table) (k : Key) (v : Value) :
    (t.set k v).metatable? = t.metatable? := by
  unfold set
  split
  · rfl
  · split
    · rfl
    · unfold add
      dsimp only
      split
      · rfl
      · split <;> rfl

theorem mem_pairs {t : Table} {k : Key} {v : Value} :
    (k, v) ∈ t.pairs ↔ t.get k = v ∧ v ≠ .nil := by
  constructor
  · intro h
    have hm := List.mem_filter.1 h
    refine ⟨?_, fun hv => ?_⟩
    · rw [get, lookup_of_mem t.distinct hm.1]
      rfl
    · rw [hv] at hm
      cases hm.2
  · rintro ⟨hg, hv⟩
    rw [get] at hg
    cases h : lookup k t.slots with
    | none =>
      rw [h] at hg
      exact absurd hg.symm hv
    | some w =>
      rw [h, Option.getD_some] at hg
      subst hg
      exact List.mem_filter.2 ⟨mem_of_lookup h, by rw [Value.isNil_eq_false.2 hv]; rfl⟩

/-- A traversal meets exactly the pairs of the view. -/
theorem mem_enumerate {t : Table} {k : Key} {v : Value} :
    (k, v) ∈ t.enumerate ↔ t.get k = v ∧ v ≠ .nil := by
  rw [enumerate, List.mem_append, List.mem_filterMap, List.mem_filter, ← mem_pairs]
  constructor
  · rintro (⟨i, -, hi⟩ | ⟨h, -⟩)
    · dsimp only at hi
      cases h : lookup (.int (Int64.ofNat (i + 1))) t.slots with
      | none =>
        rw [h] at hi
        cases hi
      | some w =>
        rw [h, Option.bind_some] at hi
        split at hi
        · cases hi
        · next hw =>
          cases hi
          exact List.mem_filter.2 ⟨mem_of_lookup h, by simpa using hw⟩
    · exact h
  · intro h
    -- a pair is met in the array part or behind it, wherever its key belongs
    by_cases ha : inArray t.layout.arraySize k
    · left
      unfold inArray at ha
      split at ha
      · next i =>
        simp only [Bool.and_eq_true, decide_eq_true_eq] at ha
        have hl := lookup_of_mem t.distinct (List.mem_filter.1 h).1
        have hi : Int64.ofNat (i.toInt.toNat - 1 + 1) = i := by
          rw [Nat.sub_add_cancel (by omega), ← Int64.ofInt_eq_ofNat, Int.toNat_of_nonneg (by omega)]
          exact Int64.ofInt_toInt i
        refine ⟨i.toInt.toNat - 1, List.mem_range.2 (by omega), ?_⟩
        dsimp only
        rw [hi, hl, Option.bind_some, Value.isNil_eq_false.2 (mem_pairs.1 h).2]
        rfl
      · cases ha
    · exact .inr ⟨h, by simpa using ha⟩

end Table
end ScriptShell.Guest
