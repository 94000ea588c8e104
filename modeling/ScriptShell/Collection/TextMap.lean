/-! # Maps with texts as keys

A map from texts to values as a list of pairs, kept in the order of the keys.  Its view is `get?`:
`get?_insert_self`, `get?_insert_of_ne`, `get?_erase_self` and `get?_erase_of_ne` say what each
operation does to it. -/

namespace ScriptShell

/-- Pairs of key and value, in the order of the keys. -/
structure TextMap (α : Type) where
  /-- The pairs. -/
  entries : List (String × α) := []
  deriving Inhabited

namespace TextMap

variable {α : Type}

/-- Puts a pair in its place; the value of an equal key is replaced. -/
def insertEntry (k : String) (v : α) : List (String × α) → List (String × α)
  | [] => [(k, v)]
  | (k', v') :: rest =>
    if k' = k then (k, v) :: rest
    else if k < k' then (k, v) :: (k', v') :: rest
    else (k', v') :: insertEntry k v rest

/-- The value under a key, in a list of pairs. -/
def lookupEntry (k : String) : List (String × α) → Option α
  | [] => none
  | (k', v) :: rest => if k' = k then some v else lookupEntry k rest

/-- The value under a key. -/
def get? (m : TextMap α) (k : String) : Option α := lookupEntry k m.entries

/-- Puts a value under a key. -/
def insert (m : TextMap α) (k : String) (v : α) : TextMap α := ⟨insertEntry k v m.entries⟩

/-- Removes a key. -/
def erase (m : TextMap α) (k : String) : TextMap α := ⟨m.entries.filter (·.1 != k)⟩

/-- Whether there is a value under a key. -/
def contains (m : TextMap α) (k : String) : Bool := (m.get? k).isSome

/-- The keys in order. -/
def keys (m : TextMap α) : List String := m.entries.map (·.1)

/-- The map that inserting pairs in order makes. -/
def ofList (pairs : List (String × α)) : TextMap α :=
  pairs.foldl (fun m e => m.insert e.1 e.2) {}

/-! ## The view -/

theorem lookupEntry_insertEntry_self (k : String) (v : α) (es : List (String × α)) :
    lookupEntry k (insertEntry k v es) = some v := by
  induction es with
  | nil => simp [insertEntry, lookupEntry]
  | cons e rest ih =>
    unfold insertEntry
    split
    · simp [lookupEntry]
    · split
      · simp [lookupEntry]
      · next he _ => simp [lookupEntry, he, ih]

theorem lookupEntry_insertEntry_of_ne {k k' : String} (h : k' ≠ k) (v : α)
    (es : List (String × α)) : lookupEntry k (insertEntry k' v es) = lookupEntry k es := by
  induction es with
  | nil => simp [insertEntry, lookupEntry, h]
  | cons e rest ih =>
    unfold insertEntry
    split
    · next he =>
      subst he
      simp [lookupEntry, h]
    · split
      · simp [lookupEntry, h]
      · simp [lookupEntry, ih]

theorem lookupEntry_filter_self (k : String) (es : List (String × α)) :
    lookupEntry k (es.filter (·.1 != k)) = none := by
  induction es with
  | nil => rfl
  | cons e rest ih =>
    by_cases h : e.1 = k
    · simp [h, ih]
    · simp [h, lookupEntry, ih]

theorem lookupEntry_filter_of_ne {k k' : String} (h : k' ≠ k) (es : List (String × α)) :
    lookupEntry k (es.filter (·.1 != k')) = lookupEntry k es := by
  induction es with
  | nil => rfl
  | cons e rest ih =>
    by_cases he : e.1 = k'
    · simp [lookupEntry, he, h, ih]
    · simp [he, lookupEntry, ih]

@[simp] theorem get?_insert_self (m : TextMap α) (k : String) (v : α) :
    (m.insert k v).get? k = some v :=
  lookupEntry_insertEntry_self k v m.entries

theorem get?_insert_of_ne (m : TextMap α) {k k' : String} (h : k' ≠ k) (v : α) :
    (m.insert k' v).get? k = m.get? k :=
  lookupEntry_insertEntry_of_ne h v m.entries

@[simp] theorem get?_erase_self (m : TextMap α) (k : String) : (m.erase k).get? k = none :=
  lookupEntry_filter_self k m.entries

theorem get?_erase_of_ne (m : TextMap α) {k k' : String} (h : k' ≠ k) :
    (m.erase k').get? k = m.get? k :=
  lookupEntry_filter_of_ne h m.entries

end TextMap
end ScriptShell
