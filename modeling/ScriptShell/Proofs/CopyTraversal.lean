import Mathlib.Data.Finset.Card
import ScriptShell.Proofs.CopySteps

/-! # Copying values

Copying a value from a sound state leads to a sound state that has all that was there
(`Copying.Advances`): what was made on the way is complete, the tables with all pairs that can be
copied and the functions with all variables.  `Copying.copies` says so for values of any depth; the
induction is on the depth, which every table and function that is entered uses up
(`Copying.remaining`).

What makes it go through for functions is `Copying.Leads`: a function that waits for its variables
refers to whatever is being copied.
-/

namespace ScriptShell

open Guest

/-- Values that can always be copied: plain ones and tables. -/
def Guest.Value.IsData : Value → Prop
  | .nil | .bool _ | .int _ | .num _ | .str _ | .table _ => True
  | .func _ | .user _ | .thread _ | .light _ => False

namespace Copying

variable (s c : Copying)

/-! ## What is reached -/

/-- A key that no other key has the same copy as: a plain one, or a table that had no counterpart
at the start. -/
def Faithful (k : Key) : Prop :=
  k.toValue.IsData ∧ ∀ t, k = .table t → s.tables.lookup t = none

/-- A table has the copies of all pairs that can be copied, unless something was there before. -/
def Filled (into : TableRef) (es : List (Key × Value)) : Prop :=
  ∀ k v, (k, v) ∈ es → (∀ t, k = .table t → ∃ u, c.tables.lookup t = some u) ∧
    (s.Faithful k → v.IsData → ∃ k', c.Pairs k.toValue k'.toValue ∧
      ((s.heap.table into).get k' ≠ .nil ∨ c.Pairs v ((c.heap.table into).get k')))

/-- A table was copied as a whole. -/
structure Complete (t u : TableRef) : Prop where
  /-- The pairs. -/
  filled : s.Filled c u (c.source.table t).enumerate
  /-- The metatable. -/
  metatable : ∀ m, (c.source.table t).metatable? = some m →
    ∃ m', c.tables.lookup m = some m' ∧ (c.heap.table u).metatable? = some m'

/-- Every function that is not finished refers to the value. -/
def Leads (v : Value) : Prop :=
  ∀ f g, c.functions.lookup f = some (some g) → s.heap.functions.size ≤ g.id →
    c.Bound f g ∨ Relation.TransGen s.source.Refers (.func f) v

/-- The later state has all of the earlier one, and what was made in between is complete. -/
structure Advances (c c' : Copying) : Prop where
  /-- It started from a sound state. -/
  before : s.Sound c
  /-- It leads to a sound state. -/
  sound : s.Sound c'
  /-- What was there is there. -/
  later : c.Extends c'
  /-- Variables that held copies hold copies. -/
  held : s.KeepsVariables c c'
  /-- New tables are complete. -/
  complete : ∀ t u, c.tables.lookup t = none → c'.tables.lookup t = some u → s.Complete c' t u
  /-- New functions are finished. -/
  bound : ∀ f g, c.functions.lookup f = none → c'.functions.lookup f = some (some g) → c'.Bound f g

variable {s c} {c' c'' : Copying}

theorem Filled.mono {into : TableRef} {es : List (Key × Value)} (h : s.Filled c into es)
    (hes : ∀ e ∈ es, e.2 ≠ .nil) (hp : ∀ v v', c.Pairs v v' → c'.Pairs v v')
    (ht : ∀ t u, c.tables.lookup t = some u → c'.tables.lookup t = some u)
    (hslot : ∀ k, (c.heap.table into).get k ≠ .nil →
      (c'.heap.table into).get k = (c.heap.table into).get k) : s.Filled c' into es := by
  intro k v hmem
  obtain ⟨htab, hval⟩ := h k v hmem
  refine ⟨fun t he => ?_, fun hk hv => ?_⟩
  · obtain ⟨u, hu⟩ := htab t he
    exact ⟨u, ht t u hu⟩
  · obtain ⟨k', hkey, hslot'⟩ := hval hk hv
    refine ⟨k', hp _ _ hkey, hslot'.imp_right fun hpair => ?_⟩
    rw [hslot k' (hpair.ne_nil (hes _ hmem))]
    exact hp _ _ hpair

theorem ne_nil_of_mem_enumerate {t : Table} (e : Key × Value) (he : e ∈ t.enumerate) :
    e.2 ≠ .nil := (Table.mem_enumerate.1 he).2

theorem Complete.mono {t u : TableRef} (h : s.Complete c t u) (hs : c'.source = c.source)
    (hp : ∀ v v', c.Pairs v v' → c'.Pairs v v')
    (ht : ∀ t u, c.tables.lookup t = some u → c'.tables.lookup t = some u)
    (hslot : ∀ u k, (c.heap.table u).get k ≠ .nil →
      (c'.heap.table u).get k = (c.heap.table u).get k)
    (hmeta : ∀ u m, (c.heap.table u).metatable? = some m →
      (c'.heap.table u).metatable? = some m) : s.Complete c' t u := by
  refine ⟨?_, fun m hm => ?_⟩
  · rw [hs]
    exact h.filled.mono ne_nil_of_mem_enumerate hp ht (hslot u)
  · rw [hs] at hm
    obtain ⟨m', hl, hm'⟩ := h.metatable m hm
    exact ⟨m', ht m m' hl, hmeta u m' hm'⟩

theorem Extends.complete (x : c.Extends c') {t u : TableRef} (h : s.Complete c t u) :
    s.Complete c' t u :=
  h.mono x.source (fun _ _ => x.pairs) x.lookupTable x.slot x.metatable

/-- What was not there at the start was made. -/
theorem Sound.made (h : s.Sound c) {f g : GuestFunction} (hf : s.functions.lookup f = none)
    (hm : (f, some g) ∈ c.functions) : s.heap.functions.size ≤ g.id := by
  rcases (h.functions.function f g hm).2 with hold | hmade
  · exact absurd rfl (bne_iff_ne.1 (List.lookup_eq_none_iff.1 hf (f, some g) hold))
  · exact hmade

theorem Sound.lookup_start (h : s.Sound c) {f : GuestFunction}
    (hl : c.functions.lookup f = none) : s.functions.lookup f = none := by
  cases hs : s.functions.lookup f with
  | none => rfl
  | some v =>
    rw [h.later.lookupFunction f v hs] at hl
    cases hl

namespace Advances

theorem refl (h : s.Sound c) : s.Advances c c where
  before := h
  sound := h
  later := .refl c
  held := .refl s c
  complete t u hn hl := by
    rw [hn] at hl
    cases hl
  bound f g hn hl := by
    rw [hn] at hl
    cases hl

theorem trans (a : s.Advances c c') (b : s.Advances c' c'') : s.Advances c c'' where
  before := a.before
  sound := b.sound
  later := a.later.trans b.later
  held := a.held.trans b.held a.later a.before.functions
  complete t u hn hl := by
    cases hl' : c'.tables.lookup t with
    | none => exact b.complete t u hl' hl
    | some u' =>
      rw [b.later.lookupTable t u' hl'] at hl
      cases hl
      exact b.later.complete (a.complete t u hn hl')
  bound f g hn hl := by
    cases hl' : c'.functions.lookup f with
    | none => exact b.bound f g hl' hl
    | some v =>
      rw [b.later.lookupFunction f v hl'] at hl
      cases hl
      have hmade := a.sound.made (a.before.lookup_start hn) (mem_of_lookup hl')
      exact (a.bound f g hn hl').mono hmade b.later a.sound.functions b.held

/-- A step that makes nothing. -/
theorem of_same (h : s.Sound c) (h' : s.Sound c') (x : c.Extends c') (k : s.KeepsVariables c c')
    (ht : c'.tables = c.tables) (hf : c'.functions = c.functions) : s.Advances c c' where
  before := h
  sound := h'
  later := x
  held := k
  complete t u hn hl := by
    rw [ht, hn] at hl
    cases hl
  bound f g hn hl := by
    rw [hf, hn] at hl
    cases hl

/-- What may be handed out may be handed out later. -/
theorem given (a : s.Advances c c') {v v' : Value} (hv : s.Given c v v') : s.Given c' v v' :=
  hv.mono a.later a.before.functions a.held

end Advances

/-- Where a path leads, it leads one step further. -/
theorem Leads.step {v v' : Value} (h : s.Leads c v) (hr : s.source.Refers v v') : s.Leads c v' := by
  intro f g hl hg
  exact (h f g hl hg).imp_right (·.tail hr)

theorem Leads.advance {v : Value} (h : s.Leads c v) (a : s.Advances c c') : s.Leads c' v := by
  intro f g hl hg
  cases hl' : c.functions.lookup f with
  | none => exact .inl (a.bound f g hl' hl)
  | some x =>
    rw [a.later.lookupFunction f x hl'] at hl
    cases hl
    refine (h f g hl' hg).imp_left fun hb => ?_
    exact hb.mono hg a.later a.before.functions a.held

/-! ## How much is left -/

/-- How many tables and functions have not been entered. -/
def remaining (c : Copying) : Nat :=
  ((Finset.range c.source.tables.size).filter fun i => (c.tables.lookup ⟨i⟩).isNone).card +
    ((Finset.range c.source.functions.size).filter fun i => (c.functions.lookup ⟨i⟩).isNone).card

theorem card_filter_le {p q : Nat → Bool} (h : ∀ i, q i → p i) (n : Nat) :
    ((Finset.range n).filter fun i => q i).card ≤ ((Finset.range n).filter fun i => p i).card :=
  Finset.card_le_card (Finset.monotone_filter_right _ fun i _ => h i)

theorem card_filter_lt {p q : Nat → Bool} (h : ∀ i, q i → p i) {n i : Nat} (hi : i < n)
    (hp : p i) (hq : ¬q i) :
    ((Finset.range n).filter fun i => q i).card < ((Finset.range n).filter fun i => p i).card := by
  refine Finset.card_lt_card ⟨Finset.monotone_filter_right _ fun i _ => h i, fun hsub => hq ?_⟩
  exact (Finset.mem_filter.1 (hsub (Finset.mem_filter.2 ⟨Finset.mem_range.2 hi, hp⟩))).2

theorem isNone_of_lookup {α β : Type} [BEq α] {es es' : List (α × β)} {k : α}
    (h : ∀ v, es.lookup k = some v → es'.lookup k = some v) (hn : (es'.lookup k).isNone) :
    (es.lookup k).isNone := by
  cases hl : es.lookup k with
  | none => rfl
  | some v =>
    rw [h v hl] at hn
    cases hn

theorem Extends.remaining (x : c.Extends c') : c'.remaining ≤ c.remaining := by
  rw [Copying.remaining, Copying.remaining, x.source]
  exact Nat.add_le_add (card_filter_le (fun i => isNone_of_lookup (x.lookupTable ⟨i⟩)) _)
    (card_filter_le (fun i => isNone_of_lookup (x.lookupFunction ⟨i⟩)) _)

/-- Entering a table leaves one fewer. -/
theorem Extends.remaining_lt_of_table (x : c.Extends c') {t u : TableRef}
    (ht : t.id < c.source.tables.size) (hl : c.tables.lookup t = none)
    (hl' : c'.tables.lookup t = some u) : c'.remaining < c.remaining := by
  rw [Copying.remaining, Copying.remaining, x.source]
  refine Nat.add_lt_add_of_lt_of_le (card_filter_lt
    (fun i => isNone_of_lookup (x.lookupTable ⟨i⟩)) ht (by rw [hl]; rfl) ?_)
    (card_filter_le (fun i => isNone_of_lookup (x.lookupFunction ⟨i⟩)) _)
  rw [hl']
  exact Bool.false_ne_true

/-- Entering a function leaves one fewer. -/
theorem Extends.remaining_lt_of_function (x : c.Extends c') {f : GuestFunction}
    {v : Option GuestFunction} (hf : f.id < c.source.functions.size)
    (hl : c.functions.lookup f = none) (hl' : c'.functions.lookup f = some v) :
    c'.remaining < c.remaining := by
  rw [Copying.remaining, Copying.remaining, x.source]
  refine Nat.add_lt_add_of_le_of_lt
    (card_filter_le (fun i => isNone_of_lookup (x.lookupTable ⟨i⟩)) _) (card_filter_lt
    (fun i => isNone_of_lookup (x.lookupFunction ⟨i⟩)) hf (by rw [hl]; rfl) ?_)
  rw [hl']
  exact Bool.false_ne_true

theorem remaining_lt_depth (c : Copying) : c.remaining < c.depth := by
  have ht := Finset.card_filter_le (Finset.range c.source.tables.size)
    fun i => (c.tables.lookup ⟨i⟩).isNone
  have hf := Finset.card_filter_le (Finset.range c.source.functions.size)
    fun i => (c.functions.lookup ⟨i⟩).isNone
  rw [Finset.card_range] at ht hf
  rw [remaining, depth]
  omega

/-! ## Copies of keys -/

/-- The copy of a key is a key. -/
theorem exists_key {k : Key} {v : Value} (h : c.Pairs k.toValue v) :
    ∃ k' : Key, k'.toValue = v := by
  cases k with
  | table t =>
    obtain ⟨u, -, rfl⟩ := h
    exact ⟨.table u, rfl⟩
  | func f =>
    obtain ⟨g, -, rfl⟩ := h
    exact ⟨.func g, rfl⟩
  | user x =>
    obtain ⟨y, handle, -, -, rfl⟩ := h
    exact ⟨.user y, rfl⟩
  | thread _ | light _ => exact h.elim
  | bool b => exact ⟨.bool b, h.symm⟩
  | int i => exact ⟨.int i, h.symm⟩
  | @num x proper => exact ⟨@Key.num x proper, h.symm⟩
  | str x => exact ⟨.str x, h.symm⟩

theorem toValue_injective {k k' : Key} (h : k.toValue = k'.toValue) : k = k' := by
  have he := congrArg Key.ofValue h
  rw [Key.ofValue_toValue, Key.ofValue_toValue] at he
  exact Except.ok.inj he

/-- No two keys have the same copy if one of them is faithful. -/
theorem Faithful.eq {k k₁ : Key} {v : Value} (hk : s.Faithful k) (h : s.Sound c)
    (hp : c.Pairs k.toValue v) (hp₁ : c.Pairs k₁.toValue v) : k₁ = k := by
  have plain (hv : v = k.toValue) (ht : ∀ t, k ≠ .table t) : k₁ = k := by
    subst hv
    have hd := hk.1
    cases k₁ with
    | table t =>
      obtain ⟨u, -, he⟩ := hp₁
      cases k <;> first | exact absurd rfl (ht _) | cases he
    | func f =>
      obtain ⟨g, -, he⟩ := hp₁
      cases k <;> first | exact hd.elim | cases he
    | user x =>
      obtain ⟨y, handle, -, -, he⟩ := hp₁
      cases k <;> first | exact hd.elim | cases he
    | thread _ | light _ => exact hp₁.elim
    | _ => exact (toValue_injective hp₁).symm
  cases k with
  | table t =>
    obtain ⟨u, hl, rfl⟩ := hp
    cases k₁ with
    | table t₁ =>
      obtain ⟨u₁, hl₁, he⟩ := hp₁
      cases he
      have hmade := ((h.tables.table t u hl).2.resolve_left fun hs => by
        rw [hk.2 t rfl] at hs
        cases hs)
      rw [h.tables.injective t t₁ u hmade hl hl₁]
    | func f => obtain ⟨g, -, he⟩ := hp₁; cases he
    | user x => obtain ⟨y, handle, -, -, he⟩ := hp₁; cases he
    | thread _ | light _ => exact hp₁.elim
    | _ => cases hp₁
  | func _ | user _ | thread _ | light _ => exact hk.1.elim
  | _ => exact plain hp fun _ => Key.noConfusion

/-- What can always be copied is not stuck. -/
theorem Stuck.not_isData {v : Value} (h : s.Stuck v) : ¬v.IsData := by
  cases h <;> exact id

/-! ## One value -/

/-- What copying a value does. -/
structure Copied (s c : Copying) (v : Value) (r : Option Value × Copying) : Prop where
  /-- It leads to a later state. -/
  advances : s.Advances c r.2
  /-- All of the heap stays as it was. -/
  keeps : c.heap.Keeps r.2.heap
  /-- It gives the copy. -/
  given : ∀ v', r.1 = some v' → s.Given r.2 v v'
  /-- It fails only if there is none. -/
  stuck : r.1 = none → s.Stuck v

/-- A function copies values while no more than `n` tables and functions are left. -/
def Copies (s : Copying) (n : Nat) (copy : Copying → Value → Option Value × Copying) : Prop :=
  ∀ c v, s.Sound c → c.remaining < n → s.Leads c v → s.Copied c v (copy c v)

/-! ## The pairs of a table -/

/-- A table is ready to get the copies of the pairs of another one. -/
structure Merging (s c : Copying) (t into : TableRef) : Prop where
  /-- The state is sound. -/
  sound : s.Sound c
  /-- Unfinished functions refer to the table. -/
  leads : s.Leads c (.table t)
  /-- The table exists. -/
  lt : into.id < c.heap.tables.size
  /-- It belongs to the new session. -/
  new : s.source.tables.size ≤ into.id
  /-- If it was made, it was made for this. -/
  made : s.heap.tables.size ≤ into.id → c.tables.lookup t = some into
  /-- It holds nothing else. -/
  origin : s.From c t into

/-- Where a table of a later state holds the same, it is ready as well. -/
theorem Merging.advance {t into : TableRef} (m : s.Merging c t into) (a : s.Advances c c')
    (hget : ∀ k, (c'.heap.table into).get k = (c.heap.table into).get k) :
    s.Merging c' t into where
  sound := a.sound
  leads := m.leads.advance a
  lt := Nat.lt_of_lt_of_le m.lt a.later.size
  new := m.new
  made h := a.later.lookupTable t into (m.made h)
  origin := m.origin.mono hget a.later.source fun _ _ => a.given

/-- What adding pairs to a table does. -/
structure Merged (s c : Copying) (t into : TableRef) (es : List (Key × Value)) (c' : Copying) :
    Prop where
  /-- It leads to a later state. -/
  advances : s.Advances c c'
  /-- All of the heap stays as it was, the table apart. -/
  keeps : c.heap.KeepsBut into c'.heap
  /-- The table holds copies of pairs. -/
  origin : s.From c' t into
  /-- It holds all that can be copied. -/
  filled : s.Filled c' into es

theorem Merged.cons {t into : TableRef} {e : Key × Value} {es : List (Key × Value)}
    (he : e.2 ≠ .nil) (m₁ : s.Merged c t into [e] c') (m : s.Merged c' t into es c'') :
    s.Merged c t into (e :: es) c'' where
  advances := m₁.advances.trans m.advances
  keeps := m₁.keeps.trans m.keeps
  origin := m.origin
  filled k v hmem := by
    have x := m.advances.later
    rcases List.mem_cons.1 hmem with rfl | hmem
    · exact m₁.filled.mono (fun e' he' => by rw [List.mem_singleton.1 he']; exact he)
        (fun _ _ => x.pairs) x.lookupTable (x.slot into) k v (List.mem_cons_self ..)
    · exact m.filled k v hmem

/-- Copying something first is a part of adding the pairs. -/
theorem Merged.after {t into : TableRef} {es : List (Key × Value)} (a : s.Advances c c')
    (hk : c.heap.Keeps c'.heap) (m : s.Merged c' t into es c'') : s.Merged c t into es c'' where
  advances := a.trans m.advances
  keeps := (Heap.KeepsBut.of_keeps hk into).trans m.keeps
  origin := m.origin
  filled := m.filled

/-- If something else than before the start is in the slot of a faithful key, it is the copy of the
value of that key. -/
theorem From.filled {t into : TableRef} {k k' : Key} (h : s.From c t into) (hs : s.Sound c)
    (hk : s.Faithful k) (hp : c.Pairs k.toValue k'.toValue)
    (hne : (c.heap.table into).get k' ≠ .nil) : (s.heap.table into).get k' ≠ .nil ∨
      c.Pairs ((c.source.table t).get k) ((c.heap.table into).get k') := by
  rcases h k' hne with hold | ⟨k₁, hkey, hval⟩
  · exact .inl hold
  · rw [← hk.eq hs hp hkey.pairs]
    exact .inr hval.pairs

/-- Where a key has no copy, there is nothing to do. -/
theorem filled_of_stuck {k : Key} (h : s.Stuck k.toValue) (into : TableRef) (v : Value) :
    s.Filled c into [(k, v)] := by
  intro k' v' hmem
  cases List.mem_singleton.1 hmem
  refine ⟨fun t he => ?_, fun hk _ => absurd hk.1 h.not_isData⟩
  subst he
  exact absurd trivial h.not_isData

/-- Where a key has a copy, what counts is the slot. -/
theorem filled_of_given {k k' : Key} {v : Value} {into : TableRef}
    (hp : c.Pairs k.toValue k'.toValue)
    (hslot : s.Faithful k → v.IsData → (s.heap.table into).get k' ≠ .nil ∨
      c.Pairs v ((c.heap.table into).get k')) : s.Filled c into [(k, v)] := by
  intro k₁ v₁ hmem
  cases List.mem_singleton.1 hmem
  refine ⟨fun t he => ?_, fun hk hv => ⟨k', hp, hslot hk hv⟩⟩
  subst he
  obtain ⟨u, hu, -⟩ := hp
  exact ⟨u, hu⟩

section Merge

variable {n : Nat} {copy : Copying → Value → Option Value × Copying} {t into : TableRef}

/-- A new pair gets into the table. -/
theorem Merging.setSlot {k k' : Key} {v' : Value} (m : s.Merging c t into)
    (hnil : (c.heap.table into).get k' = .nil) (hkey : s.Given c k.toValue k'.toValue)
    (hval : s.Given c ((c.source.table t).get k) v') :
    s.Advances c (c.setSlot into k' v') ∧ s.Merging (c.setSlot into k' v') t into := by
  have hs := sound_setSlot m.sound m.new m.lt m.made hnil hkey hval
  have x := extends_setSlot m.lt hnil (v := v')
  have a : s.Advances c (c.setSlot into k' v') :=
    .of_same m.sound hs x (x.keepsVariables rfl) rfl rfl
  exact ⟨a, hs, m.leads.advance a, Nat.lt_of_lt_of_le m.lt x.size, m.new, m.made,
    m.origin.setSlot m.lt (a.given hkey) (a.given hval) fun _ _ => a.given⟩

/-- Copying a value leaves the table alone. -/
theorem Copied.merging {v : Value} {r : Option Value × Copying} (h : s.Copied c v r)
    (m : s.Merging c t into) : s.Merging r.2 t into :=
  m.advance h.advances fun k => by rw [h.keeps.table m.lt]

/-- A pair whose key has no copy is passed over. -/
theorem Merging.keyStuck {k : Key} (m : s.Merging c t into) (h : s.Copied c k.toValue (none, c'))
    (v : Value) : s.Merged c t into [(k, v)] c' where
  advances := h.advances
  keeps := .of_keeps h.keeps into
  origin := (h.merging m).origin
  filled := filled_of_stuck (h.stuck rfl) into v

/-- So is one whose slot has something in it. -/
theorem Merging.slotTaken {k k' : Key} (m : s.Merging c t into)
    (h : s.Copied c k.toValue (some k'.toValue, c'))
    (hset : (c'.heap.table into).get k' ≠ .nil) :
    s.Merged c t into [(k, (c.source.table t).get k)] c' where
  advances := h.advances
  keeps := .of_keeps h.keeps into
  origin := (h.merging m).origin
  filled := by
    have hp := (h.given _ rfl).pairs
    refine filled_of_given hp fun hk _ => ?_
    rw [← h.advances.later.source]
    exact (h.merging m).origin.filled h.advances.sound hk hp hset

/-- So is one whose value has no copy. -/
theorem Merging.valueStuck {k k' : Key} {v : Value} (m : s.Merging c t into)
    (hkey : s.Given c k.toValue k'.toValue) (h : s.Copied c v (none, c')) :
    s.Merged c t into [(k, v)] c' where
  advances := h.advances
  keeps := .of_keeps h.keeps into
  origin := (h.merging m).origin
  filled := filled_of_given (h.advances.later.pairs hkey.pairs) fun _ hd =>
    absurd hd (h.stuck rfl).not_isData

/-- A pair that has a copy gets into the table, where there is room for it. -/
theorem Merging.pair {k k' : Key} {v' : Value} (m : s.Merging c t into)
    (hnil : (c.heap.table into).get k' = .nil) (hkey : s.Given c k.toValue k'.toValue)
    (h : s.Copied c ((c.source.table t).get k) (some v', c')) :
    s.Merging (c'.setSlot into k' v') t into ∧
      s.Merged c t into [(k, (c.source.table t).get k)] (c'.setSlot into k' v') := by
  have m₁ : s.Merging c' t into := h.merging m
  have hnil₁ : (c'.heap.table into).get k' = .nil := by rw [h.keeps.table m.lt, hnil]
  have hkey₁ := h.advances.given hkey
  have hval := h.given v' rfl
  have hval₁ : s.Given c' ((c'.source.table t).get k) v' := by
    rw [h.advances.later.source]
    exact hval
  obtain ⟨a, m₂⟩ := m₁.setSlot hnil₁ hkey₁ hval₁
  refine ⟨m₂, h.advances.trans a, ?_, m₂.origin, ?_⟩
  · exact (Heap.KeepsBut.of_keeps h.keeps into).trans (.setSlot _ into k' v')
  · refine filled_of_given (a.later.pairs hkey₁.pairs) fun _ _ => .inr ?_
    have hslot : ((c'.setSlot into k' v').heap.table into).get k' = v' := by
      rw [Copying.setSlot, Heap.get_setSlot _ m₁.lt, if_pos ⟨rfl, rfl⟩]
    rw [hslot]
    exact a.later.pairs hval.pairs

/-- One pair is added, and then the rest. -/
theorem exists_merged_pair (hcopy : s.Copies n copy) (m : s.Merging c t into)
    (hrem : c.remaining < n) {k : Key} (hne : (c.source.table t).get k ≠ .nil)
    (es : List (Key × Value)) :
    ∃ c', s.Merging c' t into ∧ s.Merged c t into [(k, (c.source.table t).get k)] c' ∧
      mergeInto copy c into ((k, (c.source.table t).get k) :: es) = mergeInto copy c' into es := by
  have hstart : (s.source.table t).get k ≠ .nil := by rwa [← m.sound.later.source]
  have hcopied := hcopy c k.toValue m.sound hrem (m.leads.step (.key hstart))
  rw [mergeInto]
  generalize copy c k.toValue = r at hcopied
  obtain ⟨_ | key, c₁⟩ := r
  · exact ⟨c₁, hcopied.merging m, m.keyStuck hcopied _, rfl⟩
  · have m₁ : s.Merging c₁ t into := hcopied.merging m
    have hkey : s.Given c₁ k.toValue key := hcopied.given key rfl
    obtain ⟨k', rfl⟩ := exists_key hkey.pairs
    dsimp only
    rw [Key.ofValue_toValue]
    dsimp only
    split
    · next hset =>
      have hset := Value.isNil_eq_false.1 (by simpa using hset)
      exact ⟨c₁, m₁, m.slotTaken hcopied hset, rfl⟩
    · next hset =>
      have hnil := Value.isNil_iff.1 (by simpa using hset)
      have hsource : c₁.source = c.source := hcopied.advances.later.source
      have hrem₁ : c₁.remaining < n := Nat.lt_of_le_of_lt hcopied.advances.later.remaining hrem
      have href : s.source.Refers (.table t) ((c₁.source.table t).get k) := by
        rw [m₁.sound.later.source]
        exact .value hstart
      rw [← hsource]
      have hcopied₂ := hcopy c₁ ((c₁.source.table t).get k) m₁.sound hrem₁ (m₁.leads.step href)
      generalize copy c₁ ((c₁.source.table t).get k) = r at hcopied₂
      obtain ⟨_ | v', c₂⟩ := r
      · exact ⟨c₂, hcopied₂.merging m₁,
          .after hcopied.advances hcopied.keeps (m₁.valueStuck hkey hcopied₂), rfl⟩
      · obtain ⟨m₃, hm⟩ := m₁.pair hnil hkey hcopied₂
        exact ⟨c₂.setSlot into k' v', m₃, .after hcopied.advances hcopied.keeps hm, rfl⟩

theorem merged_mergeInto (hcopy : s.Copies n copy) (es : List (Key × Value)) :
    ∀ c, (∀ e ∈ es, c.remaining < n ∧ e ∈ (c.source.table t).enumerate) → s.Merging c t into →
      s.Merged c t into es (mergeInto copy c into es) := by
  induction es with
  | nil =>
    intro c _ m
    exact ⟨.refl m.sound, .of_keeps (.refl _) _, m.origin, fun _ _ h => (List.not_mem_nil h).elim⟩
  | cons e es ih =>
    intro c hes m
    obtain ⟨k, v⟩ := e
    obtain ⟨hrem, hmem⟩ := hes (k, v) (List.mem_cons_self ..)
    obtain ⟨rfl, hv⟩ := Table.mem_enumerate.1 hmem
    obtain ⟨c', m', hpair, hrest⟩ := exists_merged_pair hcopy m hrem hv es
    have later := hpair.advances.later
    rw [hrest]
    refine .cons hv hpair (ih c' (fun e he => ?_) m')
    obtain ⟨hrem', hmem'⟩ := hes e (List.mem_cons_of_mem _ he)
    rw [later.source]
    exact ⟨Nat.lt_of_le_of_lt later.remaining hrem', hmem'⟩

end Merge

/-! ## The variables of a function -/

/-- What setting variables of a function that is being copied does. -/
structure Captured (s c : Copying) (f g : GuestFunction) (es : List (CellRef × CellRef))
    (r : Bool × Copying) : Prop where
  /-- It leads to a later state. -/
  advances : s.Advances c r.2
  /-- All of the heap stays as it was, the variables apart. -/
  keeps : ∀ h : Heap, (∀ e ∈ es, h.cells.size ≤ e.2.id) → h.Keeps c.heap → h.Keeps r.2.heap
  /-- On success, all are set. -/
  set : r.1 = true → ∀ e ∈ es, r.2.Pairs (r.2.source.cell e.1) (r.2.heap.cell e.2)
  /-- On failure, one of them is not, and cannot be. -/
  half : r.1 = false → ∃ e, r.2.Unset f g e ∧ s.Stuck (r.2.source.cell e.1)

section Capture

variable {n : Nat} {copy : Copying → Value → Option Value × Copying} {f g : GuestFunction}

/-- The function waits for these variables. -/
structure Waiting (s c : Copying) (f g : GuestFunction) (es : List (CellRef × CellRef)) : Prop where
  /-- The state is sound. -/
  sound : s.Sound c
  /-- The function has its counterpart already. -/
  lookup : c.functions.lookup f = some (some g)
  /-- They are variables of the function, with what loading put there. -/
  unset : ∀ e ∈ es, c.Unset f g e
  /-- Unfinished functions refer to what belongs there. -/
  leads : ∀ e ∈ es, s.Leads c (c.source.cell e.1)
  /-- No two are the same. -/
  distinct : (es.map (·.2)).Nodup

namespace Waiting

variable {e : CellRef × CellRef} {es : List (CellRef × CellRef)}

/-- Copying a value leaves the function waiting as before. -/
theorem copied {v : Value} {r : Option Value × Copying} (w : s.Waiting c f g es)
    (h : s.Copied c v r) (hg : s.heap.functions.size ≤ g.id) : s.Waiting r.2 f g es where
  sound := h.advances.sound
  lookup := h.advances.later.lookupFunction f _ w.lookup
  unset e he := by
    have hu := w.unset e he
    have hown := w.sound.functions.ownCell g e.2 hg (List.of_mem_zip hu.mem).2
    exact hu.of_cell h.advances.later.globals
      (h.advances.later.cellPairs w.sound.functions (mem_of_lookup w.lookup)) (h.keeps.cell hown.2)
  leads e he := by
    rw [h.advances.later.source]
    exact (w.leads e he).advance h.advances
  distinct := w.distinct

/-- A variable gets its value, and the function waits for the others. -/
theorem setCell {a b : CellRef} {v : Value} (w : s.Waiting c f g ((a, b) :: es))
    (hg : s.heap.functions.size ≤ g.id) (hv : s.Given c (c.source.cell a) v) :
    s.Advances c (c.setCell b v) ∧ s.Waiting (c.setCell b v) f g es := by
  have hmem := (w.unset (a, b) (List.mem_cons_self ..)).mem
  have hm := mem_of_lookup w.lookup
  have x := extends_setCell c b v
  have hs := sound_setCell w.sound hg w.lookup hmem hv
  have adv : s.Advances c (c.setCell b v) :=
    .of_same w.sound hs x (keepsVariables_setCell w.sound.functions hg hm hmem hv) rfl rfl
  obtain ⟨hnot, hdistinct⟩ := List.nodup_cons.1 w.distinct
  refine ⟨adv, hs, w.lookup, fun e he => ?_, fun e he => ?_, hdistinct⟩
  · have hne : b ≠ e.2 := by
      rintro rfl
      exact hnot (List.mem_map.2 ⟨e, he, rfl⟩)
    refine (w.unset e (List.mem_cons_of_mem _ he)).of_cell rfl rfl ?_
    rw [cell_setCell, if_neg fun h => hne h.1]
  · exact (w.leads e (List.mem_cons_of_mem _ he)).advance adv

/-- The variable that got its value has a copy in it. -/
theorem pairs_setCell {a b : CellRef} {v : Value} (w : s.Waiting c f g ((a, b) :: es))
    (hg : s.heap.functions.size ≤ g.id) (hv : s.Given c (c.source.cell a) v) :
    (c.setCell b v).Pairs ((c.setCell b v).source.cell a) ((c.setCell b v).heap.cell b) := by
  have hmem := (w.unset (a, b) (List.mem_cons_self ..)).mem
  have hlt := (w.sound.functions.ownCell g b hg (List.of_mem_zip hmem).2).2
  rw [cell_setCell, if_pos ⟨rfl, hlt⟩]
  exact (extends_setCell c b v).pairs hv.pairs

end Waiting

theorem captured_copyCaptures (hcopy : s.Copies n copy) (hg : s.heap.functions.size ≤ g.id)
    (es : List (CellRef × CellRef)) :
    ∀ c, c.remaining < n → s.Waiting c f g es → s.Captured c f g es (copyCaptures copy c es) := by
  induction es with
  | nil =>
    intro c _ w
    exact ⟨.refl w.sound, fun _ _ h => h, fun _ _ he => (List.not_mem_nil he).elim,
      fun he => absurd he Bool.noConfusion⟩
  | cons e es ih =>
    intro c hrem w
    obtain ⟨a, b⟩ := e
    have hcopied := hcopy c (c.source.cell a) w.sound hrem (w.leads (a, b) (List.mem_cons_self ..))
    have w₁ := w.copied hcopied hg
    unfold copyCaptures
    generalize copy c (c.source.cell a) = r at hcopied w₁
    have hsource := hcopied.advances.later.source
    obtain ⟨_ | v, c₁⟩ := r
    -- the value has no copy, and the loop ends
    · refine ⟨hcopied.advances, fun h _ hh => hh.trans hcopied.keeps,
        fun he => absurd he Bool.noConfusion,
        fun _ => ⟨(a, b), w₁.unset (a, b) (List.mem_cons_self ..), ?_⟩⟩
      rw [hsource]
      exact hcopied.stuck rfl
    -- it has one, and the rest is done with the variable set
    · have hval := hcopied.given v rfl
      dsimp only at hsource hval w₁ ⊢
      rw [← hsource] at hval
      obtain ⟨a₂, w₂⟩ := w₁.setCell hg hval
      have adv := hcopied.advances.trans a₂
      have hrest := ih (c₁.setCell b v) (Nat.lt_of_le_of_lt adv.later.remaining hrem) w₂
      refine ⟨adv.trans hrest.advances, fun h hi hh => ?_, fun htrue e he => ?_, fun hfalse => ?_⟩
      · exact hrest.keeps h (fun e he => hi e (List.mem_cons_of_mem _ he))
          ((hh.trans hcopied.keeps).setCell (hi (a, b) (List.mem_cons_self ..)) v)
      · rcases List.mem_cons.1 he with rfl | he
        · have hmem₂ := (w₁.unset (a, b) (List.mem_cons_self ..)).mem
          rw [← a₂.later.cellPairs w₁.sound.functions (mem_of_lookup w₁.lookup)] at hmem₂
          exact hrest.advances.held f g hg (mem_of_lookup w₂.lookup) (a, b) hmem₂
            (w₁.pairs_setCell hg hval)
        · exact hrest.set htrue e he
      · exact hrest.half hfalse

end Capture

/-! ## Tables -/

section Table

variable {n : Nat} {copy : Copying → Value → Option Value × Copying} {t : TableRef}

theorem leads_openTable {v : Value} (h : s.Sound c) (hl : c.tables.lookup t = none)
    (hv : s.Leads c v) : s.Leads (c.openTable t) v := by
  intro f g hlf hg
  have x := extends_openTable hl
  exact (hv f g hlf hg).imp_left fun hb => hb.mono hg x h.functions (x.keepsVariables rfl)

/-- A table that is complete in the end may be made. -/
theorem advances_openTable (h : s.Sound c) (hl : c.tables.lookup t = none)
    (a : s.Advances (c.openTable t) c')
    (hc : s.Complete c' t c.nextTable) : s.Advances c c' where
  before := h
  sound := a.sound
  later := (extends_openTable hl).trans a.later
  held :=
    have x := extends_openTable hl
    (x.keepsVariables rfl).trans a.held x h.functions
  complete t' u hn hu := by
    by_cases ht : t' = t
    · subst ht
      rw [a.later.lookupTable t' _ List.lookup_cons_self] at hu
      cases hu
      exact hc
    · exact a.complete t' u (by rw [lookup_openTable c ht, hn]) hu
  bound := a.bound

/-- The table that was made is ready to be filled. -/
theorem merging_openTable (h : s.Sound c) (hl : c.tables.lookup t = none)
    (hv : s.Leads c (.table t)) : s.Merging (c.openTable t) t c.nextTable where
  sound := sound_openTable h hl
  leads := leads_openTable h hl hv
  lt := by
    rw [openTable, Heap.addTable, Array.size_push]
    exact Nat.lt_succ_self _
  new := h.keeps.tables.size
  made _ := List.lookup_cons_self
  origin := (sound_openTable h hl).tables.origin t _ h.later.size List.lookup_cons_self

/-- Once a table is entered there is less room.  One that does not exist has nothing in it that
would need any. -/
theorem remaining_openTable (hl : c.tables.lookup t = none) (hrem : c.remaining < n + 1)
    (hne : c.source.table t ≠ {}) : (c.openTable t).remaining < n := by
  have hlt : t.id < c.source.tables.size := Nat.lt_of_not_le fun hge => hne (Heap.table_of_ge hge)
  have hless := (extends_openTable hl).remaining_lt_of_table hlt hl List.lookup_cons_self
  omega

/-- Giving the metatable to a table that has all the rest completes it. -/
theorem complete_setMetatable {m m' u : TableRef} (h : s.Sound c) (hu : s.heap.tables.size ≤ u.id)
    (hl : c.tables.lookup t = some u) (hm : (c.source.table t).metatable? = some m)
    (hlm : c.tables.lookup m = some m') (hf : s.Filled c u (c.source.table t).enumerate) :
    s.Complete (c.setMetatable u m') t u := by
  have x := extends_setMetatable h hu hl hm hlm
  refine ⟨hf.mono ne_nil_of_mem_enumerate (fun _ _ => x.pairs) x.lookupTable (x.slot u),
    fun m₁ hm₁ => ⟨m', ?_, ?_⟩⟩
  · rw [show m₁ = m from Option.some.inj (hm₁.symm.trans hm)]
    exact hlm
  · rw [setMetatable, Heap.metatable_setMetatable _ (h.tables.table t u hl).1, if_pos rfl]

/-- The metatable is copied last, and completes the table. -/
theorem complete_copyMetatable {m u : TableRef} (hcopy : s.Copies n copy) (h : s.Sound c)
    (hrem : c.remaining < n) (hv : s.Leads c (.table m)) (hu : s.heap.tables.size ≤ u.id)
    (hl : c.tables.lookup t = some u) (hm : (c.source.table t).metatable? = some m)
    (hf : s.Filled c u (c.source.table t).enumerate) :
    s.Advances c (copyMetatable copy c u m) ∧ s.Complete (copyMetatable copy c u m) t u ∧
      ∀ h : Heap, h.tables.size ≤ u.id → h.Keeps c.heap →
        h.Keeps (copyMetatable copy c u m).heap := by
  have hcopied := hcopy c (.table m) h hrem hv
  unfold copyMetatable
  generalize copy c (.table m) = r at hcopied
  obtain ⟨_ | v', c₁⟩ := r
  · exact absurd trivial (hcopied.stuck rfl).not_isData
  · obtain ⟨m', hlm, rfl⟩ := (hcopied.given v' rfl).pairs
    have a₁ := hcopied.advances
    dsimp only at a₁ hlm ⊢
    have hl₁ := a₁.later.lookupTable t u hl
    rw [← a₁.later.source] at hm hf
    have hf₁ := hf.mono ne_nil_of_mem_enumerate (fun _ _ => a₁.later.pairs) a₁.later.lookupTable
      (a₁.later.slot u)
    have hs₂ := sound_setMetatable a₁.sound hu hl₁ hm hlm
    have x₂ := extends_setMetatable a₁.sound hu hl₁ hm hlm
    exact ⟨a₁.trans (.of_same a₁.sound hs₂ x₂ (x₂.keepsVariables rfl) rfl rfl),
      complete_setMetatable a₁.sound hu hl₁ hm hlm hf₁,
      fun h hi hh => (hh.trans hcopied.keeps).setMetatable hi _⟩

/-- The table that was made is the copy if it is complete in the end. -/
theorem copied_openTable (h : s.Sound c) (hl : c.tables.lookup t = none)
    (a : s.Advances (c.openTable t) c') (hk : c.heap.Keeps c'.heap)
    (hc : s.Complete c' t c.nextTable) :
    s.Copied c (.table t) (some (.table c.nextTable), c') where
  advances := advances_openTable h hl a hc
  keeps := hk
  given v' hv' := by
    cases hv'
    have hp : c'.Pairs (.table t) (.table c.nextTable) :=
      ⟨_, a.later.lookupTable t _ List.lookup_cons_self, rfl⟩
    exact .of_pairs hp fun _ => Value.noConfusion
  stuck hn := by cases hn

theorem copied_table (hcopy : s.Copies n copy) (h : s.Sound c) (hrem : c.remaining < n + 1)
    (hv : s.Leads c (.table t)) : s.Copied c (.table t) (copyTable copy c t) := by
  unfold copyTable
  cases hl : c.tables.lookup t with
  | some u =>
    have hp : c.Pairs (.table t) (.table u) := ⟨u, hl, rfl⟩
    refine ⟨.refl h, .refl _, fun v' hv' => ?_, fun hn => by cases hn⟩
    cases hv'
    exact .of_pairs hp fun _ => Value.noConfusion
  | none =>
    have hroom {e} (he : e ∈ (c.source.table t).enumerate) : (c.openTable t).remaining < n := by
      refine remaining_openTable hl hrem fun hempty => ?_
      rw [hempty] at he
      cases he
    have hm := merged_mergeInto hcopy (c.source.table t).enumerate (c.openTable t)
      (fun e he => ⟨hroom he, he⟩) (merging_openTable h hl hv)
    dsimp only
    generalize mergeInto copy (c.openTable t) c.nextTable (c.source.table t).enumerate = c₂ at hm
    have hkeeps := hm.keeps.keeps ((Heap.Keeps.refl c.heap).addTable {}) (Nat.le_refl _)
    have hl₂ := hm.advances.later.lookupTable t _ List.lookup_cons_self
    have hsource : c₂.source = c.source := hm.advances.later.source
    have hfilled : s.Filled c₂ c.nextTable (c₂.source.table t).enumerate := by
      rw [hsource]
      exact hm.filled
    split
    · next hmeta =>
      refine copied_openTable h hl hm.advances hkeeps ⟨hfilled, fun m hm' => ?_⟩
      rw [hsource, hmeta] at hm'
      cases hm'
    · next m hmeta =>
      have hrem₂ : c₂.remaining < n := by
        refine Nat.lt_of_le_of_lt hm.advances.later.remaining
          (remaining_openTable hl hrem fun hempty => ?_)
        rw [hempty] at hmeta
        cases hmeta
      have href : s.source.Refers (.table t) (.table m) := by
        refine .metatable ?_
        rw [← h.later.source]
        exact hmeta
      have hv₂ := ((leads_openTable h hl hv).advance hm.advances).step href
      obtain ⟨a, hc, hk⟩ := complete_copyMetatable hcopy hm.advances.sound hrem₂ hv₂
        h.later.size hl₂ (by rw [hsource]; exact hmeta) hfilled
      exact copied_openTable h hl (hm.advances.trans a) (hk c.heap (Nat.le_refl _) hkeeps) hc

end Table

/-! ## Functions -/

section Function

variable {n : Nat} {copy : Copying → Value → Option Value × Copying} {f : GuestFunction}
variable {r : RuntimeRef} {p : Proto} {as : List CellRef}

/-- Variables that held copies before a function was made hold copies at the end. -/
theorem keepsVariables_of_openFunction (h : s.Sound c) (hl : c.functions.lookup f = none)
    (a : s.Advances (c.openFunction f p as) c') : s.KeepsVariables c c' :=
  (keepsVariables_openFunction h.functions hl).trans a.held (extends_openFunction hl) h.functions

/-- A function that is finished in the end may be made. -/
theorem advances_openFunction (h : s.Sound c) (hl : c.functions.lookup f = none)
    (a : s.Advances (c.openFunction f p as) c') (hb : c'.Bound f c.nextFunction) :
    s.Advances c c' where
  before := h
  sound := a.sound
  later := (extends_openFunction hl).trans a.later
  held := keepsVariables_of_openFunction h hl a
  complete := a.complete
  bound f' g hn hg := by
    by_cases hf : f' = f
    · subst hf
      rw [hb.lookup] at hg
      cases hg
      exact hb
    · exact a.bound f' g (by rw [lookup_openFunction c hf, hn]) hg

/-- A function that is given up in the end may be made. -/
theorem advances_giveUp (h : s.Sound c) (hl : c.functions.lookup f = none)
    (hs : s.Sound (c'.giveUp f)) (x : c.Extends c') (k : s.KeepsVariables c c')
    (ht : ∀ t u, c.tables.lookup t = none → c'.tables.lookup t = some u → s.Complete c' t u)
    (hb : ∀ f' g, f' ≠ f → c.functions.lookup f' = none →
      c'.functions.lookup f' = some (some g) → c'.Bound f' g) : s.Advances c (c'.giveUp f) where
  before := h
  sound := hs
  later := extends_giveUp x hl
  held f' g hg hm e he hp := pairs_giveUp (k f' g hg hm e he hp)
  complete t u hn hu :=
    (ht t u hn hu).mono rfl (fun _ _ => pairs_giveUp) (fun _ _ h => h) (fun _ _ _ => rfl)
      fun _ _ h => h
  bound f' g hn hg := by
    by_cases hf : f' = f
    · rw [hf, lookup_giveUp_self] at hg
      cases hg
    · have hb' := hb f' g hf hn (by rwa [lookup_giveUp c' hf] at hg)
      exact ⟨hg, fun e he => pairs_giveUp (hb'.cell e he)⟩

/-- The function that was made waits for its variables. -/
theorem waiting_openFunction (h : s.Sound c) (hl : c.functions.lookup f = none)
    (hf : c.source.function? f = some ⟨r, .closure p as⟩) (hv : s.Leads c (.func f)) :
    s.Waiting (c.openFunction f p as) f c.nextFunction
      ((c.openFunction f p as).cellPairs f c.nextFunction) := by
  have hs := sound_openFunction h hl hf
  refine ⟨hs, lookup_openFunction_self c f p as, fun e he => unset_openFunction hf he,
    fun e he => ?_, ?_⟩
  · have hcap : e.1 ∈ s.source.captures f := by
      rw [← hs.later.source]
      exact (List.of_mem_zip he).1
    intro f' g hl' hg
    rw [hs.later.source]
    by_cases hf' : f' = f
    · subst hf'
      exact .inr (.single (.capture hcap))
    · rw [lookup_openFunction c hf'] at hl'
      rcases hv f' g hl' hg with hb | hpath
      · exact .inl (hb.mono hg (extends_openFunction hl) h.functions
          (keepsVariables_openFunction h.functions hl))
      · exact .inr (hpath.tail (.capture hcap))
  · rw [cellPairs_openFunction hf]
    exact (freshened_loadCells c as).distinct

theorem copied_giveUp (h : s.Sound c) (hl : c.functions.lookup f = none)
    (hf : ∀ r p as, c.source.function? f ≠ some ⟨r, .closure p as⟩) :
    s.Copied c (.func f) (none, c.giveUp f) := by
  have hstuck : s.Stuck (.func f) := by
    refine .code (h.lookup_start hl) ?_
    rw [← h.later.source]
    exact hf
  have hs : s.Sound (c.giveUp f) := by
    refine sound_giveUp h (h.lookup_start hl) hstuck fun g _ hg => ?_
    rw [hl] at hg
    cases hg
  exact ⟨advances_giveUp h hl hs (.refl c) (.refl s c) (Advances.refl h).complete
    (fun f' g _ => (Advances.refl h).bound f' g), .refl _, fun v' hv' => (by cases hv'),
    fun _ => hstuck⟩

/-- The function that was made is the copy if all its variables are set in the end. -/
theorem copied_of_set (h : s.Sound c) (hl : c.functions.lookup f = none)
    (w : s.Waiting (c.openFunction f p as) f c.nextFunction
      ((c.openFunction f p as).cellPairs f c.nextFunction))
    (a : s.Advances (c.openFunction f p as) c') (hk : c.heap.Keeps c'.heap)
    (hset : ∀ e ∈ (c.openFunction f p as).cellPairs f c.nextFunction,
      c'.Pairs (c'.source.cell e.1) (c'.heap.cell e.2)) :
    s.Copied c (.func f) (some (.func c.nextFunction), c') := by
  have hb : c'.Bound f c.nextFunction := by
    refine ⟨a.later.lookupFunction f _ w.lookup, fun e he => hset e ?_⟩
    rwa [a.later.cellPairs w.sound.functions (mem_of_lookup w.lookup)] at he
  refine ⟨advances_openFunction h hl a hb, hk, fun v' hv' => ?_, fun hn => by cases hn⟩
  cases hv'
  refine ⟨⟨_, mem_of_lookup hb.lookup, rfl⟩, fun f' g hf' hg _ => ?_⟩
  cases hf'
  cases hg
  exact .inr hb

/-- It is given up if the value of one of them has no copy. -/
theorem copied_of_half (h : s.Sound c) (hl : c.functions.lookup f = none)
    (w : s.Waiting (c.openFunction f p as) f c.nextFunction
      ((c.openFunction f p as).cellPairs f c.nextFunction))
    (a : s.Advances (c.openFunction f p as) c') (hk : c.heap.Keeps c'.heap)
    (hhalf : ∃ e, c'.Unset f c.nextFunction e ∧ s.Stuck (c'.source.cell e.1)) :
    s.Copied c (.func f) (none, c'.giveUp f) := by
  obtain ⟨e, hunset, hstuck⟩ := hhalf
  have hsource := a.sound.later.source
  have hfunction : s.Stuck (.func f) := by
    rw [hsource] at hstuck
    refine .capture (h.lookup_start hl) ?_ hstuck
    rw [← hsource]
    exact (List.of_mem_zip hunset.mem).1
  have hs : s.Sound (c'.giveUp f) := by
    refine sound_giveUp a.sound (h.lookup_start hl) hfunction fun g _ hg => ?_
    rw [a.later.lookupFunction f _ w.lookup] at hg
    cases hg
    exact .of_stuck hunset hstuck hsource
  have x : c.Extends c' := (extends_openFunction hl).trans a.later
  have k := keepsVariables_of_openFunction h hl a
  refine ⟨advances_giveUp h hl hs x k a.complete fun f' g hne hn hg => ?_, hk,
    fun v' hv' => (by cases hv'), fun _ => hfunction⟩
  exact a.bound f' g (by rw [lookup_openFunction c hne, hn]) hg

/-- Once a function is entered there is less room. -/
theorem remaining_openFunction (hl : c.functions.lookup f = none) (hrem : c.remaining < n + 1)
    (hf : c.source.function? f = some ⟨r, .closure p as⟩) :
    (c.openFunction f p as).remaining < n := by
  have hlt : f.id < c.source.functions.size := by
    refine Nat.lt_of_not_le fun hge => ?_
    rw [Heap.function?, Array.getElem?_eq_none hge] at hf
    cases hf
  have hless := (extends_openFunction hl).remaining_lt_of_function hlt hl
    (lookup_openFunction_self c f p as)
  omega

theorem copied_function (hcopy : s.Copies n copy) (h : s.Sound c) (hrem : c.remaining < n + 1)
    (hv : s.Leads c (.func f)) : s.Copied c (.func f) (copyFunction copy c f) := by
  unfold copyFunction
  cases hl : c.functions.lookup f with
  | some v =>
    cases v with
    | some g =>
      refine ⟨.refl h, .refl _, fun v' hv' => ?_, fun hn => by cases hn⟩
      cases hv'
      refine ⟨⟨g, mem_of_lookup hl, rfl⟩, fun f' g' hf' hg' hmade => ?_⟩
      cases hf'
      cases hg'
      exact (hv f g hl hmade).symm
    | none =>
      exact ⟨.refl h, .refl _, fun v' hv' => (by cases hv'), fun _ => h.functions.stuck f hl⟩
  | none =>
    dsimp only
    split
    · next r p as hf =>
      have w := waiting_openFunction h hl hf hv
      have hc := captured_copyCaptures hcopy h.later.functions.size _ _
        (remaining_openFunction hl hrem hf) w
      have hfresh : ∀ e ∈ (c.openFunction f p as).cellPairs f c.nextFunction,
          c.heap.cells.size ≤ e.2.id := fun e he => by
        rw [cellPairs_openFunction hf] at he
        exact ((freshened_loadCells c as).fresh e he).1
      have hkeeps := hc.keeps c.heap hfresh (keeps_openFunction (.refl c.heap))
      generalize copyCaptures copy (c.openFunction f p as)
        ((c.openFunction f p as).cellPairs f c.nextFunction) = res at hc hkeeps
      obtain ⟨_ | _, c₂⟩ := res
      · exact copied_of_half h hl w hc.advances hkeeps (hc.half rfl)
      · exact copied_of_set h hl w hc.advances hkeeps (hc.set rfl)
    · next hf => exact copied_giveUp h hl hf

end Function

/-! ## All values -/

theorem copied_user (h : s.Sound c) (x : UserRef) :
    s.Copied c (.user x) (copyUser c x) := by
  unfold copyUser
  split
  · next handle hx =>
    have hs := sound_addHandle h handle
    have hy : (c.addHandle handle).heap.user ⟨c.heap.users.size⟩ = .handle handle := by
      rw [addHandle, Heap.addUser, Heap.user, Array.getElem?_push_size]
      rfl
    have hp : (c.addHandle handle).Pairs (.user x) (.user ⟨c.heap.users.size⟩) :=
      ⟨_, handle, hx, hy, rfl⟩
    have x := extends_addHandle c handle
    refine ⟨.of_same h hs x (x.keepsVariables rfl) rfl rfl,
      (Heap.Keeps.refl c.heap).addUser _, fun v' hv' => ?_, fun hn => by cases hn⟩
    cases hv'
    exact .of_pairs hp fun _ => Value.noConfusion
  · next hx =>
    refine ⟨.refl h, .refl _, fun v' hv' => (by cases hv'), fun _ => .user ?_⟩
    rw [← h.later.source]
    exact hx

theorem copied_plain {v : Value} (h : s.Sound c) (hp : c.Pairs v v) (hf : ∀ f, v ≠ .func f) :
    s.Copied c v (some v, c) := by
  refine ⟨.refl h, .refl _, fun v' hv' => ?_, fun hn => by cases hn⟩
  cases hv'
  exact .of_pairs hp hf

/-- Every value is copied as it should be: with room for all tables and functions that are left,
nothing is cut off. -/
theorem copies (s : Copying) (n : Nat) : s.Copies n (copyWithin n) := by
  induction n with
  | zero => exact fun c v _ hrem _ => absurd hrem (Nat.not_lt_zero _)
  | succ n ih =>
    intro c v h hrem hv
    cases v with
    | table t => exact copied_table ih h hrem hv
    | func f => exact copied_function ih h hrem hv
    | user x => exact copied_user h x
    | thread t => exact ⟨.refl h, .refl _, fun v' hv' => (by cases hv'), fun _ => .thread t⟩
    | light a => exact ⟨.refl h, .refl _, fun v' hv' => (by cases hv'), fun _ => .light a⟩
    | _ => exact copied_plain h rfl fun _ => Value.noConfusion

end Copying
end ScriptShell
