import Mathlib.Data.List.Forall2
import ScriptShell.Marshal

/-! # Host forms of guest values

What `Marshal.toHostWithin` gives, said once for all that is proved about it.  A value that is no
table has one form or one error, whatever the depth (`toHostWithin_eq_of_ne_table`).  A table has a
form if all that it holds has one a level further down (`exists_form_table_iff`); then the form is
the map that the forms of its pairs make, inserted in the order of the traversal
(`toHostWithin_table_eq_ok`).  An error of a table is an error of something that it holds
(`error_of_table`).  More depth changes no form (`toHostWithin_mono`).
-/

namespace ScriptShell.Marshal

open Guest

/-- A value is a key or a value of a table. -/
inductive Holds (h : Heap) (t : TableRef) : Value → Prop
  /-- The key of a slot with a value. -/
  | key {k : Key} (hk : (h.table t).get k ≠ .nil) : Holds h t k.toValue
  /-- The value of such a slot. -/
  | value {k : Key} (hk : (h.table t).get k ≠ .nil) : Holds h t ((h.table t).get k)

/-- A pair of host values consists of the forms of a guest's key and value. -/
structure IsPairForm (h : Heap) (n : Nat) (e : Key × Value) (p : HostValue × HostValue) : Prop where
  /-- The form of the key. -/
  key : toHostWithin h n e.1.toValue = .ok p.1
  /-- The form of the value. -/
  value : toHostWithin h n e.2 = .ok p.2

variable {h : Heap} {n n' : Nat} {t : TableRef} {v w : Value} {x : HostValue} {e : MarshalError}

/-! ## Values that are no tables -/

/-- Only tables are followed. -/
theorem toHostWithin_eq_of_ne_table (hv : ∀ t, v ≠ .table t) (n n' : Nat) :
    toHostWithin h n v = toHostWithin h n' v := by
  cases v with
  | table t => exact absurd rfl (hv t)
  | _ => simp only [toHostWithin]

/-! ## The pairs of a table -/

/-- Each member of a list has its counterpart in one that is related item by item. -/
theorem exists_related {α β : Type} {R : α → β → Prop} {as : List α} {bs : List β}
    (hr : List.Forall₂ R as bs) {a : α} (ha : a ∈ as) : ∃ b ∈ bs, R a b := by
  induction hr with
  | nil => cases ha
  | cons hab _ ih =>
    obtain rfl | ha := List.mem_cons.1 ha
    · exact ⟨_, List.mem_cons_self, hab⟩
    · obtain ⟨b, hb, hr⟩ := ih ha
      exact ⟨b, List.mem_cons_of_mem _ hb, hr⟩

/-- Pairs have forms, and the forms are inserted one after the other. -/
theorem entries_eq_ok {es : List (Key × Value)} {m m' : HostMap} :
    toHostWithin.entries h n m es = .ok m' ↔ ∃ ps, List.Forall₂ (IsPairForm h n) es ps ∧
      m' = ps.foldl (fun m p => m.insert p.1 p.2) m := by
  induction es generalizing m with
  | nil =>
    rw [toHostWithin.entries]
    constructor
    · intro he
      exact ⟨[], .nil, (Except.ok.inj he).symm⟩
    · rintro ⟨ps, hps, rfl⟩
      cases hps
      rfl
  | cons p rest ih =>
    -- the rest is inserted into a map that has this pair already
    obtain ⟨k, v⟩ := p
    rw [toHostWithin.entries]
    constructor
    · intro he
      split at he
      · cases he
      · next x hk =>
        split at he
        · cases he
        · next y hv =>
          obtain ⟨ps, hps, rfl⟩ := ih.1 he
          exact ⟨(x, y) :: ps, .cons ⟨hk, hv⟩ hps, rfl⟩
    · rintro ⟨ps, hps, rfl⟩
      obtain _ | @⟨_, p, _, ps, hp, hps⟩ := hps
      rw [hp.key]
      dsimp only
      rw [hp.value]
      exact ih.2 ⟨ps, hps, rfl⟩

/-- An error comes from a key or a value. -/
theorem error_of_entries {es : List (Key × Value)} {m : HostMap}
    (he : toHostWithin.entries h n m es = .error e) :
    ∃ p ∈ es, toHostWithin h n p.1.toValue = .error e ∨ toHostWithin h n p.2 = .error e := by
  induction es generalizing m with
  | nil =>
    rw [toHostWithin.entries] at he
    cases he
  | cons p rest ih =>
    obtain ⟨k, v⟩ := p
    rw [toHostWithin.entries] at he
    split at he
    · next hk =>
      cases he
      exact ⟨(k, v), List.mem_cons_self, .inl hk⟩
    · split at he
      · next hv =>
        cases he
        exact ⟨(k, v), List.mem_cons_self, .inr hv⟩
      · obtain ⟨p, hp, hpe⟩ := ih he
        exact ⟨p, List.mem_cons_of_mem _ hp, hpe⟩

/-! ## Tables -/

theorem toHostWithin_table_zero (h : Heap) (t : TableRef) :
    toHostWithin h 0 (.table t) = .error (.tooDeep maxDepth) := by
  rw [toHostWithin]

/-- The form of a table. -/
theorem toHostWithin_table_eq_ok :
    toHostWithin h (n + 1) (.table t) = .ok x ↔
      ∃ ps, List.Forall₂ (IsPairForm h n) (h.table t).enumerate ps ∧
        x = .map (HostMap.ofPairs ps) := by
  rw [toHostWithin]
  constructor
  · intro hx
    cases hm : toHostWithin.entries h n [] (h.table t).enumerate with
    | error e =>
      rw [hm] at hx
      cases hx
    | ok m =>
      rw [hm] at hx
      cases hx
      obtain ⟨ps, hps, rfl⟩ := entries_eq_ok.1 hm
      exact ⟨ps, hps, rfl⟩
  · rintro ⟨ps, hps, rfl⟩
    rw [entries_eq_ok.2 ⟨ps, hps, rfl⟩]
    rfl

/-- What is a function or `nil` to the host is one to the guest. -/
theorem toHost_func_or_nil (hx : toHost h v = .ok x) :
    (∀ f, x = .callable f ↔ v = .func f) ∧ (x = .nil ↔ v = .nil) := by
  rw [toHost, maxDepth] at hx
  cases v with
  | table t =>
    obtain ⟨ps, -, rfl⟩ := toHostWithin_table_eq_ok.1 hx
    simp
  | str s =>
    rw [toHostWithin] at hx
    split at hx <;> cases hx <;> simp
  | user u =>
    rw [toHostWithin] at hx
    split at hx <;> cases hx <;> simp
  | func f =>
    rw [toHostWithin] at hx
    cases hx
    simp
  | _ =>
    rw [toHostWithin] at hx
    cases hx <;> simp

/-- What a table holds is what a traversal meets. -/
theorem holds_iff : Holds h t w ↔ ∃ p ∈ (h.table t).enumerate, w = p.1.toValue ∨ w = p.2 := by
  constructor
  · rintro (@⟨k, hk⟩ | @⟨k, hk⟩)
    · exact ⟨(k, _), Table.mem_enumerate.2 ⟨rfl, hk⟩, .inl rfl⟩
    · exact ⟨(k, _), Table.mem_enumerate.2 ⟨rfl, hk⟩, .inr rfl⟩
  · rintro ⟨⟨k, v⟩, hp, hw⟩
    obtain ⟨rfl, hne⟩ := Table.mem_enumerate.1 hp
    obtain rfl | rfl := hw
    · exact .key hne
    · exact .value hne

/-- Each form of a pair is that of a pair of the table. -/
theorem exists_source {es : List (Key × Value)} {ps : List (HostValue × HostValue)}
    (hps : List.Forall₂ (IsPairForm h n) es ps) {p : HostValue × HostValue} (hp : p ∈ ps) :
    ∃ e ∈ es, IsPairForm h n e p :=
  exists_related hps.flip hp

/-- An error of a table is one of what it holds. -/
theorem error_of_table (he : toHostWithin h (n + 1) (.table t) = .error e) :
    ∃ w, Holds h t w ∧ toHostWithin h n w = .error e := by
  rw [toHostWithin] at he
  cases hm : toHostWithin.entries h n [] (h.table t).enumerate with
  | ok m =>
    rw [hm] at he
    cases he
  | error e' =>
    rw [hm] at he
    cases he
    obtain ⟨p, hp, hk | hv⟩ := error_of_entries hm
    · exact ⟨_, holds_iff.2 ⟨p, hp, .inl rfl⟩, hk⟩
    · exact ⟨_, holds_iff.2 ⟨p, hp, .inr rfl⟩, hv⟩

/-- What is held by a table that has a form has one too. -/
theorem exists_form_of_holds (hx : toHostWithin h (n + 1) (.table t) = .ok x)
    (hw : Holds h t w) : ∃ y, toHostWithin h n w = .ok y := by
  obtain ⟨ps, hps, -⟩ := toHostWithin_table_eq_ok.1 hx
  obtain ⟨p, hp, hw⟩ := holds_iff.1 hw
  obtain ⟨q, -, hq⟩ := exists_related hps hp
  obtain rfl | rfl := hw
  · exact ⟨q.1, hq.key⟩
  · exact ⟨q.2, hq.value⟩

/-- A table has a form exactly if all that it holds has one, a level further down. -/
theorem exists_form_table_iff :
    (∃ x, toHostWithin h (n + 1) (.table t) = .ok x) ↔
      ∀ w, Holds h t w → ∃ x, toHostWithin h n w = .ok x := by
  constructor
  · rintro ⟨x, hx⟩ w hw
    exact exists_form_of_holds hx hw
  · intro hall
    cases hx : toHostWithin h (n + 1) (.table t) with
    | ok x => exact ⟨x, rfl⟩
    | error e =>
      obtain ⟨w, hw, he⟩ := error_of_table hx
      obtain ⟨y, hy⟩ := hall w hw
      rw [he] at hy
      cases hy

/-! ## Depth -/

/-- What holds of the forms of all values that are no tables, and of a table if it holds of the forms
of what is in it, holds of all forms. -/
theorem form_induction {P : Nat → Value → HostValue → Prop}
    (hleaf : ∀ n v x, (∀ t, v ≠ .table t) → toHostWithin h n v = .ok x → P n v x)
    (htable : ∀ n t ps, List.Forall₂ (IsPairForm h n) (h.table t).enumerate ps →
      (∀ w y, toHostWithin h n w = .ok y → P n w y) →
      P (n + 1) (.table t) (.map (HostMap.ofPairs ps)))
    (hx : toHostWithin h n v = .ok x) : P n v x := by
  induction n generalizing v x with
  | zero =>
    by_cases hv : ∀ t, v ≠ .table t
    · exact hleaf 0 v x hv hx
    · -- without depth no table has a form
      obtain ⟨t, rfl⟩ := not_forall_not.1 hv
      rw [toHostWithin_table_zero] at hx
      cases hx
  | succ n ih =>
    by_cases hv : ∀ t, v ≠ .table t
    · exact hleaf (n + 1) v x hv hx
    · obtain ⟨t, rfl⟩ := not_forall_not.1 hv
      obtain ⟨ps, hps, rfl⟩ := toHostWithin_table_eq_ok.1 hx
      exact htable n t ps hps fun w y hy => ih hy

/-- More depth does not change a form. -/
theorem toHostWithin_mono (hn : n ≤ n') (hx : toHostWithin h n v = .ok x) :
    toHostWithin h n' v = .ok x := by
  refine form_induction (P := fun n v x => ∀ n', n ≤ n' → toHostWithin h n' v = .ok x) ?_ ?_ hx n' hn
  · intro n v x hv hx n' _
    exact (toHostWithin_eq_of_ne_table hv n' n).trans hx
  · intro n t ps hps ih n' hn
    obtain ⟨n', rfl⟩ : ∃ k, n' = k + 1 := ⟨n' - 1, by omega⟩
    have hn : n ≤ n' := by omega
    refine toHostWithin_table_eq_ok.2 ⟨ps, hps.imp fun e p hp => ?_, rfl⟩
    exact ⟨ih _ _ hp.key n' hn, ih _ _ hp.value n' hn⟩

/-- A value has one form. -/
theorem form_unique {y : HostValue} (hx : toHostWithin h n v = .ok x)
    (hy : toHostWithin h n' v = .ok y) : x = y := by
  have hx' := toHostWithin_mono (Nat.le_max_left n n') hx
  have hy' := toHostWithin_mono (Nat.le_max_right n n') hy
  exact Except.ok.inj (hx'.symm.trans hy')

end ScriptShell.Marshal
