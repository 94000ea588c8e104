import Mathlib.Logic.Relation
import ScriptShell.Proofs.HostForms

/-! # How deep tables are followed

A guest value has a host form exactly if the tables inside it are not stacked too high and whatever
else lies inside it can cross (`Marshal.exists_form_iff`).  The height is that of a chain of tables,
each a key or a value of the one before (`IsChain`); sharing does not count towards it, and a cycle
makes it endless (`exists_chain_of_cycle`).  The proof is an induction on the depth that is left:
the chains from a table are those from what it holds, one table longer (`isChain_table_iff`).
-/

namespace ScriptShell.Marshal

open Guest

/-! ## Chains -/

/-- Tables, each of which is a key or a value of the one before, that start at a value. -/
inductive IsChain (h : Heap) : Value → List TableRef → Prop
  /-- A table by itself. -/
  | single (t : TableRef) : IsChain h (.table t) [t]
  /-- A table in front of a chain that starts at something it holds. -/
  | cons {t : TableRef} {w : Value} {ts : List TableRef} (hw : Holds h t w) (hc : IsChain h w ts) :
    IsChain h (.table t) (t :: ts)

/-- From a table to what it holds. -/
def Leads (h : Heap) (v w : Value) : Prop := ∃ t, v = .table t ∧ Holds h t w

/-- From a value to itself, to what it holds, to what that holds, and so on. -/
abbrev Reachable (h : Heap) : Value → Value → Prop := Relation.ReflTransGen (Leads h)

/-- A table is reached again from what it holds. -/
def OnCycle (h : Heap) (t : TableRef) : Prop := Relation.TransGen (Leads h) (.table t) (.table t)

/-- A value has a host form. -/
def IsConvertible (h : Heap) (v : Value) : Prop := ∃ x, toHost h v = .ok x

/-- Whatever is reached from a value, apart from tables, has a host form. -/
def LeavesConvertible (h : Heap) (v : Value) : Prop :=
  ∀ w, Reachable h v w → (∀ t, w ≠ .table t) → IsConvertible h w

variable {h : Heap} {n : Nat} {t : TableRef} {v w : Value} {ts : List TableRef} {e : MarshalError}

theorem leads_table_iff : Leads h (.table t) w ↔ Holds h t w := by
  constructor
  · rintro ⟨t', ht, hw⟩
    cases ht
    exact hw
  · intro hw
    exact ⟨t, rfl, hw⟩

theorem isChain_table_iff :
    IsChain h (.table t) ts ↔
      ts = [t] ∨ ∃ w ts', Holds h t w ∧ IsChain h w ts' ∧ ts = t :: ts' := by
  constructor
  · intro hc
    cases hc with
    | single => exact .inl rfl
    | cons hw hc => exact .inr ⟨_, _, hw, hc, rfl⟩
  · rintro (rfl | ⟨w, ts', hw, hc, rfl⟩)
    · exact .single t
    · exact .cons hw hc

theorem reachable_table_iff :
    Reachable h (.table t) w ↔ w = .table t ∨ ∃ u, Holds h t u ∧ Reachable h u w := by
  refine Relation.ReflTransGen.cases_head_iff.trans (or_congr eq_comm (exists_congr fun u => ?_))
  rw [leads_table_iff]

theorem reachable_of_ne_table (hv : ∀ t, v ≠ .table t) (hw : Reachable h v w) : w = v := by
  obtain rfl | ⟨u, ⟨t, rfl, -⟩, -⟩ := Relation.ReflTransGen.cases_head_iff.1 hw
  · rfl
  · exact absurd rfl (hv t)

theorem LeavesConvertible.of_holds (hl : LeavesConvertible h (.table t)) (hw : Holds h t w) :
    LeavesConvertible h w := by
  intro u hu
  exact hl u (reachable_table_iff.2 (.inr ⟨w, hw, hu⟩))

theorem leavesConvertible_table_iff :
    LeavesConvertible h (.table t) ↔ ∀ w, Holds h t w → LeavesConvertible h w := by
  constructor
  · intro hl w hw
    exact hl.of_holds hw
  · intro hall u hu hne
    obtain rfl | ⟨w, hw, hu⟩ := reachable_table_iff.1 hu
    · exact absurd rfl (hne t)
    · exact hall w hw u hu hne

/-! ## The depth that is needed -/

/-- Apart from tables, what can cross is everything but coroutines, bare addresses and objects that
are neither handles nor failures. -/
theorem isConvertible_iff (hv : ∀ t, v ≠ .table t) :
    IsConvertible h v ↔ (∀ c, v ≠ .thread c) ∧ (∀ a, v ≠ .light a) ∧
      ∀ u, v = .user u → (∃ x, h.user u = .handle x) ∨ ∃ f, h.user u = .failure f := by
  rw [IsConvertible, toHost]
  cases v with
  | table t => exact absurd rfl (hv t)
  | user u =>
    rw [toHostWithin]
    cases hu : h.user u <;> simp [hu]
  | str s =>
    rw [toHostWithin]
    cases Utf8.decode? s <;> simp
  | _ => simp [toHostWithin]

/-- A value that is no table needs no depth. -/
theorem exists_form_iff_of_ne_table (hv : ∀ t, v ≠ .table t) :
    (∃ x, toHostWithin h n v = .ok x) ↔
      (∀ ts, IsChain h v ts → ts.length ≤ n) ∧ LeavesConvertible h v := by
  rw [toHostWithin_eq_of_ne_table hv n maxDepth]
  constructor
  · intro hx
    refine ⟨fun ts hts => ?_, fun w hw _ => ?_⟩
    · cases hts with
      | single t => exact absurd rfl (hv t)
      | cons _ _ => exact absurd rfl (hv _)
    · rw [reachable_of_ne_table hv hw]
      exact hx
  · rintro ⟨-, hl⟩
    exact hl v .refl hv

/-- A value has a form within a depth exactly if no chain of tables is longer and whatever else is
reached has one. -/
theorem exists_form_iff :
    (∃ x, toHostWithin h n v = .ok x) ↔
      (∀ ts, IsChain h v ts → ts.length ≤ n) ∧ LeavesConvertible h v := by
  induction n generalizing v with
  | zero =>
    by_cases hv : ∀ t, v ≠ .table t
    · exact exists_form_iff_of_ne_table hv
    · obtain ⟨t, rfl⟩ := not_forall_not.1 hv
      constructor
      · rintro ⟨x, hx⟩
        rw [toHostWithin_table_zero] at hx
        cases hx
      · rintro ⟨hlen, -⟩
        exact absurd (hlen [t] (.single t)) (Nat.not_succ_le_zero 0)
  | succ n ih =>
    by_cases hv : ∀ t, v ≠ .table t
    · exact exists_form_iff_of_ne_table hv
    · obtain ⟨t, rfl⟩ := not_forall_not.1 hv
      -- both sides speak of what the table holds, and its chains are one table longer
      rw [exists_form_table_iff, leavesConvertible_table_iff]
      constructor
      · intro hall
        refine ⟨fun ts hts => ?_, fun w hw => (ih.1 (hall w hw)).2⟩
        obtain rfl | ⟨w, ts', hw, hc, rfl⟩ := isChain_table_iff.1 hts
        · exact Nat.succ_le_succ (Nat.zero_le n)
        · exact Nat.succ_le_succ ((ih.1 (hall w hw)).1 ts' hc)
      · rintro ⟨hlen, hl⟩ w hw
        refine ih.2 ⟨fun ts hc => ?_, hl w hw⟩
        exact Nat.le_of_succ_le_succ (hlen (t :: ts) (.cons hw hc))

theorem LeavesConvertible.ne_error (hl : LeavesConvertible h v) (hv : ∀ t, v ≠ .table t) (n : Nat)
    (e : MarshalError) : toHostWithin h n v ≠ .error e := by
  intro he
  obtain ⟨x, hx⟩ := hl v .refl hv
  rw [toHost, toHostWithin_eq_of_ne_table hv maxDepth n, he] at hx
  cases hx

/-- If whatever else is reached has a form, then the depth is all that can be missing. -/
theorem error_eq_tooDeep (hl : LeavesConvertible h v) (he : toHostWithin h n v = .error e) :
    e = .tooDeep maxDepth := by
  induction n generalizing v with
  | zero =>
    by_cases hv : ∀ t, v ≠ .table t
    · exact absurd he (hl.ne_error hv 0 e)
    · obtain ⟨t, rfl⟩ := not_forall_not.1 hv
      rw [toHostWithin_table_zero] at he
      exact (Except.error.inj he).symm
  | succ n ih =>
    by_cases hv : ∀ t, v ≠ .table t
    · exact absurd he (hl.ne_error hv (n + 1) e)
    · obtain ⟨t, rfl⟩ := not_forall_not.1 hv
      obtain ⟨w, hw, hew⟩ := error_of_table he
      exact ih (hl.of_holds hw) hew

/-! ## Cycles -/

/-- A chain can be continued backwards along whatever leads to its start. -/
theorem exists_longer_chain (hvw : Relation.TransGen (Leads h) v w) (hc : IsChain h w ts) :
    ∃ ts', IsChain h v ts' ∧ ts.length < ts'.length := by
  induction hvw using Relation.TransGen.head_induction_on with
  | single hvw =>
    obtain ⟨t, rfl, hw⟩ := hvw
    exact ⟨t :: ts, .cons hw hc, Nat.lt_succ_self _⟩
  | head huv _ ih =>
    obtain ⟨t, rfl, hv⟩ := huv
    obtain ⟨ts', hc', hlt⟩ := ih
    exact ⟨t :: ts', .cons hv hc', Nat.lt_succ_of_lt hlt⟩

/-- From a table on a cycle there are chains of any length. -/
theorem exists_chain_of_onCycle (ht : OnCycle h t) (n : Nat) :
    ∃ ts, IsChain h (.table t) ts ∧ n < ts.length := by
  induction n with
  | zero => exact ⟨[t], .single t, Nat.zero_lt_one⟩
  | succ n ih =>
    obtain ⟨ts, hc, hn⟩ := ih
    obtain ⟨ts', hc', hlt⟩ := exists_longer_chain ht hc
    exact ⟨ts', hc', by omega⟩

/-- So there are from wherever such a table is reached. -/
theorem exists_chain_of_cycle (hv : Reachable h v (.table t)) (ht : OnCycle h t) (n : Nat) :
    ∃ ts, IsChain h v ts ∧ n < ts.length := by
  obtain ⟨ts, hc, hn⟩ := exists_chain_of_onCycle ht n
  obtain rfl | hlead := Relation.reflTransGen_iff_eq_or_transGen.1 hv
  · exact ⟨ts, hc, hn⟩
  · obtain ⟨ts', hc', hlt⟩ := exists_longer_chain hlead hc
    exact ⟨ts', hc', Nat.lt_trans hn hlt⟩

/-! ## The limit -/

/-- **The depth limit is exact.**  Every guest value has a host form or an error.  It has an error
if more than 64 tables are chained from it on, and so if it leads to a cycle; it has a form if no
more than 64 are and whatever else is reached can cross; and if that can cross, the error says that
the tables are too deep. -/
theorem depth_limit (h : Heap) (v : Value) :
    ((∃ x, toHost h v = .ok x) ∨ ∃ e, toHost h v = .error e) ∧
    ((∃ ts, IsChain h v ts ∧ 64 < ts.length) → ∃ e, toHost h v = .error e) ∧
    ((∃ t, Reachable h v (.table t) ∧ OnCycle h t) → ∃ e, toHost h v = .error e) ∧
    ((∀ ts, IsChain h v ts → ts.length ≤ 64) → LeavesConvertible h v →
      ∃ x, toHost h v = .ok x) ∧
    (LeavesConvertible h v → ∀ e, toHost h v = .error e → e = .tooDeep 64) := by
  have hchain : (∃ ts, IsChain h v ts ∧ 64 < ts.length) → ∃ e, toHost h v = .error e := by
    rintro ⟨ts, hc, hlen⟩
    cases hx : toHost h v with
    | error e => exact ⟨e, rfl⟩
    | ok x =>
      have hle : ts.length ≤ 64 := (exists_form_iff.1 ⟨x, hx⟩).1 ts hc
      omega
  refine ⟨?_, hchain, ?_, fun hlen hl => exists_form_iff.2 ⟨hlen, hl⟩, fun hl e he => ?_⟩
  · cases toHost h v with
    | ok x => exact .inl ⟨x, rfl⟩
    | error e => exact .inr ⟨e, rfl⟩
  · rintro ⟨t, hv, ht⟩
    exact hchain (exists_chain_of_cycle hv ht 64)
  · exact error_eq_tooDeep hl he

/-- A table that holds itself, and one that holds a truth value. -/
def knot : Heap where
  tables := #[{ slots := [(.bool true, .table ⟨0⟩)], distinct := by simp },
    { slots := [(.bool true, .bool false)], distinct := by simp }]

theorem holds_knot {w : Value} (hw : Holds knot ⟨1⟩ w) : ∃ b, w = .bool b := by
  obtain ⟨p, hp, hw⟩ := holds_iff.1 hw
  have hmem : p ∈ [(Key.bool true, Value.bool false)] := hp
  obtain rfl := List.mem_singleton.1 hmem
  obtain rfl | rfl := hw
  · exact ⟨true, rfl⟩
  · exact ⟨false, rfl⟩

/-- The first one cannot cross, and the second one can. -/
theorem knot_refused : (∃ e, toHost knot (.table ⟨0⟩) = .error e) ∧
    ∃ x, toHost knot (.table ⟨1⟩) = .ok x := by
  constructor
  · refine (depth_limit knot (.table ⟨0⟩)).2.2.1 ⟨⟨0⟩, .refl, .single ⟨⟨0⟩, rfl, ?_⟩⟩
    exact holds_iff.2 ⟨(.bool true, .table ⟨0⟩), List.mem_singleton.2 rfl, .inr rfl⟩
  · refine (depth_limit knot (.table ⟨1⟩)).2.2.2.1 (fun ts hts => ?_) ?_
    · obtain rfl | ⟨w, ts', hw, hc, rfl⟩ := isChain_table_iff.1 hts
      · decide
      · obtain ⟨b, rfl⟩ := holds_knot hw
        cases hc
    · refine leavesConvertible_table_iff.2 fun w hw u hu _ => ?_
      obtain ⟨b, rfl⟩ := holds_knot hw
      rw [reachable_of_ne_table (fun t => by simp) hu]
      exact ⟨.bool b, by rw [toHost, toHostWithin]⟩

end ScriptShell.Marshal
