import ScriptShell.Proofs.HostForms
import ScriptShell.Property

/-! # What the capability table is to the shell

The shell answers for two kinds of fields of the capability table: scalar properties, each with a
cell that takes values of its kind, and hooks, which take functions.  `ScalarProperties.fieldKind`
says which of them a string is the name of, if any; the functions of `PropertyTable` depend on the
string in this way only.
-/

namespace ScriptShell

open Guest

/-- What a field of the capability table is. -/
inductive FieldKind where
  /-- A scalar property. -/
  | scalar (name : String)
  /-- A hook. -/
  | hook (point : HookPoint)
  /-- A field of the table's own. -/
  | own
  deriving DecidableEq

/-- What the field under a string is. -/
def ScalarProperties.fieldKind (p : ScalarProperties) (s : Bytes) : FieldKind :=
  match Utf8.decode? s with
  | none => .own
  | some name =>
    if TextMap.contains p name then .scalar name
    else
      match HookPoint.ofField? name with
      | some point => .hook point
      | none => .own

namespace ScalarCell

/-- The guest form of the content. -/
def form : ScalarCell → Value
  | text s => .text s
  | flag b => .bool b

/-- The content that a host value becomes in a cell of its kind. -/
def ofValue? : HostValue → Option ScalarCell
  | .text s => some (text s)
  | .bool b => some (flag b)
  | _ => none

theorem toGuest_value (cell : ScalarCell) (natives : Array Marshal.NativeForm) (r : RuntimeRef)
    (h : Heap) : Marshal.toGuest natives r cell.value h = (.ok cell.form, h) := by
  cases cell <;> rfl

theorem kindName_of_ofValue? {v : HostValue} {content : ScalarCell}
    (h : ofValue? v = some content) : content.value.kindName = v.kindName := by
  cases v <;> cases h <;> rfl

/-- A cell takes the values of its kind. -/
theorem store_cases (cell : ScalarCell) (name : String) (v : HostValue) :
    (v.kindName = cell.value.kindName ∧
      ∃ content, ofValue? v = some content ∧ cell.store name v = .ok content) ∨
    (v.kindName ≠ cell.value.kindName ∧ ∃ e, cell.store name v = .error e) := by
  cases cell <;> cases v <;>
    first
    | exact .inl ⟨rfl, _, rfl, rfl⟩
    | exact .inr ⟨by simp [HostValue.kindName, value], _, rfl⟩

end ScalarCell

namespace HookRegistry

theorem get?_unregister (r : HookRegistry) (p q : HookPoint) :
    (r.unregister p).get? q = if q = p then none else r.get? q := by
  show (r.entries.filter (·.1 != p)).lookup q = if q = p then none else r.entries.lookup q
  induction r.entries with
  | nil => rw [List.filter_nil, List.lookup_nil, ite_self]
  | cons e rest ih =>
    by_cases hq : q = e.1
    · by_cases hp : e.1 = p
      · rw [List.filter_cons_of_neg (by simp [hp]), ih, if_pos (hq.trans hp), if_pos (hq.trans hp)]
      · rw [List.filter_cons_of_pos (by simp [hp]), List.lookup_cons, List.lookup_cons,
          beq_iff_eq.2 hq, if_neg fun he => hp (hq.symm.trans he)]
    · have hb : (q == e.1) = false := beq_false_of_ne hq
      rw [List.lookup_cons, hb]
      by_cases hp : e.1 = p
      · rw [List.filter_cons_of_neg (by simp [hp]), ih]
      · rw [List.filter_cons_of_pos (by simp [hp]), List.lookup_cons, hb, ih]

theorem get?_register (r : HookRegistry) (p : HookPoint) (f : GuestFunction) (q : HookPoint) :
    (r.register p f).get? q = if q = p then some f else r.get? q := by
  show (r.entries.filter (·.1 != p) ++ [(p, f)]).lookup q = _
  rw [List.lookup_append]
  -- the new entry comes last, when no other one of its hook is left
  show ((r.unregister p).get? q).or ([(p, f)].lookup q) = _
  rw [get?_unregister]
  by_cases hq : q = p
  · rw [if_pos hq, if_pos hq, List.lookup_cons, beq_iff_eq.2 hq]
    rfl
  · have hb : (q == p) = false := beq_false_of_ne hq
    rw [if_neg hq, if_neg hq, List.lookup_cons, hb, List.lookup_nil, Option.or_none]

end HookRegistry

/-! ## What the shell has under a string -/

section Kinds

variable {p : ScalarProperties} {s : Bytes} {name : String} {point : HookPoint}

theorem fieldKind_eq_scalar (h : p.fieldKind s = .scalar name) :
    Utf8.decode? s = some name ∧ ∃ cell, TextMap.get? p name = some cell := by
  rw [ScalarProperties.fieldKind] at h
  split at h
  · cases h
  · next hs =>
    split at h
    · next hc =>
      cases h
      exact ⟨hs, Option.isSome_iff_exists.1 hc⟩
    · split at h <;> cases h

theorem fieldKind_eq_hook (h : p.fieldKind s = .hook point) :
    ∃ name, Utf8.decode? s = some name ∧ TextMap.get? p name = none ∧
      HookPoint.ofField? name = some point := by
  rw [ScalarProperties.fieldKind] at h
  split at h
  · cases h
  · next name hs =>
    split at h
    · cases h
    · next hc =>
      split at h
      · next hp =>
        cases h
        exact ⟨name, hs, Option.not_isSome_iff_eq_none.1 hc, hp⟩
      · cases h

theorem fieldKind_eq_own (h : p.fieldKind s = .own) (hs : Utf8.decode? s = some name) :
    TextMap.get? p name = none ∧ HookPoint.ofField? name = none := by
  rw [ScalarProperties.fieldKind, hs] at h
  dsimp only at h
  split at h
  · cases h
  · next hc =>
    split at h
    · cases h
    · next hp => exact ⟨Option.not_isSome_iff_eq_none.1 hc, hp⟩

/-- A field that is not the table's own has the name of a scalar property or of a hook. -/
theorem exists_name_of_ne_own (h : p.fieldKind s ≠ .own) :
    ∃ name, Utf8.decode? s = some name ∧
      (TextMap.contains p name = true ∨ (HookPoint.ofField? name).isSome = true) := by
  cases hk : p.fieldKind s with
  | own => exact absurd hk h
  | scalar name =>
    obtain ⟨hs, cell, hcell⟩ := fieldKind_eq_scalar hk
    exact ⟨name, hs, .inl (by rw [TextMap.contains, hcell]; rfl)⟩
  | hook point =>
    obtain ⟨name, hs, -, hp⟩ := fieldKind_eq_hook hk
    exact ⟨name, hs, .inr (by rw [hp]; rfl)⟩

/-- A string as a key on the shell's side. -/
def keyOf (s : Bytes) : HostValue :=
  match Utf8.decode? s with
  | some name => .text name
  | none => .bytes s

theorem toHost_str (h : Heap) (s : Bytes) : Marshal.toHost h (.str s) = .ok (keyOf s) := by
  rw [Marshal.toHost, Marshal.toHostWithin, keyOf]
  cases Utf8.decode? s <;> rfl

theorem asText?_keyOf (s : Bytes) : (keyOf s).asText? = Utf8.decode? s := by
  rw [keyOf]
  cases hs : Utf8.decode? s with
  | none => exact hs
  | some name => rfl

theorem claims_keyOf (p : ScalarProperties) (hooks : RegistryRef) (s : Bytes) :
    (PropertyTable.capabilities p hooks).claims (keyOf s) = true ↔ p.fieldKind s ≠ .own := by
  show (match (keyOf s).asText? with
    | some name => TextMap.contains p name || (HookPoint.ofField? name).isSome
    | none => false) = true ↔ _
  rw [asText?_keyOf]
  constructor
  · intro hc hk
    split at hc
    · next name hs =>
      obtain ⟨hp, hf⟩ := fieldKind_eq_own hk hs
      rw [TextMap.contains, hp, hf] at hc
      cases hc
    · cases hc
  · intro hk
    obtain ⟨name, hs, hn⟩ := exists_name_of_ne_own hk
    rw [hs]
    exact Bool.or_eq_true_iff.2 hn

variable (hooks : RegistryRef) (h : HostState)

theorem get_keyOf_scalar (hk : p.fieldKind s = .scalar name) {cell : ScalarRef}
    (hc : TextMap.get? p name = some cell) :
    (PropertyTable.capabilities p hooks).get h (keyOf s) = some (h.scalar cell).value := by
  obtain ⟨hs, -⟩ := fieldKind_eq_scalar hk
  have hv : p.value? h name = some (h.scalar cell).value := by
    rw [ScalarProperties.value?, hc]
    rfl
  simp only [PropertyTable.get, asText?_keyOf, hs, hv]

theorem get_keyOf_hook (hk : p.fieldKind s = .hook point) :
    (PropertyTable.capabilities p hooks).get h (keyOf s) =
      ((h.registry hooks).get? point).map .callable := by
  obtain ⟨name, hs, hc, hp⟩ := fieldKind_eq_hook hk
  have hv : p.value? h name = none := by
    rw [ScalarProperties.value?, hc]
    rfl
  simp only [PropertyTable.get, asText?_keyOf, hs, hv, hp]

theorem get_keyOf_own (hk : p.fieldKind s = .own) :
    (PropertyTable.capabilities p hooks).get h (keyOf s) = none := by
  cases hs : Utf8.decode? s with
  | none => simp only [PropertyTable.get, asText?_keyOf, hs]
  | some name =>
    obtain ⟨hc, hp⟩ := fieldKind_eq_own hk hs
    have hv : p.value? h name = none := by
      rw [ScalarProperties.value?, hc]
      rfl
    simp only [PropertyTable.get, asText?_keyOf, hs, hv, hp]

theorem set_keyOf_scalar (hk : p.fieldKind s = .scalar name) {cell : ScalarRef}
    (hc : TextMap.get? p name = some cell) (v : HostValue) :
    (PropertyTable.capabilities p hooks).set h (keyOf s) v =
      ((h.scalar cell).store name v).map (h.setScalar cell) := by
  obtain ⟨hs, -⟩ := fieldKind_eq_scalar hk
  have hv : p.store? h name v = some (((h.scalar cell).store name v).map (h.setScalar cell)) := by
    rw [ScalarProperties.store?, hc]
    rfl
  simp only [PropertyTable.set, asText?_keyOf, hs, Option.getD_some, hv]

/-- A hook field takes a function or `nil`. -/
theorem set_keyOf_hook (hk : p.fieldKind s = .hook point) (v : HostValue) :
    (∃ f, v = .callable f ∧ (PropertyTable.capabilities p hooks).set h (keyOf s) v =
      .ok (h.setRegistry hooks ((h.registry hooks).register point f))) ∨
    (v = .nil ∧ (PropertyTable.capabilities p hooks).set h (keyOf s) v =
      .ok (h.setRegistry hooks ((h.registry hooks).unregister point))) ∨
    ((∀ f, v ≠ .callable f) ∧ v ≠ .nil ∧
      ∃ e, (PropertyTable.capabilities p hooks).set h (keyOf s) v = .error e) := by
  obtain ⟨name, hs, hc, hp⟩ := fieldKind_eq_hook hk
  have hv : p.store? h name v = none := by
    rw [ScalarProperties.store?, hc]
    rfl
  simp only [PropertyTable.set, asText?_keyOf, hs, Option.getD_some, hv, hp]
  cases v with
  | callable f => exact .inl ⟨f, rfl, rfl⟩
  | nil => exact .inr (.inl ⟨rfl, rfl⟩)
  | _ => exact .inr (.inr ⟨fun _ => HostValue.noConfusion, HostValue.noConfusion, _, rfl⟩)

end Kinds

end ScriptShell
