import Mathlib.Data.String.Basic
import ScriptShell.Collection.Basic

/-! # What collections keep of a value

Keys and values reach a collection in several kinds, and each collection has its own conversions and
refusals.  `Collections.kept` says of a name and a value what is kept of them, and
`Collections.set_cases` that a write does no more and no less.  The variables that programs are
started with are a list; inserting keeps it in order (`TextMap.Ordered`), and so the list and the
reads agree. -/

namespace ScriptShell

/-! ## Maps in order -/

namespace TextMap

variable {α : Type}

/-- The keys strictly increase. -/
def Ordered (m : TextMap α) : Prop := m.entries.Pairwise fun e e' => e.1 < e'.1

theorem mem_insertEntry {k : String} {v : α} {e : String × α} {es : List (String × α)}
    (he : e ∈ insertEntry k v es) : e = (k, v) ∨ e ∈ es := by
  induction es with
  | nil => exact .inl (List.mem_singleton.1 he)
  | cons e' rest ih =>
    rw [insertEntry] at he
    split at he
    · exact (List.mem_cons.1 he).imp id (List.mem_cons_of_mem _)
    · split at he
      · exact List.mem_cons.1 he
      · rcases List.mem_cons.1 he with rfl | he
        · exact .inr List.mem_cons_self
        · exact (ih he).imp id (List.mem_cons_of_mem _)

theorem Ordered.insert {m : TextMap α} (hm : m.Ordered) (k : String) (v : α) :
    (m.insert k v).Ordered := by
  obtain ⟨es⟩ := m
  show (insertEntry k v es).Pairwise _
  have hes : es.Pairwise fun e e' => e.1 < e'.1 := hm
  clear hm
  induction es with
  | nil => exact List.pairwise_singleton _ _
  | cons e rest ih =>
    obtain ⟨hfirst, hrest⟩ := List.pairwise_cons.1 hes
    rw [insertEntry]
    split
    · next heq => exact List.pairwise_cons.2 ⟨heq ▸ hfirst, hrest⟩
    · next hne =>
      split
      · next hlt =>
        refine List.pairwise_cons.2 ⟨fun e' he' => ?_, hes⟩
        rcases List.mem_cons.1 he' with rfl | he'
        · exact hlt
        · exact hlt.trans (hfirst e' he')
      · next hle =>
        refine List.pairwise_cons.2 ⟨fun e' he' => ?_, ih hrest⟩
        rcases mem_insertEntry he' with rfl | he'
        · exact lt_of_le_of_ne (not_lt.1 hle) hne
        · exact hfirst e' he'

theorem Ordered.erase {m : TextMap α} (hm : m.Ordered) (k : String) : (m.erase k).Ordered :=
  List.Pairwise.filter _ hm

theorem ordered_ofList (pairs : List (String × α)) : (ofList pairs).Ordered := by
  have hfold : ∀ m : TextMap α, m.Ordered →
      (pairs.foldl (fun m e => m.insert e.1 e.2) m).Ordered := by
    induction pairs with
    | nil => exact fun m hm => hm
    | cons e rest ih => exact fun m hm => ih _ (hm.insert e.1 e.2)
  exact hfold {} List.Pairwise.nil

theorem Ordered.nodup_keys {m : TextMap α} (hm : m.Ordered) : m.keys.Nodup :=
  (List.pairwise_map.2 hm).imp ne_of_lt

/-- The pairs are what can be looked up. -/
theorem Ordered.mem_entries_iff {m : TextMap α} (hm : m.Ordered) {k : String} {v : α} :
    (k, v) ∈ m.entries ↔ m.get? k = some v := by
  obtain ⟨es⟩ := m
  show (k, v) ∈ es ↔ lookupEntry k es = some v
  have hes : es.Pairwise fun e e' => e.1 < e'.1 := hm
  clear hm
  induction es with
  | nil => exact iff_of_false List.not_mem_nil nofun
  | cons e rest ih =>
    obtain ⟨k', v'⟩ := e
    obtain ⟨hfirst, hrest⟩ := List.pairwise_cons.1 hes
    have htail : (k, v) ∈ rest ↔ lookupEntry k rest = some v := ih hrest
    rw [List.mem_cons, lookupEntry, htail]
    by_cases hk : k' = k
    · -- the key is not among the greater ones that follow
      have hnone : lookupEntry k rest ≠ some v := fun hv => (hfirst _ (htail.2 hv)).ne hk
      rw [if_pos hk, or_iff_left hnone]
      simp [hk, eq_comm]
    · rw [if_neg hk, or_iff_right fun he => hk (congrArg Prod.fst he).symm]

end TextMap

/-! ## What is kept of a value -/

/-- Names that variables can have. -/
def IsVariableName (name : String) : Prop := name ≠ "" ∧ '=' ∉ name.toList

instance : DecidablePred IsVariableName := fun _ => inferInstanceAs (Decidable (_ ∧ _))

/-- What is kept of a value as text: nothing of `nil`, the decimal form of an integer, else the
text.  `none` if the value is refused. -/
def keptText (v : HostValue) : Option (Option HostValue) :=
  match v with
  | .nil => some none
  | .int i => some (some (.text (toString i)))
  | v => v.asText?.map fun s => some (.text s)

/-- What is kept of a value as a flag. -/
def keptFlag (v : HostValue) : Option (Option HostValue) :=
  match v with
  | .bool b => some (some (.bool b))
  | _ => none

namespace Collections

/-- What a collection keeps of a value under a name; `none` if it refuses the value. -/
def kept (c : Collections) (kind : CollectionKind) (name : String) (v : HostValue) :
    Option (Option HostValue) :=
  match kind with
  | .env => if IsVariableName name then keptText v else none
  | .aliases => keptText v
  | .option => if (c.get .option (.text name)).isSome then keptFlag v else none
  | .history => none

end Collections

variable {key v : HostValue} {name : String}

/-! ## Writes -/

theorem textKey_eq_ok_iff : textKey key = .ok name ↔ key.asText? = some name := by
  rw [textKey]
  cases key.asText? <;> simp

theorem textValue_cases (name : String) (hv : v.isNil = false) :
    (∃ s, textValue name v = .ok s ∧ keptText v = some (some (.text s))) ∨
    ((∃ e, textValue name v = .error e) ∧ keptText v = none) := by
  cases v with
  | nil => cases hv
  | int i => exact .inl ⟨_, rfl, rfl⟩
  | text s => exact .inl ⟨s, rfl, rfl⟩
  | error s => exact .inl ⟨s, rfl, rfl⟩
  | bytes b =>
    simp only [textValue, HostValue.toText, keptText, HostValue.asText?]
    cases Utf8.decode? b with
    | some s => exact .inl ⟨s, rfl, rfl⟩
    | none => exact .inr ⟨⟨_, rfl⟩, rfl⟩
  | _ => exact .inr ⟨⟨_, rfl⟩, rfl⟩

/-- A map of texts after a write of a value as text; `nil` removes the name. -/
def TextMap.written (m : TextMap String) (name : String) (v : HostValue) :
    Except PropertyError (TextMap String) :=
  if v.isNil = true then .ok (m.erase name) else (textValue name v).map (m.insert name)

theorem TextMap.written_cases (m : TextMap String) (name : String) (v : HostValue) :
    (∃ kept m', keptText v = some kept ∧ m.written name v = .ok m' ∧
      (m'.get? name).map HostValue.text = kept ∧ (m.Ordered → m'.Ordered)) ∨
    (keptText v = none ∧ ∃ e, m.written name v = .error e) := by
  rw [written]
  cases hv : v.isNil with
  | true =>
    have hnil : v = .nil := by cases v <;> first | rfl | cases hv
    rw [hnil]
    refine .inl ⟨none, m.erase name, rfl, rfl, ?_, fun hm => hm.erase name⟩
    rw [TextMap.get?_erase_self]
    rfl
  | false =>
    rcases textValue_cases name hv with ⟨s, hs, hkept⟩ | ⟨⟨e, he⟩, hkept⟩
    · rw [hs]
      refine .inl ⟨_, m.insert name s, hkept, rfl, ?_, fun hm => hm.insert name s⟩
      rw [TextMap.get?_insert_self]
      rfl
    · rw [he]
      exact .inr ⟨hkept, e, rfl⟩

theorem isVariableName_iff :
    IsVariableName name ↔ ¬(name.isEmpty || name.toList.contains '=') = true := by
  rw [Bool.or_eq_true, not_or, String.isEmpty_iff, List.contains_iff_mem, IsVariableName]

theorem Environment.set_eq (e : Environment) (hk : key.asText? = some name) (v : HostValue) :
    e.set key v =
      if IsVariableName name then (e.vars.written name v).map Environment.mk
      else .error ⟨name, "invalid variable name"⟩ := by
  rw [Environment.set, textKey_eq_ok_iff.2 hk, TextMap.written]
  show (ite _ _ _ : Except PropertyError Environment) = _
  by_cases hname : IsVariableName name
  · rw [if_pos hname, if_neg (isVariableName_iff.1 hname)]
    cases v.isNil with
    | true => rfl
    | false => cases textValue name v <;> rfl
  · rw [if_neg hname, if_pos (not_not.1 (isVariableName_iff.not.1 hname))]
    rfl

theorem Environment.get_text_iff {e : Environment} {value : String} :
    e.get (.text name) = some (.text value) ↔ e.vars.get? name = some value := by
  rw [Environment.get, HostValue.asText?, Option.bind_some, Option.map_eq_some_iff]
  simp

theorem Aliases.set_eq (a : Aliases) (hk : key.asText? = some name) (v : HostValue) :
    a.set key v = (a.table.written name v).map Aliases.mk := by
  rw [Aliases.set, textKey_eq_ok_iff.2 hk, TextMap.written]
  show (ite _ _ _ : Except PropertyError Aliases) = _
  cases v.isNil with
  | true => rfl
  | false => cases textValue name v <;> rfl

theorem Options.set_eq (o : Options) (hk : key.asText? = some name) (v : HostValue) :
    o.set key v =
      if (o.flags.get? name).isSome = true then
        match v.toBool with
        | .ok b => .ok ⟨o.flags.insert name b⟩
        | .error e => .error ⟨name, e.message⟩
      else .error ⟨name, "no such option"⟩ := by
  rw [Options.set, textKey_eq_ok_iff.2 hk]
  show (ite _ _ _ : Except PropertyError Options) = _
  cases hflag : (o.flags.get? name).isSome with
  | true =>
    rw [if_pos rfl, if_neg (by rw [TextMap.contains, hflag]; decide)]
    cases v.toBool <;> rfl
  | false =>
    rw [if_neg Bool.false_ne_true, if_pos (by rw [TextMap.contains, hflag]; rfl)]
    rfl

namespace Collections

/-- A write under a text is accepted or refused as `kept` says, and what is kept is then there. -/
theorem set_cases (c : Collections) (kind : CollectionKind) (hk : key.asText? = some name)
    (v : HostValue) :
    (∃ kept c', c.kept kind name v = some kept ∧ c.set kind key v = .ok c' ∧
      c'.get kind (.text name) = kept ∧ (c.env.vars.Ordered → c'.env.vars.Ordered)) ∨
    (c.kept kind name v = none ∧ ∃ e, c.set kind key v = .error e) := by
  cases kind with
  | env =>
    rw [kept, Collections.set, c.env.set_eq hk]
    by_cases hname : IsVariableName name
    · rw [if_pos hname, if_pos hname]
      rcases c.env.vars.written_cases name v with
        ⟨kept, m, hkept, hset, hget, hordered⟩ | ⟨hkept, e, he⟩
      · rw [hset]
        exact .inl ⟨kept, _, hkept, rfl, hget, hordered⟩
      · rw [he]
        exact .inr ⟨hkept, e, rfl⟩
    · rw [if_neg hname, if_neg hname]
      exact .inr ⟨rfl, _, rfl⟩
  | aliases =>
    rw [kept, Collections.set, c.aliases.set_eq hk]
    rcases c.aliases.table.written_cases name v with
      ⟨kept, m, hkept, hset, hget, -⟩ | ⟨hkept, e, he⟩
    · rw [hset]
      exact .inl ⟨kept, _, hkept, rfl, hget, id⟩
    · rw [he]
      exact .inr ⟨hkept, e, rfl⟩
  | option =>
    -- only flags that are there can be set
    have hknown : (c.get .option (.text name)).isSome = (c.options.flags.get? name).isSome :=
      Option.isSome_map
    rw [kept, Collections.set, c.options.set_eq hk, hknown]
    by_cases hflag : (c.options.flags.get? name).isSome = true
    · rw [if_pos hflag, if_pos hflag]
      cases v with
      | bool b =>
        refine .inl ⟨_, _, rfl, rfl, ?_, id⟩
        exact congrArg (Option.map HostValue.bool) (TextMap.get?_insert_self ..)
      | _ => exact .inr ⟨rfl, _, rfl⟩
    · rw [if_neg hflag, if_neg hflag]
      exact .inr ⟨rfl, _, rfl⟩
  | history => exact .inr ⟨rfl, _, rfl⟩

/-- A write under a key without text is refused. -/
theorem set_of_no_text (c : Collections) (kind : CollectionKind) (hk : key.asText? = none)
    (v : HostValue) : ∃ e, c.set kind key v = .error e := by
  have htext : textKey key = .error ⟨key.debugText, "key must be a string"⟩ := by
    rw [textKey, hk]
  cases kind with
  | history => exact ⟨_, rfl⟩
  | _ =>
    simp only [Collections.set, Environment.set, Aliases.set, Options.set, htext]
    exact ⟨_, rfl⟩

theorem get_eq_of_text {c : Collections} {kind : CollectionKind} (hkind : kind ≠ .history)
    (key : HostValue) :
    c.get kind key = key.asText?.bind fun name => c.get kind (.text name) := by
  cases kind with
  | history => exact absurd rfl hkind
  | _ => exact Option.map_bind

end Collections
end ScriptShell
