import ScriptShell.Proofs.HostSequences
import ScriptShell.Session.Hooks

/-! # Lists of texts

A list of texts becomes a table with strings under integers.  Such a table needs nothing else of the
heap to be read, so it is read as these texts wherever it stands and whatever has become of the rest
(`Marshal.toHost_of_holdsStrings`); that is what a hook relies on that hands the list of its caller
back.  The request for completions has such a table in one of its fields
(`Marshal.exists_toGuest_request`).
-/

namespace ScriptShell

open Guest (Heap RuntimeRef TableRef)
open Guest.Heap (Keeps KeepsBut)
open HostValue

/-- A table with strings under integers. -/
def Guest.Table.HoldsStrings (table : Guest.Table) : Prop :=
  ∀ k, table.get k ≠ .nil → ∃ i s, k = .int i ∧ table.get k = .str s

/-- A table that is read as a sequence of texts, in any heap and at any place. -/
def Guest.Table.ReadsTexts (table : Guest.Table) (words : List String) : Prop :=
  ∀ (h : Heap) (t : TableRef), h.table t = table →
    ∃ x, Marshal.toHost h (.table t) = .ok x ∧ x.sequence? = some (words.map .text)

/-- The request that the hook for completions gets. -/
def SessionRef.completionRequest (text word : String) (candidates : List String) : HostValue :=
  .map [(.text "text", .text text), (.text "word", .text word), (.text "list", ofTexts candidates)]

namespace Marshal

variable {h h' : Heap} {t t' : TableRef}

/-- Strings under integers are read alike in all heaps. -/
theorem entries_of_strings {es : List (Guest.Key × Guest.Value)}
    (hes : ∀ e ∈ es, ∃ i s, e = (.int i, .str s)) (n : Nat) (m : HostMap) :
    toHostWithin.entries h n m es = toHostWithin.entries h' n m es := by
  induction es generalizing m with
  | nil => simp only [toHostWithin.entries]
  | cons e rest ih =>
    obtain ⟨i, s, rfl⟩ := hes e List.mem_cons_self
    have hrest := ih fun e he => hes e (List.mem_cons_of_mem _ he)
    simp only [toHostWithin.entries, Guest.Key.toValue, toHostWithin, hrest]

/-- A table with strings under integers is read alike in all heaps. -/
theorem toHost_of_holdsStrings (ht : (h.table t).HoldsStrings) (heq : h'.table t' = h.table t) :
    toHost h' (.table t') = toHost h (.table t) := by
  have hes : ∀ e ∈ (h.table t).enumerate, ∃ i s, e = (.int i, .str s) := by
    rintro ⟨k, v⟩ he
    obtain ⟨rfl, hv⟩ := Guest.Table.mem_enumerate.1 he
    obtain ⟨i, s, rfl, hs⟩ := ht k hv
    exact ⟨i, s, by rw [hs]⟩
  rw [toHost, toHost, maxDepth, toHostWithin, toHostWithin, heq, entries_of_strings hes]

/-- Items that equal texts are these texts. -/
theorem eq_texts_of_beq {items : List HostValue} {words : List String}
    (h : (HostValue.seq items == .seq ((words.map .text).map HostValue.normal)) = true) :
    items = words.map .text := by
  have hall := seq_beq_iff.1 h
  clear h
  induction words generalizing items with
  | nil =>
    cases hall
    rfl
  | cons word rest ih =>
    cases hall with
    | cons hv hrest =>
      rw [eq_text_of_beq hv, ih hrest]
      rfl

theorem crossItems_texts (words : List String) : crossItems (words.map .text) = true := by
  induction words with
  | nil => rfl
  | cons word rest ih => exact ih

theorem nestingItems_texts (words : List String) : nestingItems (words.map .text) = 0 := by
  induction words with
  | nil => rfl
  | cons word rest ih => exact (Nat.zero_max _).trans ih

section ToGuest

variable (natives : Array NativeForm) (r : RuntimeRef)

/-- Texts become strings under integers. -/
theorem exists_toGuestItems_texts (t : TableRef) (words : List String) (p : Nat) (h : Heap)
    (ht : (h.table t).HoldsStrings) :
    ∃ h', toGuestItems natives r t p (words.map .text) h = (.ok (), h') ∧ KeepsBut t h h' ∧
      (h'.table t).HoldsStrings := by
  induction words generalizing p h with
  | nil => exact ⟨h, rfl, .of_keeps (.refl h) t, ht⟩
  | cons word rest ih =>
    have hset : ((h.setSlot t (.int (Int64.ofNat p)) (.text word)).table t).HoldsStrings := by
      intro k hk
      rcases h.get_setSlot_or t (.int (Int64.ofNat p)) (.text word) t k with
        ⟨-, hkey, hget⟩ | hget
      · exact ⟨_, _, hkey.symm, hget⟩
      · rw [hget] at hk ⊢
        exact ht k hk
    obtain ⟨h', hg, kept, hholds⟩ := ih (p + 1) _ hset
    exact ⟨h', hg, (KeepsBut.setSlot h t _ _).trans kept, hholds⟩

/-- **A list of texts** becomes a new table, which is read as these texts. -/
theorem exists_toGuest_texts {words : List String} (hlen : words.length < 2 ^ 63) (h : Heap) :
    ∃ h', toGuest natives r (SessionRef.ofTexts words) h = (.ok (.table ⟨h.tables.size⟩), h') ∧
      Keeps h h' ∧ h.tables.size < h'.tables.size ∧
      (h'.table ⟨h.tables.size⟩).ReadsTexts words := by
  have hempty : ((h.addTable {}).2.table ⟨h.tables.size⟩).HoldsStrings := by
    intro k hk
    rw [Heap.table_addTable, if_pos rfl, Guest.Table.get_empty] at hk
    exact absurd rfl hk
  obtain ⟨h', hg, kept, hholds⟩ :=
    exists_toGuestItems_texts natives r ⟨h.tables.size⟩ words 1 _ hempty
  have hvalue : toGuest natives r (SessionRef.ofTexts words) h =
      (.ok (.table ⟨h.tables.size⟩), h') := by
    unfold SessionRef.ofTexts toGuest
    dsimp only
    rw [show (h.addTable {}).1 = ⟨h.tables.size⟩ from rfl, hg]
  have hsize : h.tables.size < (h.addTable {}).2.tables.size := by simp [Heap.addTable]
  refine ⟨h', hvalue, kept.keeps ((Keeps.refl h).addTable _) (Nat.le_refl _),
    Nat.lt_of_lt_of_le hsize kept.size, fun h₁ t ht => ?_⟩
  obtain ⟨g, h₂, m, hg₂, hm, hapart, hsize, hmatch⟩ := exists_map_of_seq natives r h
    (crossItems_texts words) (by rw [nestingItems_texts]; exact Nat.zero_le _)
    (by rwa [List.length_map])
  rw [SessionRef.ofTexts, hg₂] at hvalue
  cases hvalue
  rw [← List.append_nil (words.map HostValue.text)] at hsize hmatch
  obtain ⟨items, hitems, hbeq⟩ := exists_sequence_of_matches
    (fun v hv => by obtain ⟨s, -, rfl⟩ := List.mem_map.1 hv; exact HostValue.noConfusion)
    (fun v hv => (List.not_mem_nil hv).elim)
    (by rwa [List.append_nil, List.length_map]) hapart hsize hmatch
  rw [toHost_of_holdsStrings hholds ht]
  exact ⟨.map m, hm, by rw [← eq_texts_of_beq hbeq]; exact hitems⟩

/-- A pair under a text fills a field. -/
theorem toGuestEntries_text {t : TableRef} {name : String} {v : HostValue} {g : Guest.Value}
    {h₁ : Heap} {rest : List (HostValue × HostValue)}
    (hg : toGuest natives r v h = (.ok g, h₁)) :
    toGuestEntries natives r t ((.text name, v) :: rest) h =
      toGuestEntries natives r t rest (h₁.setField t name g) := by
  have hkey : toGuest natives r (.text name) h = (.ok (Guest.Key.text name).toValue, h) := rfl
  rw [toGuestEntries, hkey]
  dsimp only
  rw [Guest.Key.ofValue_toValue]
  dsimp only
  rw [hg]
  rfl

/-- **A request for completions** becomes a table that has the candidates in its field `list`. -/
theorem exists_toGuest_request {candidates : List String} (hlen : candidates.length < 2 ^ 63)
    (text word : String) (h : Heap) :
    ∃ t list h', toGuest natives r (SessionRef.completionRequest text word candidates) h =
        (.ok (.table t), h') ∧
      h'.field t "list" = .table list ∧ h.tables.size ≤ list.id ∧
      (h'.table list).ReadsTexts candidates := by
  let t : TableRef := ⟨h.tables.size⟩
  let h₁ := ((h.addTable {}).2.setField t "text" (.text text)).setField t "word" (.text word)
  have hsize : h₁.tables.size = h.tables.size + 1 := by
    simp only [h₁, Heap.setField, Heap.setSlot, Heap.size_modifyTable]
    simp [Heap.addTable]
  obtain ⟨h₂, hg, kept, hlt, hreads⟩ := exists_toGuest_texts natives r hlen h₁
  have hentries : toGuestEntries natives r t [(.text "text", .text text),
      (.text "word", .text word), (.text "list", SessionRef.ofTexts candidates)]
        (h.addTable {}).2 = (.ok (), h₂.setField t "list" (.table ⟨h₁.tables.size⟩)) := by
    rw [toGuestEntries_text natives r rfl, toGuestEntries_text natives r rfl,
      toGuestEntries_text natives r hg]
    rfl
  refine ⟨t, ⟨h₁.tables.size⟩, h₂.setField t "list" (.table ⟨h₁.tables.size⟩), ?_, ?_, ?_, ?_⟩
  · unfold SessionRef.completionRequest toGuest
    dsimp only
    rw [show (h.addTable {}).1 = t from rfl, hentries]
  · have ht : t.id < h₂.tables.size := by
      show h.tables.size < _
      omega
    rw [Heap.field_setField h₂ ht, if_pos ⟨rfl, rfl⟩]
  · show h.tables.size ≤ h₁.tables.size
    omega
  · have hne : t ≠ ⟨h₁.tables.size⟩ := by
      intro he
      have hid : h.tables.size = h₁.tables.size := congrArg TableRef.id he
      omega
    rw [Heap.setField, Heap.setSlot, Heap.table_modifyTable, if_neg fun he => hne he.1]
    exact hreads

end ToGuest

end Marshal
end ScriptShell
