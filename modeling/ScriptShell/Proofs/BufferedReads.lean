import ScriptShell.Reader.Buffered

/-! # Reading does not depend on the pieces

An input hands out its bytes in pieces, and an item is put together from as many of them as it
takes.  `Reader.read` gives the same items from all the bytes that are left, without any pieces, and
the two agree (`readItem_eq`): each loop over pieces takes what one function of lists takes from the
whole, a line `splitLine`, a run of bytes `takeWhile`, and a number of bytes `take`.  Every round of
a loop takes bytes away from the front of what is left, so the induction is on the loop and the step
is a fact about a list that begins with the bytes at hand.
-/

namespace ScriptShell

/-! ## Lines of a whole input -/

namespace Reader

/-- Without a line break a line goes on. -/
theorem splitLine_append {text : Bytes} (h : 10 ∉ text) (rest : Bytes) :
    splitLine (text ++ rest) = (text ++ (splitLine rest).1, (splitLine rest).2) := by
  induction text with
  | nil => rfl
  | cons b text ih =>
    have hb : b ≠ 10 := fun he => h (he ▸ List.mem_cons_self)
    rw [List.cons_append, splitLine, if_neg hb, ih fun hm => h (List.mem_cons_of_mem b hm)]
    rfl

/-- A line ends with the first line break. -/
theorem splitLine_append_break {text : Bytes} (h : 10 ∉ text) (rest : Bytes) :
    splitLine (text ++ [10] ++ rest) = (text ++ [10], rest) := by
  rw [List.append_assoc, splitLine_append h, List.singleton_append, splitLine, if_pos rfl]

/-- Where something is left, there is a line. -/
theorem isEmpty_splitLine (input : Bytes) : (splitLine input).1.isEmpty = input.isEmpty := by
  cases input with
  | nil => rfl
  | cons b rest =>
    rw [splitLine]
    split <;> rfl

end Reader

namespace BufferedReader

open Reader (splitLine)

variable {σ : Type} (R : BufferedReader σ)

/-! ## Bytes at hand -/

/-- What is left are the bytes at hand and others behind them. -/
theorem bytes_eq_append (s : σ) :
    R.bytes s = (R.fill s).1 ++ (R.bytes s).drop (R.fill s).1.length := by
  obtain ⟨rest, hrest⟩ := R.fill_isPrefix s
  rw [← hrest, List.drop_left]

/-- Nothing is at hand if nothing is left, and only then. -/
theorem fill_eq_nil_iff (s : σ) : (R.fill s).1 = [] ↔ R.bytes s = [] := by
  constructor
  · intro h
    by_cases hb : R.bytes s = []
    · exact hb
    · exact absurd h (R.fill_ne_nil s hb)
  · intro h
    exact List.prefix_nil.1 (h ▸ R.fill_isPrefix s)

theorem bytes_eq_cons {s : σ} {b : UInt8} {tail : Bytes} (h : (R.fill s).1 = b :: tail) :
    R.bytes s = b :: (R.bytes s).tail := by
  have hb := R.bytes_eq_append s
  rw [h, List.cons_append] at hb
  rw [hb, List.tail_cons]

/-- After all the bytes at hand there come the others. -/
theorem bytes_consume_all (s : σ) :
    R.bytes (R.consume (R.fill s).1.length (R.fill s).2) =
      (R.bytes s).drop (R.fill s).1.length :=
  R.bytes_consume s _ (Nat.le_refl _)

/-! ## Loops over pieces -/

/-- The first place of a byte: it stands there, and not before. -/
theorem exists_of_idxOf? {b : UInt8} {l : Bytes} {i : Nat} (h : l.idxOf? b = some i) :
    ∃ before after, l = before ++ [b] ++ after ∧ (before ++ [b]).length = i + 1 ∧
      b ∉ before := by
  rw [List.idxOf?, List.findIdx?_eq_some_iff_getElem] at h
  obtain ⟨hlt, hget, hbefore⟩ := h
  refine ⟨l.take i, l.drop (i + 1), ?_, ?_, ?_⟩
  · have hb : l[i] = b := by simpa using hget
    rw [← hb, List.append_assoc, List.singleton_append, ← List.drop_eq_getElem_cons,
      List.take_append_drop]
  · rw [List.length_append, List.length_take, List.length_singleton]
    omega
  · intro hm
    obtain ⟨j, hj, hjb⟩ := List.mem_take_iff_getElem.1 hm
    have := hbefore j (by omega)
    simp [hjb] at this

/-- The loop for lines takes a line of the whole. -/
theorem readUntil_eq (s : σ) :
    ((R.readUntil 10 s).1, R.bytes (R.readUntil 10 s).2) = splitLine (R.bytes s) := by
  fun_induction R.readUntil 10 s with
  | case1 s atHand i hi =>
    -- the break is among the bytes at hand
    obtain ⟨text, tail, hatHand, hlen, hno⟩ := exists_of_idxOf? hi
    have hle : i + 1 ≤ (R.fill s).1.length := by
      show i + 1 ≤ atHand.length
      rw [hatHand, List.length_append]
      omega
    have hbytes : R.bytes s = text ++ [10] ++ (tail ++ (R.bytes s).drop atHand.length) := by
      rw [← List.append_assoc, ← hatHand]
      exact R.bytes_eq_append s
    rw [R.bytes_consume s _ hle, hbytes, Reader.splitLine_append_break hno, ← hlen, List.drop_left]
    show (atHand.take _, _) = _
    rw [hatHand, List.take_left]
  | case2 s atHand hnone hnil =>
    have hb : R.bytes s = [] := (R.fill_eq_nil_iff s).1 hnil
    rw [R.bytes_fill, hb]
    rfl
  | case3 s atHand hnone hne more s' hmore ih =>
    have hno : 10 ∉ atHand := List.idxOf?_eq_none_iff.1 hnone
    rw [hmore, R.bytes_consume_all] at ih
    rw [R.bytes_eq_append s, Reader.splitLine_append hno, ← ih]

/-- The loop for bytes of a kind takes the longest run of them. -/
theorem readWhile_eq (p : UInt8 → Bool) (s : σ) :
    ((R.readWhile p s).1, R.bytes (R.readWhile p s).2) =
      ((R.bytes s).takeWhile p, (R.bytes s).dropWhile p) := by
  fun_induction R.readWhile p s with
  | case1 s hfill =>
    have hb : R.bytes s = [] := (R.fill_eq_nil_iff s).1 hfill
    rw [R.bytes_fill, hb]
    rfl
  | case2 s b tail hfill hp more s' hmore ih =>
    have hbytes := R.bytes_eq_cons hfill
    have hrest : R.bytes (R.consume 1 (R.fill s).2) = (R.bytes s).tail := by
      rw [R.bytes_consume s 1 (by rw [hfill]; exact Nat.succ_pos _), List.drop_one]
    rw [hmore, hrest] at ih
    obtain ⟨rfl, hs'⟩ := Prod.mk.inj ih
    rw [hbytes, List.takeWhile_cons_of_pos hp, List.dropWhile_cons_of_pos hp, hs', List.tail_cons]
  | case3 s b tail hfill hp =>
    rw [R.bytes_fill, R.bytes_eq_cons hfill, List.takeWhile_cons_of_neg hp,
      List.dropWhile_cons_of_neg hp]

/-- The loop for a number of bytes takes so many, or all if there are fewer. -/
theorem readUpTo_eq (limit? : Option Nat) (s : σ) :
    ((R.readUpTo limit? s).1, R.bytes (R.readUpTo limit? s).2) =
      ((R.bytes s).take (limit?.getD (R.bytes s).length),
        (R.bytes s).drop (limit?.getD (R.bytes s).length)) := by
  fun_induction R.readUpTo limit? s with
  | case1 s => rfl
  | case2 limit? s hzero n piece hnil =>
    -- as something was asked for, nothing is left
    have hn : 0 < n := by
      cases limit? with
      | none => decide
      | some k =>
        have hk : k ≠ 0 := fun he => hzero (he ▸ rfl)
        exact Nat.lt_min.2 ⟨by decide, Nat.pos_of_ne_zero hk⟩
    have hb : R.bytes s = [] := by
      by_cases hb : R.bytes s = []
      · exact hb
      · exact absurd hnil (R.read_ne_nil n s hn hb)
    have hrest : R.bytes (R.read n s).2 = [] := by
      have happ := R.read_append n s
      rw [hb] at happ
      exact (List.append_eq_nil_iff.1 happ).2
    rw [hrest, hb]
    simp
  | case3 limit? s hzero n piece hne more s' hmore ih =>
    have happ : piece ++ R.bytes (R.read n s).2 = R.bytes s := R.read_append n s
    have hlimit : limit?.getD (R.bytes s).length = piece.length +
        (limit?.map (· - piece.length)).getD (R.bytes (R.read n s).2).length := by
      cases limit? with
      | none => rw [← happ, List.length_append]; rfl
      | some k =>
        have hle : piece.length ≤ n := R.length_read_le n s
        have hnk : n ≤ k := Nat.min_le_right _ _
        show k = piece.length + (k - piece.length)
        omega
    rw [hmore] at ih
    obtain ⟨rfl, hs'⟩ := Prod.mk.inj ih
    rw [hlimit, ← happ, List.take_length_add_append, List.drop_length_add_append, hs']

/-! ## Items -/

theorem readItem_count (n : Int64) (s : σ) :
    ((R.readItem (.count n) s).1, R.bytes (R.readItem (.count n) s).2) =
      Reader.read (.count n) (R.bytes s) := by
  obtain ⟨htake, hdrop⟩ := Prod.mk.inj (R.readUpTo_eq (some n.toInt.toNat) s)
  rw [Option.getD_some] at htake hdrop
  by_cases hpos : 0 < n.toInt
  · obtain ⟨k, hk⟩ : ∃ k, n.toInt.toNat = k + 1 := ⟨n.toInt.toNat - 1, by omega⟩
    have hempty : ((R.bytes s).take n.toInt.toNat).isEmpty = (R.bytes s).isEmpty := by
      cases R.bytes s with
      | nil => rw [List.take_nil]
      | cons b rest => rw [hk, List.take_succ_cons]; rfl
    simp only [readItem, Reader.read, if_pos hpos, htake, hdrop, hempty]
    cases R.bytes s with
    | nil => rw [List.drop_nil]; rfl
    | cons b rest => rfl
  · have hk : n.toInt.toNat = 0 := by omega
    have hfill (t : σ) : (R.fill t).1.isEmpty = (R.bytes t).isEmpty := by
      rw [Bool.eq_iff_iff, List.isEmpty_iff, List.isEmpty_iff, R.fill_eq_nil_iff]
    rw [hk] at htake hdrop
    simp only [readItem, Reader.read, if_neg hpos, hk, hfill, R.bytes_fill, htake, hdrop,
      List.take_zero, List.drop_zero]
    split <;> rfl

theorem readItem_line (keepBreak : Bool) (s : σ) :
    ((R.readItem (.line keepBreak) s).1, R.bytes (R.readItem (.line keepBreak) s).2) =
      Reader.read (.line keepBreak) (R.bytes s) := by
  obtain ⟨hline, hrest⟩ := Prod.mk.inj (R.readUntil_eq s)
  simp only [readItem, Reader.read, hline, hrest, Reader.isEmpty_splitLine]
  by_cases hb : R.bytes s = []
  · simp [hb, splitLine]
  · simp [hb]

theorem readItem_all (s : σ) :
    ((R.readItem .all s).1, R.bytes (R.readItem .all s).2) = Reader.read .all (R.bytes s) := by
  obtain ⟨htake, hdrop⟩ := Prod.mk.inj (R.readUpTo_eq none s)
  rw [Option.getD_none] at htake hdrop
  simp only [readItem, Reader.read, htake, hdrop, List.take_length, List.drop_length]

theorem readItem_number (s : σ) :
    ((R.readItem .number s).1, R.bytes (R.readItem .number s).2) =
      Reader.read .number (R.bytes s) := by
  obtain ⟨-, hblank⟩ := Prod.mk.inj (R.readWhile_eq isAsciiBlank s)
  let s₁ := (R.fill (R.readWhile isAsciiBlank s).2).2
  have hs₁ : R.bytes s₁ = (R.bytes s).dropWhile isAsciiBlank := by
    rw [R.bytes_fill, hblank]
  have hfill : (R.fill (R.readWhile isAsciiBlank s).2).1.isEmpty =
      ((R.bytes s).dropWhile isAsciiBlank).isEmpty := by
    rw [Bool.eq_iff_iff, List.isEmpty_iff, List.isEmpty_iff, R.fill_eq_nil_iff, hblank]
  obtain ⟨htoken, hrest⟩ := Prod.mk.inj (R.readWhile_eq Reader.isNumberByte s₁)
  rw [hs₁] at htoken hrest
  simp only [readItem, Reader.read, hfill]
  split
  · rw [hs₁]
  · rw [htoken, hrest]

/-- **An item does not depend on the pieces**: it is the one that all the bytes have in front. -/
theorem readItem_eq (format : ReadFormat) (s : σ) :
    ((R.readItem format s).1, R.bytes (R.readItem format s).2) =
      Reader.read format (R.bytes s) := by
  cases format with
  | count n => exact R.readItem_count n s
  | line keepBreak => exact R.readItem_line keepBreak s
  | all => exact R.readItem_all s
  | number => exact R.readItem_number s

/-- The process reads as if all the bytes were at hand. -/
theorem inMemory_readItem (format : ReadFormat) (input : Bytes) :
    inMemory.readItem format input = Reader.read format input :=
  inMemory.readItem_eq format input

end BufferedReader
end ScriptShell
