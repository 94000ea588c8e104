import Mathlib.Data.List.TakeWhile
import ScriptShell.Proofs.BufferedReads

/-! # What the items of an input are

`Reads` says of each format, without any algorithm, which bytes it takes from the front of what is
left and what it gives for them; `Reader.read` does just that (`read_iff`), and so does a reader
however it cuts its bytes into pieces (`BufferedReader.readItem_eq`).  A list of formats is served
in order up to the first one that gives nothing (`ReadsAll`), and requests are served one after the
other (`Served`), so the bytes taken by all of them, put one behind the other, are the front of the
input (`BufferedReader.serve_sound`).
-/

namespace ScriptShell

/-! ## What a format takes and gives -/

/-- The longest run of bytes of a kind in front of others. -/
structure IsRun (p : UInt8 → Bool) (run rest : Bytes) : Prop where
  /-- They are all of the kind. -/
  all : ∀ b ∈ run, p b = true
  /-- The byte behind them, if there is one, is not. -/
  next : ∀ b, rest.head? = some b → p b = false

/-- What a format takes from the front of an input, what it gives, and what it leaves. -/
inductive Reads : ReadFormat → Bytes → ReadItem → Bytes → Prop where
  /-- So many bytes, or all if there are fewer.  None are taken for a number below one. -/
  | count {n : Int64} {taken rest : Bytes} (left : taken ++ rest ≠ [])
      (length : taken.length = min n.toInt.toNat (taken ++ rest).length) :
      Reads (.count n) taken (.bytes taken) rest
  /-- At the end of the input there are no bytes, whatever their number. -/
  | countEnded {n : Int64} : Reads (.count n) [] .absent []
  /-- A line and its break, which the item may lack. -/
  | line {keepBreak : Bool} {text rest : Bytes} (first : 10 ∉ text) :
      Reads (.line keepBreak) (text ++ [10]) (.bytes (if keepBreak then text ++ [10] else text)) rest
  /-- A last line without a break. -/
  | lastLine {keepBreak : Bool} {text : Bytes} (left : text ≠ []) (unbroken : 10 ∉ text) :
      Reads (.line keepBreak) text (.bytes text) []
  /-- At the end of the input there is no line. -/
  | lineEnded {keepBreak : Bool} : Reads (.line keepBreak) [] .absent []
  /-- All that is left. -/
  | all {taken : Bytes} : Reads .all taken (.bytes taken) []
  /-- Blanks and the longest run of number bytes behind them, for the number that these write. -/
  | number {blanks token rest : Bytes} (skipped : IsRun isAsciiBlank blanks (token ++ rest))
      (left : token ++ rest ≠ []) (longest : IsRun Reader.isNumberByte token rest) :
      Reads .number (blanks ++ token) (Reader.numberOf token) rest
  /-- Blanks with nothing behind them. -/
  | numberEnded {blanks : Bytes} (blank : ∀ b ∈ blanks, isAsciiBlank b = true) :
      Reads .number blanks .absent []

namespace IsRun

variable {p : UInt8 → Bool} {run rest : Bytes}

theorem takeWhile (h : IsRun p run rest) : (run ++ rest).takeWhile p = run := by
  rw [List.takeWhile_append_of_pos h.all]
  cases rest with
  | nil => exact List.append_nil run
  | cons b rest =>
    have hb : ¬ p b = true := by simp [h.next b rfl]
    rw [List.takeWhile_cons_of_neg hb, List.append_nil]

theorem dropWhile (h : IsRun p run rest) : (run ++ rest).dropWhile p = rest := by
  rw [List.dropWhile_append_of_pos h.all]
  cases rest with
  | nil => rfl
  | cons b rest =>
    have hb : ¬ p b = true := by simp [h.next b rfl]
    rw [List.dropWhile_cons_of_neg hb]

/-- Every input begins with a run, which may be empty. -/
theorem of_input (p : UInt8 → Bool) (input : Bytes) :
    IsRun p (input.takeWhile p) (input.dropWhile p) := by
  refine ⟨fun b hb => List.mem_takeWhile_imp hb, fun b hb => ?_⟩
  have hhead := List.head?_dropWhile_not p input
  rw [hb] at hhead
  exact hhead

end IsRun

namespace Reader

theorem chomp_append_break (text : Bytes) : chomp (text ++ [10]) = text := by
  simp [chomp]

theorem chomp_of_not_mem {text : Bytes} (h : 10 ∉ text) : chomp text = text := by
  have hlast : text.getLast? ≠ some 10 := fun he => h (List.mem_of_getLast? he)
  rw [chomp, if_neg hlast]

theorem splitLine_of_not_mem {text : Bytes} (h : 10 ∉ text) : splitLine text = (text, []) := by
  have hs := splitLine_append h []
  rw [List.append_nil] at hs
  rw [hs, splitLine, List.append_nil]

theorem read_count (n : Int64) {input : Bytes} (left : input ≠ []) :
    read (.count n) input =
      (.bytes (input.take n.toInt.toNat), input.drop n.toInt.toNat) := by
  have hk : (if 0 < n.toInt then n.toInt.toNat else 0) = n.toInt.toNat := by
    split <;> omega
  simp only [read, hk, List.isEmpty_iff, left, if_false]

theorem read_line (keepBreak : Bool) {input : Bytes} (left : input ≠ []) :
    read (.line keepBreak) input =
      (.bytes (if keepBreak then (splitLine input).1 else chomp (splitLine input).1),
        (splitLine input).2) := by
  simp only [read, List.isEmpty_iff, left, if_false]

theorem read_number {blanks input : Bytes} (skipped : IsRun isAsciiBlank blanks input)
    (left : input ≠ []) :
    read .number (blanks ++ input) =
      (numberOf (input.takeWhile isNumberByte), input.dropWhile isNumberByte) := by
  simp only [read, skipped.dropWhile, List.isEmpty_iff, left, if_false]

/-- What a format takes and gives is what it should. -/
theorem read_sound (format : ReadFormat) (input : Bytes) :
    ∃ taken, taken ++ (read format input).2 = input ∧
      Reads format taken (read format input).1 (read format input).2 := by
  cases format with
  | count n =>
    by_cases left : input = []
    · exact left ▸ ⟨[], rfl, .countEnded⟩
    · have hsplit := List.take_append_drop n.toInt.toNat input
      rw [read_count n left]
      refine ⟨input.take n.toInt.toNat, hsplit, .count (by rwa [hsplit]) ?_⟩
      rw [hsplit, List.length_take]
  | line keepBreak =>
    by_cases left : input = []
    · exact left ▸ ⟨[], rfl, .lineEnded⟩
    · rw [read_line keepBreak left]
      by_cases hbreak : 10 ∈ input
      · obtain ⟨text, rest, rfl, first⟩ := List.eq_append_cons_of_mem hbreak
        rw [← List.singleton_append, ← List.append_assoc, splitLine_append_break first,
          chomp_append_break]
        exact ⟨text ++ [10], rfl, .line first⟩
      · rw [splitLine_of_not_mem hbreak, chomp_of_not_mem hbreak, ite_self]
        exact ⟨input, List.append_nil input, .lastLine left hbreak⟩
  | all => exact ⟨input, List.append_nil input, .all⟩
  | number =>
    -- the blanks and the number are both the longest runs of their bytes
    have skipped := IsRun.of_input isAsciiBlank input
    have hsplit : input.takeWhile isAsciiBlank ++ input.dropWhile isAsciiBlank = input :=
      List.takeWhile_append_dropWhile
    generalize input.takeWhile isAsciiBlank = blanks at skipped hsplit
    generalize input.dropWhile isAsciiBlank = behind at skipped hsplit
    subst hsplit
    by_cases left : behind = []
    · subst left
      have hread : read .number (blanks ++ []) = (.absent, []) := by
        simp only [read, skipped.dropWhile, List.isEmpty_nil, if_true]
      rw [hread]
      exact ⟨blanks, rfl, .numberEnded skipped.all⟩
    · have hrun : behind.takeWhile isNumberByte ++ behind.dropWhile isNumberByte = behind :=
        List.takeWhile_append_dropWhile
      rw [read_number skipped left]
      refine ⟨blanks ++ behind.takeWhile isNumberByte, ?_, .number ?_ ?_ (.of_input _ _)⟩
      · rw [List.append_assoc, hrun]
      · rwa [hrun]
      · rwa [hrun]

end Reader

/-- A format does nothing else than it should. -/
theorem Reads.read_eq {format : ReadFormat} {taken rest : Bytes} {item : ReadItem}
    (h : Reads format taken item rest) : Reader.read format (taken ++ rest) = (item, rest) := by
  cases h with
  | @count n taken rest left length =>
    rw [List.length_append] at length
    have hk : taken.length ≤ n.toInt.toNat := by omega
    have hend : n.toInt.toNat - taken.length = 0 ∨ rest.length = 0 := by omega
    rw [Reader.read_count n left, List.take_append, List.drop_append, List.take_of_length_le hk,
      List.drop_of_length_le hk]
    rcases hend with hall | hnil
    · rw [hall, List.take_zero, List.drop_zero, List.append_nil, List.nil_append]
    · rw [List.length_eq_zero_iff.1 hnil, List.take_nil, List.drop_nil, List.append_nil,
        List.append_nil]
  | countEnded => rfl
  | @line keepBreak text rest first =>
    rw [Reader.read_line keepBreak (by simp), Reader.splitLine_append_break first,
      Reader.chomp_append_break]
  | lastLine left unbroken =>
    rw [List.append_nil, Reader.read_line _ left, Reader.splitLine_of_not_mem unbroken,
      Reader.chomp_of_not_mem unbroken, ite_self]
  | lineEnded => rfl
  | all => rw [List.append_nil]; rfl
  | number skipped left longest =>
    rw [List.append_assoc, Reader.read_number skipped left, longest.takeWhile, longest.dropWhile]
  | numberEnded blank =>
    have hdrop : taken.dropWhile isAsciiBlank = [] := List.dropWhile_eq_nil_iff.2 blank
    simp only [Reader.read, List.append_nil, hdrop, List.isEmpty_nil, if_true]

/-- **What a format does** to an input. -/
theorem read_iff {format : ReadFormat} {input rest : Bytes} {item : ReadItem} :
    Reader.read format input = (item, rest) ↔
      ∃ taken, taken ++ rest = input ∧ Reads format taken item rest := by
  constructor
  · intro h
    have hsound := Reader.read_sound format input
    rwa [h] at hsound
  · rintro ⟨taken, rfl, h⟩
    exact h.read_eq

/-! ## Lists of formats -/

/-- What a list of formats takes from an input, what it gives, and what it leaves: its members are
served in order, up to the first one that gives nothing. -/
inductive ReadsAll : List ReadFormat → Bytes → List ReadItem → Bytes → Prop where
  /-- Nothing is asked for. -/
  | nil {rest : Bytes} : ReadsAll [] [] [] rest
  /-- The first format gives nothing, and the others are not looked at. -/
  | ended {format : ReadFormat} {formats : List ReadFormat} {taken rest : Bytes}
      (first : Reads format taken .absent rest) :
      ReadsAll (format :: formats) taken [.absent] rest
  /-- The first format gives something, and the others get what it leaves. -/
  | next {format : ReadFormat} {formats : List ReadFormat} {taken taken' rest : Bytes}
      {item : ReadItem} {items : List ReadItem} (first : Reads format taken item (taken' ++ rest))
      (present : item ≠ .absent) (others : ReadsAll formats taken' items rest) :
      ReadsAll (format :: formats) (taken ++ taken') (item :: items) rest

theorem readAll_cons_of_absent {format : ReadFormat} (formats : List ReadFormat)
    {input rest : Bytes} (h : Reader.read format input = (.absent, rest)) :
    Reader.readAll (format :: formats) input = ([.absent], rest) := by
  rw [Reader.readAll, h]

theorem readAll_cons_of_ne {format : ReadFormat} (formats : List ReadFormat)
    {input rest : Bytes} {item : ReadItem} (h : Reader.read format input = (item, rest))
    (present : item ≠ .absent) :
    Reader.readAll (format :: formats) input =
      (item :: (Reader.readAll formats rest).1, (Reader.readAll formats rest).2) := by
  rw [Reader.readAll, h]
  cases item with
  | absent => exact absurd rfl present
  | _ => rfl

theorem readAll_sound (formats : List ReadFormat) (input : Bytes) :
    ∃ taken, taken ++ (Reader.readAll formats input).2 = input ∧
      ReadsAll formats taken (Reader.readAll formats input).1
        (Reader.readAll formats input).2 := by
  induction formats generalizing input with
  | nil => exact ⟨[], rfl, .nil⟩
  | cons format formats ih =>
    obtain ⟨taken, hsplit, first⟩ := Reader.read_sound format input
    cases hr : Reader.read format input with
    | mk item rest =>
      rw [hr] at hsplit first
      by_cases present : item = .absent
      · subst present
        rw [readAll_cons_of_absent formats hr]
        exact ⟨taken, hsplit, .ended first⟩
      · obtain ⟨taken', hsplit', others⟩ := ih rest
        rw [readAll_cons_of_ne formats hr present]
        rw [← hsplit'] at hsplit first
        refine ⟨taken ++ taken', ?_, .next first present others⟩
        rw [List.append_assoc]
        exact hsplit

/-! ## Requests -/

/-- What is asked of an input at once. -/
inductive InputRequest where
  /-- A line, for the prompt. -/
  | prompt
  /-- Items of the given formats, for a guest. -/
  | guest (formats : List ReadFormat)

/-- Its formats; a guest that names none asks for a line. -/
def InputRequest.formats : InputRequest → List ReadFormat
  | prompt => [.line true]
  | guest [] => [.line false]
  | guest (format :: formats) => format :: formats

/-- What requests take from an input, one after the other, what they are answered, and what they
leave. -/
inductive Served : List InputRequest → List Bytes → List (List ReadItem) → Bytes → Prop where
  /-- There are no more requests. -/
  | nil {rest : Bytes} : Served [] [] [] rest
  /-- A request, and others for what it leaves. -/
  | cons {q : InputRequest} {qs : List InputRequest} {taken rest : Bytes} {takens : List Bytes}
      {items : List ReadItem} {answers : List (List ReadItem)}
      (first : ReadsAll q.formats taken items (takens.flatten ++ rest))
      (others : Served qs takens answers rest) :
      Served (q :: qs) (taken :: takens) (items :: answers) rest

namespace BufferedReader

variable {σ : Type} (R : BufferedReader σ)

/-- The items of several formats in order, up to the first one that gives nothing. -/
def readItems : List ReadFormat → σ → List ReadItem × σ
  | [], s => ([], s)
  | f :: fs, s =>
    match R.readItem f s with
    | (.absent, s) => ([.absent], s)
    | (item, s) =>
      let (items, s) := readItems fs s
      (item :: items, s)

/-- The answers to several requests in order. -/
def serve : List InputRequest → σ → List (List ReadItem) × σ
  | [], s => ([], s)
  | q :: qs, s =>
    let (items, s) := R.readItems q.formats s
    let (answers, s) := serve qs s
    (items :: answers, s)

/-- The items do not depend on the pieces. -/
theorem readItems_eq (formats : List ReadFormat) (s : σ) :
    ((R.readItems formats s).1, R.bytes (R.readItems formats s).2) =
      Reader.readAll formats (R.bytes s) := by
  induction formats generalizing s with
  | nil => rfl
  | cons format formats ih =>
    have hitem := R.readItem_eq format s
    cases hr : R.readItem format s with
    | mk item s' =>
      rw [hr] at hitem
      cases item with
      | absent =>
        rw [readAll_cons_of_absent formats hitem.symm, readItems, hr]
      | _ =>
        rw [readAll_cons_of_ne formats hitem.symm ReadItem.noConfusion, readItems, hr, ← ih]

theorem serve_sound (requests : List InputRequest) (s : σ) :
    ∃ takens, takens.flatten ++ R.bytes (R.serve requests s).2 = R.bytes s ∧
      Served requests takens (R.serve requests s).1 (R.bytes (R.serve requests s).2) := by
  induction requests generalizing s with
  | nil => exact ⟨[], rfl, .nil⟩
  | cons q qs ih =>
    obtain ⟨takens, hsplit', others⟩ := ih (R.readItems q.formats s).2
    obtain ⟨taken, hsplit, first⟩ := readAll_sound q.formats (R.bytes s)
    rw [← R.readItems_eq, ← hsplit'] at first hsplit
    refine ⟨taken :: takens, ?_, .cons first others⟩
    rw [List.flatten_cons, List.append_assoc]
    exact hsplit

/-- Readers with the same bytes give the same answers. -/
theorem serve_congr {τ : Type} (R' : BufferedReader τ) {s : σ} {s' : τ}
    (h : R'.bytes s' = R.bytes s) (requests : List InputRequest) :
    (R'.serve requests s').1 = (R.serve requests s).1 ∧
      R'.bytes (R'.serve requests s').2 = R.bytes (R.serve requests s).2 := by
  induction requests generalizing s s' with
  | nil => exact ⟨rfl, h⟩
  | cons q qs ih =>
    have heq := (R'.readItems_eq q.formats s').trans
      ((congrArg _ h).trans (R.readItems_eq q.formats s).symm)
    obtain ⟨hitems, hrest⟩ := Prod.mk.inj heq
    obtain ⟨hanswers, hend⟩ := ih hrest
    exact ⟨congrArg₂ _ hitems hanswers, hend⟩

end BufferedReader

end ScriptShell
