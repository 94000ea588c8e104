import ScriptShell.Reader

/-! # Buffered reading

An input does not show all that is left of it: it has some bytes at hand, as many as it likes, and
gets others when these are used up.  `BufferedReader` is what may be relied on however the bytes are
cut up, and an item of each format is put together from such pieces: a line and a number by looking
at the bytes at hand and taking some of them away, a number of bytes and the rest of the input by
asking for more until there is enough or nothing comes. -/

namespace ScriptShell

/-- Something that hands out bytes piece by piece.  How long the pieces are is up to it. -/
structure BufferedReader (σ : Type) where
  /-- All that is left. -/
  bytes : σ → Bytes
  /-- The bytes at hand; if there were none, others have been fetched. -/
  fill : σ → Bytes × σ
  /-- Takes away so many of the bytes at hand. -/
  consume : Nat → σ → σ
  /-- Hands out some bytes, so many at most. -/
  read : Nat → σ → Bytes × σ
  /-- The bytes at hand are the next ones. -/
  fill_isPrefix : ∀ s, (fill s).1 <+: bytes s
  /-- As long as something is left there is something at hand. -/
  fill_ne_nil : ∀ s, bytes s ≠ [] → (fill s).1 ≠ []
  /-- To look takes nothing away. -/
  bytes_fill : ∀ s, bytes (fill s).2 = bytes s
  /-- What is taken away is gone, and nothing else. -/
  bytes_consume : ∀ s n, n ≤ (fill s).1.length → bytes (consume n (fill s).2) = (bytes s).drop n
  /-- What is handed out are the next bytes, and they are gone. -/
  read_append : ∀ n s, (read n s).1 ++ bytes (read n s).2 = bytes s
  /-- No more is handed out than was asked for. -/
  length_read_le : ∀ n s, (read n s).1.length ≤ n
  /-- As long as something is left, something is handed out. -/
  read_ne_nil : ∀ n s, 0 < n → bytes s ≠ [] → (read n s).1 ≠ []

namespace BufferedReader

/-- Bytes in memory, of which so many are at hand at a time. -/
def ofBytes (size : Nat) (size_pos : 0 < size) : BufferedReader Bytes where
  bytes s := s
  fill s := (s.take size, s)
  consume n s := s.drop n
  read n s := (s.take (min n size), s.drop (min n size))
  fill_isPrefix s := List.take_prefix _ _
  fill_ne_nil s hs := by simp [hs, Nat.ne_of_gt size_pos]
  bytes_fill _ := rfl
  bytes_consume _ _ _ := rfl
  read_append n s := List.take_append_drop _ _
  length_read_le n s := by
    rw [List.length_take]
    exact Nat.le_trans (Nat.min_le_left _ _) (Nat.min_le_left _ _)
  read_ne_nil n s hn hs := by
    have hmin : min n size ≠ 0 := Nat.ne_of_gt (Nat.lt_min.2 ⟨hn, size_pos⟩)
    simp [hs, hmin]

/-- How many bytes an input has at hand. -/
def bufferSize : Nat := 8192

/-- The reader of the process's inputs. -/
def inMemory : BufferedReader Bytes := ofBytes bufferSize (by decide)

variable {σ : Type} (R : BufferedReader σ)

theorem length_bytes_consume_lt {s : σ} {n : Nat} (hn : 0 < n) (hle : n ≤ (R.fill s).1.length) :
    (R.bytes (R.consume n (R.fill s).2)).length < (R.bytes s).length := by
  have hlen := (R.fill_isPrefix s).length_le
  rw [R.bytes_consume s n hle, List.length_drop]
  omega

theorem length_bytes_read_lt {n : Nat} {s : σ} (hne : (R.read n s).1 ≠ []) :
    (R.bytes (R.read n s).2).length < (R.bytes s).length := by
  have hpos := List.length_pos_iff.2 hne
  rw [← R.read_append n s, List.length_append]
  omega

/-! ## Pieces put together -/

/-- Takes all up to the next byte like this and that one too, or all that is left if there is
none. -/
def readUntil (stop : UInt8) (s : σ) : Bytes × σ :=
  let atHand := (R.fill s).1
  match atHand.idxOf? stop with
  | some i => (atHand.take (i + 1), R.consume (i + 1) (R.fill s).2)
  | none =>
    if atHand = [] then ([], (R.fill s).2)
    else
      let (more, s) := readUntil stop (R.consume atHand.length (R.fill s).2)
      (atHand ++ more, s)
termination_by (R.bytes s).length
decreasing_by exact R.length_bytes_consume_lt (List.length_pos_iff.2 ‹_›) (Nat.le_refl _)

/-- Takes bytes one by one as long as they are of a kind. -/
def readWhile (p : UInt8 → Bool) (s : σ) : Bytes × σ :=
  match _hfill : (R.fill s).1 with
  | [] => ([], (R.fill s).2)
  | b :: _ =>
    if p b then
      let (more, s) := readWhile p (R.consume 1 (R.fill s).2)
      (b :: more, s)
    else ([], (R.fill s).2)
termination_by (R.bytes s).length
decreasing_by exact R.length_bytes_consume_lt Nat.one_pos (by rw [_hfill]; exact Nat.succ_pos _)

/-- How many bytes are asked for at a time. -/
def requestSize : Nat := 8192

/-- Takes so many bytes, or all if there is no limit, as far as they are there. -/
def readUpTo (limit? : Option Nat) (s : σ) : Bytes × σ :=
  if limit? = some 0 then ([], s)
  else
    let n := min requestSize (limit?.getD requestSize)
    let piece := (R.read n s).1
    if piece = [] then ([], (R.read n s).2)
    else
      let (more, s) := readUpTo (limit?.map (· - piece.length)) (R.read n s).2
      (piece ++ more, s)
termination_by (R.bytes s).length
decreasing_by exact R.length_bytes_read_lt ‹_›

/-! ## Items -/

/-- One item. -/
def readItem (format : ReadFormat) (s : σ) : ReadItem × σ :=
  match format with
  | .count n =>
    let (b, s) := R.readUpTo (some n.toInt.toNat) s
    if 0 < n.toInt then (if b.isEmpty then .absent else .bytes b, s)
    else
      let (atHand, s) := R.fill s
      -- nothing was asked for, so only a look tells whether the input has ended
      (if atHand.isEmpty then .absent else .bytes b, s)
  | .line keepBreak =>
    let (line, s) := R.readUntil 10 s
    (if line.isEmpty then .absent else .bytes (if keepBreak then line else Reader.chomp line), s)
  | .all =>
    let (b, s) := R.readUpTo none s
    (.bytes b, s)
  | .number =>
    let (_, s) := R.readWhile isAsciiBlank s
    let (atHand, s) := R.fill s
    if atHand.isEmpty then (.absent, s)
    else
      let (token, s) := R.readWhile Reader.isNumberByte s
      (Reader.numberOf token, s)

end BufferedReader
end ScriptShell
