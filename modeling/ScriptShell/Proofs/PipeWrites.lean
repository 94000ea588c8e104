import Mathlib.Data.List.Infix
import Mathlib.Data.List.Induction
import ScriptShell.Proofs.Runs

/-! # What a pipe keeps of the writes to it

All handles of an output write to one pipe, so what the pipe holds depends on the sequence of the
writes and on nothing else that happens in between (`World.output_answerAll`).  For a limited pipe
that sequence is summed up in one equation, `Pipe.writeAll_limited`: with `total` the number of
bytes offered,

* up to `limit` bytes everything is kept;
* beyond it the first `limit` bytes are kept, and the marker stands behind them if one write went
  across the limit;
* if the writes came to exactly `limit` bytes at some moment, no write goes across it any more.
  Whatever comes then is dropped without a marker, and even an empty write counts as one that was
  cut.

Of this the first bytes are always kept (`World.pipe_keeps_first`), whatever the limit and the lengths
of the writes, and every write is reported as taken whole (`Pipe.accept_eq`).

The last case is where `Pipe.marker` and `Pipe.truncated` do not tell what was lost
(`World.boundary_unmarked`, `World.empty_write_truncates`).
-/

namespace ScriptShell

namespace Pipe

/-- The pipe after several writes. -/
def writeAll (p : Pipe) (writes : List Bytes) : Pipe := writes.foldl write p

/-- Some of the writes, from the first on, offer exactly `limit` bytes between them. -/
def FillsExactly (limit : Nat) (writes : List Bytes) : Prop :=
  ∃ earlier ∈ writes.inits, earlier.flatten.length = limit

/-- Some write comes when exactly `limit` bytes were offered before. -/
def WritesToFull (limit : Nat) (writes : List Bytes) : Prop :=
  ∃ earlier ∈ writes.inits, earlier ≠ writes ∧ earlier.flatten.length = limit

instance (limit : Nat) (writes : List Bytes) : Decidable (FillsExactly limit writes) :=
  inferInstanceAs (Decidable (∃ earlier ∈ writes.inits, earlier.flatten.length = limit))

instance (limit : Nat) (writes : List Bytes) : Decidable (WritesToFull limit writes) :=
  inferInstanceAs
    (Decidable (∃ earlier ∈ writes.inits, earlier ≠ writes ∧ earlier.flatten.length = limit))

/-- What a pipe of this limit keeps. -/
def kept (limit : Nat) (writes : List Bytes) : Bytes :=
  if writes.flatten.length ≤ limit then writes.flatten
  else writes.flatten.take limit ++ if FillsExactly limit writes then [] else marker

/-! ## One write -/

section Write

variable {p : Pipe} {limit : Nat} {data : Bytes}

theorem write_unlimited (h : p.limit? = none) :
    p.write data = { p with contents := p.contents ++ data } := by
  simp only [write, accept, h]

/-- A pipe that is full drops the write, an empty one as well, and says so. -/
theorem write_full (h : p.limit? = some limit) (hfull : limit ≤ p.contents.length) :
    p.write data = { p with truncated := true } := by
  have hroom : limit - p.contents.length = 0 := by omega
  simp only [write, accept, h, hroom, if_true]

theorem write_fits (h : p.limit? = some limit) (hroom : p.contents.length < limit)
    (hfits : p.contents.length + data.length ≤ limit) :
    p.write data = { p with contents := p.contents ++ data } := by
  have hne : limit - p.contents.length ≠ 0 := by omega
  have hmin : min data.length (limit - p.contents.length) = data.length := by omega
  simp only [write, accept, h, hne, hmin, if_false, lt_irrefl, List.take_length]

theorem write_across (h : p.limit? = some limit) (hroom : p.contents.length < limit)
    (hcut : limit < p.contents.length + data.length) :
    p.write data =
      { p with
        contents := (p.contents ++ data).take limit ++ marker
        truncated := true } := by
  have hne : limit - p.contents.length ≠ 0 := by omega
  have hmin : min data.length (limit - p.contents.length) = limit - p.contents.length := by omega
  have hlt : limit - p.contents.length < data.length := by omega
  have htake : (p.contents ++ data).take limit
      = p.contents ++ data.take (limit - p.contents.length) := by
    rw [List.take_append, List.take_of_length_le hroom.le]
  simp only [write, accept, h, hne, hmin, hlt, if_false, if_true, htake]

/-- Every write is reported as taken whole, also where bytes of it are dropped. -/
theorem accept_eq (p : Pipe) (data : Bytes) : p.accept data = (data.length, p.write data) := by
  refine Prod.ext ?_ rfl
  unfold accept
  cases p.limit? with
  | none => rfl
  | some limit =>
    dsimp only
    split
    · rfl
    · split <;> rfl

end Write

/-! ## Sequences of writes -/

section Sequence

variable {limit : Nat} {writes : List Bytes} {data : Bytes}

theorem writeAll_append (p : Pipe) (earlier later : List Bytes) :
    p.writeAll (earlier ++ later) = (p.writeAll earlier).writeAll later :=
  List.foldl_append

theorem writeAll_concat (p : Pipe) (writes : List Bytes) (data : Bytes) :
    p.writeAll (writes ++ [data]) = (p.writeAll writes).write data :=
  p.writeAll_append writes [data]

theorem length_concat (writes : List Bytes) (data : Bytes) :
    (writes ++ [data]).flatten.length = writes.flatten.length + data.length := by
  simp only [List.flatten_append, List.length_append, List.flatten_singleton]

/-- The first writes offer no more than all of them. -/
theorem length_le_of_mem_inits {earlier : List Bytes} (h : earlier ∈ writes.inits) :
    earlier.flatten.length ≤ writes.flatten.length := by
  obtain ⟨later, rfl⟩ := (List.mem_inits _ _).mp h
  rw [List.flatten_append, List.length_append]
  exact Nat.le_add_right _ _

theorem mem_inits_concat {earlier : List Bytes} :
    earlier ∈ (writes ++ [data]).inits ↔ earlier ∈ writes.inits ∨ earlier = writes ++ [data] := by
  rw [List.mem_inits, List.mem_inits, List.prefix_concat_iff]
  exact or_comm

theorem fillsExactly_concat :
    FillsExactly limit (writes ++ [data]) ↔
      FillsExactly limit writes ∨ (writes ++ [data]).flatten.length = limit := by
  simp only [FillsExactly, mem_inits_concat]
  constructor
  · rintro ⟨earlier, hmem | rfl, hlen⟩
    · exact .inl ⟨earlier, hmem, hlen⟩
    · exact .inr hlen
  · rintro (⟨earlier, hmem, hlen⟩ | hlen)
    · exact ⟨earlier, .inl hmem, hlen⟩
    · exact ⟨_, .inr rfl, hlen⟩

/-- One write more comes to a full pipe if an earlier one filled it exactly. -/
theorem writesToFull_concat :
    WritesToFull limit (writes ++ [data]) ↔ FillsExactly limit writes := by
  simp only [WritesToFull, FillsExactly, mem_inits_concat]
  constructor
  · rintro ⟨earlier, hmem | rfl, hne, hlen⟩
    · exact ⟨earlier, hmem, hlen⟩
    · exact absurd rfl hne
  · rintro ⟨earlier, hmem, hlen⟩
    refine ⟨earlier, .inl hmem, ?_, hlen⟩
    rintro rfl
    have := ((List.mem_inits _ _).mp hmem).length_le
    rw [List.length_append, List.length_singleton] at this
    omega

theorem not_fillsExactly (h : writes.flatten.length < limit) : ¬ FillsExactly limit writes := by
  rintro ⟨earlier, hmem, hlen⟩
  have := length_le_of_mem_inits hmem
  omega

theorem fillsExactly_self (h : writes.flatten.length = limit) : FillsExactly limit writes :=
  ⟨writes, (List.mem_inits _ _).mpr List.prefix_rfl, h⟩

theorem WritesToFull.fillsExactly (h : WritesToFull limit writes) : FillsExactly limit writes := by
  obtain ⟨earlier, hmem, -, hlen⟩ := h
  exact ⟨earlier, hmem, hlen⟩

theorem kept_of_le (h : writes.flatten.length ≤ limit) : kept limit writes = writes.flatten :=
  if_pos h

theorem kept_of_lt (h : limit < writes.flatten.length) :
    kept limit writes =
      writes.flatten.take limit ++ if FillsExactly limit writes then [] else marker :=
  if_neg (by omega)

/-- Nothing is kept short: what was offered is there, up to the limit. -/
theorem min_le_length_kept (limit : Nat) (writes : List Bytes) :
    min limit writes.flatten.length ≤ (kept limit writes).length := by
  rcases Nat.lt_or_ge limit writes.flatten.length with h | h
  · rw [kept_of_lt h, List.length_append, List.length_take]
    omega
  · rw [kept_of_le h]
    omega

/-- The pipe takes a write whole as long as the limit is not passed. -/
theorem kept_concat_fits (h : writes.flatten.length + data.length ≤ limit) :
    kept limit (writes ++ [data]) = kept limit writes ++ data := by
  rw [kept_of_le (by rw [length_concat]; exact h), kept_of_le (by omega), List.flatten_append,
    List.flatten_singleton]

/-- The write that goes across the limit is cut and marked. -/
theorem kept_concat_across (hroom : writes.flatten.length < limit)
    (hcut : limit < writes.flatten.length + data.length) :
    kept limit (writes ++ [data]) = (kept limit writes ++ data).take limit ++ marker := by
  have hlen : limit < (writes ++ [data]).flatten.length := by rw [length_concat]; exact hcut
  have hnot : ¬ FillsExactly limit (writes ++ [data]) := by
    rw [fillsExactly_concat]
    rintro (hfills | heq)
    · exact not_fillsExactly hroom hfills
    · omega
  rw [kept_of_lt hlen, kept_of_le hroom.le, if_neg hnot, List.flatten_append,
    List.flatten_singleton]

/-- Once the limit is reached, nothing changes any more. -/
theorem kept_concat_full (h : limit ≤ writes.flatten.length) :
    kept limit (writes ++ [data]) = kept limit writes := by
  have htake : (writes ++ [data]).flatten.take limit = writes.flatten.take limit := by
    rw [List.flatten_append, List.take_append_of_le_length h]
  rcases Nat.lt_or_ge limit (writes ++ [data]).flatten.length with hlen | hlen
  · rw [kept_of_lt hlen, htake]
    rcases Nat.eq_or_lt_of_le h with heq | hlt
    · have hfills : FillsExactly limit (writes ++ [data]) :=
        fillsExactly_concat.mpr (.inl (fillsExactly_self heq.symm))
      rw [if_pos hfills, kept_of_le heq.ge, List.append_nil, List.take_of_length_le heq.ge]
    · have hiff : FillsExactly limit (writes ++ [data]) ↔ FillsExactly limit writes := by
        rw [fillsExactly_concat, or_iff_left (by omega)]
      rw [kept_of_lt hlt]
      simp only [hiff]
  · have hdata : data = [] := List.eq_nil_of_length_eq_zero (by rw [length_concat] at hlen; omega)
    rw [length_concat] at hlen
    rw [kept_concat_fits (by omega), hdata, List.append_nil]

/-- What comes after the limit was reached makes no difference, however much it is. -/
theorem kept_append_full (later : List Bytes) (h : limit ≤ writes.flatten.length) :
    kept limit (writes ++ later) = kept limit writes := by
  induction later using List.reverseRecOn with
  | nil => rw [List.append_nil]
  | append_singleton later data ih =>
    have hfull : limit ≤ (writes ++ later).flatten.length := by
      rw [List.flatten_append, List.length_append]
      omega
    rw [← List.append_assoc, kept_concat_full hfull, ih]

/-- The first bytes offered, and behind them nothing or the marker. -/
theorem exists_kept_eq (limit : Nat) (writes : List Bytes) :
    ∃ behind, (behind = [] ∨ behind = marker) ∧
      kept limit writes = writes.flatten.take (min limit writes.flatten.length) ++ behind := by
  rcases Nat.lt_or_ge limit writes.flatten.length with h | h
  · rw [kept_of_lt h, min_eq_left h.le]
    refine ⟨_, ?_, rfl⟩
    split
    · exact .inl rfl
    · exact .inr rfl
  · rw [kept_of_le h, min_eq_right h]
    exact ⟨[], .inl rfl, by rw [List.take_length, List.append_nil]⟩

/-- **What a limited pipe is after any writes.** -/
theorem writeAll_limited (limit : Nat) (writes : List Bytes) :
    writeAll { limit? := some limit } writes =
      { contents := kept limit writes
        limit? := some limit
        truncated := decide (limit < writes.flatten.length ∨ WritesToFull limit writes) } := by
  -- The last write finds the pipe below, at or beyond the limit.
  induction writes using List.reverseRecOn with
  | nil => simp [writeAll, kept, WritesToFull]
  | append_singleton writes data ih =>
    rw [writeAll_concat, ih]
    simp only [writesToFull_concat, length_concat]
    rcases Nat.lt_or_ge writes.flatten.length limit with hroom | hfull
    · have hnot := not_fillsExactly hroom
      have hkept : kept limit writes = writes.flatten := kept_of_le hroom.le
      have hunmarked : ¬ (limit < writes.flatten.length ∨ WritesToFull limit writes) := by
        rintro (hlt | hto)
        · omega
        · exact hnot hto.fillsExactly
      rcases Nat.lt_or_ge limit (writes.flatten.length + data.length) with hcut | hfits
      · rw [write_across rfl (by rw [hkept]; exact hroom) (by rw [hkept]; exact hcut),
          kept_concat_across hroom hcut]
        simp only [hcut, true_or, decide_true]
      · rw [write_fits rfl (by rw [hkept]; exact hroom) (by rw [hkept]; exact hfits),
          kept_concat_fits hfits]
        simp only [hunmarked, hnot, hfits.not_gt, or_self]
    · have hlen : limit ≤ (kept limit writes).length := by
        have := min_le_length_kept limit writes
        omega
      have htold : limit < writes.flatten.length + data.length ∨ FillsExactly limit writes := by
        rcases Nat.eq_or_lt_of_le hfull with heq | hlt
        · exact .inr (fillsExactly_self heq.symm)
        · exact .inl (by omega)
      rw [write_full rfl hlen, kept_concat_full hfull]
      simp only [htold, decide_true]

/-- An unlimited pipe keeps everything. -/
theorem writeAll_unlimited (p : Pipe) (h : p.limit? = none) (writes : List Bytes) :
    p.writeAll writes = { p with contents := p.contents ++ writes.flatten } := by
  induction writes using List.reverseRecOn with
  | nil => simp only [writeAll, List.foldl_nil, List.flatten_nil, List.append_nil]
  | append_singleton writes data ih =>
    rw [writeAll_concat, ih, write_unlimited (by exact h), List.flatten_append,
      List.flatten_singleton, List.append_assoc]

end Sequence

end Pipe

/-! ## Writes among other operations -/

/-- What an operation offers to an output. -/
def Operation.offers (o : OutputRef) : Operation → List Bytes
  | .write target data => if target = o then [data] else []
  | _ => []

namespace World

variable {w : World} {o : OutputRef}

/-- The state after several operations. -/
def answerAll (w : World) (ops : List Operation) : World :=
  ops.foldl (fun w op => (w.answer op).2) w

theorem answerAll_concat (w : World) (ops : List Operation) (op : Operation) :
    w.answerAll (ops ++ [op]) = ((w.answerAll ops).answer op).2 :=
  List.foldl_concat ..

theorem output_write (w : World) (target : OutputRef) (data : Bytes)
    (h : o.id < w.outputs.size) :
    (w.write target data).output o =
      (w.output o).writeAll (Operation.offers o (.write target data)) := by
  by_cases heq : target = o
  · subst heq
    simp [write, output, Operation.offers, Pipe.writeAll, h, Array.getElem_modify_self]
  · have hid : target.id ≠ o.id := fun hid => heq (by cases target; cases o; simpa using hid)
    simp [write, output, Operation.offers, Pipe.writeAll, heq, hid, Array.getElem?_modify]

/-- An operation does to an output that exists what it offers to it. -/
theorem output_answer (w : World) (op : Operation) (h : o.id < w.outputs.size) :
    (w.answer op).2.output o = (w.output o).writeAll (op.offers o) ∧
      o.id < (w.answer op).2.outputs.size := by
  have same {w' : World} (heq : w'.outputs = w.outputs) :
      w'.output o = (w.output o).writeAll [] ∧ o.id < w'.outputs.size := by
    refine ⟨?_, heq ▸ h⟩
    simp only [output, heq, Pipe.writeAll, List.foldl_nil]
  cases op with
  | write target data =>
    refine ⟨w.output_write target data h, ?_⟩
    show o.id < (w.write target data).outputs.size
    simpa [write] using h
  | newIo input limit? =>
    refine ⟨?_, ?_⟩
    · show (w.addIo { rest := input } limit?).2.output o = _
      simp only [addIo, output, Operation.offers, Pipe.writeAll, List.foldl_nil]
      rw [Array.getElem?_push_lt (by rw [Array.size_push]; omega),
        Array.getElem_push_lt h, Array.getElem?_eq_getElem h]
    · show o.id < (w.addIo { rest := input } limit?).2.outputs.size
      simp only [addIo, Array.size_push]
      omega
  | read i format =>
    obtain ⟨_, _, heq⟩ := w.read_eq i format
    exact same (congrArg outputs heq :)
  | setProperty t key v =>
    obtain ⟨_, heq⟩ := w.updateHost_eq (t.set w.host key v)
    exact same (congrArg outputs heq :)
  | bindKey hooks key v =>
    obtain ⟨_, heq⟩ := w.updateHost_eq (w.host.bindKey hooks key v)
    exact same (congrArg outputs heq :)
  | closeSession s =>
    obtain ⟨_, _, heq⟩ := w.closeSession_eq s
    exact same (congrArg outputs heq :)
  | changeDirectory path =>
    obtain ⟨_, heq⟩ := w.changeDirectory_eq path
    exact same (congrArg outputs heq :)
  | _ => exact same rfl

/-- **A pipe depends on what was offered to it only**, whatever else happened in between. -/
theorem output_answerAll (w : World) (ops : List Operation) (h : o.id < w.outputs.size) :
    (w.answerAll ops).output o = (w.output o).writeAll (ops.flatMap (·.offers o)) ∧
      o.id < (w.answerAll ops).outputs.size := by
  induction ops using List.reverseRecOn with
  | nil => exact ⟨rfl, h⟩
  | append_singleton ops op ih =>
    obtain ⟨heq, hlt⟩ := ih
    obtain ⟨hstep, hsize⟩ := output_answer (w.answerAll ops) op hlt
    rw [answerAll_concat]
    refine ⟨?_, hsize⟩
    rw [hstep, heq, List.flatMap_append, Pipe.writeAll_append, List.flatMap_singleton]

/-- The first output of new pipes begins empty, with the limit that was asked for. -/
theorem output_addIo (w : World) (input : Input) (limit? : Option Nat) :
    (w.addIo input limit?).2.output (w.addIo input limit?).1.stdout = { limit? := limit? } ∧
      (w.addIo input limit?).1.stdout.id < (w.addIo input limit?).2.outputs.size := by
  refine ⟨?_, ?_⟩
  · simp only [addIo, output]
    rw [Array.getElem?_push, if_neg (by rw [Array.size_push]; omega), Array.getElem?_push_size]
    rfl
  · simp only [addIo, Array.size_push]
    omega

/-- A new pipe after any operations is an empty one after the writes among them. -/
theorem output_of_new (w : World) (input : Input) (limit? : Option Nat) (ops : List Operation) :
    ((w.addIo input limit?).2.answerAll ops).output (w.addIo input limit?).1.stdout =
      Pipe.writeAll { limit? := limit? }
        (ops.flatMap (·.offers (w.addIo input limit?).1.stdout)) := by
  obtain ⟨hnew, hlt⟩ := w.output_addIo input limit?
  rw [(output_answerAll _ ops hlt).1, hnew]

/-- **The contents of a limited pipe.**  As long as no more than `limit` bytes were offered, by
whichever handles, the pipe holds exactly what was written.  Beyond that it holds the first `limit`
bytes and then the marker, once, unless the writes had come to exactly `limit` bytes before: then
the pipe drops bytes and no marker says so. -/
theorem pipe_contents (w : World) (input : Input) (limit : Nat) (ops : List Operation) :
    let made := w.addIo input (some limit)
    let pipe := (made.2.answerAll ops).output made.1.stdout
    let offered := ops.flatMap (·.offers made.1.stdout)
    (offered.flatten.length ≤ limit → pipe.contents = offered.flatten) ∧
    (limit < offered.flatten.length →
      pipe.contents = offered.flatten.take limit ++
        if Pipe.FillsExactly limit offered then [] else Pipe.marker) := by
  intro made pipe offered
  have hpipe : pipe.contents = Pipe.kept limit offered := by
    simp only [pipe, made, w.output_of_new input (some limit) ops, Pipe.writeAll_limited, offered]
  rw [hpipe]
  exact ⟨Pipe.kept_of_le, Pipe.kept_of_lt⟩

/-- Three bytes fill a pipe of three bytes, and the fourth is lost without a marker. -/
theorem boundary_unmarked :
    let made := ({} : World).addIo {} (some 3)
    let ops : List Operation := [.write ⟨0⟩ [97, 98, 99], .write ⟨0⟩ [100]]
    3 < (ops.flatMap (·.offers made.1.stdout)).flatten.length ∧
      ((made.2.answerAll ops).output made.1.stdout).contents = [97, 98, 99] := by
  refine ⟨by decide, ?_⟩
  rw [(pipe_contents {} {} 3 [.write ⟨0⟩ [97, 98, 99], .write ⟨0⟩ [100]]).2 (by decide)]
  decide

/-- **A limited pipe keeps the first bytes that it is offered.**  Whichever handles the writes come
through and whatever happens between them, each of them is reported as taken whole.  The contents
are the first `limit` bytes offered, as far as so many were offered, and behind them stands nothing
or the marker, once.  From the moment when the limit is reached the contents stay as they are. -/
theorem pipe_keeps_first (w : World) (input : Input) (limit : Nat) (ops : List Operation) :
    let made := w.addIo input (some limit)
    let o := made.1.stdout
    let pipe (ops : List Operation) := (made.2.answerAll ops).output o
    let offered := (ops.flatMap (·.offers o)).flatten
    (∀ data, (pipe ops).accept data = (data.length, pipe (ops ++ [.write o data]))) ∧
    (∃ behind, (behind = [] ∨ behind = Pipe.marker) ∧
      (pipe ops).contents = offered.take (min limit offered.length) ++ behind) ∧
    (limit ≤ offered.length → ∀ later, (pipe (ops ++ later)).contents = (pipe ops).contents) := by
  intro made o pipe offered
  have hpipe (ops : List Operation) :
      (pipe ops).contents = Pipe.kept limit (ops.flatMap (·.offers o)) := by
    simp only [pipe, made, o, w.output_of_new input (some limit) ops, Pipe.writeAll_limited]
  refine ⟨fun data => ?_, ?_, fun hfull later => ?_⟩
  · have hlt : o.id < (made.2.answerAll ops).outputs.size :=
      (output_answerAll made.2 ops (w.output_addIo input (some limit)).2).2
    have hstep := (output_answer (made.2.answerAll ops) (.write o data) hlt).1
    rw [Pipe.accept_eq]
    simp only [pipe, answerAll_concat, hstep, Operation.offers, if_true, Pipe.writeAll,
      List.foldl_cons, List.foldl_nil]
  · rw [hpipe]
    exact Pipe.exists_kept_eq limit _
  · rw [hpipe, hpipe, List.flatMap_append, Pipe.kept_append_full _ hfull]

/-- Four bytes for a pipe of three: the marker stands behind the first three, and the fifth byte
changes nothing. -/
theorem cut_pipe_stays :
    let made := ({} : World).addIo {} (some 3)
    let ops : List Operation := [.write ⟨0⟩ [97, 98, 99, 100]]
    3 ≤ (ops.flatMap (·.offers made.1.stdout)).flatten.length ∧
      ((made.2.answerAll (ops ++ [.write ⟨0⟩ [101]])).output made.1.stdout).contents
        = [97, 98, 99] ++ Pipe.marker := by
  refine ⟨by decide, ?_⟩
  rw [(pipe_keeps_first {} {} 3 [.write ⟨0⟩ [97, 98, 99, 100]]).2.2 (by decide)]
  decide

/-- **When a pipe says that it was truncated.**  An unlimited pipe never does.  A limited one does
once more than `limit` bytes were offered, and also if a write of any length came when exactly
`limit` bytes had been offered: an empty one as well, with which nothing is lost. -/
theorem pipe_truncated_iff (w : World) (input : Input) (limit? : Option Nat)
    (ops : List Operation) :
    let made := w.addIo input limit?
    let offered := ops.flatMap (·.offers made.1.stdout)
    ((made.2.answerAll ops).output made.1.stdout).truncated = true ↔
      ∃ limit, limit? = some limit ∧
        (limit < offered.flatten.length ∨ Pipe.WritesToFull limit offered) := by
  intro made offered
  have hpipe := w.output_of_new input limit? ops
  cases limit? with
  | none =>
    rw [hpipe, Pipe.writeAll_unlimited _ rfl]
    simp
  | some limit =>
    rw [hpipe, Pipe.writeAll_limited]
    simp [offered, made]

/-- After an empty write a pipe of three bytes says that it was truncated, with three bytes
offered. -/
theorem empty_write_truncates :
    let made := ({} : World).addIo {} (some 3)
    let ops : List Operation := [.write ⟨0⟩ [97, 98, 99], .write ⟨0⟩ []]
    (ops.flatMap (·.offers made.1.stdout)).flatten.length = 3 ∧
      ((made.2.answerAll ops).output made.1.stdout).truncated = true :=
  ⟨by decide,
    (pipe_truncated_iff {} {} (some 3) [.write ⟨0⟩ [97, 98, 99], .write ⟨0⟩ []]).mpr
      ⟨3, rfl, .inr (by decide)⟩⟩

end World
end ScriptShell
