import Mathlib.Data.List.Forall2
import ScriptShell.Guest.Library.Streams
import ScriptShell.Proofs.InputItems
import ScriptShell.Proofs.Runs

/-! # Input is read once and in order

The prompt and the guests read from the same inputs of the process.  What the prompt reads is one
item, and what a guest reads are the items of its formats (`run_readStream`), in whatever state that
happens; so both are served as `InputItems` says, and each depends on nothing but the bytes that the
ones before it left.  Nothing else takes bytes away: `TakenFrom` holds over every single operation,
so it holds over every run (`TakenFrom.kept`).
-/

namespace ScriptShell

open Guest (Value RuntimeRef)

/-! ## Inputs of the process -/

namespace World

variable {w : World} {i : InputRef}

theorem inputs_consume (w : World) (i : InputRef) (rest : Bytes) :
    (w.consume i rest).inputs = w.inputs.setIfInBounds i.id { w.input i with rest := rest } := by
  unfold consume
  dsimp only
  split
  · rfl
  · split
    · split <;> rfl
    · rfl

/-- What is left in an input after bytes were taken from its front. -/
theorem rest_consume {rest : Bytes} (h : rest <:+ (w.input i).rest) :
    ((w.consume i rest).input i).rest = rest := by
  rw [input, inputs_consume]
  by_cases hi : i.id < w.inputs.size
  · rw [Array.getElem?_setIfInBounds_self_of_lt hi]
    rfl
  · -- an input that does not exist has nothing to give
    have hnone : w.input i = {} := by
      rw [input, Array.getElem?_eq_none (Nat.le_of_not_lt hi)]
      rfl
    rw [hnone] at h
    rw [Array.getElem?_setIfInBounds_self, if_neg hi]
    exact (List.suffix_nil.1 h).symm

/-- Reading from one input takes nothing from another one. -/
theorem input_consume_of_ne {j : InputRef} (h : j ≠ i) (rest : Bytes) :
    (w.consume i rest).input j = w.input j := by
  have hid : i.id ≠ j.id := fun he => h (by cases i; cases j; exact congrArg InputRef.mk he.symm)
  rw [input, inputs_consume, Array.getElem?_setIfInBounds_ne hid, input]

theorem read_eq_reader (w : World) (i : InputRef) (format : ReadFormat) :
    w.read i format = ((Reader.read format (w.input i).rest).1,
      w.consume i (Reader.read format (w.input i).rest).2) := by
  rw [read, BufferedReader.inMemory_readItem]

/-- What reading leaves in the input. -/
theorem rest_read (w : World) (i : InputRef) (format : ReadFormat) :
    ((w.read i format).2.input i).rest = (Reader.read format (w.input i).rest).2 := by
  obtain ⟨taken, hsplit, -⟩ := Reader.read_sound format (w.input i).rest
  rw [read_eq_reader]
  exact rest_consume ⟨taken, hsplit⟩

/-- Operations leave the inputs alone, or they add one or read from one. -/
theorem inputs_answer (w : World) (o : Operation) :
    (w.answer o).2.inputs = w.inputs ∨ (∃ input, (w.answer o).2.inputs = w.inputs.push input) ∨
      ∃ i format, o = .read i format := by
  cases o with
  | read i format => exact .inr (.inr ⟨i, format, rfl⟩)
  | newIo input limit? => exact .inr (.inl ⟨_, rfl⟩)
  | setProperty t key v =>
    obtain ⟨_, h⟩ := w.updateHost_eq (t.set w.host key v)
    left
    show (w.updateHost _).2.inputs = w.inputs
    rw [h]
  | bindKey hooks key v =>
    obtain ⟨_, h⟩ := w.updateHost_eq (w.host.bindKey hooks key v)
    left
    show (w.updateHost _).2.inputs = w.inputs
    rw [h]
  | closeSession s =>
    obtain ⟨_, _, h⟩ := w.closeSession_eq s
    left
    show (w.closeSession s).inputs = w.inputs
    rw [h]
  | changeDirectory path =>
    obtain ⟨_, h⟩ := w.changeDirectory_eq path
    left
    rw [h]
  | _ => exact .inl rfl

theorem inputs_begin (i : Invocation) (w : World) : (i.begin w).2.inputs = w.inputs := by
  unfold Invocation.begin
  dsimp only
  split <;> rfl

theorem inputs_setContext (w : World) (q : RuntimeRef) (c? : Option Context) :
    (w.setContext q c?).inputs = w.inputs := rfl

end World

/-- The later state has an input of which only bytes at the front are gone. -/
def TakenFrom (i : InputRef) (w w' : World) : Prop :=
  i.id < w.inputs.size → i.id < w'.inputs.size ∧ (w'.input i).rest <:+ (w.input i).rest

namespace TakenFrom

variable {i : InputRef} {w w' w'' : World}

theorem of_inputs (h : w'.inputs = w.inputs) : TakenFrom i w w' := fun hi => by
  rw [World.input, World.input, h]
  exact ⟨hi, List.suffix_refl _⟩

theorem trans (h : TakenFrom i w w') (h' : TakenFrom i w' w'') : TakenFrom i w w'' := fun hi =>
  ⟨(h' (h hi).1).1, (h' (h hi).1).2.trans (h hi).2⟩

theorem answer (w : World) (o : Operation) : TakenFrom i w (w.answer o).2 := by
  rcases w.inputs_answer o with h | ⟨input, h⟩ | ⟨j, format, rfl⟩
  · exact of_inputs h
  · intro hi
    rw [World.input, World.input, h, Array.size_push, Array.getElem?_push, if_neg (by omega)]
    exact ⟨by omega, List.suffix_refl _⟩
  · intro hi
    have hsize : (w.read j format).2.inputs.size = w.inputs.size := by
      rw [World.read_eq_reader, World.inputs_consume, Array.size_setIfInBounds]
    refine ⟨hsize ▸ hi, ?_⟩
    show ((w.read j format).2.input i).rest <:+ (w.input i).rest
    by_cases hij : i = j
    · subst hij
      obtain ⟨taken, hsplit, -⟩ := Reader.read_sound format (w.input i).rest
      rw [World.rest_read]
      exact ⟨taken, hsplit⟩
    · have hsame : (w.read j format).2.input i = w.input i := by
        rw [World.read_eq_reader, World.input_consume_of_ne hij]
      exact ⟨[], congrArg Input.rest hsame⟩

/-- **Nothing but reading takes from an input**, and reading takes from its front. -/
theorem kept (i : InputRef) : Kept (TakenFrom i) where
  refl _ := of_inputs rfl
  trans := trans
  answer := answer
  invokeOpen h j w hrun := by
    rw [h.invokeOpen_snd]
    have hbegin := of_inputs (i := i) (World.inputs_begin j w)
    exact (hbegin.trans (hrun _ _)).trans (of_inputs (World.inputs_setContext _ _ _))

end TakenFrom

/-! ## Reading by guests -/

/-- The letter of a format. -/
def ReadFormat.letter? : ReadFormat → Option Char
  | count _ => none
  | line false => some 'l'
  | line true => some 'L'
  | all => some 'a'
  | number => some 'n'

/-- The guest values that stand for a format: a number, or a text that begins with the letter of the
format, behind any number of stars. -/
inductive Spells : Value → ReadFormat → Prop where
  /-- So many bytes. -/
  | count (n : Int64) : Spells (.int n) (.count n)
  /-- A letter. -/
  | text {format : ReadFormat} {c : Char} (letter : format.letter? = some c) (stars : Nat)
      (more : List Char) :
      Spells (.text (String.ofList (List.replicate stars '*' ++ c :: more))) format

variable {hd : Handler} {w : World} {i : InputRef}

theorem run_readFormat {v : Value} {format : ReadFormat} (h : Spells v format) :
    hd.run (Guest.readFormat v) w = (.value format, w) := by
  cases h with
  | count n => rfl
  | @text _ c letter stars more =>
    have hc : (c == '*') = false := by
      cases format with
      | count n => cases letter
      | line keepBreak => cases keepBreak <;> cases letter <;> rfl
      | all => cases letter; rfl
      | number => cases letter; rfl
    have hdrop : (List.replicate stars '*' ++ c :: more).dropWhile (· == '*') = c :: more := by
      have hstar : ∀ d ∈ List.replicate stars '*', (d == '*') = true := fun d hd => by
        rw [List.eq_of_mem_replicate hd, beq_self_eq_true]
      rw [List.dropWhile_append_of_pos hstar, List.dropWhile_cons, hc]
      rfl
    rw [Value.text, Guest.readFormat]
    rw [Utf8.decode?_encode]
    dsimp only
    rw [String.toList_ofList, hdrop]
    cases format with
    | count n => cases letter
    | line keepBreak => cases keepBreak <;> cases letter <;> rfl
    | all => cases letter; rfl
    | number => cases letter; rfl

theorem isNil_itemValue (item : ReadItem) :
    (Guest.itemValue item).isNil = true ↔ item = .absent := by
  cases item <;> simp [Guest.itemValue, Value.isNil]

/-- A guest gets the items of its formats. -/
theorem run_readItems {values : List Value} {formats : List ReadFormat}
    (h : List.Forall₂ Spells values formats) (w : World) :
    ∃ w', hd.run (Guest.readItems i values) w =
        (.value ((Reader.readAll formats (w.input i).rest).1.map Guest.itemValue), w') ∧
      (w'.input i).rest = (Reader.readAll formats (w.input i).rest).2 := by
  induction h generalizing w with
  | nil => exact ⟨w, rfl, rfl⟩
  | @cons v format values formats hv _ ih =>
    have hrun : hd.run (Guest.readItems i (v :: values)) w =
        hd.run (if (Guest.itemValue (w.read i format).1).isNil then
            return [Guest.itemValue (w.read i format).1]
          else return Guest.itemValue (w.read i format).1 :: (← Guest.readItems i values))
          (w.read i format).2 := by
      rw [Guest.readItems, Handler.run_bind_of_value (run_readFormat hv), Handler.run_ask_bind]
      rfl
    have hrest := w.rest_read i format
    rw [hrun]
    cases hr : Reader.read format (w.input i).rest with
    | mk item rest =>
      have hitem : (w.read i format).1 = item := by rw [World.read_eq_reader, hr]
      rw [hr] at hrest
      rw [hitem]
      by_cases present : item = .absent
      · rw [if_pos ((isNil_itemValue item).2 present)]
        subst present
        rw [readAll_cons_of_absent formats hr]
        exact ⟨_, rfl, hrest⟩
      · obtain ⟨w', hothers, hend⟩ := ih (w.read i format).2
        rw [hrest] at hothers hend
        rw [if_neg (mt (isNil_itemValue item).1 present), Handler.run_bind_of_value hothers,
          readAll_cons_of_ne formats hr present]
        exact ⟨w', rfl, hend⟩

/-- A guest that names no format gets a line, and reading from a stream that is not cancelled is
reading from its input. -/
theorem run_readStream {s : Stream} (reader : s.reader = .ok i)
    (wanted : ∀ signal, s.cancel? = some signal → w.signals.isCancelled signal = false)
    {values : List Value} {formats : List ReadFormat} (h : List.Forall₂ Spells values formats) :
    ∃ w', hd.run (Guest.readStream s values) w =
        (.value ((Reader.readAll (InputRequest.guest formats).formats (w.input i).rest).1.map
          Guest.itemValue), w') ∧
      (w'.input i).rest =
        (Reader.readAll (InputRequest.guest formats).formats (w.input i).rest).2 := by
  have hstream : hd.run (Guest.readStream s values) w =
      hd.run (Guest.readItems i (if values.isEmpty then [.text "l"] else values)) w := by
    rw [Guest.readStream, reader]
    cases hc : s.cancel? with
    | none => rfl
    | some signal =>
      have hw : (w.answer (.isCancelled signal)).1 = false := wanted signal hc
      dsimp only
      rw [Handler.run_ask_bind, hw]
      rfl
  have hformats : List.Forall₂ Spells (if values.isEmpty then [.text "l"] else values)
      (InputRequest.guest formats).formats := by
    cases h with
    | nil =>
      have hline : Spells (.text "l") (.line false) := .text rfl 0 []
      exact .cons hline .nil
    | cons hv hvs => exact .cons hv hvs
  rw [hstream]
  exact run_readItems hformats w

/-! ## Requests to the process -/

/-- The programs that ask for something in a state: the prompt reads a line, and a guest reads from
a stream over the input that is not cancelled. -/
inductive Asks (i : InputRef) (w : World) : InputRequest → Program (List Value) → Prop where
  /-- The prompt. -/
  | prompt :
      Asks i w .prompt (do return [Guest.itemValue (← Program.ask (.read i (.line true)))])
  /-- A guest. -/
  | guest {s : Stream} {values : List Value} {formats : List ReadFormat} (reader : s.reader = .ok i)
      (wanted : ∀ signal, s.cancel? = some signal → w.signals.isCancelled signal = false)
      (spelled : List.Forall₂ Spells values formats) :
      Asks i w (.guest formats) (Guest.readStream s values)

/-- Whoever asks is answered with the items of the formats. -/
theorem Asks.run {q : InputRequest} {p : Program (List Value)} (h : Asks i w q p) (hd : Handler) :
    ∃ w', hd.run p w =
        (.value ((Reader.readAll q.formats (w.input i).rest).1.map Guest.itemValue), w') ∧
      (w'.input i).rest = (Reader.readAll q.formats (w.input i).rest).2 := by
  cases h with
  | prompt =>
    have hall : Reader.readAll InputRequest.prompt.formats (w.input i).rest =
        ([(Reader.read (.line true) (w.input i).rest).1],
          (Reader.read (.line true) (w.input i).rest).2) := by
      rw [InputRequest.formats]
      cases hr : Reader.read (.line true) (w.input i).rest with
      | mk item rest =>
        by_cases present : item = .absent
        · rw [readAll_cons_of_absent [] (present ▸ hr), present]
        · rw [readAll_cons_of_ne [] hr present]
          rfl
    refine ⟨(w.read i (.line true)).2, ?_, ?_⟩
    · rw [hall, Handler.run_ask_bind]
      show hd.run (pure [Guest.itemValue (w.read i (.line true)).1]) (w.read i (.line true)).2 = _
      rw [World.read_eq_reader]
      rfl
    · rw [hall, World.rest_read]
  | guest reader wanted spelled => exact run_readStream reader wanted spelled

/-- Requests that are answered one after the other.  Between two of them anything may happen that
leaves the input as it is. -/
inductive Exchanged (hd : Handler) (i : InputRef) :
    World → List InputRequest → List (List Value) → World → Prop where
  /-- There are no more requests. -/
  | nil {w : World} : Exchanged hd i w [] [] w
  /-- Something else happens. -/
  | between {w w' w'' : World} {qs : List InputRequest} {answers : List (List Value)}
      (same : (w'.input i).rest = (w.input i).rest) (later : Exchanged hd i w' qs answers w'') :
      Exchanged hd i w qs answers w''
  /-- A request is answered. -/
  | cons {w w' w'' : World} {q : InputRequest} {qs : List InputRequest} {p : Program (List Value)}
      {vs : List Value} {answers : List (List Value)} (asks : Asks i w q p)
      (run : hd.run p w = (.value vs, w')) (later : Exchanged hd i w' qs answers w'') :
      Exchanged hd i w (q :: qs) (vs :: answers) w''

/-- A process answers requests as a reader with the same bytes does. -/
theorem Exchanged.serve {σ : Type} (R : BufferedReader σ) {s : σ} {w w' : World}
    {requests : List InputRequest} {answers : List (List Value)}
    (h : Exchanged hd i w requests answers w') (hs : (w.input i).rest = R.bytes s) :
    answers = (R.serve requests s).1.map (List.map Guest.itemValue) ∧
      (w'.input i).rest = R.bytes (R.serve requests s).2 := by
  induction h generalizing s with
  | nil => exact ⟨rfl, hs⟩
  | between same _ ih => exact ih (same.trans hs)
  | @cons w w' w'' q qs p vs answers asks run _ ih =>
    obtain ⟨w₁, hrun, hrest⟩ := asks.run hd
    rw [run] at hrun
    cases hrun
    have heq := R.readItems_eq q.formats s
    rw [← hs] at heq
    obtain ⟨hitems, hbytes⟩ := Prod.mk.inj heq
    obtain ⟨hanswers, hend⟩ := ih (hrest.trans hbytes.symm)
    refine ⟨?_, hend⟩
    rw [hanswers, ← hitems]
    rfl

/-! ## The main result -/

/-- **Input is consumed once and in order.**  For every content, however it is cut into pieces, and
for every sequence of requests of the prompt and of guests: each request takes the bytes that its
formats are about from the front of what the ones before it left and gives what they say, so the
bytes taken and those that are left make up the whole input.  The answers depend on the bytes only,
not on the pieces.  A process answers a sequence of requests in the same way, whatever else it does
in between, and it answers every one.  And over every run, whatever it does and however deep its
calls nest, an input only loses bytes at its front. -/
theorem input_consumed_in_order {σ : Type} (R : BufferedReader σ) (requests : List InputRequest)
    (s : σ) :
    (∃ takens, takens.flatten ++ R.bytes (R.serve requests s).2 = R.bytes s ∧
      Served requests takens (R.serve requests s).1 (R.bytes (R.serve requests s).2)) ∧
    (∀ {τ : Type} (R' : BufferedReader τ) (s' : τ), R'.bytes s' = R.bytes s →
      (R'.serve requests s').1 = (R.serve requests s).1 ∧
        R'.bytes (R'.serve requests s').2 = R.bytes (R.serve requests s).2) ∧
    (∀ (hd : Handler) (i : InputRef) (w w' : World) (answers : List (List Value)),
      (w.input i).rest = R.bytes s → Exchanged hd i w requests answers w' →
        answers = (R.serve requests s).1.map (List.map Guest.itemValue) ∧
          (w'.input i).rest = R.bytes (R.serve requests s).2) ∧
    (∀ (hd : Handler) (i : InputRef) (w : World) (q : InputRequest) (p : Program (List Value)),
      Asks i w q p → ∃ vs w', hd.run p w = (.value vs, w')) ∧
    ∀ (n b : Nat) (r : RuntimeRef) {α : Type} (p : Program α) (w : World) (i : InputRef),
      i.id < w.inputs.size →
        ∃ taken, taken ++ (((handlerWithin n b r).run p w).2.input i).rest = (w.input i).rest := by
  refine ⟨R.serve_sound requests s, fun R' s' h => R.serve_congr R' h requests,
    fun hd i w w' answers hs h => h.serve R hs, fun hd i w q p h => ?_,
    fun n b r α p w i hi => ?_⟩
  · obtain ⟨w', hrun, -⟩ := h.run hd
    exact ⟨_, w', hrun⟩
  · exact ((TakenFrom.kept i).run n b r p w hi).2

/-- A prompt, a guest that reads a number and a line, and another prompt get the same answers whether
the input is handed out byte by byte or all at once, and a process that serves them leaves what is
left there. -/
theorem prompts_and_guest_served :
    let input : Bytes := Utf8.encode "ls\n 12 rest\nexit"
    let requests : List InputRequest := [.prompt, .guest [.number, .line false], .prompt]
    let slow := BufferedReader.ofBytes 1 Nat.one_pos
    let w : World := { inputs := #[{ rest := input }] }
    (BufferedReader.inMemory.serve requests input).1 = (slow.serve requests input).1 ∧
      (∃ answers w', Exchanged (handlerWithin 1 1 ⟨0⟩) ⟨0⟩ w requests answers w' ∧
        (w'.input ⟨0⟩).rest = slow.bytes (slow.serve requests input).2) ∧
      ∃ taken, taken ++ (((handlerWithin 1 1 ⟨0⟩).run (Program.ask (.read ⟨0⟩ .all)) w).2.input
        ⟨0⟩).rest = input := by
  intro input requests slow w
  obtain ⟨-, hpieces, hprocess, hanswered, htaken⟩ := input_consumed_in_order slow requests input
  let stdin := Stream.ofIo ⟨⟨0⟩, ⟨0⟩, ⟨1⟩⟩ none .stdin
  have hwanted (w : World) (signal : Signal) (h : stdin.cancel? = some signal) :
      w.signals.isCancelled signal = false := by cases h
  have hspelled : List.Forall₂ Spells [.text "n", .text "l"] [.number, .line false] :=
    .cons (.text rfl 0 []) (.cons (.text rfl 0 []) .nil)
  -- each request is answered in the state that the one before it left
  have prompt (w : World) := hanswered (handlerWithin 1 1 ⟨0⟩) ⟨0⟩ w _ _ .prompt
  have guest (w : World) := hanswered (handlerWithin 1 1 ⟨0⟩) ⟨0⟩ w _ _
    (.guest rfl (hwanted w) hspelled)
  obtain ⟨_, w₁, h₁⟩ := prompt w
  obtain ⟨_, w₂, h₂⟩ := guest w₁
  obtain ⟨_, w₃, h₃⟩ := prompt w₂
  have hexchanged : Exchanged (handlerWithin 1 1 ⟨0⟩) ⟨0⟩ w requests _ w₃ :=
    .cons .prompt h₁ (.cons (.guest rfl (hwanted w₁) hspelled) h₂ (.cons .prompt h₃ .nil))
  refine ⟨(hpieces BufferedReader.inMemory input rfl).1, ⟨_, w₃, hexchanged, ?_⟩, ?_⟩
  · exact (hprocess _ _ w w₃ _ rfl hexchanged).2
  · exact htaken 1 1 ⟨0⟩ _ w ⟨0⟩ Nat.one_pos

end ScriptShell
