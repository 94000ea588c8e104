import ScriptShell.Proofs.Cancellation
import ScriptShell.Proofs.InputReading
import ScriptShell.Proofs.PropertyAccess

/-! # Iterators over the lines of a stream

An iterator over a stream is a function that holds the stream and the formats, and it is made the
same way by the `lines` method and by `io.lines` (`run_of_makesLines`).  Each time it is called it
reads as `read` does with these formats (`run_linesStep`): it takes as much from the input, it fails
in the same cases and it leaves the same state.  But of what was read it hands over only the first
value.  With a single format that is all there is; with several the others are read and lost.

What an iterator is does not change any more: no change of the heap replaces a function, and a
stream stays what it is until it is closed (`Guest.Heap.KeepsReaders`).
-/

namespace ScriptShell

open Guest (Value RuntimeRef UserRef TableRef LibraryCall Heap)
open Guest.Heap (Evolves KeepsStreams)

/-! ## What stays of an iterator -/

/-- Functions stay what they are, and so do streams, but for those that lose their pipe. -/
structure Guest.Heap.KeepsReaders (h h' : Heap) : Prop where
  /-- The functions. -/
  functions : StartsWith h.functions h'.functions
  /-- The streams. -/
  streams : KeepsStreams h h'

namespace Guest.Heap.KeepsReaders

variable {h h' : Heap}

theorem function? (k : KeepsReaders h h') {g : GuestFunction} {f : Guest.Function}
    (hg : h.function? g = some f) : h'.function? g = some f :=
  Heap.function?_of_startsWith k.functions hg

theorem evolves : Evolves KeepsReaders where
  trans k k' := ⟨k.functions.trans k'.functions, KeepsStreams.evolves.trans k.streams k'.streams⟩
  of_keeps k := ⟨k.functions, KeepsStreams.evolves.of_keeps k⟩
  of_users ht hu hf := ⟨by rw [hf]; exact .refl _, KeepsStreams.evolves.of_users ht hu hf⟩
  closeUser h u := ⟨.refl _, KeepsStreams.evolves.closeUser h u⟩
  setFileRest h u rest := ⟨.refl _, KeepsStreams.evolves.setFileRest h u rest⟩

/-- What holds in every state that can follow, whatever runs there and whatever the host does of its
own that keeps readers. -/
theorem of_follows {w w' : World} (hn : NativesEvolve KeepsReaders w.natives)
    (h : World.Follows (World.Evolves KeepsReaders) w w') : KeepsReaders w.heap w'.heap :=
  have he : World.Evolves KeepsReaders w w' :=
    h.relates (World.Evolves.kept evolves) (World.Evolves.begin evolves)
      (World.Evolves.setContext evolves) fun _ _ step => step
  he.heap hn

end Guest.Heap.KeepsReaders

open Guest.Heap (KeepsReaders)

/-! ## Making an iterator and reading -/

/-- The calls that make an iterator over a stream with some formats: its `lines` method, and
`io.lines` without a file where `io.stdin` is the stream. -/
inductive MakesLines (w : World) (u : UserRef) :
    List Value → Guest.Function → List Value → Prop where
  /-- The method. -/
  | method {r : RuntimeRef} (formats : List Value) :
      MakesLines w u formats ⟨r, .library .streamLines⟩ (.user u :: formats)
  /-- The function of the library. -/
  | ioLines {r : RuntimeRef} {io : TableRef} {args : List Value} (unnamed : Guest.first args = .nil)
      (hio : w.heap.field (w.runtime r).runtime.globals "io" = .table io)
      (hu : w.heap.field io StreamName.stdin.field = .user u) :
      MakesLines w u (args.drop 1) ⟨r, .library .ioLines⟩ args

/-- The calls that read from a stream with some formats: its `read` method, and `io.read` where
`io.stdin` is the stream. -/
inductive ReadsWith (w : World) (u : UserRef) (formats : List Value) :
    Guest.Function → List Value → Prop where
  /-- The method. -/
  | method {r : RuntimeRef} : ReadsWith w u formats ⟨r, .library .streamRead⟩ (.user u :: formats)
  /-- The function of the library. -/
  | ioRead {r : RuntimeRef} {io : TableRef}
      (hio : w.heap.field (w.runtime r).runtime.globals "io" = .table io)
      (hu : w.heap.field io StreamName.stdin.field = .user u) :
      ReadsWith w u formats ⟨r, .library .ioRead⟩ formats

section Methods

variable {hd : Handler} {w : World} {u : UserRef} {s : Stream} {c : LibraryCall}
  {args : List Value}

theorem Guest.LibraryCall.arg_one (c : LibraryCall) : c.arg 1 = Guest.first c.args := by
  rw [LibraryCall.arg]
  cases c.args <;> rfl

theorem run_streamLines (hu : w.heap.user u = .stream s) (hargs : c.args = .user u :: args) :
    hd.run c.streamLines w =
      (.value [.func (w.heap.addFunction ⟨c.runtime, .lines (.user u) args⟩).1],
        (w.answer (.newFunction ⟨c.runtime, .lines (.user u) args⟩)).2) := by
  have h1 : c.arg 1 = .user u := by
    rw [c.arg_one, hargs]
    rfl
  rw [LibraryCall.streamLines, Handler.run_bind_of_value (run_object hu h1 _), hargs]
  rfl

theorem run_ioLines (hu : w.heap.user u = .stream s) (unnamed : Guest.first c.args = .nil)
    {io : TableRef}
    (hio : w.heap.field (w.runtime c.runtime).runtime.globals "io" = .table io)
    (hin : w.heap.field io StreamName.stdin.field = .user u) :
    hd.run c.ioLines w =
      (.value [.func (w.heap.addFunction ⟨c.runtime, .lines (.user u) (c.args.drop 1)⟩).1],
        (w.answer (.newFunction ⟨c.runtime, .lines (.user u) (c.args.drop 1)⟩)).2) := by
  rw [LibraryCall.ioLines, c.arg_one, unnamed]
  simp only [Value.isNil, Bool.not_true, Bool.false_eq_true, if_false]
  rw [Handler.run_bind_of_value (run_currentStream hu hio hin)]
  rfl

theorem run_streamRead (hu : w.heap.user u = .stream s) (hargs : c.args = .user u :: args) :
    hd.run c.streamRead w = hd.run (Guest.readStream s args) w := by
  rw [LibraryCall.streamRead, Handler.run_bind_of_value (run_self hu hargs _), hargs]
  rfl

theorem run_ioRead (hu : w.heap.user u = .stream s) {io : TableRef}
    (hio : w.heap.field (w.runtime c.runtime).runtime.globals "io" = .table io)
    (hin : w.heap.field io StreamName.stdin.field = .user u) :
    hd.run c.ioRead w = hd.run (Guest.readStream s c.args) w := by
  rw [LibraryCall.ioRead, Handler.run_bind_of_value (run_currentStream hu hio hin),
    Handler.run_bind_of_value (run_streamOf hu)]

/-- A step reads like any other call, and the first value is what it returns. -/
theorem run_linesStep (hu : w.heap.user u = .stream s) (formats : List Value) :
    hd.run (c.linesStep (.user u) formats) w =
      ((hd.run (Guest.readStream s formats) w).1.map fun vs => [Guest.first vs],
        (hd.run (Guest.readStream s formats) w).2) := by
  have ha : (w.answer (.user u)).1 = .stream s := hu
  have hw : (w.answer (.user u)).2 = w := rfl
  rw [LibraryCall.linesStep]
  dsimp only
  rw [Handler.run_ask_bind, ha, hw]
  dsimp only
  rw [Handler.run_bind_of_value (run_streamOf hu)]
  show hd.run ((Guest.readStream s formats).bind fun vs => .done [Guest.first vs]) w = _
  rw [Handler.run_bind]
  cases hd.run (Guest.readStream s formats) w with
  | mk outcome w' => cases outcome <;> rfl

end Methods

section Calls

variable {hd : Handler} {w : World} {u : UserRef} {s : Stream} {g : GuestFunction}
  {f : Guest.Function} {formats args : List Value}

/-- An iterator is a new function, and nothing is read yet. -/
theorem run_of_makesLines (hu : w.heap.user u = .stream s) (hg : w.heap.function? g = some f)
    (hmakes : MakesLines w u formats f args) (r : RuntimeRef) (sites : CallSites) :
    hd.run (Guest.bodyOf w r (.func g) args sites).2 w =
      (.value [.func (w.heap.addFunction ⟨f.runtime, .lines (.user u) formats⟩).1],
        (w.answer (.newFunction ⟨f.runtime, .lines (.user u) formats⟩)).2) := by
  rw [Guest.bodyOf, hg]
  cases hmakes with
  | method formats =>
    dsimp only
    rw [Guest.callBody, hg]
    exact run_streamLines hu rfl
  | ioLines unnamed hio hin =>
    dsimp only
    rw [Guest.callBody, hg]
    exact run_ioLines hu unnamed hio hin

/-- Whichever way a guest reads from the stream, it gets what its formats give. -/
theorem run_of_readsWith (hu : w.heap.user u = .stream s) (hg : w.heap.function? g = some f)
    (hreads : ReadsWith w u formats f args) (r : RuntimeRef) (sites : CallSites) :
    hd.run (Guest.bodyOf w r (.func g) args sites).2 w =
      hd.run (Guest.readStream s formats) w := by
  rw [Guest.bodyOf, hg]
  cases hreads with
  | method =>
    dsimp only
    rw [Guest.callBody, hg]
    exact run_streamRead hu rfl
  | ioRead hio hin =>
    dsimp only
    rw [Guest.callBody, hg]
    exact run_ioRead hu hio hin

/-- Whatever the iterator is called with, it takes its step. -/
theorem run_of_lines (hu : w.heap.user u = .stream s) {q : RuntimeRef}
    (hg : w.heap.function? g = some ⟨q, .lines (.user u) formats⟩) (r : RuntimeRef)
    (args : List Value) (sites : CallSites) :
    hd.run (Guest.bodyOf w r (.func g) args sites).2 w =
      ((hd.run (Guest.readStream s formats) w).1.map fun vs => [Guest.first vs],
        (hd.run (Guest.readStream s formats) w).2) := by
  rw [Guest.bodyOf, hg]
  dsimp only
  rw [Guest.callBody, hg]
  exact run_linesStep hu formats

end Calls

/-! ## The main result -/

/-- What the first of some formats takes and gives.  If there is no other item, then no other byte
was taken. -/
theorem ReadsAll.first {format : ReadFormat} {formats : List ReadFormat} {taken rest : Bytes}
    {items : List ReadItem} (h : ReadsAll (format :: formats) taken items rest) :
    ∃ own others item later, taken = own ++ others ∧ items = item :: later ∧
      Reads format own item (others ++ rest) ∧ (later = [] → others = []) := by
  cases h with
  | ended first => exact ⟨_, [], _, [], (List.append_nil _).symm, rfl, first, fun _ => rfl⟩
  | next first present others =>
    refine ⟨_, _, _, _, rfl, rfl, first, ?_⟩
    cases others with
    | nil => exact fun _ => rfl
    | ended _ => exact fun h => nomatch h
    | next _ _ _ => exact fun h => nomatch h

section Steps

variable {hd : Handler} {w : World} {u : UserRef} {s : Stream} {iterator reader : GuestFunction}
  {q : RuntimeRef} {f : Guest.Function} {formats args : List Value}

/-- A step of an iterator ends as reading with its formats would end there. -/
theorem run_of_lines_eq (hu : w.heap.user u = .stream s)
    (hiterator : w.heap.function? iterator = some ⟨q, .lines (.user u) formats⟩)
    (hreader : w.heap.function? reader = some f) (hreads : ReadsWith w u formats f args)
    (r₁ r₂ : RuntimeRef) (given : List Value) (sites₁ sites₂ : CallSites) :
    hd.run (Guest.bodyOf w r₁ (.func iterator) given sites₁).2 w =
      ((hd.run (Guest.bodyOf w r₂ (.func reader) args sites₂).2 w).1.map fun vs =>
          [Guest.first vs],
        (hd.run (Guest.bodyOf w r₂ (.func reader) args sites₂).2 w).2) := by
  rw [run_of_readsWith hu hreader hreads]
  exact run_of_lines hu hiterator r₁ given sites₁

/-- What reading from an open stream gives, and how far it goes. -/
theorem exists_run_of_readsWith {i : InputRef} {wanted : List ReadFormat}
    (hu : w.heap.user u = .stream s) (hopen : s.reader = .ok i)
    (huncancelled : ∀ signal, s.cancel? = some signal → w.signals.isCancelled signal = false)
    (hspelled : List.Forall₂ Spells formats wanted)
    (hreader : w.heap.function? reader = some f) (hreads : ReadsWith w u formats f args)
    (r : RuntimeRef) (sites : CallSites) :
    ∃ format own others rest item later w',
      (InputRequest.guest wanted).formats.head? = some format ∧
      own ++ others ++ rest = (w.input i).rest ∧ Reads format own item (others ++ rest) ∧
      ReadsAll (InputRequest.guest wanted).formats (own ++ others) (item :: later) rest ∧
      hd.run (Guest.bodyOf w r (.func reader) args sites).2 w =
        (.value ((item :: later).map Guest.itemValue), w') ∧
      (w'.input i).rest = rest ∧ (later = [] → others = []) := by
  obtain ⟨w', hread, hrest⟩ :=
    @run_readStream hd w i s hopen huncancelled formats wanted hspelled
  rw [← run_of_readsWith hu hreader hreads r sites] at hread
  obtain ⟨format, formats', hformats⟩ : ∃ format formats',
      (InputRequest.guest wanted).formats = format :: formats' := by
    cases wanted with
    | nil => exact ⟨_, _, rfl⟩
    | cons format formats' => exact ⟨_, _, rfl⟩
  rw [hformats] at hread hrest ⊢
  obtain ⟨taken, hsplit, hall⟩ := readAll_sound (format :: formats') (w.input i).rest
  obtain ⟨own, others, item, later, rfl, hitems, hfirst, hlost⟩ := hall.first
  rw [hitems] at hread hall
  exact ⟨format, own, others, _, item, later, w', rfl, hsplit, hfirst, hall, hread, hrest, hlost⟩

end Steps

/-- **An iterator over a stream reads as `read` does and hands over the first value only.**  It is
made by the `lines` method or by `io.lines` in any state, and called in any state that can follow.
There it ends as a `read` with its formats would end there: in the same state, with the same error
where that fails, and with the first of its values where it returns.  So if the stream is still open
over an input, its invocation is not cancelled and the formats are such, the iterator gives what the
first format gives, and what the other formats take is gone from the input as well.  Nothing is lost
exactly if nothing else was read. -/
theorem lines_iterator_first_value {w : World} (hn : NativesEvolve KeepsReaders w.natives)
    {u : UserRef} {s : Stream} (hu : w.heap.user u = .stream s) {g : GuestFunction}
    {f : Guest.Function} (hg : w.heap.function? g = some f) {formats args : List Value}
    (hmakes : MakesLines w u formats f args) (hd : Handler) (r : RuntimeRef) (sites : CallSites) :
    ∃ iterator made,
      hd.run (Guest.bodyOf w r (.func g) args sites).2 w = (.value [.func iterator], made) ∧
      ∀ w', made.Follows (World.Evolves KeepsReaders) w' →
        (w'.heap.user u = .stream s ∨ w'.heap.user u = .stream s.close) ∧
        ∀ (reader : GuestFunction) (f' : Guest.Function) (args' : List Value),
          w'.heap.function? reader = some f' → ReadsWith w' u formats f' args' →
          ∀ (hd' : Handler) (r₁ r₂ : RuntimeRef) (given : List Value) (sites₁ sites₂ : CallSites),
            let step := hd'.run (Guest.bodyOf w' r₁ (.func iterator) given sites₁).2 w'
            let read := hd'.run (Guest.bodyOf w' r₂ (.func reader) args' sites₂).2 w'
            step = (read.1.map fun vs => [Guest.first vs], read.2) ∧
            ∀ (i : InputRef) (wanted : List ReadFormat), w'.heap.user u = .stream s →
              s.reader = .ok i →
              (∀ signal, s.cancel? = some signal → w'.signals.isCancelled signal = false) →
              List.Forall₂ Spells formats wanted →
                ∃ format own others rest item later,
                  (InputRequest.guest wanted).formats.head? = some format ∧
                  own ++ others ++ rest = (w'.input i).rest ∧
                  Reads format own item (others ++ rest) ∧
                  ReadsAll (InputRequest.guest wanted).formats (own ++ others) (item :: later)
                    rest ∧
                  read.1 = .value ((item :: later).map Guest.itemValue) ∧
                  step.1 = .value [Guest.itemValue item] ∧
                  (step.2.input i).rest = rest ∧
                  (step = read ↔ later = []) ∧ (later = [] → others = []) := by
  refine ⟨_, _, run_of_makesLines hu hg hmakes r sites, fun w' hfollows => ?_⟩
  have hnatives : NativesEvolve KeepsReaders
      (w.answer (.newFunction ⟨f.runtime, .lines (.user u) formats⟩)).2.natives := hn
  have hkeeps := KeepsReaders.of_follows hnatives hfollows
  have hiterator := hkeeps.function?
    (g := (w.heap.addFunction ⟨f.runtime, .lines (.user u) formats⟩).1) Array.getElem?_push_size
  have hstream : w'.heap.user u = .stream s ∨ w'.heap.user u = .stream s.close :=
    hkeeps.streams u s hu
  refine ⟨hstream, fun reader f' args' hreader hreads hd' r₁ r₂ given sites₁ sites₂ => ?_⟩
  intro step read
  -- the iterator asks the same stream as `read` does, whether that is open by now or not
  have hstep : step = (read.1.map fun vs => [Guest.first vs], read.2) := by
    rcases hstream with hu' | hu'
    · exact run_of_lines_eq hu' hiterator hreader hreads r₁ r₂ given sites₁ sites₂
    · exact run_of_lines_eq hu' hiterator hreader hreads r₁ r₂ given sites₁ sites₂
  refine ⟨hstep, fun i wanted hu' hopen huncancelled hspelled => ?_⟩
  obtain ⟨format, own, others, rest, item, later, w'', hformat, hsplit, hfirst, hall, hread, hrest,
    hlost⟩ := exists_run_of_readsWith hu' hopen huncancelled hspelled hreader hreads r₂ sites₂
  change read = _ at hread
  rw [hread] at hstep ⊢
  rw [hstep]
  refine ⟨format, own, others, rest, item, later, hformat, hsplit, hfirst, hall, rfl, rfl, hrest,
    ?_, hlost⟩
  simp [Outcome.map, Guest.first]

/-- An iterator over two lines at a time gives the first one of the input, and the second one is read
and lost. -/
theorem second_line_lost :
    let stdin := Stream.ofIo ⟨⟨0⟩, ⟨0⟩, ⟨1⟩⟩ none .stdin
    let formats : List Value := [.text "l", .text "l"]
    let w : World :=
      { inputs := #[{ rest := Utf8.encode "a\nb\n" }]
        heap :=
          { functions := #[⟨⟨0⟩, .library .streamLines⟩, ⟨⟨0⟩, .library .streamRead⟩]
            users := #[.stream stdin] } }
    let hd := handlerWithin 1 1 ⟨0⟩
    ∃ iterator made,
      hd.run (Guest.bodyOf w ⟨0⟩ (.func ⟨0⟩) (.user ⟨0⟩ :: formats) []).2 w =
        (.value [.func iterator], made) ∧
      let read := hd.run (Guest.bodyOf made ⟨0⟩ (.func ⟨1⟩) (.user ⟨0⟩ :: formats) []).2 made
      let step := hd.run (Guest.bodyOf made ⟨0⟩ (.func iterator) [] []).2 made
      read.1 = .value [.text "a", .text "b"] ∧ step.1 = .value [.text "a"] ∧
        (step.2.input ⟨0⟩).rest = [] := by
  intro stdin formats w hd
  have hn : NativesEvolve KeepsReaders w.natives := fun n form hf => by cases hf
  have hu : w.heap.user ⟨0⟩ = .stream stdin := rfl
  have hg : w.heap.function? ⟨0⟩ = some ⟨⟨0⟩, .library .streamLines⟩ := rfl
  obtain ⟨iterator, made, hmade, hcalls⟩ :=
    lines_iterator_first_value hn hu hg (.method formats) hd ⟨0⟩ []
  refine ⟨iterator, made, hmade, ?_⟩
  have hw : made = (w.answer (.newFunction ⟨⟨0⟩, .lines (.user ⟨0⟩) formats⟩)).2 :=
    (congrArg Prod.snd hmade).symm.trans rfl
  have hreader : made.heap.function? ⟨1⟩ = some ⟨⟨0⟩, .library .streamRead⟩ := by
    rw [hw]
    rfl
  have hspelled : List.Forall₂ Spells formats [.line false, .line false] :=
    .cons (.text rfl 0 []) (.cons (.text rfl 0 []) .nil)
  have hstep := ((hcalls made .now).2 ⟨1⟩ _ _ hreader .method hd ⟨0⟩ ⟨0⟩ [] [] []).1
  have hu' : made.heap.user ⟨0⟩ = .stream stdin := by
    rw [hw]
    exact hu
  have hinput : (made.input ⟨0⟩).rest = Utf8.encode "a\nb\n" := by
    rw [hw]
    rfl
  obtain ⟨w', hread, hrest⟩ :=
    @run_readStream hd made ⟨0⟩ stdin rfl (fun _ h => nomatch h) formats _ hspelled
  have hall : Reader.readAll [.line false, .line false] (Utf8.encode "a\nb\n") =
      ([.bytes (Utf8.encode "a"), .bytes (Utf8.encode "b")], []) := rfl
  rw [hinput, InputRequest.formats, hall, ← run_of_readsWith hu' hreader .method ⟨0⟩ []] at hread
  rw [hinput, InputRequest.formats, hall] at hrest
  rw [hread] at hstep ⊢
  rw [hstep]
  exact ⟨rfl, rfl, hrest⟩

end ScriptShell
