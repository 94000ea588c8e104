import ScriptShell.Proofs.InputReading
import ScriptShell.Proofs.ShellEnd
import ScriptShell.Proofs.StartupRuns

/-! # The lines that the shell runs

The loop takes one line after the other.  `Shell.Takes` is what comes before a line runs: the prompt,
a read from the input, and the line filter.  `Shell.Ran` are the lines that the loop has gone
through, each taken from where the one before it has left, and `Shell.Executed` says for a moment of
an interactive run which lines have been executed so far, with the one that runs at that moment.
Every moment is accounted for (`Shell.exists_executed`): the loop is a turn and the rest of the loop
(`Shell.interactiveWithin_succ`), and a moment of one program after another is one of the first or
one of the second (`reaches_bind`).

The loop is bounded by the length of its input.  This is no limit, since every line takes at least a
byte from an input to which nothing is added (`Shell.Ran.length_le`).
-/

namespace ScriptShell

open Guest (RuntimeRef)

variable {n b : Nat} {r : RuntimeRef}

/-! ## Lines of an input -/

/-- A line is not empty: where there is nothing, nothing is read. -/
theorem World.length_rest_of_read_line {w w' : World} {i : InputRef} {keepBreak : Bool}
    {bytes : Bytes} (hread : w.read i (.line keepBreak) = (.bytes bytes, w')) :
    (w'.input i).rest.length < (w.input i).rest.length := by
  have hitem : (Reader.read (.line keepBreak) (w.input i).rest).1 = .bytes bytes :=
    (congrArg Prod.fst (w.read_eq_reader i (.line keepBreak))).symm.trans (congrArg Prod.fst hread)
  have hrest : (Reader.read (.line keepBreak) (w.input i).rest).2 = (w'.input i).rest := by
    rw [← w.rest_read, hread]
  obtain ⟨taken, hsplit, hreads⟩ := Reader.read_sound (.line keepBreak) (w.input i).rest
  rw [hitem, hrest] at hreads
  have htaken : 0 < taken.length := by
    generalize (w'.input i).rest = rest at hreads
    cases hreads with
    | line => rw [List.length_append]; exact Nat.lt_add_left _ Nat.one_pos
    | lastLine left => exact List.length_pos_iff.2 left
  have hlength := congrArg List.length hsplit
  rw [List.length_append, hrest] at hlength
  omega

theorem TakenFrom.of_run {α : Type} {i : InputRef} {p : Program α} {w w' : World}
    {outcome : Outcome α} (hr : (handlerWithin n b r).run p w = (outcome, w')) : TakenFrom i w w' := by
  have hrun := (TakenFrom.kept i).run n b r p w
  rwa [hr] at hrun

namespace Shell

variable (s : Shell)

/-! ## Taking a line -/

/-- The line that the line filter makes of a typed one: the text that it returned.  The typed line
stays if it returned nothing usable, failed or is not there. -/
def lineOf (typed : String) : Except BridgeError (Option (List HostValue)) → String
  | .ok (some (v :: _)) => v.toText.toOption.getD typed
  | _ => typed

/-- The state after the line filter: a failure has been reported. -/
def afterFilter (w : World) : Except BridgeError (Option (List HostValue)) → World
  | .ok _ => w
  | .error e => w.reported s.session ("filter: " ++ e.message)

theorem run_filtered_of_answer {h : Handler} {context : Context} {typed : String} {w w' : World}
    {answer : Except BridgeError (Option (List HostValue))}
    (hanswer : h.run (s.session.invokeHook context .lineFilter [.text typed]).run w =
      (.value answer, w')) :
    h.run (s.filtered context typed) w = (.value (lineOf typed answer), s.afterFilter w' answer) := by
  cases answer with
  | ok results? =>
    have hline : h.run (s.session.filterLine context typed).run w =
        (.value (.ok (results?.bind SessionRef.firstText?)), w') :=
      Handler.run_session_bind_of_ok hanswer _
    rw [filtered, Handler.run_bind_of_value hline]
    rcases results? with _ | _ | ⟨v, rest⟩
    · rfl
    · rfl
    · dsimp only [Option.bind, SessionRef.firstText?, lineOf, afterFilter]
      cases v.toText with
      | ok text => rfl
      | error e => rfl
  | error e =>
    have hline : h.run (s.session.filterLine context typed).run w = (.value (.error e), w') :=
      Handler.run_session_bind_of_error hanswer _
    rw [filtered, Handler.run_bind_of_value hline]
    have hreport : h.run (s.report ("filter: " ++ e.message)) w' =
        (.value (), w'.reported s.session ("filter: " ++ e.message)) := SessionRef.run_report ..
    exact Handler.run_bind_of_value hreport

/-- The input of the loop that begins in a state. -/
def stdin (w : World) : InputRef := (w.shell s.terminal).io.stdin

/-- The loop takes a line from an input.  It shows the prompt, reads, begins a command and calls the
line filter with what was typed; the line is what this leaves, without the blanks around it. -/
inductive Takes (n b : Nat) (r : RuntimeRef) (stdin : InputRef) (w : World) (context : Context)
    (line : String) : World → Prop where
  /-- It shows the prompt, reads, and filters. -/
  | intro {w₁ w₂ w₃ w₄ : World} {bytes : Bytes} {text : String}
      {answer : Except BridgeError (Option (List HostValue))}
      (prompt : (handlerWithin n b r).run s.showPrompt w = (.value (), w₁))
      (read : w₁.read stdin (.line true) = (.bytes bytes, w₂))
      (decodes : Utf8.decode? bytes = some text)
      (begins : s.begin w₂ = (context, w₃))
      (filters : (handlerWithin n b r).run (s.session.invokeHook context .lineFilter
        [.text (trimLineBreaks text)]).run w₃ = (.value answer, w₄))
      (line_eq : line = trimBlank (lineOf (trimLineBreaks text) answer)) :
      Takes n b r stdin w context line (s.afterFilter w₄ answer)

/-! ## Turns of the loop -/

/-- The loop comes to the next line, or to its end: the context in which the line is to run and the
line, or what the loop ends with. -/
def nextLine (stdin : InputRef) (status : Int) :
    Program (Except (Except Fatal Int) (Context × String)) := do
  s.showPrompt
  match ← Program.ask (.read stdin (.line true)) with
  | .bytes bytes =>
    match Utf8.decode? bytes with
    | none => return .error (.error (unreadable .invalidData))
    | some text =>
      let context ← s.context
      let line ← s.filtered context (trimLineBreaks text)
      return .ok (context, trimBlank line)
  | _ =>
    s.say "\n"
    return .error (.ok status)

/-- What the loop does after a command. -/
def goOn (stdin : InputRef) (bound : Nat) : CommandFlow → Program (Except Fatal Int)
  | .resume status => s.interactiveWithin stdin bound status
  | .exit status => return .ok status

/-- What the loop does when it has come to the next line, or to its end. -/
def turn (stdin : InputRef) (bound : Nat) :
    Except (Except Fatal Int) (Context × String) → Program (Except Fatal Int)
  | .error result => return result
  | .ok (context, line) => s.runLine context line >>= s.goOn stdin bound

theorem turn_line (stdin : InputRef) (bound : Nat) (context : Context) (line : String) :
    s.turn stdin bound (.ok (context, line)) = s.runLine context line >>= s.goOn stdin bound :=
  rfl

/-- The loop is a turn and the rest of the loop. -/
theorem interactiveWithin_succ (stdin : InputRef) (bound : Nat) (status : Int) :
    s.interactiveWithin stdin (bound + 1) status =
      (s.nextLine stdin status).bind (s.turn stdin bound) := by
  rw [interactiveWithin]
  refine .trans ?_ (Program.andThen_assoc s.showPrompt _ _).symm
  refine congrArg (s.showPrompt >>= ·) (funext fun _ => ?_)
  refine .trans ?_ (Program.andThen_assoc (Program.ask _) _ _).symm
  refine congrArg (Program.ask _ >>= ·) (funext fun item => ?_)
  cases item with
  | bytes bytes =>
    dsimp only
    cases Utf8.decode? bytes with
    | none => rfl
    | some text =>
      have hgoOn : s.execute (trimLineBreaks text) >>= s.goOn stdin bound =
          (do
            let context ← s.context
            let line ← s.filtered context (trimLineBreaks text)
            pure (Except.ok (context, trimBlank line))) >>= s.turn stdin bound := by
        rw [execute_eq]
        simp only [Program.andThen_assoc, Program.pure_andThen, turn_line]
      refine .trans (congrArg (s.execute (trimLineBreaks text) >>= ·) (funext fun flow => ?_)) hgoOn
      cases flow <;> rfl
  | absent => rfl
  | int i => rfl
  | num x => rfl

/-- What the loop takes is what the line filter leaves. -/
theorem takes_of_run {stdin : InputRef} {status : Int} {w w' : World} {context : Context}
    {line : String}
    (hr : (handlerWithin n b r).run (s.nextLine stdin status) w = (.value (.ok (context, line)), w')) :
    s.Takes n b r stdin w context line w' := by
  obtain ⟨_, w₁, hprompt, hr⟩ := Handler.run_bind_value hr
  have hread : w₁.answer (.read stdin (.line true)) = w₁.read stdin (.line true) := rfl
  rw [Handler.run_ask_bind, hread] at hr
  cases hitem : w₁.read stdin (.line true) with
  | mk item w₂ =>
    rw [hitem] at hr
    have hend (h : (handlerWithin n b r).run (do
        s.say "\n"
        return .error (.ok status) : Program (Except (Except Fatal Int) (Context × String))) w₂ =
          (.value (.ok (context, line)), w')) : False := by
      obtain ⟨_, _, -, h⟩ := Handler.run_bind_value h
      cases h
    cases item with
    | bytes bytes =>
      dsimp only at hr
      cases hdecode : Utf8.decode? bytes with
      | none =>
        rw [hdecode] at hr
        cases hr
      | some text =>
        rw [hdecode] at hr
        have hcontext : (handlerWithin n b r).run s.context w₂ =
          (.value (s.begin w₂).1, (s.begin w₂).2) := rfl
        dsimp only at hr
        rw [Handler.run_bind_of_value hcontext] at hr
        obtain ⟨filtered, _, hfiltered, hr⟩ := Handler.run_bind_value hr
        cases hr
        -- the filter has come back, so the hook has
        obtain ⟨_, _, hfilter, -⟩ := Handler.run_bind_value hfiltered
        obtain ⟨answer, w₄, hanswer, -⟩ := Handler.run_bind_value (p :=
          (s.session.invokeHook _ .lineFilter [.text (trimLineBreaks text)]).run) hfilter
        have hsame := (s.run_filtered_of_answer hanswer).symm.trans hfiltered
        cases hsame
        exact .intro hprompt hitem hdecode rfl hanswer rfl
    | absent => exact (hend hr).elim
    | int i => exact (hend hr).elim
    | num x => exact (hend hr).elim

/-- The loop comes to every line that it takes. -/
theorem Takes.run {s : Shell} {stdin : InputRef} {w w' : World} {context : Context} {line : String}
    (h : s.Takes n b r stdin w context line w') (status : Int) :
    (handlerWithin n b r).run (s.nextLine stdin status) w = (.value (.ok (context, line)), w') := by
  cases h with
  | @intro w₁ w₂ w₃ w₄ bytes text answer prompt read decodes begins filters line_eq =>
    have hread : w₁.answer (.read stdin (.line true)) = w₁.read stdin (.line true) := rfl
    have hcontext : (handlerWithin n b r).run s.context w₂ = (.value context, w₃) :=
      congrArg (fun begun : Context × World => (Outcome.value begun.1, begun.2)) begins
    have hfiltered := s.run_filtered_of_answer filters
    rw [nextLine, Handler.run_bind_of_value prompt, Handler.run_ask_bind, hread, read]
    dsimp only
    rw [decodes]
    dsimp only
    rw [Handler.run_bind_of_value hcontext, Handler.run_bind_of_value hfiltered, line_eq]
    rfl

/-- The lines that the loop has gone through since it began in a state, each to the end of its
command, with the last status. -/
inductive Ran (n b : Nat) (r : RuntimeRef) (w : World) : List String → Int → World → Prop where
  /-- The loop begins. -/
  | start : Ran n b r w [] 0 w
  /-- It takes one more line, which runs and does not end the shell. -/
  | turn {lines : List String} {line : String} {context : Context} {status status' : Int}
      {w₁ w₂ w₃ : World} (before : Ran n b r w lines status w₁)
      (takes : s.Takes n b r (s.stdin w) w₁ context line w₂)
      (runs : (handlerWithin n b r).run (s.runLine context line) w₂ = (.value (.resume status'), w₃)) :
      Ran n b r w (lines ++ [line]) status' w₃

variable {s}

/-- A line takes something from its input, to which nothing is added. -/
theorem Takes.shorter {stdin : InputRef} {w w' : World} {context : Context} {line : String}
    (h : s.Takes n b r stdin w context line w') (hi : stdin.id < w.inputs.size) :
    stdin.id < w'.inputs.size ∧ (w'.input stdin).rest.length < (w.input stdin).rest.length := by
  cases h with
  | @intro w₁ w₂ w₃ w₄ bytes text answer prompt read decodes begins filters line_eq =>
    have hbegins : TakenFrom stdin w₂ w₃ := by
      cases begins
      exact .of_inputs rfl
    have hanswer : TakenFrom stdin w₄ (s.afterFilter w₄ answer) := by
      cases answer <;> exact .of_inputs rfl
    obtain ⟨h₁, hprompt⟩ := TakenFrom.of_run prompt hi
    have h₂ : stdin.id < w₂.inputs.size := by
      have hsame : (w₁.answer (.read stdin (.line true))).2 = w₂ := congrArg Prod.snd read
      exact hsame ▸ (TakenFrom.answer w₁ (.read stdin (.line true)) h₁).1
    obtain ⟨h₅, hlater⟩ := (hbegins.trans ((TakenFrom.of_run filters).trans hanswer)) h₂
    exact ⟨h₅, calc
      _ ≤ (w₂.input stdin).rest.length := hlater.length_le
      _ < (w₁.input stdin).rest.length := World.length_rest_of_read_line read
      _ ≤ (w.input stdin).rest.length := hprompt.length_le⟩

/-- There are no more lines than bytes, so the loop does not end because of its bound. -/
theorem Ran.length_le {w w' : World} {lines : List String} {status : Int}
    (h : s.Ran n b r w lines status w') (hi : (s.stdin w).id < w.inputs.size) :
    (s.stdin w).id < w'.inputs.size ∧
      lines.length + (w'.input (s.stdin w)).rest.length ≤ (w.input (s.stdin w)).rest.length := by
  induction h with
  | start => exact ⟨hi, by rw [List.length_nil, Nat.zero_add]⟩
  | turn before takes runs ih =>
    obtain ⟨h₁, hle⟩ := ih
    obtain ⟨h₂, hless⟩ := takes.shorter h₁
    obtain ⟨h₃, hrest⟩ := TakenFrom.of_run (i := s.stdin w) runs h₂
    have hle₃ := hrest.length_le
    rw [List.length_append, List.length_singleton]
    exact ⟨h₃, by omega⟩

variable (s)

/-- The lines that the loop has gone through when it ends, and what it ends with. -/
inductive Ended (n b : Nat) (r : RuntimeRef) (w : World) :
    List String → Except Fatal Int → World → Prop where
  /-- There is no next line. -/
  | input {lines : List String} {status : Int} {result : Except Fatal Int} {w₁ w₂ : World}
      (before : s.Ran n b r w lines status w₁)
      (ends : (handlerWithin n b r).run (s.nextLine (s.stdin w) status) w₁ =
        (.value (.error result), w₂)) : Ended n b r w lines result w₂
  /-- A line ends the shell. -/
  | exit {lines : List String} {line : String} {context : Context} {status status' : Int}
      {w₁ w₂ w₃ : World} (before : s.Ran n b r w lines status w₁)
      (takes : s.Takes n b r (s.stdin w) w₁ context line w₂)
      (exits : (handlerWithin n b r).run (s.runLine context line) w₂ = (.value (.exit status'), w₃)) :
      Ended n b r w (lines ++ [line]) (.ok status') w₃
  /-- There have been more lines than bytes. -/
  | bound {lines : List String} {status : Int} {w₁ : World} (before : s.Ran n b r w lines status w₁)
      (many : (w.input (s.stdin w)).rest.length < lines.length) :
      Ended n b r w lines (.ok status) w₁

/-- The words that a line runs as: those that the aliases make of it. -/
def wordsOf (line : String) (w : World) : List String :=
  w.host.collections.aliases.expand (Words.split line)

/-- The lines that an interactive run has executed at a moment, the one that runs included. -/
inductive Executed (n b : Nat) (r : RuntimeRef) (w : World) : List String → Moment → Prop where
  /-- The startup scripts are loaded. -/
  | starting {m m' : Moment} (hm : Reaches n b r s.start w m') (beside : m.Beside m') :
      Executed n b r w [] m
  /-- The loop comes to its next line, which is recorded next if it is not empty. -/
  | waiting {lines : List String} {status : Int} {w₀ w₁ : World} {m m' : Moment}
      (starts : (handlerWithin n b r).run s.start w = (.value (), w₀))
      (before : s.Ran n b r w₀ lines status w₁)
      (hm : Reaches n b r (s.nextLine (s.stdin w₀) status) w₁ m') (beside : m.Beside m') :
      Executed n b r w lines m
  /-- A line runs, which is not empty and has been recorded. -/
  | running {lines : List String} {line : String} {context : Context} {status : Int}
      {w₀ w₁ w₂ : World} {m m' : Moment}
      (starts : (handlerWithin n b r).run s.start w = (.value (), w₀))
      (before : s.Ran n b r w₀ lines status w₁)
      (takes : s.Takes n b r (s.stdin w₀) w₁ context line w₂) (isLine : line.isEmpty = false)
      (hm : Reaches n b r (s.runRecorded context line (wordsOf line w₂)) (recorded line w₂) m')
      (beside : m.Beside m') : Executed n b r w (lines ++ [line]) m
  /-- The loop has ended. -/
  | finishing {lines : List String} {result : Except Fatal Int} {w₀ w₁ : World} {m m' : Moment}
      (starts : (handlerWithin n b r).run s.start w = (.value (), w₀))
      (before : s.Ended n b r w₀ lines result w₁)
      (hm : Reaches n b r (s.finish result) w₁ m') (beside : m.Beside m') : Executed n b r w lines m

variable {s}

/-- A line is at its beginning, or it has been recorded and runs. -/
theorem reaches_runLine {context : Context} {line : String} {w : World} {m : Moment}
    (hm : Reaches n b r (s.runLine context line) w m) :
    (m.activations = [] ∧ m.world = w) ∨ (line.isEmpty = false ∧
      ∃ m', Reaches n b r (s.runRecorded context line (wordsOf line w)) (recorded line w) m' ∧
        m.Beside m') := by
  unfold runLine at hm
  split at hm
  · cases hm
    exact .inl ⟨rfl, rfl⟩
  · next hline =>
    have hline := Bool.eq_false_iff.2 hline
    cases hm with
    | now => exact .inl ⟨rfl, rfl⟩
    | perform later =>
      cases later with
      | now => exact .inr ⟨hline, _, .now, rfl, rfl⟩
      | perform later => exact .inr ⟨hline, m, later, rfl, rfl⟩

section Loop

variable {w w₀ : World} (starts : (handlerWithin n b r).run s.start w = (.value (), w₀))

include starts

/-- The moments of the loop, and of what comes after it. -/
theorem exists_executed_loop {bound : Nat} {lines : List String} {status : Int} {w₁ : World}
    (before : s.Ran n b r w₀ lines status w₁)
    (hbound : (w₀.input (s.stdin w₀)).rest.length + 1 = lines.length + bound) {m : Moment}
    (hm : Reaches n b r ((s.interactiveWithin (s.stdin w₀) bound status).bind s.finish) w₁ m) :
    ∃ lines, s.Executed n b r w lines m := by
  induction bound generalizing lines status w₁ with
  | zero => exact ⟨lines, .finishing starts (.bound before (by omega)) hm ⟨rfl, rfl⟩⟩
  | succ bound ih =>
    rw [interactiveWithin_succ, Program.bind_assoc] at hm
    rcases reaches_bind hm with ⟨m', hm', hb, -⟩ | ⟨next, w₂, hnext, hm⟩
    · exact ⟨lines, .waiting starts before hm' hb⟩
    · rcases next with result | ⟨context, line⟩
      · exact ⟨lines, .finishing starts (.input before hnext) hm ⟨rfl, rfl⟩⟩
      · have takes := s.takes_of_run hnext
        have hbound' : (w₀.input (s.stdin w₀)).rest.length + 1 = (lines ++ [line]).length + bound := by
          rw [List.length_append, List.length_singleton]
          omega
        change Reaches n b r ((Program.bind (s.runLine context line) _).bind s.finish) w₂ m at hm
        rw [Program.bind_assoc] at hm
        rcases reaches_bind hm with ⟨m', hm', hb, -⟩ | ⟨flow, w₃, hflow, hm⟩
        · rcases s.reaches_runLine hm' with ⟨hout, hworld⟩ | ⟨isLine, m'', hm'', hb'⟩
          · -- the moment is that at which the line has been taken
            exact ⟨lines, .waiting starts before (reaches_value hnext)
              ⟨hout.symm.trans hb.1, hworld.symm.trans hb.2⟩⟩
          · exact ⟨lines ++ [line], .running starts before takes isLine hm''
              ⟨hb'.1.trans hb.1, hb'.2.trans hb.2⟩⟩
        · cases flow with
          | resume status => exact ih (.turn before takes hflow) hbound' hm
          | exit status =>
            exact ⟨lines ++ [line], .finishing starts (.exit before takes hflow) hm ⟨rfl, rfl⟩⟩

end Loop

/-- **Every moment of an interactive run is accounted for.** -/
theorem exists_executed {w : World} {m : Moment} (hm : Reaches n b r (s.run .interactive) w m) :
    ∃ lines, s.Executed n b r w lines m := by
  rw [run_eq] at hm
  change Reaches n b r ((Program.bind s.start fun _ => s.interactive).bind s.finish) w m at hm
  rw [Program.bind_assoc] at hm
  rcases reaches_bind hm with ⟨m', hm', hb, -⟩ | ⟨_, w₀, starts, hm⟩
  · exact ⟨[], .starting hm' hb⟩
  · -- the loop looks at its input before it begins
    have hbegin (hout : m.activations = []) (hworld : m.world = w₀) : s.Executed n b r w [] m :=
      .waiting starts .start .now ⟨hout.symm, hworld.symm⟩
    cases hm with
    | now => exact ⟨[], hbegin rfl rfl⟩
    | perform hm =>
      cases hm with
      | now => exact ⟨[], hbegin rfl rfl⟩
      | perform hm => exact exists_executed_loop starts .start (Nat.zero_add _).symm hm

end Shell
end ScriptShell
