import Mathlib.Data.List.DropRight
import ScriptShell.Proofs.HookCalls
import ScriptShell.Proofs.WordSplitting
import ScriptShell.Shell.Basic

/-! # Aliases and what they stand for

A line that begins with an alias has the same words as the line with the body of the alias in its
place, as long as the quotes of the body are closed: splitting goes on after a blank as at the
beginning of a line (`Words.splitChars_append_blank`), so that expanding the words of the one gives
the words of the other (`Aliases.expand_split`), and trimming takes away nothing that matters
(`Words.split_trimBlank`).  So from the argument filter on both lines run the same command
(`Shell.alias_expansion`).  One command looks at the line itself and not at its words: `lua` runs
what stands after the first blank of the line (`Shell.luaSource`), and there the two lines differ if
the body has more than one word, since the line with the alias does not have the rest of the body.
-/

namespace ScriptShell

/-! ## Trimming -/

section Trimming

variable {p : Char → Bool} {xs ys : List Char}

theorem dropEnd_eq_nil_iff : dropEnd p xs = [] ↔ ∀ c ∈ xs, p c = true :=
  List.rdropWhile_eq_nil_iff

theorem dropEnd_append_of_all (hy : ∀ c ∈ ys, p c = true) (xs : List Char) :
    dropEnd p (xs ++ ys) = dropEnd p xs := by
  have hnil : ys.reverse.dropWhile p = [] :=
    List.dropWhile_eq_nil_iff.2 fun c hc => hy c (List.mem_reverse.1 hc)
  rw [dropEnd, List.reverse_append, List.dropWhile_append, hnil, List.isEmpty_nil, if_pos rfl,
    dropEnd]

theorem dropEnd_append_of_ne_nil (hy : dropEnd p ys ≠ []) (xs : List Char) :
    dropEnd p (xs ++ ys) = xs ++ dropEnd p ys := by
  have hne : (ys.reverse.dropWhile p).isEmpty = false :=
    List.isEmpty_eq_false_iff.2 fun he => hy (by rw [dropEnd, he, List.reverse_nil])
  rw [dropEnd, List.reverse_append, List.dropWhile_append, hne, if_neg Bool.false_ne_true,
    List.reverse_append, List.reverse_reverse, dropEnd]

/-- What is dropped at the end. -/
theorem exists_append_dropEnd (p : Char → Bool) (xs : List Char) :
    ∃ ys, xs = dropEnd p xs ++ ys ∧ ∀ c ∈ ys, p c = true :=
  ⟨xs.rtakeWhile p, List.rdropWhile_append_rtakeWhile.symm, fun _ => List.mem_rtakeWhile_imp⟩

end Trimming

/-- The text without the blank characters at its end. -/
def trimBlankEnd (s : String) : String := String.ofList (dropEnd isBlank s.toList)

/-- The text without the blank characters at its beginning. -/
def trimBlankStart (s : String) : String := String.ofList (s.toList.dropWhile isBlank)

namespace Words

/-! ## The words of joined lines -/

variable {xs : List Char}

theorem splitChars_dropWhile (xs : List Char) :
    splitChars (xs.dropWhile isBlank) = splitChars xs := by
  conv_rhs => rw [← List.takeWhile_append_dropWhile (p := isBlank) (l := xs)]
  exact (splitFrom_append_of_all_blank (fun _ => List.mem_takeWhile_imp) _).symm

theorem count_quote_dropWhile (xs : List Char) :
    (xs.dropWhile isBlank).count '"' = xs.count '"' := by
  conv_rhs => rw [← List.takeWhile_append_dropWhile (p := isBlank) (l := xs)]
  rw [List.count_append, count_quote_of_all_blank fun _ => List.mem_takeWhile_imp, Nat.zero_add]

/-- Blanks at the end do not matter where no quote is open. -/
theorem splitChars_dropEnd (hq : xs.count '"' % 2 = 0) :
    splitChars (dropEnd isBlank xs) = splitChars xs := by
  obtain ⟨blanks, hxs, hblank⟩ := exists_append_dropEnd isBlank xs
  rw [hxs, List.count_append, count_quote_of_all_blank hblank, Nat.add_zero] at hq
  conv_rhs => rw [hxs]
  cases blanks with
  | nil => rw [List.append_nil]
  | cons c blanks =>
    have hrest : splitChars blanks = [] :=
      splitFrom_of_all_blank fun c' hc' => hblank c' (List.mem_cons_of_mem c hc')
    rw [splitChars_append_blank (Nat.even_iff.2 hq) (hblank c List.mem_cons_self), hrest,
      List.append_nil]

/-- The words of two texts with a blank between them. -/
theorem splitChars_dropEnd_append (hq : xs.count '"' % 2 = 0) (ys : List Char) :
    splitChars (dropEnd isBlank (xs ++ ' ' :: ys)) =
      splitChars xs ++ splitChars (dropEnd isBlank ys) := by
  have hspace : isBlank ' ' = true := by decide
  by_cases hy : dropEnd isBlank ys = []
  · have hall : ∀ c ∈ ' ' :: ys, isBlank c = true :=
      List.forall_mem_cons.2 ⟨hspace, dropEnd_eq_nil_iff.1 hy⟩
    rw [dropEnd_append_of_all hall, splitChars_dropEnd hq, hy]
    exact (List.append_nil _).symm
  · have htail : dropEnd isBlank (' ' :: ys) = ' ' :: dropEnd isBlank ys :=
      dropEnd_append_of_ne_nil hy [' ']
    rw [dropEnd_append_of_ne_nil (by rw [htail]; exact List.cons_ne_nil _ _), htail]
    exact splitChars_append_blank (Nat.even_iff.2 hq) hspace _

end Words

theorem toList_join (b r : String) : (b ++ " " ++ r).toList = b.toList ++ ' ' :: r.toList := by
  simp

/-- Two texts with a blank between them have the words of both. -/
theorem Words.split_join {b : String} (hq : Even (b.toList.count '"')) (r : String) :
    Words.split (b ++ " " ++ r) = Words.split b ++ Words.split r := by
  rw [Words.split, toList_join, Words.splitChars_append_blank hq (by decide), List.map_append,
    Words.split, Words.split]

/-- The characters of a text with words, without the blank ones in front. -/
theorem dropWhile_ne_nil {s : String} (hs : Words.split s ≠ []) :
    s.toList.dropWhile isBlank ≠ [] := by
  intro he
  rw [Words.split, ← Words.splitChars_dropWhile, he] at hs
  exact hs rfl

theorem toList_trimBlank_join {b : String} (hb : Words.split b ≠ []) (r : String) :
    (trimBlank (b ++ " " ++ r)).toList =
      dropEnd isBlank (b.toList.dropWhile isBlank ++ ' ' :: r.toList) := by
  have hne : (b.toList.dropWhile isBlank).isEmpty = false :=
    List.isEmpty_eq_false_iff.2 (dropWhile_ne_nil hb)
  rw [trimBlank, String.toList_ofList, toList_join, List.dropWhile_append, hne,
    if_neg Bool.false_ne_true]

/-- A line has the words of its parts. -/
theorem Words.split_trimBlank {b : String} (hq : b.toList.count '"' % 2 = 0)
    (hb : Words.split b ≠ []) (r : String) :
    Words.split (trimBlank (b ++ " " ++ r)) = Words.split b ++ Words.split (trimBlankEnd r) := by
  rw [Words.split, toList_trimBlank_join hb, Words.splitChars_dropEnd_append
    (by rwa [Words.count_quote_dropWhile]), Words.splitChars_dropWhile, List.map_append,
    Words.split, Words.split, trimBlankEnd, String.toList_ofList]

/-! ## What stands after the first word -/

/-- What stands after the first blank of a text, in characters. -/
theorem tail_dropWhile_dropEnd {xs : List Char} {c : Char} (hx : ∀ x ∈ xs, isBlank x = false)
    (hc : isBlank c = true) (ys : List Char) :
    ((dropEnd isBlank (xs ++ c :: ys)).dropWhile (!isBlank ·)).tail = dropEnd isBlank ys := by
  by_cases hy : dropEnd isBlank ys = []
  · -- nothing is left after the first word
    have hall : ∀ c' ∈ c :: ys, isBlank c' = true :=
      List.forall_mem_cons.2 ⟨hc, dropEnd_eq_nil_iff.1 hy⟩
    have hnil : (dropEnd isBlank xs).dropWhile (!isBlank ·) = [] := by
      refine List.dropWhile_eq_nil_iff.2 fun x hm => ?_
      rw [hx x ((List.rdropWhile_prefix isBlank xs).subset hm)]
      rfl
    rw [dropEnd_append_of_all hall, hnil, hy, List.tail_nil]
  · have htail : dropEnd isBlank (c :: ys) = c :: dropEnd isBlank ys :=
      dropEnd_append_of_ne_nil hy [c]
    have hnil : xs.dropWhile (!isBlank ·) = [] :=
      List.dropWhile_eq_nil_iff.2 fun x hm => by rw [hx x hm]; rfl
    rw [dropEnd_append_of_ne_nil (by rw [htail]; exact List.cons_ne_nil _ _), htail,
      List.dropWhile_append, hnil, List.isEmpty_nil, if_pos rfl, List.dropWhile_cons, hc]
    rfl

namespace Shell

/-- The source that `lua` runs: what stands after the first blank of the line. -/
def luaSource (line : String) : String := ((splitAtBlank? line).map (·.2)).getD ""

theorem luaSource_eq (line : String) :
    luaSource line = String.ofList (line.toList.dropWhile (!isBlank ·)).tail := by
  rw [luaSource, splitAtBlank?]
  cases line.toList.dropWhile (!isBlank ·) with
  | nil => rfl
  | cons c rest => rfl

/-- If there is no blank in the first part of a line, the rest of the line is the source. -/
theorem luaSource_of_word {b : String} (hb : Words.split b ≠ [])
    (hword : splitAtBlank? (trimBlankStart b) = none) (r : String) :
    luaSource (trimBlank (b ++ " " ++ r)) = trimBlankEnd r := by
  have hnil : (b.toList.dropWhile isBlank).dropWhile (!isBlank ·) = [] := by
    rw [splitAtBlank?, trimBlankStart, String.toList_ofList] at hword
    split at hword
    · next h => exact h
    · cases hword
  have hx : ∀ x ∈ b.toList.dropWhile isBlank, isBlank x = false := fun x hm => by
    simpa using List.dropWhile_eq_nil_iff.1 hnil x hm
  rw [luaSource_eq, toList_trimBlank_join hb, tail_dropWhile_dropEnd hx (by decide), trimBlankEnd]

/-- If there is one, what follows it stands in front of the rest. -/
theorem luaSource_of_words {b first body : String} (hb : Words.split b ≠ [])
    (hbody : splitAtBlank? (trimBlankStart b) = some (first, body)) (r : String) :
    luaSource (trimBlank (b ++ " " ++ r)) = trimBlankEnd (body ++ " " ++ r) := by
  rw [luaSource_eq, toList_trimBlank_join hb]
  rw [splitAtBlank?, trimBlankStart, String.toList_ofList] at hbody
  split at hbody
  · cases hbody
  next c rest hrest =>
    cases hbody
    have hc : isBlank c = true := by
      have hhead := List.head?_dropWhile_not (!isBlank ·) (b.toList.dropWhile isBlank)
      rw [hrest] at hhead
      simpa using hhead
    have hx : ∀ x ∈ (b.toList.dropWhile isBlank).takeWhile (!isBlank ·), isBlank x = false :=
      fun x hm => by simpa using List.mem_takeWhile_imp hm
    rw [← List.takeWhile_append_dropWhile (p := (!isBlank ·)) (l := b.toList.dropWhile isBlank),
      hrest, List.append_assoc, List.cons_append, tail_dropWhile_dropEnd hx hc, trimBlankEnd,
      toList_join, String.toList_ofList]

/-! ## Running a line -/

/-- What happens to a line after it was recorded, with its words. -/
def runRecorded (s : Shell) (context : Context) (line : String) (words : List String) :
    Program CommandFlow := do
  match ← s.dispatcher.onArgs s.terminal context words with
  | [] => return .resume 0
  | name :: args =>
    if ← s.showsCommands then s.say ("+ " ++ " ".intercalate (name :: args) ++ "\n")
    s.runWordsOf context line name args

/-- What `lua` does with its source, after the command was shown. -/
def runLua (s : Shell) (context : Context) (source : String) (words : List String) :
    Program CommandFlow := do
  if ← s.showsCommands then s.say ("+ " ++ " ".intercalate words ++ "\n")
  return .resume (← s.statusOf (← (s.session.runString context source).run))

/-- Commands other than `lua` do not look at the line. -/
theorem runWordsOf_congr (s : Shell) (context : Context) {line line' name : String}
    (h : luaSource line = luaSource line' ∨ name ≠ "lua") (args : List String) :
    s.runWordsOf context line name args = s.runWordsOf context line' name args := by
  unfold runWordsOf
  split <;> try rfl
  rcases h with h | h
  · rw [luaSource, luaSource] at h
    rw [h]
  · exact absurd rfl h

/-- The context of the next command, and the state with it. -/
def begin (s : Shell) (w : World) : Context × World :=
  let (signal, w) := w.beginCommand s.interrupt
  w.addContext signal none

/-- The state after a line was recorded. -/
def recorded (line : String) (w : World) : World := { w with host := w.host.pushHistory line }

variable (s : Shell) (h : Handler) (w : World)

/-- Without a line filter a line stays as it is. -/
theorem run_filtered (context : Context) (line : String)
    (hfilter : (w.host.registry (w.session s.session).hooks).get? .lineFilter = none) :
    h.run (s.filtered context line) w = (.value line, w) := by
  have hhook := SessionRef.run_invokeHook (h := h) (w := w) (s := s.session) context .lineFilter
    [.text line]
  rw [hfilter] at hhook
  have hline : h.run (s.session.filterLine context line) w = (.value (.ok none), w) :=
    Handler.run_bind_of_value hhook
  exact Handler.run_bind_of_value hline

/-- Without a line filter a line that is not blank is recorded and then runs. -/
theorem run_execute
    (hfilter : (w.host.registry (w.session s.session).hooks).get? .lineFilter = none)
    {line : String} (hline : (trimBlank line).isEmpty = false) :
    h.run (s.execute line) w =
      h.run (s.runRecorded (s.begin w).1 (trimBlank line)
          (w.host.collections.aliases.expand (Words.split (trimBlank line))))
        (recorded (trimBlank line) (s.begin w).2) := by
  have hcontext : h.run s.context w = (.value (s.begin w).1, (s.begin w).2) := rfl
  have hfiltered := s.run_filtered h (s.begin w).2 (s.begin w).1 line hfilter
  rw [execute, Handler.run_bind_of_value hcontext, Handler.run_bind_of_value hfiltered]
  show h.run (if (trimBlank line).isEmpty = true then _ else _) _ = _
  rw [hline]
  rfl

variable {s h w} {context : Context} {words : List String} {line line' : String}

theorem runRecorded_congr (hline : luaSource line = luaSource line') :
    s.runRecorded context line words = s.runRecorded context line' words := by
  rw [runRecorded, runRecorded]
  congr 1
  funext filtered
  cases filtered with
  | nil => rfl
  | cons name args =>
    dsimp only
    rw [s.runWordsOf_congr context (.inl hline)]

theorem run_runRecorded_congr
    (hwords : ∀ args w', h.run (s.dispatcher.onArgs s.terminal context words) w ≠
      (.value ("lua" :: args), w')) :
    h.run (s.runRecorded context line words) w = h.run (s.runRecorded context line' words) w := by
  show h.run (Program.bind _ _) w = h.run (Program.bind _ _) w
  rw [Handler.run_bind, Handler.run_bind]
  cases hr : h.run (s.dispatcher.onArgs s.terminal context words) w with
  | mk outcome w' =>
    cases outcome with
    | error v => rfl
    | exhausted => rfl
    | value filtered =>
      cases filtered with
      | nil => rfl
      | cons name args =>
        have hname : name ≠ "lua" := by
          rintro rfl
          exact hwords args w' hr
        dsimp only
        rw [s.runWordsOf_congr context (.inr hname)]

theorem run_runRecorded_lua {args : List String} {w' : World}
    (hwords : h.run (s.dispatcher.onArgs s.terminal context words) w =
      (.value ("lua" :: args), w')) :
    h.run (s.runRecorded context line words) w =
      h.run (s.runLua context (luaSource line) ("lua" :: args)) w' := by
  rw [runRecorded, Handler.run_bind_of_value hwords]
  rfl

end Shell

theorem Words.split_plain {s : String} (hs : Words.isPlain s.toList = true) :
    Words.split s = [s] := by
  rw [Words.split, Words.splitChars_plain hs, List.map_singleton, String.ofList_toList]

/-- There is no blank in a plain word. -/
theorem splitAtBlank?_plain {s : String} (hs : Words.isPlain s.toList = true) :
    splitAtBlank? (trimBlankStart s) = none := by
  have hnil : (s.toList.dropWhile isBlank).dropWhile (!isBlank ·) = [] := by
    refine List.dropWhile_eq_nil_iff.2 fun c hc => ?_
    rw [(Words.forall_of_isPlain hs c ((List.dropWhile_suffix _).subset hc)).1]
    rfl
  rw [splitAtBlank?, trimBlankStart, String.toList_ofList, hnil]

namespace Aliases

variable {a : Aliases} {name body : String}

theorem expand_of_some (h : a.table.get? name = some body) (rest : List String) :
    a.expand (name :: rest) = Words.split body ++ rest := by
  rw [expand, h]

theorem expand_of_none (h : a.table.get? name = none) (rest : List String) :
    a.expand (name :: rest) = name :: rest := by
  rw [expand, h]

/-- **Expanding the words of a line is splitting the text with the body in it.**  Only the first
word of the line is looked up, and it is looked up once: the words of the body may begin with
another alias or with this one, and there may be none of them.  Without an alias in front the words
stay. -/
theorem expand_split (a : Aliases) :
    (∀ n b r : String, Words.isPlain n.toList = true → a.table.get? n = some b →
        Even (b.toList.count '"') →
      a.expand (Words.split (n ++ " " ++ r)) = Words.split (b ++ " " ++ r)) ∧
    ∀ line : String, (∀ first ∈ (Words.split line).head?, a.table.get? first = none) →
      a.expand (Words.split line) = Words.split line := by
  refine ⟨fun n b r hn halias hquotes => ?_, fun line hline => ?_⟩
  · have hnq : Even (n.toList.count '"') := by
      rw [Words.count_quote_plain hn]
      exact Even.zero
    rw [Words.split_join hnq, Words.split_join hquotes, Words.split_plain hn,
      List.singleton_append, expand_of_some halias]
  · cases hwords : Words.split line with
    | nil => rfl
    | cons first rest =>
      rw [hwords] at hline
      exact expand_of_none (hline first rfl) rest

/-- An alias whose body begins with the alias itself, before a rest with an open quote, one with a
blank body, and a word that is no alias. -/
theorem expand_split_once :
    let a : Aliases := ⟨.ofList [("ls", "ls \"x y\" -l"), ("skip", " \t")]⟩
    a.expand (Words.split ("ls" ++ " " ++ "\"z ")) = ["ls", "x y", "-l", "z "] ∧
      a.expand (Words.split ("skip" ++ " " ++ "ls")) = ["ls"] ∧
      a.expand (Words.split "\"ls \"") = ["ls "] := by
  intro a
  obtain ⟨halias, hother⟩ := expand_split a
  exact ⟨(halias "ls" "ls \"x y\" -l" "\"z " (by decide) (by decide) (by decide)).trans
      (by decide),
    (halias "skip" " \t" "ls" (by decide) (by decide) (by decide)).trans (by decide),
    (hother "\"ls \"" (by decide)).trans (by decide)⟩

end Aliases

theorem isEmpty_trimBlank_join {b : String} (hq : b.toList.count '"' % 2 = 0)
    (hb : Words.split b ≠ []) (r : String) : (trimBlank (b ++ " " ++ r)).isEmpty = false := by
  rw [Bool.eq_false_iff]
  intro he
  have hsplit := Words.split_trimBlank hq hb r
  rw [String.isEmpty_iff.1 he] at hsplit
  exact hb (List.append_eq_nil_iff.1 hsplit.symm).1

namespace Shell

/-- **An alias and its body run the same command.**  Without a line filter, the line with a plain
word that is an alias and the line with the body in its place have the same words from the argument
filter on, if the quotes of the body are closed and its first word is no alias; they run from states
that differ in the recorded line only.  Unless the argument filter makes a `lua` command of them,
the lines themselves make no difference, and neither do they if the body has no blank inside.  `lua`
runs what stands after the first blank of the line, and that is all of the body but its first word
less with the alias than with the body. -/
theorem alias_expansion (s : Shell) (h : Handler) (w : World) {n b first : String}
    {more : List String} (r : String)
    (hfilter : (w.host.registry (w.session s.session).hooks).get? .lineFilter = none)
    (hn : Words.isPlain n.toList = true)
    (halias : w.host.collections.aliases.table.get? n = some b)
    (hquotes : b.toList.count '"' % 2 = 0) (hfirst : Words.split b = first :: more)
    (hlast : w.host.collections.aliases.table.get? first = none) :
    h.run (s.execute (n ++ " " ++ r)) w =
        h.run (s.runRecorded (s.begin w).1 (trimBlank (n ++ " " ++ r))
            (Words.split b ++ Words.split (trimBlankEnd r)))
          (recorded (trimBlank (n ++ " " ++ r)) (s.begin w).2) ∧
      h.run (s.execute (b ++ " " ++ r)) w =
        h.run (s.runRecorded (s.begin w).1 (trimBlank (b ++ " " ++ r))
            (Words.split b ++ Words.split (trimBlankEnd r)))
          (recorded (trimBlank (b ++ " " ++ r)) (s.begin w).2) ∧
      (∀ context words w',
        (∀ args w'', h.run (s.dispatcher.onArgs s.terminal context words) w' ≠
          (.value ("lua" :: args), w'')) →
        h.run (s.runRecorded context (trimBlank (n ++ " " ++ r)) words) w' =
          h.run (s.runRecorded context (trimBlank (b ++ " " ++ r)) words) w') ∧
      (splitAtBlank? (trimBlankStart b) = none → ∀ context words,
        s.runRecorded context (trimBlank (n ++ " " ++ r)) words =
          s.runRecorded context (trimBlank (b ++ " " ++ r)) words) ∧
      ∀ first' body, splitAtBlank? (trimBlankStart b) = some (first', body) →
        ∀ context words args w' w'', h.run (s.dispatcher.onArgs s.terminal context words) w' =
            (.value ("lua" :: args), w'') →
          h.run (s.runRecorded context (trimBlank (n ++ " " ++ r)) words) w' =
            h.run (s.runLua context (trimBlankEnd r) ("lua" :: args)) w'' ∧
          h.run (s.runRecorded context (trimBlank (b ++ " " ++ r)) words) w' =
            h.run (s.runLua context (trimBlankEnd (body ++ " " ++ r)) ("lua" :: args)) w'' := by
  have hplain := Words.split_plain hn
  have hnq : n.toList.count '"' % 2 = 0 := by rw [Words.count_quote_plain hn]
  have hns : Words.split n ≠ [] := by rw [hplain]; exact List.cons_ne_nil _ _
  have hbs : Words.split b ≠ [] := by rw [hfirst]; exact List.cons_ne_nil _ _
  -- the alias is all that stands before the first blank, so `lua` loses nothing else
  have hsource := luaSource_of_word hns (splitAtBlank?_plain hn) r
  refine ⟨?_, ?_, fun context words w' hwords => run_runRecorded_congr hwords,
    fun hbody context words => runRecorded_congr ?_,
    fun first' body hbody context words args w' w'' hwords => ⟨?_, ?_⟩⟩
  · rw [run_execute s h w hfilter (isEmpty_trimBlank_join hnq hns r),
      Words.split_trimBlank hnq hns, hplain, List.singleton_append, Aliases.expand_of_some halias]
  · rw [run_execute s h w hfilter (isEmpty_trimBlank_join hquotes hbs r),
      Words.split_trimBlank hquotes hbs, hfirst, List.cons_append, Aliases.expand_of_none hlast]
  · rw [hsource, luaSource_of_word hbs hbody]
  · rw [run_runRecorded_lua hwords, hsource]
  · rw [run_runRecorded_lua hwords, luaSource_of_words hbs hbody]

/-- A shell in which `hi` stands for a greeting in the guest's language. -/
def greeting : World :=
  { host := { collections := { aliases := ⟨.ofList [("hi", "lua print(1)")]⟩ } } }

/-- Both lines become the same command with the same words, but with the alias there is nothing left
for `lua` to run. -/
theorem greeting_lost :
    let h : Handler := handler ⟨0⟩
    let s : Shell := default
    h.run (s.execute "hi ") greeting =
        h.run (s.runRecorded (s.begin greeting).1 "hi" ["lua", "print(1)"])
          (recorded "hi" (s.begin greeting).2) ∧
      h.run (s.execute "lua print(1) ") greeting =
        h.run (s.runRecorded (s.begin greeting).1 "lua print(1)" ["lua", "print(1)"])
          (recorded "lua print(1)" (s.begin greeting).2) ∧
      ∀ context words args w' w'',
        h.run (s.dispatcher.onArgs s.terminal context words) w' = (.value ("lua" :: args), w'') →
          h.run (s.runRecorded context "hi" words) w' =
            h.run (s.runLua context "" ("lua" :: args)) w'' ∧
          h.run (s.runRecorded context "lua print(1)" words) w' =
            h.run (s.runLua context "print(1)" ("lua" :: args)) w'' := by
  intro h s
  obtain ⟨halias, hbody, -, -, hlua⟩ := @alias_expansion s h greeting "hi" "lua print(1)"
    "lua" ["print(1)"] "" rfl (by decide) (by decide) (by decide) (by decide) (by decide)
  exact ⟨halias, hbody, hlua "lua" "print(1)" (by decide)⟩

end Shell
end ScriptShell
