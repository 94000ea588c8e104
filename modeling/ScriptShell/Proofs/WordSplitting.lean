import Mathlib.Algebra.Group.Nat.Even
import ScriptShell.Text.Words

/-! # The words of a line

The splitter reads a line once and remembers whether a quote is open; that is the parity of the
quotes that it has passed.  Told from the line alone, a character belongs to a word if it is no
quote and, where it is blank, stands behind an odd number of quotes (`Words.belongs`).  The words of
a line are these characters, no more and no fewer (`Words.flatten_splitChars`), and after a blank
behind an even number of quotes splitting begins anew (`Words.splitChars_append_blank`).

In the other direction, a word that is written in quotes, or bare where that is possible, is read
back (`Words.splitFrom_text`), and so is a line of such words with blanks between them. -/

namespace ScriptShell.Words

variable {p : Partial} {xs ys w : List Char} {c : Char}

theorem isBlank_quote : isBlank '"' = false := by decide

/-! ## Characters that are taken into the word at hand -/

/-- Characters other than quotes, which are not blank unless a quote is open, go into the word at
hand. -/
theorem splitFrom_taken (hw : ∀ c ∈ w, c ≠ '"' ∧ (isBlank c = true → p.quoted = true))
    (rest : List Char) :
    splitFrom p (w ++ rest) =
      splitFrom { p with chars := w.reverse ++ p.chars, begun := p.begun || !w.isEmpty } rest := by
  induction w generalizing p with
  | nil => simp
  | cons c w ih =>
    obtain ⟨hc, hb⟩ := hw c List.mem_cons_self
    have hkeep : (isBlank c && !p.quoted) = false := by
      cases h : isBlank c with
      | false => rfl
      | true => rw [hb h]; rfl
    have hrest : ∀ c' ∈ w, c' ≠ '"' ∧
        (isBlank c' = true → ({ p with chars := c :: p.chars, begun := true } : Partial).quoted) :=
      fun c' hc' => hw c' (List.mem_cons_of_mem c hc')
    rw [List.cons_append, splitFrom, if_neg hc, hkeep, if_neg Bool.false_ne_true, ih hrest]
    simp

theorem forall_of_isPlain (hw : isPlain w = true) : ∀ c ∈ w, isBlank c = false ∧ c ≠ '"' := by
  rw [isPlain, Bool.and_eq_true_iff, List.all_eq_true] at hw
  intro c hc
  simpa using hw.2 c hc

theorem isEmpty_of_isPlain (hw : isPlain w = true) : w.isEmpty = false := by
  simpa using (Bool.and_eq_true_iff.1 hw).1

theorem splitFrom_plain (hw : isPlain w = true) (rest : List Char) :
    splitFrom {} (w ++ rest) = splitFrom { chars := w.reverse, begun := true } rest := by
  have htaken : ∀ c ∈ w, c ≠ '"' ∧ (isBlank c = true → ({} : Partial).quoted = true) := by
    intro c hc
    obtain ⟨hb, hq⟩ := forall_of_isPlain hw c hc
    exact ⟨hq, fun h => by rw [hb] at h; cases h⟩
  rw [splitFrom_taken htaken, isEmpty_of_isPlain hw]
  simp

theorem splitFrom_quoted (hw : '"' ∉ w) (rest : List Char) :
    splitFrom {} (quote w ++ rest) = splitFrom { chars := w.reverse, begun := true } rest := by
  have htaken : ∀ c ∈ w, c ≠ '"' ∧
      (isBlank c = true → ({ quoted := !false, begun := true } : Partial).quoted = true) :=
    fun c hc => ⟨fun h => hw (h ▸ hc), fun _ => rfl⟩
  calc splitFrom {} (quote w ++ rest)
      = splitFrom { quoted := !false, begun := true } (w ++ '"' :: rest) := by
        rw [quote, List.cons_append, splitFrom_quote, List.append_assoc, List.singleton_append]
    _ = splitFrom { chars := w.reverse, begun := true, quoted := true } ('"' :: rest) := by
        rw [splitFrom_taken htaken]
        simp
    _ = splitFrom { chars := w.reverse, begun := true } rest := splitFrom_quote _ rest

theorem splitChars_plain (hw : isPlain w = true) : splitChars w = [w] := by
  rw [splitChars, ← List.append_nil w, splitFrom_plain hw, List.append_nil]
  simp [Partial.finish]

theorem count_quote_plain (hw : isPlain w = true) : w.count '"' = 0 :=
  List.count_eq_zero.2 fun hm => (forall_of_isPlain hw _ hm).2 rfl

/-! ## Blanks -/

/-- Blanks outside of quotes end the word at hand. -/
theorem splitFrom_blanks (hy : ∀ c ∈ ys, isBlank c = true) (hp : p.quoted = false) (hne : ys ≠ [])
    (rest : List Char) : splitFrom p (ys ++ rest) = p.finish ++ splitFrom {} rest := by
  induction ys generalizing p with
  | nil => exact absurd rfl hne
  | cons y ys ih =>
    rw [List.cons_append, splitFrom_blank (hy y List.mem_cons_self) hp]
    cases ys with
    | nil => rfl
    | cons z zs =>
      rw [ih (fun c hc => hy c (List.mem_cons_of_mem y hc)) rfl (List.cons_ne_nil z zs)]
      rfl

/-- Blanks before a word do not matter. -/
theorem splitFrom_append_of_all_blank (hy : ∀ c ∈ ys, isBlank c = true) (rest : List Char) :
    splitFrom {} (ys ++ rest) = splitFrom {} rest := by
  cases ys with
  | nil => rfl
  | cons y ys => exact splitFrom_blanks hy rfl (List.cons_ne_nil y ys) rest

theorem splitFrom_of_all_blank (hy : ∀ c ∈ ys, isBlank c = true) : splitFrom {} ys = [] := by
  rw [← List.append_nil ys, splitFrom_append_of_all_blank hy]
  rfl

theorem count_quote_of_all_blank (hy : ∀ c ∈ ys, isBlank c = true) : ys.count '"' = 0 := by
  refine List.count_eq_zero.2 fun hm => ?_
  have := hy _ hm
  rw [isBlank_quote] at this
  cases this

/-! ## Quotes and what belongs to words -/

/-- Whether a quote is open behind these characters of a line: the number of quotes is odd. -/
def quoteOpen (before : List Char) : Bool := before.count '"' % 2 == 1

/-- Whether a character of a line belongs to a word, where these characters stand before it. -/
def belongs (before : List Char) (c : Char) : Bool :=
  c != '"' && (!isBlank c || quoteOpen before)

/-- The characters of the rest of a line that belong to words. -/
def contentFrom (before rest : List Char) : List Char :=
  ((rest.zipIdx before.length).filter fun e => belongs ((before ++ rest).take e.2) e.1).map (·.1)

/-- The characters of a line that belong to words: all but the quotes and the blanks outside of
quotes. -/
def content (line : List Char) : List Char := contentFrom [] line

@[simp] theorem quoteOpen_nil : quoteOpen [] = false := rfl

theorem quoteOpen_concat_quote (before : List Char) :
    quoteOpen (before ++ ['"']) = !quoteOpen before := by
  rw [quoteOpen, quoteOpen, List.count_append, List.count_singleton_self]
  rcases Nat.mod_two_eq_zero_or_one (before.count '"') with h | h <;> simp [Nat.add_mod, h]

theorem quoteOpen_concat_of_ne (hc : c ≠ '"') (before : List Char) :
    quoteOpen (before ++ [c]) = quoteOpen before := by
  have hnone : [c].count '"' = 0 := List.count_eq_zero.2 (by simpa using hc.symm)
  rw [quoteOpen, quoteOpen, List.count_append, hnone, Nat.add_zero]

theorem quoteOpen_eq_false_iff : quoteOpen xs = false ↔ Even (xs.count '"') := by
  rw [quoteOpen, Nat.even_iff, beq_eq_false_iff_ne]
  exact Nat.mod_two_ne_one

theorem contentFrom_cons (before : List Char) (c : Char) (rest : List Char) :
    contentFrom before (c :: rest) =
      (if belongs before c then [c] else []) ++ contentFrom (before ++ [c]) rest := by
  rw [contentFrom, contentFrom, List.zipIdx_cons, List.filter_cons, List.take_left,
    List.append_assoc, List.singleton_append, List.length_append, List.length_singleton]
  split <;> rfl

/-! ## The splitter behind a part of the line -/

/-- What the splitter keeps of the word at hand when it has read these characters of a line. -/
structure Reading (before : List Char) (p : Partial) : Prop where
  quoted : p.quoted = quoteOpen before
  begun : p.begun = false → p.chars = []

namespace Reading

variable {before : List Char}

theorem nil : Reading [] {} := ⟨rfl, fun _ => rfl⟩

theorem quote (h : Reading before p) :
    Reading (before ++ ['"']) { p with quoted := !p.quoted, begun := true } :=
  ⟨by rw [quoteOpen_concat_quote, h.quoted], fun hb => Bool.noConfusion hb⟩

theorem blank (h : Reading before p) (hc : c ≠ '"') (hp : p.quoted = false) :
    Reading (before ++ [c]) {} :=
  ⟨by rw [quoteOpen_concat_of_ne hc, ← h.quoted, hp], fun _ => rfl⟩

theorem taken (h : Reading before p) (hc : c ≠ '"') :
    Reading (before ++ [c]) { p with chars := c :: p.chars, begun := true } :=
  ⟨by rw [quoteOpen_concat_of_ne hc, ← h.quoted], fun hb => Bool.noConfusion hb⟩

theorem flatten_finish (h : Reading before p) : p.finish.flatten = p.chars.reverse := by
  cases hb : p.begun with
  | true => simp [Partial.finish, hb]
  | false => simp [Partial.finish, hb, h.begun hb]

/-- The words of the rest of a line hold the characters that have been read of the word at hand and
those of the rest that belong to words. -/
theorem flatten_splitFrom (h : Reading before p) (rest : List Char) :
    (splitFrom p rest).flatten = p.chars.reverse ++ contentFrom before rest := by
  induction rest generalizing before p with
  | nil => rw [splitFrom_nil, h.flatten_finish]; exact (List.append_nil _).symm
  | cons c rest ih =>
    rw [splitFrom, contentFrom_cons]
    by_cases hc : c = '"'
    · have hbelongs : belongs before c = false := by simp [belongs, hc]
      rw [if_pos hc, hc, ih h.quote, ← hc, hbelongs]
      simp
    · rw [if_neg hc]
      by_cases hb : (isBlank c && !p.quoted) = true
      · obtain ⟨hblank, hp⟩ : isBlank c = true ∧ p.quoted = false := by simpa using hb
        have hbelongs : belongs before c = false := by simp [belongs, hblank, ← h.quoted, hp]
        rw [if_pos hb, List.flatten_append, h.flatten_finish, ih (h.blank hc hp), hbelongs]
        simp
      · have hbelongs : belongs before c = true := by
          rw [belongs, ← h.quoted, bne_iff_ne.2 hc, Bool.true_and]
          cases hblank : isBlank c <;> simp_all
        rw [if_neg hb, ih (h.taken hc), hbelongs]
        simp

/-- After a blank outside of quotes splitting begins anew. -/
theorem splitFrom_append_blank (h : Reading before p) (hc : isBlank c = true)
    (hq : quoteOpen (before ++ xs) = false) (ys : List Char) :
    splitFrom p (xs ++ c :: ys) = splitFrom p xs ++ splitFrom {} ys := by
  induction xs generalizing before p with
  | nil => exact splitFrom_blank hc (by rw [h.quoted, ← hq, List.append_nil]) ys
  | cons x xs ih =>
    rw [List.append_cons] at hq
    rw [List.cons_append, splitFrom, splitFrom]
    by_cases hx : x = '"'
    · rw [if_pos hx, if_pos hx]
      exact ih h.quote (hx ▸ hq)
    · rw [if_neg hx, if_neg hx]
      by_cases hb : (isBlank x && !p.quoted) = true
      · have hp : p.quoted = false := by simpa using (Bool.and_eq_true_iff.1 hb).2
        rw [if_pos hb, if_pos hb, List.append_assoc, ih (h.blank hx hp) hq]
      · rw [if_neg hb, if_neg hb]
        exact ih (h.taken hx) hq

end Reading

theorem flatten_splitChars (line : List Char) : (splitChars line).flatten = content line :=
  Reading.nil.flatten_splitFrom line

theorem splitChars_append_blank (hq : Even (xs.count '"')) (hc : isBlank c = true)
    (ys : List Char) : splitChars (xs ++ c :: ys) = splitChars xs ++ splitChars ys :=
  Reading.nil.splitFrom_append_blank hc (quoteOpen_eq_false_iff.2 hq) ys

/-- The words of a line hold all of its characters but the quotes and the blanks outside of quotes,
in order, and a blank outside of quotes separates the words on its sides. -/
theorem split_content_and_append :
    (∀ line : String, String.join (split line) = String.ofList (content line.toList)) ∧
      ∀ (a b : String) (w : Char), Even (a.toList.count '"') → isBlank w = true →
        split (a ++ String.singleton w ++ b) = split a ++ split b := by
  refine ⟨fun line => ?_, fun a b w ha hw => ?_⟩
  · have hjoin : (String.join (split line)).toList = (splitChars line.toList).flatten := by
      rw [String.toList_join, split, List.flatMap_map, ← List.flatMap_id]
      simp
    rw [← flatten_splitChars, ← hjoin, String.ofList_toList]
  · rw [split, String.toList_append, String.toList_append, String.toList_singleton,
      List.append_assoc, List.singleton_append, splitChars_append_blank ha hw, List.map_append,
      split, split]

/-- A line with two quoted words that touch, an empty one and blanks of several kinds. -/
theorem split_content_and_append_tab :
    String.join (split "\"a b\"c \"\"") = "a bc" ∧
      split ("say \"x y\"" ++ String.singleton '\t' ++ "\"\" \"z ") =
        split "say \"x y\"" ++ split "\"\" \"z " :=
  ⟨(split_content_and_append.1 _).trans (by decide),
    split_content_and_append.2 _ _ '\t' (by decide) (by decide)⟩

/-! ## Lines that are written from words -/

/-- A word as it stands in a line, with the blanks behind it. -/
structure Written where
  word : String
  /-- Whether the word stands in double quotes. -/
  quoted : Bool
  /-- The blanks behind the word. -/
  gap : List Char
  noQuote : '"' ∉ word.toList
  bare : quoted = false → isPlain word.toList = true
  blank : ∀ c ∈ gap, isBlank c = true

namespace Written

/-- The word, quoted or bare, without the blanks behind it. -/
def text (s : Written) : List Char := if s.quoted then quote s.word.toList else s.word.toList

/-- The line of these words, each with the blanks behind it. -/
def line (words : List Written) : List Char := words.flatMap fun s => s.text ++ s.gap

end Written

theorem splitFrom_text (s : Written) (rest : List Char) :
    splitFrom {} (s.text ++ rest) =
      splitFrom { chars := s.word.toList.reverse, begun := true } rest := by
  cases h : s.quoted with
  | true => rw [Written.text, h, if_pos rfl, splitFrom_quoted s.noQuote]
  | false => rw [Written.text, h, if_neg Bool.false_ne_true, splitFrom_plain (s.bare h)]

theorem splitChars_line {words : List Written} (hgaps : ∀ s ∈ words.dropLast, s.gap ≠ []) :
    splitChars (Written.line words) = words.map fun s => s.word.toList := by
  induction words with
  | nil => rfl
  | cons s words ih =>
    have hfinish : ({ chars := s.word.toList.reverse, begun := true } : Partial).finish =
        [s.word.toList] := by simp [Partial.finish]
    rw [Written.line, List.flatMap_cons, List.append_assoc, splitChars, splitFrom_text,
      List.map_cons]
    by_cases hgap : s.gap = []
    · -- only the last word may have no blank behind it
      cases words with
      | nil => rw [hgap]; exact hfinish
      | cons t words => exact absurd hgap (hgaps s List.mem_cons_self)
    · rw [splitFrom_blanks s.blank rfl hgap, hfinish, List.singleton_append, ← splitChars,
        ← Written.line, ih fun t ht => hgaps t ?_]
      cases words with
      | nil => cases ht
      | cons u words => exact List.mem_cons_of_mem s ht

/-- Words without quotes, each of them in quotes or, if it can, bare, with blanks between them and
perhaps around them, are the words of the line that they make. -/
theorem split_written {lead : List Char} {words : List Written}
    (hlead : ∀ c ∈ lead, isBlank c = true) (hgaps : ∀ s ∈ words.dropLast, s.gap ≠ []) :
    split (String.ofList (lead ++ Written.line words)) = words.map (·.word) := by
  rw [split, String.toList_ofList, splitChars, splitFrom_append_of_all_blank hlead, ← splitChars,
    splitChars_line hgaps, List.map_map]
  exact List.map_congr_left fun s _ => String.ofList_toList

/-- An empty word, one with a blank in it and a bare one, with blanks of several kinds. -/
theorem split_written_three : split "\t\"\"\u00a0 \"a b\" c" = ["", "a b", "c"] := by
  let words : List Written :=
    [⟨"", true, ['\u00a0', ' '], by decide, by decide, List.all_eq_true.1 rfl⟩,
      ⟨"a b", true, [' '], by decide, by decide, List.all_eq_true.1 rfl⟩,
      ⟨"c", false, [], by decide, by decide, List.all_eq_true.1 rfl⟩]
  exact @split_written ['\t'] words (List.all_eq_true.1 rfl) (by decide)

end ScriptShell.Words
