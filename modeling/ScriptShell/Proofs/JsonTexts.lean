import Mathlib.Data.List.Forall2
import Mathlib.Data.List.TakeWhile
import Mathlib.Data.Option.Basic
import ScriptShell.Config.Json

/-! # Printed JSON is read back

What a text may look like is said once, for values: `Reads cs v` holds of characters that the
reader takes off the front of any input, whatever stands behind them, as long as it cannot be
taken for more of the value.  Strings, truth values and whole numbers are such texts
(`reads_quote`, `reads_bool`, `reads_repr`), and arrays and objects are, with any blanks between
their parts, if their parts are (`reads_array`, `reads_object`).  The reader's steps are counted
against the length of the text, so a text of the printer is never cut short. -/

namespace ScriptShell
namespace Json

/-! ## Strings -/

theorem hexValue?_digitChar : ∀ d < 16, hexValue? (Nat.digitChar d) = some d := by
  decide

/-- The escape of a control character names it. -/
theorem hexUnit?_control {k : Nat} (hk : k < 0x20) :
    hexUnit? '0' '0' (Nat.digitChar (k / 16)) (Nat.digitChar (k % 16)) = some k := by
  have hz : hexValue? '0' = some 0 := rfl
  have hq := hexValue?_digitChar (k / 16) (by omega)
  have hr := hexValue?_digitChar (k % 16) (by omega)
  simp only [hexUnit?, hz, hq, hr, Option.bind_eq_bind, Option.bind_some, Option.pure_def]
  congr 1
  omega

/-- One printed character is one step of the reader. -/
theorem stringBody_escapeChar (n : Nat) (c : Char) (cs : List Char) :
    stringBody (n + 1) (escapeChar c ++ cs) = (stringBody n cs).map (addChar c) := by
  unfold escapeChar
  split
  any_goals rfl
  rename_i hquote hslash _ _ _ _ _
  by_cases hc : c.toNat < 0x20
  · have hh : isHighSurrogate c.toNat = false := by
      simp only [isHighSurrogate, Bool.and_eq_false_iff, decide_eq_false_iff_not]
      omega
    have hl : isLowSurrogate c.toNat = false := by
      simp only [isLowSurrogate, Bool.and_eq_false_iff, decide_eq_false_iff_not]
      omega
    rw [if_pos hc]
    simp only [List.cons_append, List.nil_append, stringBody, hexUnit?_control hc, hh, hl,
      Char.ofNat_toNat, Bool.false_eq_true, if_false]
  · -- the character stands for itself: it is none of those that start an escape or end the text
    have hplain : stringBody (n + 1) (c :: cs) =
        if c.toNat < 0x20 then none else (stringBody n cs).map (addChar c) := by
      rw [stringBody]
      · exact hquote
      · exact fun _ _ _ _ _ h _ => hslash h
      · exact fun _ _ h _ => hslash h
    rw [if_neg hc, List.singleton_append, hplain, if_neg hc]

/-- The characters of a string are read up to its closing quote. -/
theorem stringBody_escaped (s rest : List Char) {n : Nat} (hn : s.length < n) :
    stringBody n (s.flatMap escapeChar ++ '"' :: rest) = some (some s, rest) := by
  induction s generalizing n with
  | nil =>
    obtain ⟨n, rfl⟩ := Nat.exists_eq_succ_of_ne_zero (Nat.ne_of_gt hn)
    rfl
  | cons c s ih =>
    obtain ⟨n, rfl⟩ := Nat.exists_eq_succ_of_ne_zero (Nat.ne_of_gt (Nat.zero_lt_of_lt hn))
    rw [List.flatMap_cons, List.append_assoc, stringBody_escapeChar,
      ih (Nat.lt_of_succ_lt_succ hn)]
    rfl

theorem length_le_escaped (s : List Char) : s.length ≤ (s.flatMap escapeChar).length := by
  induction s with
  | nil => exact Nat.le_refl _
  | cons c s ih =>
    have hc : 1 ≤ (escapeChar c).length := by
      unfold escapeChar
      split
      any_goals simp only [List.length_cons, List.length_nil]; omega
      split <;> simp only [List.length_cons, List.length_nil] <;> omega
    rw [List.flatMap_cons, List.length_append, List.length_cons]
    omega

/-! ## Blanks -/

/-- Only blanks. -/
def Blank (cs : List Char) : Prop := ∀ c ∈ cs, isSpace c = true

instance : DecidablePred Blank := fun cs =>
  decidable_of_iff (cs.all isSpace = true) List.all_eq_true

theorem blank_nil : Blank [] := fun _ h => absurd h List.not_mem_nil

theorem skipSpace_blanks {bs : List Char} (hb : Blank bs) (cs : List Char) :
    skipSpace (bs ++ cs) = skipSpace cs :=
  List.dropWhile_append_of_pos hb

theorem skipSpace_cons {c : Char} (hc : isSpace c = false) (cs : List Char) :
    skipSpace (c :: cs) = c :: cs :=
  List.dropWhile_cons_of_neg (by simp [hc])

theorem value?_blanks {bs : List Char} (hb : Blank bs) (n : Nat) (cs : List Char) :
    value? n (bs ++ cs) = value? n cs := by
  cases n with
  | zero => rfl
  | succ n => rw [value?, value?, skipSpace_blanks hb]

theorem items?_blanks {bs : List Char} (hb : Blank bs) (n : Nat) (cs : List Char) :
    items? n (bs ++ cs) = items? n cs := by
  cases n with
  | zero => rfl
  | succ n => rw [items?, items?, value?_blanks hb]

theorem members?_blanks {bs : List Char} (hb : Blank bs) (n : Nat) (cs : List Char) :
    members? n (bs ++ cs) = members? n cs := by
  cases n with
  | zero => rfl
  | succ n => rw [members?, members?, skipSpace_blanks hb]

/-- What is skipped is a row of blanks. -/
theorem exists_blanks (cs : List Char) : ∃ bs, Blank bs ∧ cs = bs ++ skipSpace cs :=
  ⟨cs.takeWhile isSpace, fun _ h => List.mem_takeWhile_imp h,
    (List.takeWhile_append_dropWhile (p := isSpace) (l := cs)).symm⟩

theorem items?_skipSpace (n : Nat) (cs : List Char) : items? n (skipSpace cs) = items? n cs := by
  obtain ⟨bs, hb, hcs⟩ := exists_blanks cs
  rw [hcs, items?_blanks hb, ← hcs]

theorem members?_skipSpace (n : Nat) (cs : List Char) :
    members? n (skipSpace cs) = members? n cs := by
  obtain ⟨bs, hb, hcs⟩ := exists_blanks cs
  rw [hcs, members?_blanks hb, ← hcs]

/-! ## Values -/

/-- What may stand behind a value: nothing that could be taken for more of a number. -/
def EndsValue (rest : List Char) : Prop :=
  ∀ c ∈ rest.head?, c.isDigit = false ∧ c ≠ '.' ∧ c ≠ 'e' ∧ c ≠ 'E'

theorem endsValue_nil : EndsValue [] := fun _ h => nomatch h

theorem endsValue_cons {c : Char} (hc : isSpace c ∨ c = ',' ∨ c = ']' ∨ c = '}')
    (cs : List Char) : EndsValue (c :: cs) := by
  intro c' h
  obtain rfl : c = c' := by simpa using h
  simp only [isSpace, Bool.or_eq_true, beq_iff_eq] at hc
  rcases hc with ((((rfl | rfl) | rfl) | rfl) | rfl | rfl | rfl) <;> decide

theorem endsValue_blanks {bs rest : List Char} (hb : Blank bs) (hr : EndsValue rest) :
    EndsValue (bs ++ rest) := by
  cases bs with
  | nil => exact hr
  | cons c bs => exact endsValue_cons (.inl (hb c List.mem_cons_self)) _

/-- The characters are read as the value, whatever follows them. -/
def Reads (cs : List Char) (v : Json) : Prop :=
  ∀ n rest, 2 * cs.length ≤ n → EndsValue rest → value? n (cs ++ rest) = some (v, rest)

theorem Reads.blanks {bs cs : List Char} {v : Json} (hb : Blank bs) (h : Reads cs v) :
    Reads (bs ++ cs) v := by
  intro n rest hn hr
  rw [List.length_append] at hn
  rw [List.append_assoc, value?_blanks hb]
  exact h n rest (by omega) hr

theorem reads_quote (s : String) : Reads (quote s).toList (.string (some s)) := by
  intro n rest hn _
  rw [quote, String.toList_ofList] at hn ⊢
  have hs := length_le_escaped s.toList
  simp only [List.cons_append, List.length_cons, List.length_append] at hn
  obtain ⟨n, rfl⟩ : ∃ m, n = m + 1 := ⟨n - 1, by omega⟩
  have hq := stringBody_escaped s.toList rest (n := n + 1) (by omega)
  simp only [List.cons_append, List.append_assoc, List.nil_append]
  rw [value?, skipSpace_cons (by decide)]
  simp only [hq, Option.map_some, String.ofList_toList]

theorem reads_bool (b : Bool) : Reads (toString b).toList (.bool b) := by
  intro n rest hn _
  have hb : 0 < (toString b).toList.length := by cases b <;> decide
  obtain ⟨n, rfl⟩ : ∃ m, n = m + 1 := ⟨n - 1, by omega⟩
  cases b <;> rfl

/-! ## Whole numbers -/

theorem digits_append {ds rest : List Char} (hd : ∀ c ∈ ds, c.isDigit = true)
    (hr : EndsValue rest) : digits (ds ++ rest) = (ds, rest) := by
  have htake : rest.takeWhile Char.isDigit = [] := by
    cases rest with
    | nil => rfl
    | cons c rest => exact List.takeWhile_cons_of_neg (by simp [(hr c rfl).1])
  have hdrop : rest.dropWhile Char.isDigit = rest := by
    cases rest with
    | nil => rfl
    | cons c rest => exact List.dropWhile_cons_of_neg (by simp [(hr c rfl).1])
  rw [digits, List.takeWhile_append_of_pos hd, List.dropWhile_append_of_pos hd, htake, hdrop,
    List.append_nil]

theorem fraction?_none {rest : List Char} (hr : EndsValue rest) :
    fraction? rest = some ([], rest) := by
  unfold fraction?
  split
  · exact absurd rfl (hr '.' rfl).2.1
  · rfl

theorem exponent?_none {rest : List Char} (hr : EndsValue rest) :
    exponent? rest = some ([], rest) := by
  cases rest with
  | nil => rfl
  | cons c rest =>
    obtain ⟨-, -, he, hE⟩ := hr c rfl
    simp [exponent?, he, hE]

/-- A number greater than zero is not spelled with a zero in front. -/
theorem head?_toDigits {n : Nat} (hn : 0 < n) : (Nat.toDigits 10 n).head? ≠ some '0' := by
  induction n using Nat.strongRecOn with
  | _ n ih =>
    by_cases hlt : n < 10
    · rw [Nat.toDigits_of_lt_base hlt]
      have : ∀ d < 10, 0 < d → [Nat.digitChar d].head? ≠ some '0' := by decide
      exact this n hlt hn
    · rw [Nat.toDigits_of_base_le (by omega) (by omega), List.head?_append,
        List.head?_eq_some_head Nat.toDigits_ne_nil, Option.some_or,
        ← List.head?_eq_some_head]
      exact ih (n / 10) (by omega) (by omega)

theorem isDigit_toDigits (n : Nat) : ∀ c ∈ Nat.toDigits 10 n, c.isDigit = true :=
  fun _ h => Nat.isDigit_of_mem_toDigits (by omega) (by omega) h

theorem number?_toDigits (n : Nat) {rest : List Char} (hr : EndsValue rest) :
    number? (Nat.toDigits 10 n ++ rest) = some (Nat.toDigits 10 n, rest) := by
  -- a printed number has no zero in front, so the guard lets it through
  have hguard : (!(Nat.toDigits 10 n).isEmpty &&
      ((Nat.toDigits 10 n).length = 1 || (Nat.toDigits 10 n).head? != some '0')) = true := by
    rcases Nat.eq_zero_or_pos n with rfl | hn
    · rfl
    · simp [head?_toDigits hn, Nat.toDigits_ne_nil]
  have hd := isDigit_toDigits n
  generalize Nat.toDigits 10 n = ds at hguard hd ⊢
  have hdigits := digits_append hd hr
  cases ds with
  | nil => simp at hguard
  | cons c ds =>
    have hc : c ≠ '-' := by
      rintro rfl
      exact absurd (hd '-' List.mem_cons_self) (by decide)
    rw [List.cons_append] at hdigits ⊢
    unfold number?
    dsimp only
    split
    · exact absurd (List.cons.inj ‹_›).1 hc
    · have hpass : (guard (!(c :: ds).isEmpty &&
          ((c :: ds).length = 1 || (c :: ds).head? != some '0')) : Option Unit) = some () :=
        if_pos hguard
      rw [hdigits]
      show (guard _ : Option Unit).bind _ = _
      rw [hpass]
      show (fraction? rest).bind _ = _
      rw [fraction?_none hr]
      show (exponent? rest).bind _ = _
      rw [exponent?_none hr]
      show some (c :: ds ++ [] ++ [], rest) = _
      rw [List.append_nil, List.append_nil]

/-- A digit starts nothing but a number. -/
theorem value?_digit {c : Char} (hc : c.isDigit = true) (n : Nat) (cs : List Char) :
    value? (n + 1) (c :: cs) = (number? (c :: cs)).map fun r => (.number r.1, r.2) := by
  have hspace : isSpace c = false := by
    rw [isSpace]
    simp only [Bool.or_eq_false_iff, beq_eq_false_iff_ne]
    refine ⟨⟨⟨?_, ?_⟩, ?_⟩, ?_⟩ <;> (rintro rfl; exact absurd hc (by decide))
  have hstart : c ≠ 'n' ∧ c ≠ 't' ∧ c ≠ 'f' ∧ c ≠ '"' ∧ c ≠ '[' ∧ c ≠ '{' := by
    refine ⟨?_, ?_, ?_, ?_, ?_, ?_⟩ <;> (rintro rfl; exact absurd hc (by decide))
  rw [value?, skipSpace_cons hspace]
  split <;> simp_all

theorem reads_repr (n : Nat) : Reads (toString n).toList (.number (Nat.toDigits 10 n)) := by
  intro k rest hk hr
  rw [show toString n = n.repr from rfl, Nat.toList_repr] at hk ⊢
  have hn := number?_toDigits n hr
  have hd := isDigit_toDigits n
  have hne := Nat.toDigits_ne_nil (n := n) (b := 10)
  generalize Nat.toDigits 10 n = ds at hk hn hd hne ⊢
  obtain ⟨c, ds, rfl⟩ := List.exists_cons_of_ne_nil hne
  rw [List.length_cons] at hk
  obtain ⟨k, rfl⟩ : ∃ m, k = m + 1 := ⟨k - 1, by omega⟩
  rw [List.cons_append] at hn ⊢
  rw [value?_digit (hd c List.mem_cons_self), hn]
  rfl

/-! ## Arrays and objects -/

/-- How the parts of an array or an object are read: blanks before a part are skipped, and a part is
one step of the reader, the last one if the closing character is behind it and otherwise one with
more to come. -/
structure ReadsParts {α : Type} (close : Char)
    (read : Nat → List Char → Option (List α × List Char)) (Part : List Char → α → Prop) :
    Prop where
  /-- Blanks are skipped. -/
  blanks {bs : List Char} (hb : Blank bs) (n : Nat) (cs : List Char) : read n (bs ++ cs) = read n cs
  /-- The last part. -/
  last {text rest rest' : List Char} {a : α} (h : Part text a) {n : Nat} (hn : 2 * text.length ≤ n)
    (hr : EndsValue rest) (hc : skipSpace rest = close :: rest') :
    read (n + 1) (text ++ rest) = some ([a], rest')
  /-- A part with others behind it. -/
  more {text rest rest' : List Char} {a : α} (h : Part text a) {n : Nat} (hn : 2 * text.length ≤ n)
    (hr : EndsValue rest) (hc : skipSpace rest = ',' :: rest') :
    read (n + 1) (text ++ rest) = (read n rest').map fun r => (a :: r.1, r.2)

/-- The texts of parts with commas between them, blanks behind each comma and behind the last
part. -/
theorem ReadsParts.intercalate {α : Type} {close : Char}
    {read : Nat → List Char → Option (List α × List Char)} {Part : List Char → α → Prop}
    (p : ReadsParts close read Part) (hclose : close = ']' ∨ close = '}')
    {texts : List (List Char)} {as : List α} (h : List.Forall₂ Part texts as) (hne : texts ≠ [])
    {bs es : List Char} (hb : Blank bs) (he : Blank es) (rest : List Char) {n : Nat}
    (hn : 2 * ((',' :: bs).intercalate texts).length < n) :
    read n ((',' :: bs).intercalate texts ++ (es ++ close :: rest)) = some (as, rest) := by
  obtain ⟨n, rfl⟩ : ∃ m, n = m + 1 := ⟨n - 1, by omega⟩
  induction h generalizing n with
  | nil => exact absurd rfl hne
  | @cons text a texts as ha htail ih =>
    cases texts with
    | nil =>
      cases htail
      have hend : EndsValue (es ++ close :: rest) :=
        endsValue_blanks he (endsValue_cons (.inr (.inr hclose)) _)
      have hspace : isSpace close = false := by
        rcases hclose with rfl | rfl <;> rfl
      rw [List.intercalate_singleton] at hn ⊢
      exact p.last ha (by omega) hend (by rw [skipSpace_blanks he, skipSpace_cons hspace])
    | cons text' texts =>
      rw [List.intercalate_cons_cons] at hn ⊢
      simp only [List.length_append, List.length_cons] at hn
      simp only [List.append_assoc, List.cons_append]
      obtain ⟨n, rfl⟩ : ∃ m, n = m + 1 := ⟨n - 1, by omega⟩
      rw [p.more ha (by omega) (endsValue_cons (by decide) _) (skipSpace_cons (by decide) _),
        p.blanks hb, ih (List.cons_ne_nil _ _) n (by omega)]
      rfl

theorem readsParts_items : ReadsParts ']' items? Reads where
  blanks := items?_blanks
  last h _ hn hr hc := by
    rw [items?, h _ _ hn hr]
    simp only [hc]
  more h _ hn hr hc := by
    rw [items?, h _ _ hn hr]
    simp only [hc]

/-- Where items are read, no array ends. -/
theorem items?_of_closing {n : Nat} {cs rest : List Char} (h : skipSpace cs = ']' :: rest) :
    items? n cs = none := by
  cases n with
  | zero => rfl
  | succ n =>
    have hv : value? n cs = none := by
      cases n with
      | zero => rfl
      | succ n => rw [value?, h]; rfl
    rw [items?, hv]

/-- An array, printed with blanks behind the opening bracket, behind each comma and before the
closing bracket. -/
theorem reads_array {texts : List (List Char)} {vs : List Json}
    (h : List.Forall₂ Reads texts vs) (hne : texts ≠ []) {os bs es : List Char}
    (ho : Blank os) (hb : Blank bs) (he : Blank es) :
    Reads ('[' :: (os ++ ((',' :: bs).intercalate texts ++ (es ++ [']'])))) (.array vs) := by
  intro n rest hn _
  simp only [List.length_append, List.length_cons] at hn
  obtain ⟨n, rfl⟩ : ∃ m, n = m + 1 := ⟨n - 1, by omega⟩
  have hitems := readsParts_items.intercalate (.inl rfl) h hne hb he rest (n := n) (by omega)
  simp only [List.cons_append, List.append_assoc, List.nil_append]
  rw [value?, skipSpace_cons (by decide)]
  simp only
  rw [skipSpace_blanks ho]
  split
  · rw [items?_of_closing ‹_›] at hitems
    exact nomatch hitems
  · rw [items?_skipSpace, hitems]
    rfl

theorem reads_empty : Reads ['[', ']'] (.array []) := by
  intro n rest hn _
  simp only [List.length_cons] at hn
  obtain ⟨n, rfl⟩ : ∃ m, n = m + 1 := ⟨n - 1, by omega⟩
  rfl

/-- A member of an object as it may be printed: its name, a colon and its value, with blanks before
the name and before the value. -/
inductive ReadsMember : List Char → String × Json → Prop where
  /-- The parts of the text. -/
  | mk {bs gap cs : List Char} {v : Json} (name : String) (hb : Blank bs) (hg : Blank gap)
      (hv : Reads cs v) : ReadsMember (bs ++ (quote name).toList ++ ':' :: (gap ++ cs)) (name, v)

/-- One member is one step of the reader: the last one if the object is closed behind it, and
otherwise others follow. -/
theorem ReadsMember.step {text : List Char} {m : String × Json} (h : ReadsMember text m)
    {n : Nat} (hn : 2 * text.length ≤ n) {rest rest' : List Char} (hr : EndsValue rest) :
    (skipSpace rest = '}' :: rest' →
      members? (n + 1) (text ++ rest) = some ([(some m.1, m.2)], rest')) ∧
    (skipSpace rest = ',' :: rest' →
      members? (n + 1) (text ++ rest) =
        (members? n rest').map fun r => ((some m.1, m.2) :: r.1, r.2)) := by
  obtain ⟨name, hb, hg, hv⟩ := h
  rename_i bs gap cs v
  have hs := length_le_escaped name.toList
  rw [quote, String.toList_ofList] at hn ⊢
  simp only [List.length_append, List.length_cons, List.cons_append] at hn
  have hname := stringBody_escaped name.toList (':' :: (gap ++ (cs ++ rest))) (n := n + 1)
    (by omega)
  have hcolon : skipSpace (':' :: (gap ++ (cs ++ rest))) = ':' :: (gap ++ (cs ++ rest)) :=
    skipSpace_cons (by decide) _
  have hvalue : value? n (gap ++ (cs ++ rest)) = some (v, rest) := by
    rw [value?_blanks hg]
    exact hv n rest (by omega) hr
  simp only [List.append_assoc, List.cons_append, List.nil_append]
  rw [members?_blanks hb, members?, skipSpace_cons (by decide)]
  constructor
  · intro hclose
    simp only [hname, hcolon, hvalue, hclose, Option.map_some, String.ofList_toList]
  · intro hcomma
    simp only [hname, hcolon, hvalue, hcomma, Option.map_some, String.ofList_toList]

theorem readsParts_members :
    ReadsParts '}' members? fun text a => ∃ m, ReadsMember text m ∧ (some m.1, m.2) = a where
  blanks := members?_blanks
  last := by
    rintro text rest rest' _ ⟨m, hm, rfl⟩ n hn hr hc
    exact (hm.step hn hr).1 hc
  more := by
    rintro text rest rest' _ ⟨m, hm, rfl⟩ n hn hr hc
    exact (hm.step hn hr).2 hc

/-- Where members are read, no object ends. -/
theorem members?_of_closing {n : Nat} {cs rest : List Char} (h : skipSpace cs = '}' :: rest) :
    members? n cs = none := by
  cases n with
  | zero => rfl
  | succ n => rw [members?, h]; rfl

/-- An object, printed with blanks behind the opening brace, behind each comma and before the
closing brace. -/
theorem reads_object {texts : List (List Char)} {ms : List (String × Json)}
    (h : List.Forall₂ ReadsMember texts ms) (hne : texts ≠ []) {os bs es : List Char}
    (ho : Blank os) (hb : Blank bs) (he : Blank es) :
    Reads ('{' :: (os ++ ((',' :: bs).intercalate texts ++ (es ++ ['}']))))
      (.object (ms.map fun m => (some m.1, m.2))) := by
  intro n rest hn _
  simp only [List.length_append, List.length_cons] at hn
  obtain ⟨n, rfl⟩ : ∃ m, n = m + 1 := ⟨n - 1, by omega⟩
  have hparts : List.Forall₂ (fun text a => ∃ m, ReadsMember text m ∧ (some m.1, m.2) = a) texts
      (ms.map fun m => (some m.1, m.2)) :=
    List.forall₂_map_right_iff.2 (h.imp fun _ m hm => ⟨m, hm, rfl⟩)
  have hmembers :=
    readsParts_members.intercalate (.inr rfl) hparts hne hb he rest (n := n) (by omega)
  simp only [List.cons_append, List.append_assoc, List.nil_append]
  rw [value?, skipSpace_cons (by decide)]
  simp only
  rw [skipSpace_blanks ho]
  split
  · rw [members?_of_closing ‹_›] at hmembers
    exact nomatch hmembers
  · rw [members?_skipSpace, hmembers]
    rfl

/-! ## Whole texts -/

/-- A text that is read as a value, and blanks, are the value. -/
theorem parse?_of_reads {s : String} {v : Json} (h : Reads s.toList v) {bs : List Char}
    (hb : Blank bs) : parse? (s ++ String.ofList bs) = some v := by
  have hend : EndsValue bs := by
    have := endsValue_blanks hb endsValue_nil
    rwa [List.append_nil] at this
  have hskip : skipSpace bs = [] := by
    have := skipSpace_blanks hb []
    rwa [List.append_nil] at this
  rw [parse?, String.toList_append, String.toList_ofList,
    h (2 * (s.toList ++ bs).length + 2) bs (by rw [List.length_append]; omega) hend]
  simp only [hskip, List.isEmpty_nil, if_true]

end Json
end ScriptShell
