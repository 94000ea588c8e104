import Mathlib.Data.List.TakeWhile
import ScriptShell.Config.Basic
import ScriptShell.Guest.Lexer

/-! # Names of the guest language

A name is spelled with letters, digits and underscores of ASCII, has no digit in front and is no
reserved word (`Guest.IsName`).  The scanner takes the longest run of such characters and makes a
name or a reserved word of it (`Guest.Lexer.scan_word`), and it makes names in no other way, so the
names among the tokens of all sources are the names as they are described here
(`Guest.Lexer.exists_name_token_iff`). -/

namespace ScriptShell.Guest

/-! ## Spelling -/

/-- A letter of ASCII. -/
def IsLetter (c : Char) : Prop := 'A' ≤ c ∧ c ≤ 'Z' ∨ 'a' ≤ c ∧ c ≤ 'z'
  deriving Decidable

/-- A digit of ASCII. -/
def IsDigit (c : Char) : Prop := '0' ≤ c ∧ c ≤ '9'
  deriving Decidable

/-- A text that is spelled like a name: letters, digits and underscores of ASCII, at least one of
them, and no digit in front. -/
structure IsSpelled (s : String) : Prop where
  ne_empty : s ≠ ""
  chars : ∀ c ∈ s.toList, IsLetter c ∨ IsDigit c ∨ c = '_'
  head : ∀ c ∈ s.toList.head?, ¬ IsDigit c

/-- A name of the guest language: a text that is spelled like one and is no reserved word. -/
structure IsName (s : String) : Prop extends IsSpelled s where
  free : s ∉ reservedWords

variable {c : Char} {s : String}

theorem startsName_iff : Config.startsName c = true ↔ IsLetter c ∨ c = '_' := by
  delta Config.startsName Char.isAlpha Char.isUpper Char.isLower
  simp only [Bool.or_eq_true, Bool.and_eq_true, decide_eq_true_eq, beq_iff_eq, IsLetter,
    Char.le_def, ge_iff_le]

theorem continuesName_iff : Config.continuesName c = true ↔ IsLetter c ∨ IsDigit c ∨ c = '_' := by
  delta Config.continuesName Char.isAlphanum Char.isAlpha Char.isUpper Char.isLower Char.isDigit
  simp only [Bool.or_eq_true, Bool.and_eq_true, decide_eq_true_eq, beq_iff_eq, IsLetter, IsDigit,
    Char.le_def, ge_iff_le, or_assoc]

theorem isDigit_iff : c.isDigit = true ↔ IsDigit c := by
  simp only [Char.isDigit, Bool.and_eq_true, decide_eq_true_eq, IsDigit, Char.le_def, ge_iff_le]

theorem not_isDigit_of_startsName (h : Config.startsName c = true) : ¬ IsDigit c := by
  rintro ⟨-, h9⟩
  rcases startsName_iff.1 h with (⟨hA, -⟩ | ⟨ha, -⟩) | rfl
  · exact absurd (Char.le_trans hA h9) (by decide)
  · exact absurd (Char.le_trans ha h9) (by decide)
  · exact absurd h9 (by decide)

theorem isIdentifier_of_isSpelled (h : IsSpelled s) : Config.isIdentifier s = true := by
  rw [Config.isIdentifier]
  cases hs : s.toList with
  | nil => exact absurd (String.toList_eq_nil_iff.1 hs) h.ne_empty
  | cons c cs =>
    have hchars := hs ▸ h.chars
    have hhead : ¬ IsDigit c := h.head c (by rw [hs]; rfl)
    refine Bool.and_eq_true_iff.2 ⟨startsName_iff.2 ?_, List.all_eq_true.2 fun c' hc' =>
      continuesName_iff.2 (hchars c' (List.mem_cons_of_mem c hc'))⟩
    rcases hchars c List.mem_cons_self with hc | hc | hc
    · exact .inl hc
    · exact absurd hc hhead
    · exact .inr hc

theorem isSpelled_of_isIdentifier (h : Config.isIdentifier s = true) : IsSpelled s := by
  rw [Config.isIdentifier] at h
  cases hs : s.toList with
  | nil =>
    rw [hs] at h
    cases h
  | cons c cs =>
    rw [hs] at h
    obtain ⟨hc, hcs⟩ := Bool.and_eq_true_iff.1 h
    refine ⟨fun he => ?_, ?_, ?_⟩
    · rw [he] at hs
      cases hs
    · rw [hs]
      exact List.forall_mem_cons.2 ⟨(startsName_iff.1 hc).imp_right .inr,
        fun c' hc' => continuesName_iff.1 (List.all_eq_true.1 hcs c' hc')⟩
    · rw [hs]
      rintro c' ⟨⟩
      exact not_isDigit_of_startsName hc

/-- What a configuration asks of the name of the capability table is the spelling of a name. -/
theorem isIdentifier_iff : Config.isIdentifier s = true ↔ IsSpelled s :=
  ⟨isSpelled_of_isIdentifier, isIdentifier_of_isSpelled⟩

instance (s : String) : Decidable (IsSpelled s) :=
  decidable_of_iff (Config.isIdentifier s = true) isIdentifier_iff

instance (s : String) : Decidable (IsName s) :=
  decidable_of_iff (IsSpelled s ∧ s ∉ reservedWords) ⟨fun h => ⟨h.1, h.2⟩, fun h => ⟨h.1, h.2⟩⟩

namespace Lexer

/-! ## Names as bytes -/

theorem toNat_char (b : UInt8) : (char b).toNat = b.toNat := by
  have hb : b.toNat.isValidChar := .inl (Nat.lt_trans b.toNat_lt (by decide))
  rw [char, Char.ofNat, dif_pos hb]
  rfl

theorem char_inj {b b' : UInt8} : char b = char b' ↔ b = b' := by
  refine ⟨fun h => UInt8.toNat_inj.1 ?_, congrArg char⟩
  rw [← toNat_char, h, toNat_char]

theorem beq_underscore (b : UInt8) : (b == 95) = (char b == '_') := by
  rw [Bool.eq_iff_iff, beq_iff_eq, beq_iff_eq]
  exact char_inj.symm

theorem startsName_eq (b : UInt8) : startsName b = Config.startsName (char b) := by
  rw [startsName, Config.startsName, beq_underscore]

theorem continuesName_eq (b : UInt8) : continuesName b = Config.continuesName (char b) := by
  rw [continuesName, Config.continuesName, beq_underscore]

theorem continuesName_of_startsName {b : UInt8} (h : startsName b = true) :
    continuesName b = true := by
  rw [startsName_eq, startsName_iff] at h
  rw [continuesName_eq, continuesName_iff]
  exact h.imp_right .inr

/-- The number of a character that names may hold. -/
theorem toNat_lt_of_continuesName (h : Config.continuesName c = true) : c.toNat < 128 := by
  rw [continuesName_iff] at h
  rcases h with (⟨-, h⟩ | ⟨-, h⟩) | ⟨-, h⟩ | rfl
  · exact Nat.lt_of_le_of_lt h (by decide)
  · exact Nat.lt_of_le_of_lt h (by decide)
  · exact Nat.lt_of_le_of_lt h (by decide)
  · decide

/-- A text of ASCII has one byte for each character. -/
theorem encode_of_ascii (h : ∀ c ∈ s.toList, c.toNat < 128) :
    Utf8.encode s = s.toList.map fun c => UInt8.ofNat c.toNat := by
  have hone : ∀ c ∈ s.toList, String.utf8EncodeChar c = [UInt8.ofNat c.toNat] := fun c hc =>
    if_pos (Nat.le_of_lt_succ (h c hc))
  calc Utf8.encode s = s.toList.flatMap String.utf8EncodeChar := by
        rw [Utf8.encode, String.toUTF8_eq_toByteArray, ← String.utf8Encode_toList, List.utf8Encode,
          List.data_toByteArray, List.toList_toArray]
    _ = s.toList.flatMap fun c => [UInt8.ofNat c.toNat] := by
        rw [List.flatMap_def, List.flatMap_def, List.map_congr_left hone]
    _ = s.toList.map fun c => UInt8.ofNat c.toNat := List.map_eq_flatMap.symm

theorem char_ofNat_toNat (h : c.toNat < 128) : char (UInt8.ofNat c.toNat) = c := by
  refine Char.toNat_inj.1 ?_
  rw [toNat_char, UInt8.toNat_ofNat']
  exact Nat.mod_eq_of_lt (Nat.lt_trans h (by decide))

theorem chars_encode (h : ∀ c ∈ s.toList, c.toNat < 128) : chars (Utf8.encode s) = s.toList := by
  rw [encode_of_ascii h, chars, List.map_map]
  exact (List.map_congr_left (g := id) fun c hc => char_ofNat_toNat (h c hc)).trans (List.map_id _)

theorem ascii_of_isSpelled (h : IsSpelled s) : ∀ c ∈ s.toList, c.toNat < 128 :=
  fun c hc => toNat_lt_of_continuesName (continuesName_iff.2 (h.chars c hc))

/-! ## The scanner at a name -/

/-- The token that is made of a run of characters of names. -/
def wordToken (name : String) : Token :=
  if reservedWords.contains name then .mark name else .name name

/-- What starts a name is no blank, no line break and no sign. -/
theorem startsName_cases {b : UInt8} (h : startsName b = true) :
    isSpace b = false ∧ isBreak b = false ∧ b ≠ 45 := by
  refine ⟨Bool.eq_false_iff.2 fun hs => ?_, Bool.eq_false_iff.2 fun hs => ?_, ?_⟩
  · simp only [isSpace, Bool.or_eq_true, beq_iff_eq] at hs
    rcases hs with ((rfl | rfl) | rfl) | rfl <;> exact absurd h (by decide)
  · simp only [isBreak, Bool.or_eq_true, beq_iff_eq] at hs
    rcases hs with rfl | rfl <;> exact absurd h (by decide)
  · rintro rfl
    exact absurd h (by decide)

/-- The end of a source ends a word. -/
theorem stops_nil : ∀ b ∈ ([] : Bytes).head?, continuesName b = false := fun _ hb => nomatch hb

/-- A byte that names do not hold ends a word. -/
theorem stops_of_head {b : UInt8} (hb : continuesName b = false) (rest : Bytes) :
    ∀ b' ∈ (b :: rest).head?, continuesName b' = false := by
  rintro b' ⟨⟩
  exact hb

/-- The scanner takes all of a word that starts like a name and is not continued. -/
theorem scan_word {b : UInt8} {w rest : Bytes} (hb : startsName b = true)
    (hw : ∀ b' ∈ w, continuesName b' = true) (hrest : ∀ b' ∈ rest.head?, continuesName b' = false)
    (n line : Nat) :
    scan (n + 1) line (b :: w ++ rest) =
      (scan n line rest).map (⟨wordToken (String.ofList (chars (b :: w))), line⟩ :: ·) := by
  obtain ⟨hspace, hbreak, hsign⟩ := startsName_cases hb
  have hall : ∀ b' ∈ b :: w, continuesName b' = true :=
    List.forall_mem_cons.2 ⟨continuesName_of_startsName hb, hw⟩
  have htake : rest.takeWhile continuesName = [] := by
    cases rest with
    | nil => rfl
    | cons c rest => rw [List.takeWhile_cons, hrest c rfl]; rfl
  have hdrop : rest.dropWhile continuesName = rest := by
    cases rest with
    | nil => rfl
    | cons c rest => rw [List.dropWhile_cons, hrest c rfl]; rfl
  have htaken : (b :: w ++ rest).takeWhile continuesName = b :: w := by
    rw [List.takeWhile_append_of_pos hall, htake, List.append_nil]
  have hleft : (b :: w ++ rest).dropWhile continuesName = rest := by
    rw [List.dropWhile_append_of_pos hall, hdrop]
  rw [List.cons_append] at htaken hleft ⊢
  rw [scan, hspace, hbreak, if_neg Bool.false_ne_true, if_neg Bool.false_ne_true,
    if_neg (by simp [hsign]), if_pos hb, htaken, hleft]
  rfl

/-- The bytes of a text that is spelled like a name are a word to the scanner. -/
theorem exists_encode (h : IsSpelled s) :
    ∃ b w, Utf8.encode s = b :: w ∧ startsName b = true ∧ ∀ b' ∈ w, continuesName b' = true := by
  have hchars := chars_encode (ascii_of_isSpelled h)
  have hall : ∀ b ∈ Utf8.encode s, continuesName b = true := fun b hb => by
    rw [continuesName_eq, continuesName_iff]
    exact h.chars _ (hchars ▸ List.mem_map_of_mem hb)
  cases he : Utf8.encode s with
  | nil =>
    rw [he] at hchars
    exact absurd (String.toList_eq_nil_iff.1 hchars.symm) h.ne_empty
  | cons b w =>
    rw [he] at hchars hall
    have hstart := isIdentifier_of_isSpelled h
    rw [Config.isIdentifier, ← hchars] at hstart
    refine ⟨b, w, rfl, ?_, fun b' hb' => hall b' (List.mem_cons_of_mem b hb')⟩
    rw [startsName_eq]
    exact (Bool.and_eq_true_iff.1 hstart).1

/-- The scanner makes one token of a text that is spelled like a name. -/
theorem scan_encode (h : IsSpelled s) {rest : Bytes}
    (hrest : ∀ b ∈ rest.head?, continuesName b = false) (n line : Nat) :
    scan (n + 1) line (Utf8.encode s ++ rest) =
      (scan n line rest).map (⟨wordToken s, line⟩ :: ·) := by
  obtain ⟨b, w, he, hb, hw⟩ := exists_encode h
  have hs : String.ofList (chars (b :: w)) = s := by
    rw [← he, chars_encode (ascii_of_isSpelled h), String.ofList_toList]
  rw [he, scan_word hb hw hrest, hs]

/-! ## Names among the tokens of a source -/

/-- A word that the scanner takes is spelled like a name. -/
theorem isSpelled_word {b : UInt8} (hb : startsName b = true) (rest : Bytes) :
    IsSpelled (String.ofList (chars ((b :: rest).takeWhile continuesName))) := by
  refine isSpelled_of_isIdentifier ?_
  rw [List.takeWhile_cons, if_pos (continuesName_of_startsName hb), Config.isIdentifier,
    String.toList_ofList, chars, List.map_cons]
  refine Bool.and_eq_true_iff.2 ⟨startsName_eq b ▸ hb, List.all_eq_true.2 fun c hc => ?_⟩
  obtain ⟨b', hb', rfl⟩ := List.mem_map.1 hc
  exact continuesName_eq b' ▸ List.mem_takeWhile_imp hb'

theorem isName_of_wordToken {w : String} (hw : IsSpelled w) (h : wordToken w = .name s) :
    IsName s := by
  rw [wordToken] at h
  split at h
  · cases h
  · next hfree =>
    cases h
    exact ⟨hw, fun hmem => hfree (List.contains_iff_mem.2 hmem)⟩

/-- What one step of the scanner makes of a source that has tokens: nothing is left of it, the step
skips a part, or it takes a token off. -/
inductive Stepped (n : Nat) : List Located → Prop where
  | done (line : Nat) : Stepped n [⟨.done, line⟩]
  | skipped {line : Nat} {rest : Bytes} {ts : List Located} (h : scan n line rest = .ok ts) :
      Stepped n ts
  | taken {t : Located} {line : Nat} {rest : Bytes} {ts : List Located}
      (ht : ∀ s, t.token = .name s → IsName s) (h : scan n line rest = .ok ts) : Stepped n (t :: ts)

theorem Stepped.of_map {n line : Nat} {rest : Bytes} {t : Located} {ts : List Located}
    (ht : ∀ s, t.token = .name s → IsName s)
    (h : (scan n line rest).map (t :: ·) = .ok ts) : Stepped n ts := by
  cases hr : scan n line rest with
  | error e =>
    rw [hr] at h
    cases h
  | ok ts' =>
    rw [hr] at h
    cases h
    exact .taken ht hr

theorem stepped_of_scan {n line : Nat} {source : Bytes} {ts : List Located}
    (h : scan (n + 1) line source = .ok ts) : Stepped n ts := by
  rw [scan.eq_def] at h
  dsimp only at h
  split at h
  · cases h
    exact .done line
  split at h
  · exact .skipped h
  split at h
  · exact .skipped h
  split at h
  · -- a comment
    split at h
    · split at h
      · exact .skipped h
      · cases h
    · exact .skipped h
  split at h
  · -- a name or a reserved word
    next hb => exact .of_map (fun _ => isName_of_wordToken (isSpelled_word hb _)) h
  split at h
  · -- a string in quotes
    split at h
    · cases h
    · exact .of_map (fun _ hs => by cases hs) h
  split at h
  · -- a numeral
    split at h
    · exact .of_map (fun _ hs => by cases hs) h
    · exact .of_map (fun _ hs => by cases hs) h
    · cases h
  split at h
  · -- a long string
    split at h
    · exact .of_map (fun _ hs => by cases hs) h
    · cases h
  split at h
  · exact .of_map (fun _ hs => by cases hs) h
  · cases h

/-- The names among the tokens of a source are names. -/
theorem isName_of_mem_scan {n line : Nat} {source : Bytes} {ts : List Located} {t : Located}
    (h : scan n line source = .ok ts) (ht : t ∈ ts) (hs : t.token = .name s) : IsName s := by
  induction n generalizing line source ts with
  | zero =>
    cases h
    rw [List.mem_singleton.1 ht] at hs
    cases hs
  | succ n ih =>
    cases stepped_of_scan h with
    | done line =>
      rw [List.mem_singleton.1 ht] at hs
      cases hs
    | skipped hrest => exact ih hrest ht
    | taken hname hrest =>
      rcases List.mem_cons.1 ht with rfl | ht
      · exact hname s hs
      · exact ih hrest ht

theorem wordToken_of_isName (h : IsName s) : wordToken s = .name s :=
  if_neg fun hmem => h.free (List.contains_iff_mem.1 hmem)

theorem wordToken_of_mem (h : s ∈ reservedWords) : wordToken s = .mark s :=
  if_pos (List.contains_iff_mem.2 h)

theorem isSpelled_of_mem (h : s ∈ reservedWords) : IsSpelled s := by
  have hall : ∀ w ∈ reservedWords, Config.isIdentifier w = true := by decide
  exact isSpelled_of_isIdentifier (hall s h)

/-- The source that is a name has it as its first token. -/
theorem tokens_encode (h : IsName s) :
    tokens (Utf8.encode s) = .ok [⟨.name s, 1⟩, ⟨.done, 1⟩] := by
  have hscan := scan_encode h.toIsSpelled stops_nil (Utf8.encode s).length 1
  rw [List.append_nil] at hscan
  rw [tokens, hscan, wordToken_of_isName h]
  cases (Utf8.encode s).length <;> rfl

/-- **The names that the scanner finds in sources are the names of the language.** -/
theorem exists_name_token_iff :
    (∃ source ts line, tokens source = .ok ts ∧ ⟨.name s, line⟩ ∈ ts) ↔ IsName s := by
  constructor
  · rintro ⟨source, ts, line, hts, hmem⟩
    exact isName_of_mem_scan hts hmem rfl
  · intro h
    exact ⟨Utf8.encode s, _, 1, tokens_encode h, List.mem_cons_self⟩

end Lexer
end ScriptShell.Guest
