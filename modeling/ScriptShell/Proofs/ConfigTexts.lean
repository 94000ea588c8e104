import ScriptShell.CommandLine
import ScriptShell.Proofs.JsonTexts

/-! # A printed configuration is the configuration

The configuration in effect, from its file or the default one and with what the command line adds
to it, can be printed on one line or on many.  Either text describes it completely: a file that
holds the text is accepted and gives the configuration back.  Each printed field is the text of one
JSON value (`shows_printed`), whichever way it is laid out, so both texts are read as one object
(`parse?_compact`, `parse?_pretty`), and that object sets every field to what it was
(`ofJson?_toJson`).  What is left is that a configuration in effect is one that `validate` accepts
and that its time fits the 64 bits that are read (`wellFormed_config`). -/

namespace ScriptShell
namespace Config

/-! ## The object that is printed -/

/-- The fields as JSON values. -/
def members (c : Config) : List (String × Json) :=
  [(Field.namespaceName.key, .string (some c.namespaceName)),
    (Field.scriptDirs.key, .array (c.scriptDirs.map fun s => .string (some s))),
    (Field.startupFiles.key, .array (c.startupFiles.map fun s => .string (some s))),
    (Field.loadStartup.key, .bool c.loadStartup),
    (Field.slowHookThreshold.key, .number (Nat.toDigits 10 c.slowHookThreshold))]

/-- The configuration as a JSON value. -/
def toJson (c : Config) : Json := .object (c.members.map fun m => (some m.1, m.2))

/-- The value that a printed field is the text of. -/
inductive Shows : Printed → Json → Prop where
  /-- The text of a value. -/
  | one {s : String} {v : Json} (h : Json.Reads s.toList v) : Shows (.one s) v
  /-- The texts of the items of an array. -/
  | many {items : List String} {vs : List Json}
      (h : List.Forall₂ (fun s v => Json.Reads s.toList v) items vs) :
      Shows (.many items) (.array vs)

theorem shows_quotes (texts : List String) :
    Shows (.many (texts.map Json.quote)) (.array (texts.map fun s => .string (some s))) := by
  refine .many ?_
  rw [List.forall₂_map_left_iff, List.forall₂_map_right_iff, List.forall₂_same]
  exact fun s _ => Json.reads_quote s

/-- Each printed field is the text of the field's value. -/
theorem shows_printed (c : Config) :
    List.Forall₂ (fun f m => f.1 = m.1 ∧ Shows f.2 m.2) c.printed c.members :=
  .cons ⟨rfl, .one (Json.reads_quote _)⟩ <|
    .cons ⟨rfl, shows_quotes _⟩ <|
      .cons ⟨rfl, shows_quotes _⟩ <|
        .cons ⟨rfl, .one (Json.reads_bool _)⟩ <|
          .cons ⟨rfl, .one (Json.reads_repr _)⟩ .nil

/-! ## Both layouts -/

/-- A field's value without blanks. -/
def Printed.compact : Printed → String
  | .one s => s
  | .many items => "[" ++ ",".intercalate items ++ "]"

/-- A field's value with one item on each line. -/
def Printed.pretty : Printed → String
  | .one s => s
  | .many [] => "[]"
  | .many items => "[\n" ++ ",\n".intercalate (items.map ("    " ++ ·)) ++ "\n  ]"

theorem Shows.reads_compact {p : Printed} {v : Json} (h : Shows p v) :
    Json.Reads p.compact.toList v := by
  cases h with
  | one h => exact h
  | @many items vs h =>
    have htext : (Printed.many items).compact.toList =
        '[' :: ([] ++ ([','].intercalate (items.map String.toList) ++ ([] ++ [']']))) := by
      simp [Printed.compact, String.toList_intercalate]
    rw [htext]
    cases h with
    | nil => exact Json.reads_empty
    | cons hv htail =>
      exact Json.reads_array (List.forall₂_map_left_iff.2 (.cons hv htail))
        (List.cons_ne_nil _ _) Json.blank_nil Json.blank_nil Json.blank_nil

theorem Shows.reads_pretty {p : Printed} {v : Json} (h : Shows p v) :
    Json.Reads p.pretty.toList v := by
  cases h with
  | one h => exact h
  | @many items vs h =>
    have hlines : List.Forall₂ Json.Reads
        (items.map fun s => [' ', ' ', ' ', ' '] ++ s.toList) vs :=
      List.forall₂_map_left_iff.2 (h.imp fun _ _ h => h.blanks (by decide))
    cases items with
    | nil =>
      cases h
      exact Json.reads_empty
    | cons s items =>
      have htext : (Printed.many (s :: items)).pretty.toList =
          '[' :: (['\n'] ++ ([',', '\n'].intercalate
            ((s :: items).map fun s => [' ', ' ', ' ', ' '] ++ s.toList) ++
              (['\n', ' ', ' '] ++ [']']))) := by
        simp [Printed.pretty, String.toList_intercalate, Function.comp_def]
      rw [htext]
      exact Json.reads_array hlines (List.cons_ne_nil _ _) (by decide) (by decide) (by decide)

/-- The members of the object, each with the given blanks and its value laid out in some way. -/
theorem readsMembers (c : Config) {lay : Printed → String}
    (hl : ∀ {p v}, Shows p v → Json.Reads (lay p).toList v) {bs gap : List Char}
    (hb : Json.Blank bs) (hg : Json.Blank gap) :
    List.Forall₂ Json.ReadsMember
      (c.printed.map fun f =>
        bs ++ (Json.quote f.1).toList ++ ':' :: (gap ++ (lay f.2).toList)) c.members := by
  refine List.forall₂_map_left_iff.2 ((shows_printed c).imp ?_)
  rintro ⟨name, p⟩ ⟨_, v⟩ ⟨rfl, h⟩
  exact .mk name hb hg (hl h)

theorem reads_compact (c : Config) : Json.Reads c.compact.toList c.toJson := by
  have hmembers := readsMembers c Shows.reads_compact Json.blank_nil Json.blank_nil
  have htext : c.compact.toList =
      '{' :: ([] ++ ([','].intercalate (c.printed.map fun f =>
        [] ++ (Json.quote f.1).toList ++ ':' :: ([] ++ f.2.compact.toList)) ++ ([] ++ ['}']))) := by
    simp [compact, String.toList_intercalate, Function.comp_def]
    rfl
  rw [htext]
  exact Json.reads_object hmembers (List.cons_ne_nil _ _) Json.blank_nil Json.blank_nil
    Json.blank_nil

theorem reads_pretty (c : Config) : Json.Reads c.pretty.toList c.toJson := by
  have hindent : Json.Blank [' ', ' '] := by decide
  have hgap : Json.Blank [' '] := by decide
  have hmembers := readsMembers c Shows.reads_pretty hindent hgap
  have htext : c.pretty.toList =
      '{' :: (['\n'] ++ ([',', '\n'].intercalate (c.printed.map fun f =>
        [' ', ' '] ++ (Json.quote f.1).toList ++ ':' :: ([' '] ++ f.2.pretty.toList)) ++
          (['\n'] ++ ['}']))) := by
    simp [pretty, String.toList_intercalate, Function.comp_def]
    rfl
  rw [htext]
  exact Json.reads_object hmembers (List.cons_ne_nil _ _) (by decide) (by decide) (by decide)

/-! ## Back to the configuration -/

theorem textsOf?_strings (texts : List String) :
    textsOf? (.array (texts.map fun s => .string (some s))) = some texts := by
  rw [textsOf?]
  induction texts with
  | nil => rfl
  | cons s texts ih =>
    rw [List.map_cons, List.mapM_cons, ih]
    rfl

theorem countOf?_toDigits {n : Nat} (hn : n < UInt64.size) :
    countOf? (.number (Nat.toDigits 10 n)) = some n := by
  have hd : (Nat.toDigits 10 n).all Char.isDigit = true :=
    List.all_eq_true.2 (Json.isDigit_toDigits n)
  have hfold : (Nat.toDigits 10 n).foldl (fun n c => n * 10 + (c.toNat - '0'.toNat)) 0 = n := by
    have := Nat.ofDigitChars_ten_toDigits (n := n)
    rw [Nat.ofDigitChars_eq_foldl] at this
    simpa only [Nat.mul_comm 10] using this
  rw [countOf?, if_pos hd]
  simp only [hfold]
  exact if_pos hn

theorem ofKey?_key (f : Field) : Field.ofKey? f.key = some f := by
  cases f <;> decide

/-- A member that is named after a field and was not met before sets the field. -/
theorem setMembers?_cons {c c' : Config} {f : Field} {seen : List Field} {v : Json}
    (hf : seen.contains f = false) (hv : c.setField? f v = some c')
    (rest : List (Option String × Json)) :
    c.setMembers? seen ((some f.key, v) :: rest) = c'.setMembers? (f :: seen) rest := by
  simp only [setMembers?, ofKey?_key, hf, hv, Bool.false_eq_true, if_false]

/-- The object sets every field. -/
theorem ofJson?_toJson {c : Config} (hc : c.slowHookThreshold < UInt64.size) :
    ofJson? c.toJson = some c := by
  show setMembers? {} [] (c.members.map fun m => (some m.1, m.2)) = some c
  simp only [members, List.map_cons, List.map_nil]
  rw [setMembers?_cons rfl (by simp only [setField?, textOf?, Option.map_some]; rfl),
    setMembers?_cons rfl (by simp only [setField?, textsOf?_strings, Option.map_some]; rfl),
    setMembers?_cons rfl (by simp only [setField?, textsOf?_strings, Option.map_some]; rfl),
    setMembers?_cons rfl (by simp only [setField?, flagOf?, Option.map_some]; rfl),
    setMembers?_cons rfl (by simp only [setField?, countOf?_toDigits hc, Option.map_some]; rfl)]
  rfl

/-- A file that holds a printed configuration, and any blanks behind it, is the configuration. -/
theorem ofBytes_printed {c : Config} (hv : c.validate = .ok ())
    (hc : c.slowHookThreshold < UInt64.size) {text : String} (ht : Json.Reads text.toList c.toJson)
    {bs : List Char} (hb : Json.Blank bs) (path : String) :
    ofBytes path (Utf8.encode (text ++ String.ofList bs)) = .ok c := by
  rw [ofBytes, Utf8.decode?_encode]
  simp only [Json.parse?_of_reads ht hb, Option.bind_some, ofJson?_toJson hc, hv]

/-! ## Configurations in effect -/

/-- What a configuration in effect is like: its namespace is a name, and its time fits 64 bits. -/
structure WellFormed (c : Config) : Prop where
  /-- The namespace is a name. -/
  valid : c.validate = .ok ()
  /-- The time fits. -/
  fits : c.slowHookThreshold < UInt64.size

theorem fits_countOf? {v : Json} {n : Nat} (h : countOf? v = some n) : n < UInt64.size := by
  unfold countOf? at h
  split at h
  · split at h
    · simp only at h
      split at h
      · cases h
        assumption
      · cases h
    · cases h
  · cases h

theorem fits_setField? {c d : Config} {f : Field} {v : Json} (h : c.setField? f v = some d)
    (hc : c.slowHookThreshold < UInt64.size) : d.slowHookThreshold < UInt64.size := by
  cases f
  case slowHookThreshold =>
    obtain ⟨n, hn, rfl⟩ := Option.map_eq_some_iff.1 h
    exact fits_countOf? hn
  all_goals
    obtain ⟨_, -, rfl⟩ := Option.map_eq_some_iff.1 h
    exact hc

theorem fits_setMembers? {c d : Config} {seen : List Field} {ms : List (Option String × Json)}
    (h : c.setMembers? seen ms = some d) (hc : c.slowHookThreshold < UInt64.size) :
    d.slowHookThreshold < UInt64.size := by
  induction ms generalizing c seen with
  | nil =>
    cases h
    exact hc
  | cons m ms ih =>
    obtain ⟨_ | name, v⟩ := m
    · cases h
    · rw [setMembers?] at h
      split at h
      · exact ih h hc
      · split at h
        · cases h
        · split at h
          · exact ih h (fits_setField? ‹_› hc)
          · cases h

theorem fits_setItems? {c d : Config} {fields : List Field} {vs : List Json}
    (h : c.setItems? fields vs = some d) (hc : c.slowHookThreshold < UInt64.size) :
    d.slowHookThreshold < UInt64.size := by
  induction vs generalizing c fields with
  | nil =>
    cases fields <;> cases h <;> exact hc
  | cons v vs ih =>
    cases fields with
    | nil => cases h
    | cons f fields =>
      rw [setItems?] at h
      split at h
      · exact ih h (fits_setField? ‹_› hc)
      · cases h

theorem fits_ofJson? {v : Json} {c : Config} (h : ofJson? v = some c) :
    c.slowHookThreshold < UInt64.size := by
  have hdefault : ({} : Config).slowHookThreshold < UInt64.size := by decide
  unfold ofJson? at h
  split at h
  · exact fits_setMembers? h hdefault
  · exact fits_setItems? h hdefault
  · cases h

theorem wellFormed_read {files : Files} {path : String} {c : Config}
    (h : read files path = .ok c) : c.WellFormed := by
  unfold read at h
  split at h
  · cases h
  · unfold ofBytes at h
    split at h
    · cases h
    · split at h
      · cases h
      · split at h
        · cases h
          obtain ⟨v, -, hv⟩ := Option.bind_eq_some_iff.1 ‹_›
          exact ⟨‹_›, fits_ofJson? hv⟩
        · cases h

theorem wellFormed_loadConfig {l : Launch} {files : Files} {c : Config}
    (h : l.loadConfig files = .ok c) : c.WellFormed := by
  unfold Launch.loadConfig at h
  split at h
  · cases h
    exact ⟨rfl, by decide⟩
  · split at h
    · cases h
      exact wellFormed_read ‹_›
    · cases h

/-- Every configuration in effect is well formed: one that was read is, the default one is, and what
the command line adds touches neither the namespace nor the time. -/
theorem wellFormed_config {l : Launch} {files : Files} {c : Config}
    (h : l.config files = .ok c) : c.WellFormed := by
  have heffective : Launch.config.effective l files = .ok c := by
    unfold Launch.config at h
    split at h
    · split at h
      · exact h
      · cases h
    · exact h
  unfold Launch.config.effective at heffective
  cases hl : l.loadConfig files with
  | error e =>
    rw [hl] at heffective
    cases heffective
  | ok d =>
    rw [hl] at heffective
    cases heffective
    obtain ⟨hv, hf⟩ := wellFormed_loadConfig hl
    exact ⟨hv, hf⟩

/-- **A printed configuration is read back as it was.**  The configuration that the program works
with, from any file that is accepted or by default, with the directories of the command line and
without startup scripts if it says so: whichever file holds it as printed, on one line or on many,
and with any blanks behind it, is accepted and is the same configuration. -/
theorem printed_configuration_read {l : Launch} {files : Files} {c : Config}
    (hc : l.config files = .ok c) {text : String} (ht : text = c.compact ∨ text = c.pretty)
    {bs : List Char} (hb : Json.Blank bs) {files' : Files} {path : String}
    (hf : files'.read path = .ok (Utf8.encode (text ++ String.ofList bs))) :
    read files' path = .ok c := by
  obtain ⟨hv, hfits⟩ := wellFormed_config hc
  have hreads : Json.Reads text.toList c.toJson := by
    rcases ht with rfl | rfl
    · exact reads_compact c
    · exact reads_pretty c
  rw [read, hf]
  exact ofBytes_printed hv hfits hreads hb path

/-- A file with a configuration whose texts need escapes, and whose time is the longest there is. -/
def escapedFile : Bytes :=
  Utf8.encode <|
    "\x7b\"namespace\": \"m\\u0061in\", \"script_dirs\": [\"C:\\\\\\\"\\u00e9\\n\\u0001\"],\r\n" ++
    "\"startup_files\": [\"\\ud83d\\ude00.lua\"], \"other\": [-1e3, null],\r\n" ++
    "\"slow_hook_threshold\": 18446744073709551615\x7d"

/-- The configuration in effect with that file, one more directory and no startup scripts. -/
def escapedConfig : Config :=
  { namespaceName := "main", scriptDirs := ["C:\\\"é\n\x01", "extra"], startupFiles := ["😀.lua"],
    loadStartup := false, slowHookThreshold := 18446744073709551615 }

theorem eq_ok_of_toOption {ε α : Type} {r : Except ε α} {a : α} (h : r.toOption = some a) :
    r = .ok a := by
  cases r with
  | error e => cases h
  | ok b => exact congrArg Except.ok (Option.some.inj h)

/-- Quotes, backslashes, control characters, characters beyond the first plane and the longest time
come back, printed on many lines with a line break behind them. -/
theorem escapes_read_back :
    ({ config? := some "in.json", norc := true, scriptDirs := ["extra"] } : Launch).config
        { entries := [(["in.json"], .file escapedFile)] } = .ok escapedConfig ∧
      read { entries := [(["out.json"], .file (Utf8.encode (escapedConfig.pretty ++ "\n")))] }
        "out.json" = .ok escapedConfig := by
  have hconfig : ({ config? := some "in.json", norc := true, scriptDirs := ["extra"] } :
      Launch).config { entries := [(["in.json"], .file escapedFile)] } = .ok escapedConfig :=
    eq_ok_of_toOption (by decide +kernel)
  have hblank : Json.Blank ['\n'] := by decide
  exact ⟨hconfig, printed_configuration_read hconfig (.inr rfl) hblank
    (eq_ok_of_toOption (by decide +kernel))⟩

end Config
end ScriptShell
