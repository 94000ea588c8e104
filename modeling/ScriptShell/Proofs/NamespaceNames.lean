import Mathlib
import ScriptShell.Guest.Parser
import ScriptShell.Proofs.GuestNames

/-! # The capability table in the source of scripts

A script reaches the capability table by its name, so that name has to be one that the guest's
grammar takes.  What a configuration is checked for is the spelling (`Config.validate_eq_ok_iff`).
With a name of the language, the sources that read and that assign a field of the global are
programs that do so (`Guest.compile_reading`, `Guest.compile_assigning`); `_ENV` is such a name, and
stands for the table of globals itself.  Reserved words are spelled like names as well, and then
neither source is a program (`Guest.compile_reserved`). -/

namespace ScriptShell

theorem Utf8.encode_append (s t : String) :
    Utf8.encode (s ++ t) = Utf8.encode s ++ Utf8.encode t := by
  rw [Utf8.encode, String.toUTF8_eq_toByteArray, String.toByteArray_append, ByteArray.data_append,
    Array.toList_append]
  rfl

namespace Guest

/-- The source that reads a field of a table with a name. -/
def readingSource (name field : String) : String := "return " ++ name ++ "." ++ field

/-- The source that empties a field of a table with a name. -/
def assigningSource (name field : String) : String := name ++ "." ++ field ++ " = nil"

/-- The table with a name, in a chunk of one line: a field of the table of globals, which has a name
of its own. -/
def globalExpr (name : String) : Expr :=
  if name = "_ENV" then .variable (.captured 0) "_ENV"
  else .index (.variable (.captured 0) "_ENV") (.str (Utf8.encode name)) 1

/-- A field of that table. -/
def fieldExpr (name field : String) : Expr :=
  .index (globalExpr name) (.str (Utf8.encode field)) 1

/-- What an assignment to the field assigns to. -/
def fieldTarget (name field : String) : Target :=
  .index (globalExpr name) (.str (Utf8.encode field)) 1

/-- The program of a chunk. -/
def chunkProgram (chunk : String) (body : List Stat) : Proto :=
  .mk ⟨chunk, 0, 0, true, [(.own 0, "_ENV")]⟩ body

/-- The program that reads a field of a table with a name. -/
def readingProgram (chunk name field : String) : Proto :=
  chunkProgram chunk [.ret [fieldExpr name field]]

/-- The program that empties a field of a table with a name. -/
def assigningProgram (chunk name field : String) : Proto :=
  chunkProgram chunk [.assign [fieldTarget name field] [.nil]]

variable {name field : String}

namespace Lexer

/-! ## Their tokens -/

variable {n line : Nat} {rest : Bytes}

theorem scan_space (n line : Nat) (rest : Bytes) :
    scan (n + 1) line (32 :: rest) = scan n line rest := by
  rw [scan]
  rfl

/-- A point that no second one follows is a mark of its own. -/
theorem mark?_point {b : UInt8} (hb : b ≠ 46) (rest : Bytes) :
    mark? (46 :: b :: rest) = some "." := by
  have hmarks : marks = marks.dropLast ++ ["."] := by decide
  have hbytes : ∀ m ∈ marks.dropLast,
      (∃ c ∈ (Utf8.encode m)[0]?, c ≠ 46) ∨ (Utf8.encode m)[1]? = some 46 := by decide
  have hother : ∀ m ∈ marks.dropLast, ¬ (Utf8.encode m).isPrefixOf (46 :: b :: rest) = true := by
    intro m hm hprefix
    have hget {i : Nat} {c : UInt8} (h : (Utf8.encode m)[i]? = some c) :
        (46 :: b :: rest)[i]? = some c := by
      obtain ⟨rest', hrest⟩ := List.isPrefixOf_iff_prefix.1 hprefix
      rw [← hrest, List.getElem?_append_left (List.getElem?_eq_some_iff.1 h).1, h]
    rcases hbytes m hm with ⟨c, hc, hne⟩ | h
    · exact hne (Option.some.inj (hget hc)).symm
    · exact hb (Option.some.inj (hget h))
  rw [mark?, hmarks, List.find?_append, List.find?_eq_none.2 hother]
  rfl

theorem scan_point {b : UInt8} (hb : startsName b = true) (n line : Nat) (rest : Bytes) :
    scan (n + 1) line (46 :: b :: rest) =
      (scan n line (b :: rest)).map (⟨.mark ".", line⟩ :: ·) := by
  have hpoint : b ≠ 46 := by
    rintro rfl
    exact absurd hb (by decide)
  have hdigit : (char b).isDigit = false :=
    Bool.eq_false_iff.2 fun h => not_isDigit_of_startsName (startsName_eq b ▸ hb) (isDigit_iff.1 h)
  have hnumeral : ((b :: rest).head?.map fun c => (char c).isDigit) = some false := by
    rw [List.head?_cons, Option.map_some, hdigit]
  rw [scan, mark?_point hpoint, hnumeral]
  rfl

theorem scan_equals (n line : Nat) (rest : Bytes) :
    scan (n + 1) line (61 :: 32 :: rest) =
      (scan n line (32 :: rest)).map (⟨.mark "=", line⟩ :: ·) := by
  have hmark : mark? (61 :: 32 :: rest) = some "=" := by cbv
  rw [scan, hmark]
  rfl

theorem tokens_reading (hn : IsSpelled name) (hf : IsName field) :
    tokens (Utf8.encode (readingSource name field)) =
      .ok ([.mark "return", wordToken name, .mark ".", .name field, .done].map (⟨·, 1⟩)) := by
  have hbytes : Utf8.encode (readingSource name field) =
      Utf8.encode "return" ++ 32 :: (Utf8.encode name ++ 46 :: (Utf8.encode field ++ [])) := by
    have hreturn : Utf8.encode "return " = Utf8.encode "return" ++ [32] := by decide
    have hpoint : Utf8.encode "." = [46] := by decide
    rw [readingSource, Utf8.encode_append, Utf8.encode_append, Utf8.encode_append, hreturn, hpoint]
    simp only [List.append_assoc, List.cons_append, List.nil_append, List.append_nil]
  have hlength : 5 ≤ (Utf8.encode (readingSource name field)).length := by
    have hreturn : (Utf8.encode "return").length = 6 := by decide
    rw [hbytes, List.length_append, hreturn]
    omega
  obtain ⟨n, hn'⟩ := Nat.exists_eq_add_of_le' hlength
  obtain ⟨b, w, hfield, hb, -⟩ := exists_encode hf.toIsSpelled
  have hreturn : IsSpelled "return" := isSpelled_of_mem (by decide)
  rw [tokens, hn', hbytes, scan_encode hreturn (stops_of_head (b := 32) rfl _), scan_space,
    scan_encode hn (stops_of_head (b := 46) rfl _), hfield, List.cons_append, scan_point hb,
    ← List.cons_append, ← hfield, scan_encode hf.toIsSpelled stops_nil,
    wordToken_of_isName hf]
  rfl

theorem tokens_assigning (hn : IsSpelled name) (hf : IsName field) :
    tokens (Utf8.encode (assigningSource name field)) =
      .ok ([wordToken name, .mark ".", .name field, .mark "=", .mark "nil", .done].map
        (⟨·, 1⟩)) := by
  have hbytes : Utf8.encode (assigningSource name field) =
      Utf8.encode name ++ 46 :: (Utf8.encode field ++
        32 :: 61 :: 32 :: (Utf8.encode "nil" ++ [])) := by
    have hnil : Utf8.encode " = nil" = 32 :: 61 :: 32 :: Utf8.encode "nil" := by decide
    have hpoint : Utf8.encode "." = [46] := by decide
    rw [assigningSource, Utf8.encode_append, Utf8.encode_append, Utf8.encode_append, hnil, hpoint]
    simp only [List.append_assoc, List.cons_append, List.nil_append, List.append_nil]
  obtain ⟨b, w, hfield, hb, -⟩ := exists_encode hf.toIsSpelled
  have hlength : 7 ≤ (Utf8.encode (assigningSource name field)).length := by
    have hnil : (Utf8.encode "nil").length = 3 := by decide
    rw [hbytes]
    simp only [List.length_append, List.length_cons, hnil]
    omega
  obtain ⟨n, hn'⟩ := Nat.exists_eq_add_of_le' hlength
  have hnil : IsSpelled "nil" := isSpelled_of_mem (by decide)
  rw [tokens, hn', hbytes, scan_encode hn (stops_of_head (b := 46) rfl _), hfield,
    List.cons_append, scan_point hb, ← List.cons_append, ← hfield,
    scan_encode hf.toIsSpelled (stops_of_head (b := 32) rfl _), scan_space, scan_equals, scan_space,
    scan_encode hnil stops_nil, wordToken_of_isName hf]
  rfl

end Lexer

/-! ## Their programs -/

namespace Parse

variable {t : Token} {ts : List Token} {n : Nat} {chunkName : Chunk}

/-- The scope of a chunk. -/
def chunkScope : FunctionScope := { captures := [(.own 0, ⟨"_ENV", false⟩)], variadic := true }

/-- The parser in a chunk of one line, outside of all functions, with tokens left. -/
def inChunk (ts : List Token) : ParseState := ⟨ts.map (⟨·, 1⟩), [chunkScope]⟩

theorem run_nameExpr (name : String) (ts : List Token) :
    (nameExpr name 1).run (inChunk ts) = .ok (globalExpr name, inChunk ts) := by
  by_cases h : name = "_ENV"
  · subst h
    rfl
  have hunbound : resolve name [chunkScope] = none := by
    have henv : ("_ENV" == name) = false := beq_eq_false_iff_ne.2 (Ne.symm h)
    simp [resolve, FunctionScope.slot?, FunctionScope.capture?, chunkScope, henv]
  have hlookup : (lookup name).run (inChunk ts) = .ok (none, inChunk ts) := by
    simp only [lookup, StateT.run_bind, StateT.run_get, pure_bind, inChunk, hunbound]
    rfl
  rw [nameExpr, StateT.run_bind, hlookup, globalExpr, if_neg h]
  rfl

/-- A field of a table with a name, before a token that takes no part in it. -/
theorem run_suffixed (hstop : ∀ e, (suffixes chunkName (n + 1) e).run (inChunk (t :: ts)) =
      .ok (e, inChunk (t :: ts))) :
    (suffixed chunkName (n + 3)).run (inChunk (.name name :: .mark "." :: .name field :: t :: ts)) =
      .ok (fieldExpr name field, inChunk (t :: ts)) := by
  have hprimary : (primary chunkName (n + 2)).run
      (inChunk (.name name :: .mark "." :: .name field :: t :: ts)) =
      .ok (globalExpr name, inChunk (.mark "." :: .name field :: t :: ts)) := by
    rw [primary]
    exact run_nameExpr name _
  rw [suffixed, StateT.run_bind, hprimary]
  show (suffixes chunkName (n + 2) (globalExpr name)).run _ = _
  rw [suffixes]
  exact hstop _

theorem run_exprs_field :
    (exprs chunkName (n + 7)).run (inChunk [.name name, .mark ".", .name field, .done]) =
      .ok ([fieldExpr name field], inChunk [.done]) := by
  have hfield : (suffixed chunkName (n + 4)).run
      (inChunk [.name name, .mark ".", .name field, .done]) =
      .ok (fieldExpr name field, inChunk [.done]) :=
    run_suffixed fun e => by rw [suffixes]; rfl
  have hexpr : (expr chunkName (n + 6) 0).run
      (inChunk [.name name, .mark ".", .name field, .done]) =
      .ok (fieldExpr name field, inChunk [.done]) := by
    rw [expr]
    show (simple chunkName (n + 5) >>= operators chunkName (n + 5) 0).run _ = _
    rw [StateT.run_bind, simple]
    show (suffixed chunkName (n + 4)).run _ >>= _ = _
    rw [hfield]
    show (operators chunkName (n + 5) 0 _).run _ = _
    rw [operators]
    rfl
  rw [exprs, StateT.run_bind, hexpr]
  rfl

theorem run_statements_reading :
    (statements chunkName (n + 9)).run
        (inChunk [.mark "return", .name name, .mark ".", .name field, .done]) =
      .ok ([.ret [fieldExpr name field]], inChunk [.done]) := by
  have hreturn : (returnStat chunkName (n + 8)).run
      (inChunk [.mark "return", .name name, .mark ".", .name field, .done]) =
      .ok (.ret [fieldExpr name field], inChunk [.done]) := by
    rw [returnStat]
    show (exprs chunkName (n + 7)).run
      (inChunk [.name name, .mark ".", .name field, .done]) >>= _ = _
    rw [run_exprs_field]
    rfl
  rw [statements]
  show (returnStat chunkName (n + 8)).run _ >>= _ = _
  rw [hreturn]
  rfl

theorem run_exprStat :
    (exprStat chunkName (n + 9)).run
        (inChunk [.name name, .mark ".", .name field, .mark "=", .mark "nil", .done]) =
      .ok (.assign [fieldTarget name field] [.nil], inChunk [.done]) := by
  have hfield : (suffixed chunkName (n + 8)).run
      (inChunk [.name name, .mark ".", .name field, .mark "=", .mark "nil", .done]) =
      .ok (fieldExpr name field, inChunk [.mark "=", .mark "nil", .done]) :=
    run_suffixed fun e => by rw [suffixes]; rfl
  have hmore : (moreTargets chunkName (n + 8)).run (inChunk [.mark "=", .mark "nil", .done]) =
      .ok ([], inChunk [.mark "=", .mark "nil", .done]) := by
    rw [moreTargets]
    rfl
  have hexpr : (expr chunkName (n + 7) 0).run (inChunk [.mark "nil", .done]) =
      .ok (.nil, inChunk [.done]) := by
    rw [expr]
    show (simple chunkName (n + 6) >>= operators chunkName (n + 6) 0).run _ = _
    rw [StateT.run_bind, simple]
    show (operators chunkName (n + 6) 0 _).run _ = _
    rw [operators]
    rfl
  have hexprs : (exprs chunkName (n + 8)).run (inChunk [.mark "nil", .done]) =
      .ok ([.nil], inChunk [.done]) := by
    rw [exprs, StateT.run_bind, hexpr]
    rfl
  rw [exprStat, StateT.run_bind, hfield]
  show (moreTargets chunkName (n + 8)).run _ >>= _ = _
  rw [hmore]
  show (exprs chunkName (n + 8)).run (inChunk [.mark "nil", .done]) >>= _ = _
  rw [hexprs]
  rfl

theorem run_statements_assigning :
    (statements chunkName (n + 11)).run
        (inChunk [.name name, .mark ".", .name field, .mark "=", .mark "nil", .done]) =
      .ok ([.assign [fieldTarget name field] [.nil]], inChunk [.done]) := by
  have hstatement : (statement chunkName (n + 10)).run
      (inChunk [.name name, .mark ".", .name field, .mark "=", .mark "nil", .done]) =
      .ok (some (.assign [fieldTarget name field] [.nil]), inChunk [.done]) := by
    rw [statement]
    show (exprStat chunkName (n + 9)).run _ >>= _ = _
    rw [run_exprStat]
    rfl
  have hend : (statements chunkName (n + 10)).run (inChunk [.done]) =
      .ok ([], inChunk [.done]) := by
    rw [statements]
    rfl
  rw [statements]
  show (statement chunkName (n + 10)).run _ >>= _ = _
  rw [hstatement]
  show (statements chunkName (n + 10)).run _ >>= _ = _
  rw [hend]
  rfl

theorem run_chunk {body : List Stat}
    (hbody : (statements chunkName n).run (inChunk ts) = .ok (body, inChunk [.done]))
    (hlabels : Labels.check body = none) :
    (chunk chunkName n).run (inChunk ts) = .ok (chunkProgram chunkName body, inChunk [.done]) := by
  rw [chunk, StateT.run_bind, hbody]
  show (checkLabels body).run _ >>= _ = _
  rw [checkLabels, hlabels]
  rfl

/-- Reserved words are no tables that a source may read a field of.  Values and operators are among
them as well as words of statements, so each one is parsed for itself. -/
theorem isOk_chunk_reading (field : String) :
    ∀ name ∈ reservedWords, ((chunk chunkName 192).run
      (inChunk [.mark "return", .mark name, .mark ".", .name field, .done])).isOk = false := by
  simp only [reservedWords, List.forall_mem_cons, List.not_mem_nil, false_imp_iff, implies_true,
    and_true]
  and_intros <;> cbv

theorem isOk_chunk_assigning (field : String) :
    ∀ name ∈ reservedWords, ((chunk chunkName 224).run
      (inChunk [.mark name, .mark ".", .name field, .mark "=", .mark "nil", .done])).isOk =
      false := by
  simp only [reservedWords, List.forall_mem_cons, List.not_mem_nil, false_imp_iff, implies_true,
    and_true]
  and_intros <;> cbv

end Parse

variable {chunk : String}

/-- The program of a source is what its tokens are parsed to. -/
theorem compile_of_tokens {source : Bytes} {ts : List Token}
    (hts : Lexer.tokens source = .ok (ts.map (⟨·, 1⟩))) :
    compile chunk source =
      ((Parse.chunk chunk (stepsPerToken * (ts.length + 1))).run (Parse.inChunk ts)).map (·.1) := by
  rw [compile, hts, Parse.inChunk, Parse.chunkScope]
  simp only [List.length_map]
  cases (Parse.chunk chunk (stepsPerToken * (ts.length + 1))).run
    ⟨ts.map (⟨·, 1⟩), [{ captures := [(.own 0, ⟨"_ENV", false⟩)], variadic := true }]⟩ <;> rfl

theorem exists_error_of_chunk {source : Bytes} {ts : List Token}
    (hts : Lexer.tokens source = .ok (ts.map (⟨·, 1⟩)))
    (hrun : ((Parse.chunk chunk (stepsPerToken * (ts.length + 1))).run (Parse.inChunk ts)).isOk =
      false) :
    ∃ e, compile chunk source = .error e := by
  rw [compile_of_tokens hts]
  cases h : (Parse.chunk chunk (stepsPerToken * (ts.length + 1))).run (Parse.inChunk ts) with
  | error e => exact ⟨e, rfl⟩
  | ok r =>
    rw [h] at hrun
    cases hrun

/-- With a name of the language, the source that reads a field of the table does so. -/
theorem compile_reading (hn : IsName name) (hf : IsName field) :
    compile chunk (Utf8.encode (readingSource name field)) =
      .ok (readingProgram chunk name field) := by
  have hts := Lexer.tokens_reading hn.toIsSpelled hf
  rw [Lexer.wordToken_of_isName hn] at hts
  rw [compile_of_tokens hts]
  exact congrArg (Except.map (·.1)) (Parse.run_chunk (n := 192) Parse.run_statements_reading rfl)

/-- With a name of the language, the source that empties a field of the table does so. -/
theorem compile_assigning (hn : IsName name) (hf : IsName field) :
    compile chunk (Utf8.encode (assigningSource name field)) =
      .ok (assigningProgram chunk name field) := by
  have hts := Lexer.tokens_assigning hn.toIsSpelled hf
  rw [Lexer.wordToken_of_isName hn] at hts
  rw [compile_of_tokens hts]
  exact congrArg (Except.map (·.1)) (Parse.run_chunk (n := 224) Parse.run_statements_assigning rfl)

/-- With a reserved word, neither source is a program. -/
theorem compile_reserved (hn : name ∈ reservedWords) (hf : IsName field) :
    (∃ e, compile chunk (Utf8.encode (readingSource name field)) = .error e) ∧
      ∃ e, compile chunk (Utf8.encode (assigningSource name field)) = .error e := by
  have hreading := Lexer.tokens_reading (Lexer.isSpelled_of_mem hn) hf
  have hassigning := Lexer.tokens_assigning (Lexer.isSpelled_of_mem hn) hf
  rw [Lexer.wordToken_of_mem hn] at hreading hassigning
  exact ⟨exists_error_of_chunk hreading (Parse.isOk_chunk_reading field name hn),
    exists_error_of_chunk hassigning (Parse.isOk_chunk_assigning field name hn)⟩

end Guest

namespace Config

variable {c : Config} {field : String}

open Guest

theorem isSpelled_iff {s : String} : IsSpelled s ↔ IsName s ∨ s ∈ reservedWords := by
  constructor
  · intro h
    by_cases hs : s ∈ reservedWords
    · exact .inr hs
    · exact .inl ⟨h, hs⟩
  · rintro (h | h)
    · exact h.toIsSpelled
    · exact Lexer.isSpelled_of_mem h

/-- The check of the namespace lets through what is spelled like a name. -/
theorem validate_eq_ok_iff : c.validate = .ok () ↔ IsSpelled c.namespaceName := by
  rw [validate, ← isIdentifier_iff]
  split
  · next h => exact ⟨fun _ => h, fun _ => rfl⟩
  · next h => exact ⟨nofun, fun he => absurd he h⟩

theorem validate_of_not_isSpelled (h : ¬ IsSpelled c.namespaceName) :
    c.validate = .error
      (.config ("namespace " ++ Quoted.ofText c.namespaceName ++ " is not a valid identifier")) :=
  if_neg fun hi => h (isIdentifier_iff.1 hi)

/-- **The namespaces that the check lets through.**  They are the names of the language, which are
the names that the scanner finds in sources, and the reserved words; any other namespace is quoted
in the error.  With a name, the sources that read and that assign a field of the global with that
name are programs that do so.  With a reserved word no such source is a program, so no script can
write the field down. -/
theorem accepted_namespaces (c : Config) :
    (c.validate = .ok () ↔ IsName c.namespaceName ∨ c.namespaceName ∈ reservedWords) ∧
      (c.validate ≠ .ok () → c.validate = .error
        (.config ("namespace " ++ Quoted.ofText c.namespaceName ++ " is not a valid identifier"))) ∧
      (IsName c.namespaceName ↔ ∃ source ts line, Lexer.tokens source = .ok ts ∧
        ⟨.name c.namespaceName, line⟩ ∈ ts) ∧
      ∀ chunk field, IsName field →
        (IsName c.namespaceName →
          compile chunk (Utf8.encode (readingSource c.namespaceName field)) =
              .ok (readingProgram chunk c.namespaceName field) ∧
            compile chunk (Utf8.encode (assigningSource c.namespaceName field)) =
              .ok (assigningProgram chunk c.namespaceName field)) ∧
        (c.namespaceName ∈ reservedWords →
          (∃ e, compile chunk (Utf8.encode (readingSource c.namespaceName field)) = .error e) ∧
            ∃ e, compile chunk (Utf8.encode (assigningSource c.namespaceName field)) =
              .error e) := by
  refine ⟨validate_eq_ok_iff.trans isSpelled_iff, fun h => ?_, Lexer.exists_name_token_iff.symm,
    fun chunk field hf => ⟨fun hn => ⟨compile_reading hn hf, compile_assigning hn hf⟩,
      fun hn => compile_reserved hn hf⟩⟩
  exact validate_of_not_isSpelled fun hs => h (validate_eq_ok_iff.2 hs)

/-- The word that ends a block passes for a namespace. -/
theorem accepted_namespaces_end :
    (({ namespaceName := "end" } : Config).validate = .ok () ∧ ¬ IsName "end" ∧
        IsName "alias" ∧ "end" ∈ reservedWords ∧
        ∃ e, compile "@s" (Utf8.encode (readingSource "end" "alias")) = .error e) ∧
      (IsName ({} : Config).namespaceName ∧
        compile "@s" (Utf8.encode (readingSource "moonsh" "alias")) =
          .ok (readingProgram "@s" "moonsh" "alias")) ∧
      (({ namespaceName := "1st" } : Config).validate ≠ .ok () ∧
        ({ namespaceName := "1st" } : Config).validate =
          .error (.config "namespace \"1st\" is not a valid identifier")) := by
  have hfield : IsName "alias" := by decide
  have hend := accepted_namespaces { namespaceName := "end" }
  have hdefault := accepted_namespaces {}
  have hdigit := accepted_namespaces { namespaceName := "1st" }
  have hreserved : "end" ∈ reservedWords := by decide
  have hname : IsName "moonsh" := by decide
  have hrefused : ({ namespaceName := "1st" } : Config).validate ≠ .ok () :=
    mt validate_eq_ok_iff.1 (by decide)
  exact ⟨⟨hend.1.2 (.inr hreserved), by decide, hfield, hreserved,
      ((hend.2.2.2 "@s" "alias" hfield).2 hreserved).1⟩,
    ⟨hname, ((hdefault.2.2.2 "@s" "alias" hfield).1 hname).1⟩,
    hrefused, hdigit.2.1 hrefused⟩

end Config
end ScriptShell
