import ScriptShell.Guest.Labels

/-! # Guest programs from tokens

A recursive descent parser that resolves names on the way.  `scopes` holds the functions around the
current place, innermost first; a name is looked up from the inside out, and each function on the
way to it captures it.  The recursion is bounded by a number that grows with the number of tokens;
nesting deeper than that is refused. -/

namespace ScriptShell.Guest

/-- A variable in scope. -/
structure ScopedName where
  /-- Its name. -/
  name : String
  /-- Whether it may not be assigned to. -/
  constant : Bool
  deriving Inhabited

/-- What a function knows of its variables. -/
structure FunctionScope where
  /-- Its own variables in scope, last one first. -/
  own : List ScopedName := []
  /-- What it captures from outside, in order. -/
  captures : List (Variable × ScopedName) := []
  /-- Whether it takes more arguments than it has parameters. -/
  variadic : Bool := false
  deriving Inhabited

namespace FunctionScope

/-- The slot of one of the function's own variables; the last one of a name counts. -/
def slot? (f : FunctionScope) (name : String) : Option (Nat × Bool) :=
  (f.own.findIdx? (·.name == name)).bind fun i =>
    f.own[i]?.map fun v => (f.own.length - 1 - i, v.constant)

/-- The place of a captured variable. -/
def capture? (f : FunctionScope) (name : String) : Option (Nat × Bool) :=
  (f.captures.findIdx? (·.2.name == name)).bind fun i =>
    f.captures[i]?.map fun v => (i, v.2.constant)

end FunctionScope

/-- What a name stands for. -/
structure Resolved where
  /-- The variable. -/
  place : Variable
  /-- Whether it may not be assigned to. -/
  constant : Bool

/-- Looks a name up from the inside out; the functions on the way capture it. -/
def resolve (name : String) : List FunctionScope → Option (Resolved × List FunctionScope)
  | [] => none
  | f :: outer =>
    match f.slot? name with
    | some (slot, constant) => some (⟨.own slot, constant⟩, f :: outer)
    | none =>
      match f.capture? name with
      | some (i, constant) => some (⟨.captured i, constant⟩, f :: outer)
      | none =>
        match resolve name outer with
        | none => none
        | some (r, outer) =>
          -- the next function outward has the variable by now, as its own or captured
          let f' := { f with captures := f.captures ++ [(r.place, ⟨name, r.constant⟩)] }
          some (⟨.captured f.captures.length, r.constant⟩, f' :: outer)

/-- How far the parser has come. -/
structure ParseState where
  /-- The tokens that are left. -/
  tokens : List Located
  /-- The functions around the current place, innermost first. -/
  scopes : List FunctionScope

/-- A step of the parser. -/
abbrev Parse := StateT ParseState (Except SyntaxFault)

namespace Parse

/-- The name of the chunk in messages. -/
abbrev Chunk := String

/-- The next token. -/
def peek : Parse Located := do return (← get).tokens.head?.getD ⟨.done, 0⟩

/-- The token after the next one. -/
def peekSecond : Parse Token := do
  return ((← get).tokens[1]?.map Located.token).getD .done

/-- Takes the next token. -/
def next : Parse Located := do
  let t ← peek
  modify fun s => { s with tokens := s.tokens.drop 1 }
  return t

/-- A token as messages show it. -/
def describe : Token → String
  | .name s => "'" ++ s ++ "'"
  | .mark s => "'" ++ s ++ "'"
  | .str s => "'" ++ Utf8.decodeLossy s ++ "'"
  | .int i => "'" ++ toString i ++ "'"
  | .num x => "'" ++ Numeral.floatText x ++ "'"
  | .done => "<eof>"

/-- Fails at the next token. -/
def failHere {α : Type} (message : String) : Parse α := do
  let t ← peek
  throw ⟨t.line, message ++ " near " ++ describe t.token⟩

/-- Whether the next token is a mark. -/
def at? (m : String) : Parse Bool := do
  match (← peek).token with
  | .mark s => return s == m
  | _ => return false

/-- Takes the next token if it is a mark. -/
def accept (m : String) : Parse Bool := do
  if ← at? m then
    let _ ← next
    return true
  else return false

/-- Takes a mark. -/
def expect (m : String) : Parse Unit := do
  if !(← accept m) then failHere ("'" ++ m ++ "' expected")

/-- Takes the mark that closes what was opened by another one. -/
def close (m opener : String) (line : Nat) : Parse Unit := do
  if !(← accept m) then
    if (← peek).line = line then failHere ("'" ++ m ++ "' expected")
    else failHere ("'" ++ m ++ "' expected (to close '" ++ opener ++ s!"' at line {line})")

/-- Takes a name. -/
def name : Parse String := do
  match (← peek).token with
  | .name s =>
    let _ ← next
    return s
  | _ => failHere "<name> expected"

/-! ## Scopes -/

/-- The function at hand. -/
def scope : Parse FunctionScope := do return (← get).scopes.head?.getD {}

/-- Changes the function at hand. -/
def modifyScope (f : FunctionScope → FunctionScope) : Parse Unit :=
  modify fun s =>
    match s.scopes with
    | [] => s
    | g :: outer => { s with scopes := f g :: outer }

/-- The most variables of a function that may be in scope at once. -/
def variableLimit : Nat := 200

/-- Brings variables into scope. -/
def declare (names : List ScopedName) : Parse Unit := do
  modifyScope fun f => { f with own := names.reverse ++ f.own }
  if variableLimit < (← scope).own.length then failHere "too many local variables"

/-- Runs a step whose variables go out of scope afterwards. -/
def inScope {α : Type} (p : Parse α) : Parse α := do
  let outside := (← scope).own
  let a ← p
  modifyScope fun f => { f with own := outside }
  return a

/-- The variable of a name, or `none` for a global one. -/
def lookup (name : String) : Parse (Option Resolved) := do
  let s ← get
  match resolve name s.scopes with
  | none => return none
  | some (r, scopes) =>
    set { s with scopes := scopes }
    return some r

/-- A name as an expression.  A global one is a field of `_ENV`. -/
def nameExpr (name : String) (line : Nat) : Parse Expr := do
  match ← lookup name with
  | some r => return .variable r.place name
  | none =>
    match ← lookup "_ENV" with
    | some r => return .index (.variable r.place "_ENV") (.str (Utf8.encode name)) line
    | none => return .nil

/-! ## Operators -/

/-- What an operator on two operands builds. -/
inductive Infix where
  /-- An operator that evaluates both. -/
  | binary (op : BinaryOp)
  /-- Logical and. -/
  | both
  /-- Logical or. -/
  | either

/-- An operator with the binding strength to its left and to its right. -/
def infixOf? (m : String) : Option (Infix × Nat × Nat) :=
  match m with
  | "+" => some (.binary .add, 10, 10)
  | "-" => some (.binary .sub, 10, 10)
  | "*" => some (.binary .mul, 11, 11)
  | "%" => some (.binary .mod, 11, 11)
  -- weaker to the right than to the left: several of them group from the right
  | "^" => some (.binary .pow, 14, 13)
  | "/" => some (.binary .div, 11, 11)
  | "//" => some (.binary .floorDiv, 11, 11)
  | "&" => some (.binary .bitAnd, 6, 6)
  | "|" => some (.binary .bitOr, 4, 4)
  | "~" => some (.binary .bitXor, 5, 5)
  | "<<" => some (.binary .shiftLeft, 7, 7)
  | ">>" => some (.binary .shiftRight, 7, 7)
  | ".." => some (.binary .concat, 9, 8)
  | "==" => some (.binary .eq, 3, 3)
  | "~=" => some (.binary .ne, 3, 3)
  | "<" => some (.binary .lt, 3, 3)
  | "<=" => some (.binary .le, 3, 3)
  | ">" => some (.binary .gt, 3, 3)
  | ">=" => some (.binary .ge, 3, 3)
  | "and" => some (.both, 2, 2)
  | "or" => some (.either, 1, 1)
  | _ => none

/-- The binding strength of operators on one operand. -/
def unaryStrength : Nat := 12

/-- An operator on one operand. -/
def prefixOf? (m : String) : Option UnaryOp :=
  match m with
  | "-" => some .negate
  | "not" => some .logicalNot
  | "#" => some .length
  | "~" => some .bitNot
  | _ => none

/-- Applies an operator. -/
def Infix.build (op : Infix) (a b : Expr) (line : Nat) : Expr :=
  match op with
  | .binary op => .binary op a b line
  | .both => .both a b
  | .either => .either a b

/-- Whether a block ends at the next token. -/
def blockEnds : Parse Bool := do
  match (← peek).token with
  | .done => return true
  | .mark m => return ["end", "else", "elseif", "until"].contains m
  | _ => return false

/-- An expression as the target of an assignment. -/
def target (e : Expr) (constant : Option String) : Parse Target := do
  match constant with
  | some n => failHere ("attempt to assign to const variable '" ++ n ++ "'")
  | none =>
    match e with
    | .variable v _ => return .variable v
    | .index o k line => return .index o k line
    | _ => failHere "syntax error"

/-- The name of a constant variable that an expression is. -/
def constantName? (e : Expr) : Parse (Option String) := do
  match e with
  | .variable _ n =>
    match ← lookup n with
    | some r => return if r.constant then some n else none
    | none => return none
  | _ => return none

/-- The names of a list, separated by commas, of at most `fuel` names. -/
def names : Nat → Parse (List String)
  | 0 => failHere "too many names"
  | n + 1 => do
    let first ← name
    if ← accept "," then return first :: (← names n) else return [first]

/-- The parameters of a function, up to the closing parenthesis, with the flag for more. -/
def parameters : Nat → Parse (List String × Bool)
  | 0 => failHere "too many names"
  | n + 1 => do
    if ← accept "..." then return ([], true)
    let first ← name
    if ← accept "," then
      let (rest, more) ← parameters n
      return (first :: rest, more)
    else return ([first], false)

/-- Variables of a `local` statement: names, whether constant, whether closed. -/
def attributed : Nat → Parse (List (ScopedName × Bool))
  | 0 => failHere "too many names"
  | n + 1 => do
    let v ← name
    let mut constant := false
    let mut closes := false
    if ← accept "<" then
      let attr ← name
      expect ">"
      if attr == "const" then constant := true
      else if attr == "close" then
        constant := true
        closes := true
      else failHere ("unknown attribute '" ++ attr ++ "'")
    let first := (⟨v, constant⟩, closes)
    if ← accept "," then return first :: (← attributed n) else return [first]

/-- Fails if a jump of a function body goes wrong. -/
def checkLabels (body : List Stat) : Parse Unit :=
  match Labels.check body with
  | some fault => throw fault
  | none => return ()

/-- The message for nesting that is too deep. -/
def tooDeep {α : Type} : Parse α := failHere "chunk has too many syntax levels"

/-- The fields of a function's name; the flag tells a method. -/
def functionName : Nat → Expr → Parse (Expr × Bool)
  | 0, _ => tooDeep
  | n + 1, e => do
    let line := (← peek).line
    if ← accept "." then
      let field ← name
      functionName n (.index e (.str (Utf8.encode field)) line)
    else if ← accept ":" then
      let field ← name
      return (.index e (.str (Utf8.encode field)) line, true)
    else return (e, false)

mutual

/-- Statements up to the end of the block. -/
def statements (chunk : Chunk) : Nat → Parse (List Stat)
  | 0 => tooDeep
  | n + 1 => do
    if ← blockEnds then return []
    if ← at? "return" then return [← returnStat chunk n]
    let first ← statement chunk n
    let rest ← statements chunk n
    return first.toList ++ rest

/-- A block of its own scope. -/
def block (chunk : Chunk) : Nat → Parse (List Stat)
  | 0 => tooDeep
  | n + 1 => inScope (statements chunk n)

/-- A `return` statement. -/
def returnStat (chunk : Chunk) : Nat → Parse Stat
  | 0 => tooDeep
  | n + 1 => do
    let _ ← next
    let values ← if (← blockEnds) || (← at? ";") then pure [] else exprs chunk n
    let _ ← accept ";"
    if !(← blockEnds) then failHere "'<eof>' expected"
    return .ret values

/-- One statement; a semicolon is none. -/
def statement (chunk : Chunk) : Nat → Parse (Option Stat)
  | 0 => tooDeep
  | n + 1 => do
    let t ← peek
    let line := t.line
    match t.token with
    | .mark ";" =>
      let _ ← next
      return none
    | .mark "if" =>
      let _ ← next
      return some (← ifStat chunk n line)
    | .mark "while" =>
      let _ ← next
      let cond ← expr chunk n 0
      expect "do"
      let body ← block chunk n
      close "end" "while" line
      return some (.whileLoop cond body)
    | .mark "do" =>
      let _ ← next
      let body ← block chunk n
      close "end" "do" line
      return some (.block body)
    | .mark "for" =>
      let _ ← next
      return some (← forStat chunk n line)
    | .mark "repeat" =>
      let _ ← next
      let body ← inScope do
        -- the condition sees the variables of the body
        let body ← statements chunk n
        close "until" "repeat" line
        let cond ← expr chunk n 0
        return body ++ [.untilTrue cond]
      return some (.repeatLoop body)
    | .mark "function" =>
      let _ ← next
      return some (← functionStat chunk n line)
    | .mark "local" =>
      let _ ← next
      if ← accept "function" then
        let v ← name
        -- in scope before the body, so that the function can call itself
        declare [⟨v, false⟩]
        return some (.localFunction (← functionBody chunk n false line))
      else return some (← localStat chunk n)
    | .mark "::" =>
      let _ ← next
      let l ← name
      expect "::"
      return some (.label l line)
    | .mark "break" =>
      let _ ← next
      return some .leave
    | .mark "goto" =>
      let _ ← next
      return some (.jump (← name) line)
    | _ => return some (← exprStat chunk n)

/-- An `if` statement after `if` or `elseif`. -/
def ifStat (chunk : Chunk) : Nat → Nat → Parse Stat
  | 0, _ => tooDeep
  | n + 1, line => do
    let cond ← expr chunk n 0
    expect "then"
    let yes ← block chunk n
    if ← accept "elseif" then
      return .conditional cond yes [← ifStat chunk n line]
    else if ← accept "else" then
      let no ← block chunk n
      close "end" "if" line
      return .conditional cond yes no
    else
      close "end" "if" line
      return .conditional cond yes []

/-- A `for` statement after `for`. -/
def forStat (chunk : Chunk) : Nat → Nat → Parse Stat
  | 0, _ => tooDeep
  | n + 1, line => do
    let first ← name
    if ← accept "=" then
      let start ← expr chunk n 0
      expect ","
      let stop ← expr chunk n 0
      let step ← if ← accept "," then some <$> expr chunk n 0 else pure none
      expect "do"
      let body ← inScope do
        declare [⟨first, false⟩]
        block chunk n
      close "end" "for" line
      return .numericFor start stop step body line
    else
      let more ← if ← accept "," then names n else pure []
      if !(← at? "in") then failHere "'=' or 'in' expected"
      expect "in"
      let at_ := (← peek).line
      let values ← exprs chunk n
      expect "do"
      let vars := first :: more
      let body ← inScope do
        declare (vars.map (⟨·, false⟩))
        block chunk n
      close "end" "for" line
      return .genericFor vars.length values body at_

/-- A `function` statement after `function`. -/
def functionStat (chunk : Chunk) : Nat → Nat → Parse Stat
  | 0, _ => tooDeep
  | n + 1, line => do
    let first ← name
    let base ← nameExpr first line
    let constant ← constantName? base
    let (e, isMethod) ← functionName n base
    let body ← functionBody chunk n isMethod line
    return .assign [← target e constant] [.function body]

/-- A `local` statement after `local`. -/
def localStat (chunk : Chunk) : Nat → Parse Stat
  | 0 => tooDeep
  | n + 1 => do
    let line := (← peek).line
    let vars ← attributed n
    let values ← if ← accept "=" then exprs chunk n else pure []
    if 1 < (vars.filter (·.2)).length then
      failHere "multiple to-be-closed variables in local list"
    -- in scope only behind the values, which may mean an outer variable of the same name
    declare (vars.map (·.1))
    return .locals vars.length (vars.findIdx? (·.2)) values (vars.map (·.1.name)) line

/-- A call or an assignment. -/
def exprStat (chunk : Chunk) : Nat → Parse Stat
  | 0 => tooDeep
  | n + 1 => do
    let first ← suffixed chunk n
    if (← at? "=") || (← at? ",") then
      let t ← target first (← constantName? first)
      let targets := t :: (← moreTargets chunk n)
      expect "="
      let values ← exprs chunk n
      return .assign targets values
    else
      match first with
      | .call .. | .method .. => return .call first
      | _ => failHere "syntax error"

/-- The further targets of an assignment. -/
def moreTargets (chunk : Chunk) : Nat → Parse (List Target)
  | 0 => tooDeep
  | n + 1 => do
    if ← accept "," then
      let e ← suffixed chunk n
      let t ← target e (← constantName? e)
      return t :: (← moreTargets chunk n)
    else return []

/-- Expressions separated by commas. -/
def exprs (chunk : Chunk) : Nat → Parse (List Expr)
  | 0 => tooDeep
  | n + 1 => do
    let first ← expr chunk n 0
    if ← accept "," then return first :: (← exprs chunk n) else return [first]

/-- An expression whose operators bind more strongly than `limit`. -/
def expr (chunk : Chunk) : Nat → Nat → Parse Expr
  | 0, _ => tooDeep
  | n + 1, limit => do
    let t ← peek
    let unary? : Option UnaryOp :=
      match t.token with
      | .mark m => prefixOf? m
      | _ => none
    match unary? with
    | some op =>
      let _ ← next
      let a ← expr chunk n unaryStrength
      operators chunk n limit (.unary op a t.line)
    | none =>
      let a ← simple chunk n
      operators chunk n limit a

/-- The operators after an operand. -/
def operators (chunk : Chunk) : Nat → Nat → Expr → Parse Expr
  | 0, _, _ => tooDeep
  | n + 1, limit, a => do
    let t ← peek
    let operator? : Option (Infix × Nat × Nat) :=
      match t.token with
      | .mark m => infixOf? m
      | _ => none
    match operator? with
    | none => return a
    | some (op, left, right) =>
      if left ≤ limit then return a
      let _ ← next
      let b ← expr chunk n right
      operators chunk n limit (op.build a b t.line)

/-- An operand. -/
def simple (chunk : Chunk) : Nat → Parse Expr
  | 0 => tooDeep
  | n + 1 => do
    let t ← peek
    match t.token with
    | .int i =>
      let _ ← next
      return .int i
    | .num x =>
      let _ ← next
      return .num x
    | .str s =>
      let _ ← next
      return .str s
    | .mark "nil" =>
      let _ ← next
      return .nil
    | .mark "true" =>
      let _ ← next
      return .bool true
    | .mark "false" =>
      let _ ← next
      return .bool false
    | .mark "..." =>
      if !(← scope).variadic then failHere "cannot use '...' outside a vararg function"
      let _ ← next
      return .varargs
    | .mark "\x7b" => tableExpr chunk n
    | .mark "function" =>
      let _ ← next
      return .function (← functionBody chunk n false t.line)
    | _ => suffixed chunk n

/-- A name or an expression in parentheses. -/
def primary (chunk : Chunk) : Nat → Parse Expr
  | 0 => tooDeep
  | n + 1 => do
    let t ← peek
    match t.token with
    | .name s =>
      let _ ← next
      nameExpr s t.line
    | .mark "(" =>
      let _ ← next
      let e ← expr chunk n 0
      close ")" "(" t.line
      return .paren e
    | _ => failHere "unexpected symbol"

/-- A name or parentheses with fields and calls after it. -/
def suffixed (chunk : Chunk) : Nat → Parse Expr
  | 0 => tooDeep
  | n + 1 => do
    let e ← primary chunk n
    suffixes chunk n e

/-- Fields and calls. -/
def suffixes (chunk : Chunk) : Nat → Expr → Parse Expr
  | 0, _ => tooDeep
  | n + 1, e => do
    let t ← peek
    match t.token with
    | .mark "." =>
      let _ ← next
      let line := (← peek).line
      let field ← name
      suffixes chunk n (.index e (.str (Utf8.encode field)) line)
    | .mark "[" =>
      let _ ← next
      let key ← expr chunk n 0
      let line := (← peek).line
      expect "]"
      suffixes chunk n (.index e key line)
    | .mark ":" =>
      let _ ← next
      let m ← name
      let line := (← peek).line
      let args ← callArgs chunk n
      suffixes chunk n (.method e m args line)
    | .mark "(" | .mark "\x7b" | .str _ =>
      let args ← callArgs chunk n
      suffixes chunk n (.call e args t.line)
    | _ => return e

/-- The arguments of a call. -/
def callArgs (chunk : Chunk) : Nat → Parse (List Expr)
  | 0 => tooDeep
  | n + 1 => do
    let t ← peek
    match t.token with
    | .str s =>
      let _ ← next
      return [.str s]
    | .mark "\x7b" => return [← tableExpr chunk n]
    | .mark "(" =>
      let _ ← next
      if ← accept ")" then return []
      let args ← exprs chunk n
      close ")" "(" t.line
      return args
    | _ => failHere "function arguments expected"

/-- A table constructor. -/
def tableExpr (chunk : Chunk) : Nat → Parse Expr
  | 0 => tooDeep
  | n + 1 => do
    let line := (← next).line
    let fields ← tableFields chunk n
    close "\x7d" "\x7b" line
    return .table fields line

/-- The fields of a table constructor. -/
def tableFields (chunk : Chunk) : Nat → Parse (List Field)
  | 0 => tooDeep
  | n + 1 => do
    if ← at? "\x7d" then return []
    let t ← peek
    -- a name begins an expression as well, unless an equals sign is behind it
    let isNamed : Bool :=
      match t.token, ← peekSecond with
      | .name _, .mark "=" => true
      | _, _ => false
    let field ←
      if isNamed then
        let field ← name
        expect "="
        pure (Field.entry (.str (Utf8.encode field)) (← expr chunk n 0))
      else if ← accept "[" then
        let key ← expr chunk n 0
        expect "]"
        expect "="
        pure (Field.entry key (← expr chunk n 0))
      else pure (Field.item (← expr chunk n 0))
    if (← accept ",") || (← accept ";") then return field :: (← tableFields chunk n)
    else return [field]

/-- The parameters and the body of a function. -/
def functionBody (chunk : Chunk) : Nat → Bool → Nat → Parse Proto
  | 0, _, _ => tooDeep
  | n + 1, isMethod, line => do
    modify fun s => { s with scopes := {} :: s.scopes }
    expect "("
    let (params, variadic) ← if ← at? ")" then pure ([], false) else parameters n
    expect ")"
    let params := if isMethod then "self" :: params else params
    modifyScope fun f => { f with variadic := variadic }
    declare (params.map (⟨·, false⟩))
    let body ← statements chunk n
    close "end" "function" line
    checkLabels body
    -- what the function captures is known when its body has been read
    let f ← scope
    modify fun s => { s with scopes := s.scopes.drop 1 }
    return .mk
      { chunk := chunk, line := line, parameters := params.length, variadic := variadic,
        captures := f.captures.map fun c => (c.1, c.2.name) } body

end

/-- A whole chunk: a variadic function that captures `_ENV`. -/
def chunk (name : Chunk) (fuel : Nat) : Parse Proto := do
  let body ← statements name fuel
  match (← peek).token with
  | .done =>
    checkLabels body
    let f ← scope
    return .mk
      { chunk := name, line := 0, parameters := 0, variadic := true,
        captures := f.captures.map fun c => (c.1, c.2.name) } body
  | _ => failHere "'<eof>' expected"

end Parse

/-- Steps of the parser for each token, at most. -/
def stepsPerToken : Nat := 32

/-- Compiles the source of a chunk. -/
def compile (chunk : String) (source : Bytes) : Except SyntaxFault Proto :=
  match Lexer.tokens source with
  | .error e => .error e
  | .ok tokens =>
    -- the table of globals is a captured variable like any other
    let outermost : FunctionScope :=
      { captures := [(.own 0, ⟨"_ENV", false⟩)], variadic := true }
    match (Parse.chunk chunk (stepsPerToken * (tokens.length + 1))).run ⟨tokens, [outermost]⟩ with
    | .ok (p, _) => .ok p
    | .error e => .error e

/-- Compiles the source of a chunk of a given name.  A failure tells where it was found. -/
def compileNamed (name : String) (source : Bytes) : Except String Proto :=
  let chunk := chunkDisplay name
  if source.head? = some 27 then
    .error (chunk ++ ": attempt to load a binary chunk (mode is 't')")
  else
    match compile chunk source with
    | .ok p => .ok p
    | .error e => .error (chunk ++ s!":{e.line}: " ++ e.message)

end ScriptShell.Guest
