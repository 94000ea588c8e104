import ScriptShell.Guest.Operations

/-! # Evaluation

What a guest function does, as a `Program`.  Evaluation follows the syntax: calls are left to
whoever runs the program, loops are bounded by a large number of rounds, and every variable lives in
the heap, where closures share it.  A statement ends with a `Flow` that says where to go on. -/

namespace ScriptShell.Guest

/-- What a running function knows. -/
structure Frame where
  /-- The runtime. -/
  runtime : RuntimeRef
  /-- The name of the chunk in errors. -/
  chunk : String
  /-- The function's own variables in scope. -/
  slots : Array CellRef
  /-- The variables that it captures. -/
  captures : Array CellRef
  /-- The arguments beyond its parameters. -/
  varargs : List Value
  /-- The places from which it was called. -/
  sites : CallSites
  deriving Inhabited

/-- Where to go on after a statement. -/
inductive Flow where
  /-- At the next statement. -/
  | next
  /-- After the innermost loop. -/
  | leave
  /-- At a label. -/
  | jump (label : String)
  /-- At the caller, with results. -/
  | ret (values : List Value)
  deriving Inhabited

/-- The most rounds of one loop. -/
def roundLimit : Nat := 100000000

/-- Takes steps from state to state until one ends with a flow. -/
def iterate {σ : Type} (step : σ → Program (Flow ⊕ σ)) : Nat → σ → Program Flow
  | 0, _ => .exhausted
  | n + 1, s => do
    match ← step s with
    | .inl flow => return flow
    | .inr s =>
      Program.ask .tick
      iterate step n s

namespace Frame

/-- A line of the function. -/
def here (f : Frame) (line : Nat) : Here :=
  ⟨f.runtime, .guest f.chunk line none false :: f.sites⟩

/-- A line of the function from which it calls. -/
def calling (f : Frame) (line : Nat) (callee? : Option (String × String)) (tail : Bool) :
    CallSites :=
  .guest f.chunk line callee? tail :: f.sites

/-- The place of a variable in the heap. -/
def cell (f : Frame) : Variable → CellRef
  | .own slot => f.slots[slot]?.getD default
  | .captured i => f.captures[i]?.getD default

/-- Brings a new variable into scope. -/
def declare (f : Frame) (v : Value) : Program Frame := do
  return { f with slots := f.slots.push (← Program.ask (.newCell v)) }

/-- Brings new variables into scope. -/
def declareAll (f : Frame) : List Value → Program Frame
  | [] => return f
  | v :: rest => do (← f.declare v).declareAll rest

/-- A new function with the variables that it captures. -/
def closure (f : Frame) (p : Proto) : Program Value := do
  let captures := p.header.captures.map fun c => f.cell c.1
  return .func (← Program.ask (.newFunction ⟨f.runtime, .closure p captures⟩))

end Frame

/-- How an operand is called in errors: by kind of name and name. -/
def nameOf? : Expr → Option (String × String)
  | .variable (.own _) name => some ("local", name)
  | .variable (.captured _) name => some ("upvalue", name)
  | .index (.variable _ object) (.str key) _ =>
    some (if object = "_ENV" then "global" else "field", Utf8.decodeLossy key)
  | .index _ (.str key) _ => some ("field", Utf8.decodeLossy key)
  | .index _ (.int i) _ =>
    some ("field", if 0 ≤ i.toInt && i.toInt ≤ 255 then "integer index" else "?")
  | .index _ _ _ => some ("field", "?")
  | .method _ name _ _ => some ("method", name)
  | .str s => some ("constant", Utf8.decodeLossy s)
  | .paren e => nameOf? e
  | _ => none

/-- Exactly `n` values: the first ones, or `nil` where there are none. -/
def adjust (n : Nat) (vs : List Value) : List Value :=
  vs.take n ++ List.replicate (n - vs.length) .nil

/-- One of the function's own variables that an expression is. -/
def ownVariable? : Expr → Option Nat
  | .variable (.own slot) _ => some slot
  | _ => none

/-- How many items of a constructor come before a field of several values. -/
def itemCount : List Field → Nat
  | [] => 0
  | .item _ :: rest => itemCount rest + 1
  | .entry .. :: rest => itemCount rest

/-- Whether an expression can give any number of values. -/
def isOpen : Expr → Bool
  | .call .. | .method .. | .varargs => true
  | _ => false

/-- Puts values into a table from a position on. -/
def fill (t : TableRef) : Nat → List Value → Program Unit
  | _, [] => return ()
  | n, v :: rest => do
    Program.ask (.setSlot t (.int (Int64.ofNat n)) v)
    fill t (n + 1) rest

/-- How many items of a constructor are put into the table at once. -/
def itemsPerFlush : Nat := 50

/-- A table under construction. -/
structure Building where
  /-- The table. -/
  table : TableRef
  /-- How many items it has. -/
  filled : Nat := 0
  /-- The items that come next, last one first. -/
  pending : List Value := []

/-- Puts the pending items into the table. -/
def Building.flush (b : Building) : Program Building := do
  fill b.table (b.filled + 1) b.pending.reverse
  return { b with filled := b.filled + b.pending.length, pending := [] }

/-- Adds an item. -/
def Building.push (b : Building) (v : Value) : Program Building := do
  let b ← if b.pending.length = itemsPerFlush then b.flush else pure b
  return { b with pending := v :: b.pending }

/-- A place to assign to, with its parts evaluated. -/
inductive Destination where
  /-- A variable. -/
  | cell (c : CellRef)
  /-- A field. -/
  | field (object key : Value) (line : Nat) (name? : Option (String × String))

/-- Assigns the values to the places, the last one first. -/
def assignAll (f : Frame) : List (Destination × Value) → Program Unit
  | [] => return ()
  | (d, v) :: rest => do
    assignAll f rest
    match d with
    | .cell c => Program.ask (.setCell c v)
    | .field o k line name? => (f.here line).setIndex name? o k v

/-! ## Loops over numbers -/

/-- A loop over numbers, prepared. -/
inductive Count where
  /-- Over integers: the next one, the step, and how many rounds come after it. -/
  | ints (next step : Int64) (more : Nat)
  /-- Over floats. -/
  | floats (next stop step : Float)
  /-- No round at all. -/
  | none

/-- The float that a bound of a loop is. -/
def loopFloat (here : Here) (what : String) (v : Value) : Program Float :=
  match (Arithmetic.coerceNumber? v).bind Arithmetic.toFloat with
  | some x => return x
  | none => do
    let type ← objectTypeName here.runtime v
    here.fail ("bad 'for' " ++ what ++ " (number expected, got " ++ type ++ ")")

/-- Prepares a loop over integers, whose bound may be any number. -/
def countInts (here : Here) (start step : Int64) (stop : Value) : Program Count := do
  if step = 0 then here.fail "'for' step is zero"
  let up := 0 < step.toInt
  let rounds := fun last : Int =>
    if up then (if last < start.toInt then Count.none
      else .ints start step ((last - start.toInt) / step.toInt).toNat)
    else if start.toInt < last then Count.none
      else .ints start step ((start.toInt - last) / (-step.toInt)).toNat
  match Arithmetic.coerceNumber? stop with
  | some (.int i) => return rounds i.toInt
  | some (.num x) =>
    match Binary.of x with
    | .nan => return .none
    -- a bound beyond all integers stands for the last one in its direction, or for no round
    | .infinite negative =>
      if negative == up then return .none
      else return rounds (if up then Int64.maxValue.toInt else Int64.minValue.toInt)
    | .finite negative m e =>
      let whole : Int := Binary.wholePart m e
      let exact := Binary.isWhole m e
      let floor : Int := if negative then (if exact then -whole else -whole - 1) else whole
      let ceil : Int := if negative then -whole else if exact then whole else whole + 1
      let last := if up then floor else ceil
      if last < Int64.minValue.toInt then
        if up then return .none else return rounds Int64.minValue.toInt
      else if Int64.maxValue.toInt < last then
        if up then return rounds Int64.maxValue.toInt else return .none
      else return rounds last
  | _ =>
    let _ ← loopFloat here "limit" stop
    return .none

/-- Prepares a loop over numbers. -/
def countFrom (here : Here) (start stop step : Value) : Program Count := do
  match start, step with
  | .int i, .int s => countInts here i s stop
  | _, _ =>
    let y ← loopFloat here "limit" stop
    let s ← loopFloat here "step" step
    let x ← loopFloat here "initial value" start
    if s == 0.0 then here.fail "'for' step is zero"
    if (if 0.0 < s then y < x else x < y) then return .none else return .floats x y s

/-- The number of a round and what comes after it. -/
def Count.round : Count → Option (Value × Count)
  | .none => Option.none
  | .ints i step more =>
    some (.int i, match more with
      | 0 => Count.none
      | n + 1 => .ints (i + step) step n)
  | .floats x stop step =>
    let next := x + step
    let more := if 0.0 < step then next ≤ stop else stop ≤ next
    some (.num x, if more then .floats next stop step else .none)

/-! ## Expressions and statements -/

/-- The first of the values that a program gives. -/
def single (p : Program (List Value)) : Program Value := do return first (← p)

/-- The value of a program as the only one of a list. -/
def one (p : Program Value) : Program (List Value) := do return [← p]

mutual

/-- The values of an expression, of which calls and further arguments can give any number; `tail`
tells that the function returns them. -/
def evalOpen (f : Frame) (tail : Bool) : Expr → Program (List Value)
  | .nil => one (return .nil)
  | .bool b => one (return .bool b)
  | .int i => one (return .int i)
  | .num x => one (return .num x)
  | .str s => one (return .str s)
  | .varargs => return f.varargs
  | .variable v _ => one (Program.ask (.cell (f.cell v)))
  | .index object key line => one do
    match ownVariable? object with
    | some _ =>
      -- an own variable is not copied first: it is read when the key is there
      let k ← single (evalOpen f false key)
      let o ← single (evalOpen f false object)
      (f.here line).index (nameOf? object) o k
    | none =>
      let o ← single (evalOpen f false object)
      let k ← single (evalOpen f false key)
      (f.here line).index (nameOf? object) o k
  | .call callee args line => do
    let g ← single (evalOpen f false callee)
    let vs ← evalAll f args
    Program.callValue g vs (f.calling line (nameOf? callee) tail)
  | .method object name args line => do
    let o ← single (evalOpen f false object)
    let g ← (f.here line).index (nameOf? object) o (.text name)
    let vs ← evalAll f args
    Program.callValue g (o :: vs) (f.calling line (some ("method", name)) tail)
  | .function p => one (f.closure p)
  | .binary op a b line => one do
    -- here too an own variable is read last; a concatenation copies its operands in order
    if (ownVariable? a).isSome && op != .concat then
      let y ← single (evalOpen f false b)
      let x ← single (evalOpen f false a)
      (f.here line).binary op x y (nameOf? a) (nameOf? b)
    else
      let x ← single (evalOpen f false a)
      let y ← single (evalOpen f false b)
      (f.here line).binary op x y (nameOf? a) (nameOf? b)
  | .unary op a line => one do
    let x ← single (evalOpen f false a)
    (f.here line).unary op x (nameOf? a)
  | .both a b => one do
    let x ← single (evalOpen f false a)
    if x.truthy then single (evalOpen f false b) else return x
  | .either a b => one do
    let x ← single (evalOpen f false a)
    if x.truthy then return x else single (evalOpen f false b)
  | .paren e => one (single (evalOpen f false e))
  | .table fields line => one do
    let entries := fields.length - itemCount fields
    let t ← Program.ask (.newTable (Table.withRoom (itemCount fields) entries))
    let b ← evalFields f line { table := t } fields
    let _ ← b.flush
    return .table t
termination_by structural e => e

/-- The values of several expressions; the last one can give any number of them. -/
def evalAll (f : Frame) : List Expr → Program (List Value)
  | [] => return []
  | [e] => evalOpen f false e
  | e :: rest => do
    let v ← single (evalOpen f false e)
    return v :: (← evalAll f rest)
termination_by structural es => es

/-- Adds the fields of a constructor to a table. -/
def evalFields (f : Frame) (line : Nat) (b : Building) : List Field → Program Building
  | [] => return b
  | [.item e] => do
    let vs ← evalOpen f false e
    -- all values of an open item go in at once, so what is pending goes in before them
    if isOpen e then
      let b ← b.flush
      Program.ask (.growArray b.table (b.filled + vs.length))
      fill b.table (b.filled + 1) vs
      return b
    else b.push (first vs)
  | .item e :: rest => do
    let v ← single (evalOpen f false e)
    evalFields f line (← b.push v) rest
  | .entry key value :: rest => do
    let k ← single (evalOpen f false key)
    let v ← single (evalOpen f false value)
    (f.here line).rawSet b.table k v
    evalFields f line b rest
termination_by structural fields => fields

end

/-- The value of an expression. -/
def evalExpr (f : Frame) (e : Expr) : Program Value := single (evalOpen f false e)

/-- Evaluates the parts of a target, own variables apart, which are read when all values are
there. -/
def evalTarget (f : Frame) : Target → Program (Program Destination)
  | .variable v => return (return .cell (f.cell v))
  | .index object key line => do
    let o ←
      match ownVariable? object with
      | some slot => pure (Program.ask (.cell (f.cell (.own slot))))
      | none => do
        let o ← evalExpr f object
        pure (pure o)
    let k ←
      match ownVariable? key with
      | some slot => pure (Program.ask (.cell (f.cell (.own slot))))
      | none => do
        let k ← evalExpr f key
        pure (pure k)
    return do return .field (← o) (← k) line (nameOf? object)

/-- Evaluates the parts of several targets. -/
def evalTargets (f : Frame) : List Target → Program (List (Program Destination))
  | [] => return []
  | t :: rest => do
    let d ← evalTarget f t
    return d :: (← evalTargets f rest)

/-- The step of a loop over numbers, which is one unless it is given. -/
def evalStep (f : Frame) : Option Expr → Program Value
  | none => return .int 1
  | some e => evalExpr f e

mutual

/-- Runs a statement that brings no variables into scope. -/
def exec (f : Frame) : Stat → Program Flow
  | .call e => do
    let _ ← evalOpen f false e
    return .next
  | .assign targets values => do
    let ds ← evalTargets f targets
    let vs ← evalAll f values
    -- own variables among the parts are read now that the values are there
    let ds ← Program.forAll id ds
    assignAll f (ds.zip (adjust ds.length vs))
    return .next
  | .block body => execBlock f body
  | .conditional cond yes no => do
    if (← evalExpr f cond).truthy then execBlock f yes else execBlock f no
  | .whileLoop cond body =>
    iterate (fun () => do
      if (← evalExpr f cond).truthy then
        match ← execBlock f body with
        | .next => return .inr ()
        | .leave => return .inl .next
        | flow => return .inl flow
      else return .inl .next) roundLimit ()
  | .repeatLoop body =>
    iterate (fun () => do
      match ← execBlock f body with
      | .next => return .inr ()
      | .leave => return .inl .next
      | flow => return .inl flow) roundLimit ()
  | .untilTrue cond => do
    if (← evalExpr f cond).truthy then return .leave else return .next
  | .numericFor start stop step body line => do
    let x ← evalExpr f start
    let y ← evalExpr f stop
    let s ← evalStep f step
    let count ← countFrom (f.here line) x y s
    iterate (fun count => do
      match Count.round count with
      | none => return .inl .next
      | some (v, more) =>
        match ← execBlock (← f.declare v) body with
        | .next => return .inr more
        | .leave => return .inl .next
        | flow => return .inl flow) roundLimit count
  | .genericFor count values body line => do
    let vs := adjust 3 (← evalAll f values)
    -- a function, what it is called with each time, and what it is called with first
    let step := vs.headD .nil
    let state := (vs.drop 1).headD .nil
    iterate (fun control => do
      let vs ← Program.callValue step [state, control]
        (f.calling line (some ("for iterator", "for iterator")) false)
      if (first vs).isNil then return .inl .next
      else
        match ← execBlock (← f.declareAll (adjust count vs)) body with
        | .next => return .inr (first vs)
        | .leave => return .inl .next
        | flow => return .inl flow) roundLimit ((vs.drop 2).headD .nil)
  | .ret values => do
    match values with
    | [e] => return .ret (← evalOpen f true e)
    | es => return .ret (← evalAll f es)
  | .leave => return .leave
  | .jump l _ => return .jump l
  | .label .. | .locals .. | .localFunction _ => return .next
termination_by structural s => s

/-- Runs the statements of a block. -/
def execBlock (f : Frame) : List Stat → Program Flow
  | [] => return .next
  | .locals count closes values names line :: rest => do
    let vs := adjust count (← evalAll f values)
    let inner ← f.declareAll vs
    match closes with
    | none => execBlock inner rest
    | some i =>
      let v := vs[i]?.getD .nil
      let here := f.here line
      if !v.truthy then execBlock inner rest
      else
        if (← metamethod f.runtime v "close").isNil then
          here.fail ("variable '" ++ names[i]?.getD "?" ++ "' got a non-closable value")
        -- the value is closed however the rest of the block ends
        let result ← (execBlock inner rest).attempt
        let handler ← metamethod f.runtime v "close"
        match result with
        | .ok flow =>
          let _ ← here.callFirst "close" handler [v, .nil]
          return flow
        | .error e =>
          let _ ← here.callFirst "close" handler [v, e]
          .raise e
  | .localFunction p :: rest => do
    -- the variable comes before the function, which may capture it
    let inner ← f.declare .nil
    let g ← inner.closure p
    Program.ask (.setCell (inner.cell (.own f.slots.size)) g)
    execBlock inner rest
  | .label l _ :: rest =>
    -- a jump back to the label begins the rest anew
    iterate (fun () => do
      match ← execBlock f rest with
      | .jump l' => if l' = l then return .inr () else return .inl (.jump l')
      | flow => return .inl flow) roundLimit ()
  | s :: rest => do
    match ← exec f s with
    | .next => execBlock f rest
    | .jump l => execAfter f l rest
    | flow => return flow
termination_by structural ss => ss

/-- Goes on after a label of the rest of a block, or leaves the block if it is not there. -/
def execAfter (f : Frame) (l : String) : List Stat → Program Flow
  | [] => return .jump l
  | .label l' _ :: rest =>
    if l' = l then
      iterate (fun () => do
        match ← execBlock f rest with
        | .jump l' => if l' = l then return .inr () else return .inl (.jump l')
        | flow => return .inl flow) roundLimit ()
    else execAfter f l rest
  | _ :: rest => execAfter f l rest
termination_by structural ss => ss

end

/-- The places from which a function was called; a caller that is gone is left out. -/
def dropTail : CallSites → CallSites
  | .guest _ _ _ true :: rest => rest
  | sites => sites

/-- What a guest function does with its arguments. -/
def runClosure (r : RuntimeRef) (p : Proto) (captures : List CellRef) (args : List Value)
    (sites : CallSites) : Program (List Value) := do
  let header := p.header
  let frame : Frame :=
    { runtime := r, chunk := header.chunk, slots := #[], captures := captures.toArray,
      varargs := if header.variadic then args.drop header.parameters else [],
      sites := dropTail sites }
  let frame ← frame.declareAll (adjust header.parameters args)
  match ← execBlock frame p.body with
  | .ret vs => return vs
  | _ => return []

end ScriptShell.Guest
