import ScriptShell.Guest.Lexer

/-! # Labels

Checks the jumps of one function body.  `goto` goes to a label of a block around it, and never into
the scope of a variable; `break` leaves a loop; no label is declared twice where both would be
visible. -/

namespace ScriptShell.Guest.Labels

/-- The label that a statement is. -/
def labelOf? : Stat → Option String
  | .label name _ => some name
  | _ => none

/-- Whether a statement brings variables into scope. -/
def declares : Stat → Bool
  | .locals .. | .localFunction _ => true
  | _ => false

/-- The labels ahead that can be jumped to: those before the next variable, and those after which
nothing follows in the block. -/
def ahead (rest : List Stat) : List String :=
  (rest.takeWhile (!declares ·)).filterMap labelOf? ++
    (rest.reverse.takeWhile fun s => (labelOf? s).isSome).filterMap labelOf?

mutual

/-- Checks one statement.  `visible` are the labels it can jump to, `declared` those that it may
not declare again. -/
def checkStat (inLoop : Bool) (visible declared : List String) : Stat → Option SyntaxFault
  | .jump l line =>
    if visible.contains l then none
    else some ⟨line, "no visible label '" ++ l ++ "' for goto"⟩
  | .leave => if inLoop then none else some ⟨0, "break outside a loop"⟩
  | .label l line =>
    if declared.contains l then some ⟨line, "label '" ++ l ++ "' already defined"⟩ else none
  | .block body => checkBlock inLoop visible declared [] body
  | .conditional _ yes no =>
    (checkBlock inLoop visible declared [] yes).or (checkBlock inLoop visible declared [] no)
  | .whileLoop _ body => checkBlock true visible declared [] body
  | .repeatLoop body => checkBlock true visible declared [] body
  | .numericFor _ _ _ body _ => checkBlock true visible declared [] body
  | .genericFor _ _ body _ => checkBlock true visible declared [] body
  | .call _ | .locals .. | .localFunction _ | .assign .. | .untilTrue _ | .ret _ => none
termination_by structural s => s

/-- Checks the rest of a block; `before` are the labels of its statements so far. -/
def checkBlock (inLoop : Bool) (visible declared before : List String) :
    List Stat → Option SyntaxFault
  | [] => none
  | s :: rest =>
    (checkStat inLoop (visible ++ before ++ ahead rest) (declared ++ before) s).or
      (checkBlock inLoop visible declared (before ++ (labelOf? s).toList) rest)
termination_by structural ss => ss

end

/-- Checks the body of a function. -/
def check (body : List Stat) : Option SyntaxFault := checkBlock false [] [] [] body

end ScriptShell.Guest.Labels
