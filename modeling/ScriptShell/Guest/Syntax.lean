import ScriptShell.Text.Utf8

/-! # Guest syntax

Programs of the guest language after names have been resolved.  A local variable is known by its
slot among the variables of its function that are in scope, a variable of an outer function by its
place among the captures of the function, and any other name is a field of the variable `_ENV`.
Parts that can fail when they run carry their line. -/

namespace ScriptShell.Guest

/-- Operators on two operands, both of which are always evaluated. -/
inductive BinaryOp where
  /-- Sum. -/
  | add
  /-- Difference. -/
  | sub
  /-- Product. -/
  | mul
  /-- Quotient. -/
  | div
  /-- Remainder. -/
  | mod
  /-- Power. -/
  | pow
  /-- Quotient, rounded down. -/
  | floorDiv
  /-- Bitwise and. -/
  | bitAnd
  /-- Bitwise or. -/
  | bitOr
  /-- Bitwise exclusive or. -/
  | bitXor
  /-- Shift to the left. -/
  | shiftLeft
  /-- Shift to the right. -/
  | shiftRight
  /-- Concatenation. -/
  | concat
  /-- Equal. -/
  | eq
  /-- Not equal. -/
  | ne
  /-- Less. -/
  | lt
  /-- Less or equal. -/
  | le
  /-- Greater. -/
  | gt
  /-- Greater or equal. -/
  | ge
  deriving DecidableEq, Repr, Inhabited

/-- Operators on one operand. -/
inductive UnaryOp where
  /-- Negation. -/
  | negate
  /-- Bitwise complement. -/
  | bitNot
  /-- Length. -/
  | length
  /-- Logical negation. -/
  | logicalNot
  deriving DecidableEq, Repr, Inhabited

/-- A variable of a function. -/
inductive Variable where
  /-- One of its own variables. -/
  | own (slot : Nat)
  /-- One that it captures from outside. -/
  | captured (index : Nat)
  deriving DecidableEq, Repr, Inhabited

/-- What is known of a function apart from its body. -/
structure Header where
  /-- The name of the chunk in messages. -/
  chunk : String
  /-- The line where the function starts; zero for a whole chunk. -/
  line : Nat
  /-- How many parameters it has. -/
  parameters : Nat
  /-- Whether it takes more arguments than it has parameters. -/
  variadic : Bool
  /-- The variables of the enclosing function that it captures, with their names. -/
  captures : List (Variable × String)
  deriving DecidableEq, Repr, Inhabited

mutual

/-- An expression. -/
inductive Expr where
  /-- No value. -/
  | nil
  /-- A truth value. -/
  | bool (b : Bool)
  /-- An integer. -/
  | int (i : Int64)
  /-- A float. -/
  | num (x : Float)
  /-- A string. -/
  | str (s : Bytes)
  /-- All further arguments of the function. -/
  | varargs
  /-- A variable. -/
  | variable (v : Variable) (name : String)
  /-- A field of a table. -/
  | index (object key : Expr) (line : Nat)
  /-- A call. -/
  | call (callee : Expr) (args : List Expr) (line : Nat)
  /-- A call of a method, which gets the object as its first argument. -/
  | method (object : Expr) (name : String) (args : List Expr) (line : Nat)
  /-- A function. -/
  | function (p : Proto)
  /-- An operator on two operands. -/
  | binary (op : BinaryOp) (a b : Expr) (line : Nat)
  /-- An operator on one operand. -/
  | unary (op : UnaryOp) (a : Expr) (line : Nat)
  /-- The second operand if the first one is true, else the first. -/
  | both (a b : Expr)
  /-- The first operand if it is true, else the second. -/
  | either (a b : Expr)
  /-- An expression in parentheses, which is one value. -/
  | paren (e : Expr)
  /-- A new table. -/
  | table (fields : List Field) (line : Nat)

/-- A field of a table constructor. -/
inductive Field where
  /-- The next item. -/
  | item (e : Expr)
  /-- A value under a key. -/
  | entry (key value : Expr)

/-- A function: its header and its body. -/
inductive Proto where
  /-- Builds a function. -/
  | mk (header : Header) (body : List Stat)

/-- What an assignment assigns to. -/
inductive Target where
  /-- A variable. -/
  | variable (v : Variable)
  /-- A field of a table. -/
  | index (object key : Expr) (line : Nat)

/-- A statement. -/
inductive Stat where
  /-- A call whose results are dropped. -/
  | call (e : Expr)
  /-- New variables; `closes` is the place of the one that is closed at the end of the block. -/
  | locals (count : Nat) (closes : Option Nat) (values : List Expr) (names : List String)
      (line : Nat)
  /-- A new variable with a function that can refer to it. -/
  | localFunction (p : Proto)
  /-- An assignment. -/
  | assign (targets : List Target) (values : List Expr)
  /-- A block. -/
  | block (body : List Stat)
  /-- One of two blocks. -/
  | conditional (cond : Expr) (yes no : List Stat)
  /-- A loop while a condition holds. -/
  | whileLoop (cond : Expr) (body : List Stat)
  /-- A loop until `untilTrue`, the last statement of its body, ends it. -/
  | repeatLoop (body : List Stat)
  /-- Ends the innermost `repeatLoop` if the condition holds. -/
  | untilTrue (cond : Expr)
  /-- A loop over numbers. -/
  | numericFor (start stop : Expr) (step : Option Expr) (body : List Stat) (line : Nat)
  /-- A loop over what an iterator gives. -/
  | genericFor (count : Nat) (values : List Expr) (body : List Stat) (line : Nat)
  /-- Returns from the function. -/
  | ret (values : List Expr)
  /-- Leaves the innermost loop. -/
  | leave
  /-- Goes on at a label. -/
  | jump (label : String) (line : Nat)
  /-- A label. -/
  | label (name : String) (line : Nat)

end

instance : Inhabited Expr := ⟨.nil⟩
instance : Inhabited Stat := ⟨.leave⟩
instance : Inhabited Proto := ⟨.mk default []⟩

/-- What is known of a function apart from its body. -/
def Proto.header : Proto → Header
  | .mk header _ => header

/-- The statements of a function. -/
def Proto.body : Proto → List Stat
  | .mk _ body => body

/-- The reserved words of the guest language. -/
def reservedWords : List String :=
  ["and", "break", "do", "else", "elseif", "end", "false", "for", "function", "goto", "if", "in",
    "local", "nil", "not", "or", "repeat", "return", "then", "true", "until", "while"]

/-- The most characters of a chunk's name that messages show. -/
def chunkNameLimit : Nat := 59

/-- The name of a chunk in messages.  `=name` is shown as it is, `@path` as the path, shortened at
its start, and any other name is source text, of which the first line is shown. -/
def chunkDisplay (name : String) : String :=
  match name.toList with
  | '=' :: rest => String.ofList (rest.take chunkNameLimit)
  | '@' :: rest =>
    if rest.length ≤ chunkNameLimit then String.ofList rest
    else "..." ++ String.ofList (rest.drop (rest.length - (chunkNameLimit - 3)))
  | source =>
    let first := source.takeWhile (· ≠ '\n')
    let room := chunkNameLimit - 14
    if first.length = source.length && source.length < room then
      "[string \"" ++ String.ofList first ++ "\"]"
    else "[string \"" ++ String.ofList (first.take room) ++ "...\"]"

end ScriptShell.Guest
