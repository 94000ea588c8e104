import ScriptShell.Guest.HostCalls
import ScriptShell.Proofs.GuestPrograms

/-! # Programs of the library

The functions of the library ask for nothing but what guest code asks for.  A function is a walk
over its arguments and a few operations, so its lemma goes through it step by step; a loop has an
induction of its own.  Here are those that need no more than values and the heap: the basic
functions and those on numbers, tables and text.
-/

namespace ScriptShell.Guest

open Program (IsGuest Gives)

/-! ## Arguments and failures -/

namespace LibraryCall

variable (c : LibraryCall)

theorem isGuest_fail {α : Type} (message : String) :
    (c.fail message : Program α).IsGuest := IsGuest.raise _

theorem isGuest_failArgument {α : Type} (n : Nat) (message : String) :
    (c.failArgument n message : Program α).IsGuest := by
  unfold failArgument
  dsimp only
  repeat' split
  all_goals exact c.isGuest_fail _

theorem isGuest_failType {α : Type} (n : Nat) (expected : String) :
    (c.failType n expected : Program α).IsGuest := by
  unfold failType
  dsimp only
  split
  · exact .bind (.pure _) fun _ => c.isGuest_failArgument _ _
  · split
    · exact .bind (.pure _) fun _ => c.isGuest_failArgument _ _
    · exact .bind (isGuest_objectTypeName _ _) fun _ => c.isGuest_failArgument _ _

/-- An error about an argument has no value. -/
theorem gives_failType {α : Type} {Q : α → Prop} (n : Nat) (expected : String) :
    (c.failType n expected : Program α).Gives Q := by
  have hfails (message : String) : (c.failArgument n message : Program α).Gives Q := by
    unfold failArgument
    dsimp only
    split
    · split <;> trivial
    · trivial
    · trivial
  unfold failType
  dsimp only
  split
  · exact hfails _
  · split
    · exact hfails _
    · exact Gives.after fun _ => hfails _

theorem isGuest_any (n : Nat) : (c.any n).IsGuest := by
  unfold any
  split
  · exact .pure _
  · exact c.isGuest_failArgument _ _

theorem isGuest_string (n : Nat) : (c.string n).IsGuest := by
  unfold string
  split
  · exact .pure _
  · exact c.isGuest_failType _ _

theorem isGuest_integer (n : Nat) : (c.integer n).IsGuest := by
  unfold integer
  split
  · exact .pure _
  · split
    · exact c.isGuest_failArgument _ _
    · exact c.isGuest_failType _ _

theorem isGuest_integerOr (n : Nat) (default : Int) :
    (c.integerOr n default).IsGuest := by
  unfold integerOr
  split
  · exact .pure _
  · exact c.isGuest_integer _

theorem isGuest_number (n : Nat) : (c.number n).IsGuest := by
  unfold number
  split
  · exact .pure _
  · exact c.isGuest_failType _ _

theorem isGuest_float (n : Nat) : (c.float n).IsGuest := by
  unfold float
  exact .bind (c.isGuest_number _) fun _ => .pure _

theorem isGuest_table (n : Nat) : (c.table n).IsGuest := by
  unfold table
  split
  · exact .pure _
  · exact c.isGuest_failType _ _

end LibraryCall

theorem isGuest_raiseFailure {α : Type} (f : Failure) :
    (raiseFailure f : Program α).IsGuest := by
  unfold raiseFailure
  exact .bind (.ask rfl) fun _ => .raise _

theorem isGuest_failureWithin (here : Here) (n : Nat) (e : Value) :
    (failureWithin here n e).IsGuest := by
  induction n generalizing e with
  | zero => exact IsGuest.pure _
  | succ n ih =>
    unfold failureWithin
    split
    · exact .pure _
    · refine IsGuest.bind (IsGuest.ask rfl) fun _ => ?_
      split
      · exact .pure _
      · refine .bind (.attempt (here.isGuest_toText _)) fun _ => ?_
        split
        · exact .pure _
        · exact ih _
    · dsimp only
      refine .bind (.attempt (here.isGuest_toText _)) fun _ => ?_
      split
      · exact .pure _
      · exact ih _

theorem isGuest_failureOf (here : Here) (e : Value) : (failureOf here e).IsGuest :=
  isGuest_failureWithin here _ e

theorem isGuest_viaHost {α : Type} (here : Here) {p : Program α} (hp : p.IsGuest) :
    (viaHost here p).IsGuest := by
  unfold viaHost
  refine .bind (.attempt hp) fun _ => ?_
  split
  · exact .pure _
  · exact .bind (isGuest_failureOf _ _) fun _ => isGuest_raiseFailure _

namespace LibraryCall

variable (c : LibraryCall)

/-! ## The basic functions -/

theorem isGuest_raiseError (message : Value) (level : Int) :
    (c.raiseError message level).IsGuest := by
  unfold raiseError
  repeat' split
  all_goals exact .raise _

theorem isGuest_error : c.error.IsGuest := by
  unfold error
  exact .bind (c.isGuest_integerOr _ _) fun _ => c.isGuest_raiseError _ _

theorem isGuest_assert : c.assert.IsGuest := by
  unfold assert
  split
  · exact .pure _
  · exact .bind (c.isGuest_any _) fun _ => c.isGuest_raiseError _ _

theorem isGuest_pcall : c.pcall.IsGuest := by
  unfold pcall
  refine .bind (c.isGuest_any _) fun _ => .call fun _ => ?_
  split <;> trivial

theorem isGuest_xpcall : c.xpcall.IsGuest := by
  unfold xpcall
  dsimp only
  split
  case' h_2 => refine .bind (c.isGuest_failType _ _) fun _ => ?_
  all_goals
    refine .call fun _ => ?_
    split
    · trivial
    · refine .call fun _ => ?_
      split <;> trivial

theorem isGuest_select : c.select.IsGuest := by
  unfold select
  dsimp only
  split
  all_goals
    split
    · exact .pure _
    · refine .bind (c.isGuest_integer _) fun _ => ?_
      split
      · exact .checked (c.isGuest_failArgument _ _) (.pure _)
      · split
        · exact c.isGuest_failArgument _ _
        · exact .pure _

theorem isGuest_type : c.type.IsGuest := by
  unfold type
  exact .bind (c.isGuest_any _) fun _ => .pure _

theorem isGuest_tostring : c.tostring.IsGuest := by
  unfold tostring
  exact .bind (c.isGuest_any _) fun _ => .bind (c.here.isGuest_toText _) fun _ => .pure _

theorem isGuest_tonumber : c.tonumber.IsGuest := by
  unfold tonumber
  split
  · split
    · exact .pure _
    · exact .bind (c.isGuest_any _) fun _ => .pure _
  · refine .bind (c.isGuest_integer _) fun _ => ?_
    split
    · dsimp only
      exact .checked (c.isGuest_failArgument _ _) (.pure _)
    · exact c.isGuest_failType _ _

theorem isGuest_rawget : c.rawget.IsGuest := by
  unfold rawget
  refine .bind (c.isGuest_table _) fun _ => .bind (c.isGuest_any _) fun _ => ?_
  split
  · exact .bind (.ask rfl) fun _ => .pure _
  · exact .pure _

theorem isGuest_rawset : c.rawset.IsGuest := by
  unfold rawset
  exact .bind (c.isGuest_table _) fun _ => .bind (c.isGuest_any _) fun _ =>
    .bind (c.isGuest_any _) fun _ => .bind (c.here.isGuest_rawSet _ _ _) fun _ => .pure _

theorem isGuest_rawlen : c.rawlen.IsGuest := by
  unfold rawlen
  split
  · exact .bind (.ask rfl) fun _ => .pure _
  · exact .pure _
  · exact c.isGuest_failType _ _

theorem isGuest_rawequal : c.rawequal.IsGuest := by
  unfold rawequal
  exact .bind (c.isGuest_any _) fun _ => .bind (c.isGuest_any _) fun _ => .pure _

theorem isGuest_setmetatable : c.setmetatable.IsGuest := by
  unfold setmetatable
  refine IsGuest.bind (c.isGuest_table 1) fun _ => ?_
  dsimp only
  repeat' split
  all_goals
    refine .bind ?_ fun _ => .bind (isGuest_metamethod _ _ _) fun _ =>
      .checked (c.isGuest_fail _) (.bind (.ask rfl) fun _ => .pure _)
  · exact .pure _
  · exact .pure _
  · exact c.isGuest_failType _ _
  · exact c.isGuest_failType _ _

theorem isGuest_getmetatable : c.getmetatable.IsGuest := by
  unfold getmetatable
  refine .bind (c.isGuest_any _) fun _ => .bind (isGuest_metatable? _ _) fun _ => ?_
  split
  · exact .pure _
  · exact .bind (.ask rfl) fun _ => .pure _

theorem isGuest_libraryValue (f : LibraryFunction) : (c.libraryValue f).IsGuest := by
  unfold libraryValue
  exact .bind (.ask rfl) fun _ => .pure _

theorem isGuest_ipairs : c.ipairs.IsGuest := by
  unfold ipairs
  exact .bind (c.isGuest_any _) fun _ => .bind (c.isGuest_libraryValue _) fun _ => .pure _

theorem isGuest_ipairsStep : c.ipairsStep.IsGuest := by
  unfold ipairsStep
  refine .bind (c.isGuest_integer _) fun _ => ?_
  dsimp only
  refine .bind (c.here.isGuest_index _ _ _) fun _ => ?_
  split <;> exact .pure _

theorem isGuest_next : c.next.IsGuest := by
  unfold next
  refine .bind (c.isGuest_table _) fun _ => .bind (.ask rfl) fun _ => ?_
  dsimp only
  split
  · exact c.here.isGuest_fail _
  · exact .pure _
  · exact .pure _

theorem isGuest_pairs : c.pairs.IsGuest := by
  unfold pairs
  refine .bind (c.isGuest_any _) fun _ => .bind (isGuest_metamethod _ _ _) fun _ => ?_
  split
  · exact .bind (c.isGuest_libraryValue _) fun _ => .pure _
  · exact .bind (.callValue _ _ _) fun _ => .pure _

theorem isGuest_collectgarbage : c.collectgarbage.IsGuest := by
  unfold collectgarbage
  exact .pure _

theorem isGuest_loadChunk (r : RuntimeRef) (p : Proto) (environment : Value) :
    (loadChunk r p environment).IsGuest := by
  unfold loadChunk
  exact .bind (.ask rfl) fun _ => .bind (.ask rfl) fun _ => .pure _

theorem isGuest_environment (n : Nat) : (c.environment n).IsGuest := by
  unfold environment
  split
  · exact .pure _
  · exact .bind (.ask rfl) fun _ => .pure _

theorem isGuest_loaded (n : Nat) (result : Except String Proto) :
    (c.loaded n result).IsGuest := by
  unfold loaded
  split
  · exact .bind (c.isGuest_environment _) fun _ => .bind (isGuest_loadChunk _ _ _) fun _ => .pure _
  · exact .pure _

theorem isGuest_pieces (f : Value) (n : Nat) : (c.pieces f n).IsGuest := by
  induction n with
  | zero => exact IsGuest.exhausted
  | succ n ih =>
    unfold pieces
    refine .bind (.callValue _ _ _) fun _ => ?_
    split
    · exact .pure _
    · exact .pure _
    · refine .bind ih fun _ => ?_
      split <;> exact .pure _
    · exact .pure _

theorem isGuest_load : c.load.IsGuest := by
  unfold load
  split
  · dsimp only
    exact .either (.pure _) (c.isGuest_string _) fun _ => c.isGuest_loaded _ _
  · split
    · dsimp only
      refine .either (.pure _) (c.isGuest_string _) fun _ => ?_
      refine .bind (c.isGuest_pieces _ _) fun _ => ?_
      split
      · exact c.isGuest_loaded _ _
      · exact .pure _
    · exact c.isGuest_failType _ _

theorem isGuest_compileFile (mode : Value) : (c.compileFile mode).IsGuest := by
  unfold compileFile
  refine .bind (c.isGuest_string _) fun _ => ?_
  dsimp only
  refine .bind (.ask rfl) fun _ => ?_
  split <;> exact .pure _

theorem isGuest_loadfile : c.loadfile.IsGuest := by
  unfold loadfile
  exact .bind (c.isGuest_compileFile _) fun _ => c.isGuest_loaded _ _

theorem isGuest_dofile : c.dofile.IsGuest := by
  unfold dofile
  refine .bind (c.isGuest_compileFile _) fun _ => ?_
  split
  · exact .raise _
  · exact .bind (.ask rfl) fun _ => .bind (isGuest_loadChunk _ _ _) fun _ => .callValue _ _ _

theorem isGuest_coroutineCreate : c.coroutineCreate.IsGuest := by
  unfold coroutineCreate
  split
  · exact .bind (.ask rfl) fun _ => .pure _
  · exact c.isGuest_failType _ _

theorem isGuest_coroutineStatus : c.coroutineStatus.IsGuest := by
  unfold coroutineStatus
  split
  · exact .pure _
  · exact c.isGuest_failType _ _

/-! ## Numbers -/

theorem isGuest_mathType : c.mathType.IsGuest := by
  unfold mathType
  refine .bind (c.isGuest_any _) fun _ => ?_
  split <;> exact .pure _

theorem isGuest_mathTointeger : c.mathTointeger.IsGuest := by
  unfold mathTointeger
  split
  · exact .pure _
  · exact .bind (c.isGuest_any _) fun _ => .pure _

theorem isGuest_mathFloor : c.mathFloor.IsGuest := by
  unfold mathFloor
  refine .bind (c.isGuest_number _) fun _ => ?_
  split <;> exact .pure _

theorem isGuest_mathCeil : c.mathCeil.IsGuest := by
  unfold mathCeil
  refine .bind (c.isGuest_number _) fun _ => ?_
  split <;> exact .pure _

theorem isGuest_mathAbs : c.mathAbs.IsGuest := by
  unfold mathAbs
  refine .bind (c.isGuest_number _) fun _ => ?_
  split <;> exact .pure _

theorem isGuest_mathSqrt : c.mathSqrt.IsGuest := by
  unfold mathSqrt
  exact .bind (c.isGuest_float _) fun _ => .pure _

theorem isGuest_mathFmod : c.mathFmod.IsGuest := by
  unfold mathFmod
  refine .bind (c.isGuest_number _) fun _ => .bind (c.isGuest_number _) fun _ => ?_
  split
  · dsimp only
    exact .checked (c.isGuest_failArgument _ _) (.pure _)
  · exact .pure _

theorem isGuest_bestFrom (better : Ordering) (count n : Nat) (best : Value) :
    (c.bestFrom better count n best).IsGuest := by
  induction count generalizing n best with
  | zero => exact IsGuest.pure _
  | succ count ih =>
    unfold bestFrom
    exact .bind (c.isGuest_number _) fun _ => ih _ _

theorem isGuest_mathMax : c.mathMax.IsGuest := by
  unfold mathMax
  exact .bind (c.isGuest_number _) fun _ => .bind (c.isGuest_bestFrom _ _ _ _) fun _ => .pure _

theorem isGuest_mathMin : c.mathMin.IsGuest := by
  unfold mathMin
  exact .bind (c.isGuest_number _) fun _ => .bind (c.isGuest_bestFrom _ _ _ _) fun _ => .pure _

/-! ## Tables -/

theorem isGuest_tableLike (n : Nat) (events : List String) :
    (c.tableLike n events).IsGuest := by
  unfold tableLike
  split
  · exact .pure _
  · refine .bind (isGuest_metatable? _ _) fun _ => ?_
    split
    · exact c.isGuest_failType _ _
    · refine .bind (.ask rfl) fun _ => ?_
      split
      · exact .pure _
      · exact c.isGuest_failType _ _

theorem isGuest_lengthOf (v : Value) : (c.lengthOf v).IsGuest := by
  unfold lengthOf
  refine .bind (c.here.isGuest_length _ _) fun _ => ?_
  split
  · exact .pure _
  · exact c.isGuest_fail _

theorem isGuest_getAt (t : Value) (i : Int) : (c.getAt t i).IsGuest :=
  c.here.isGuest_index ..

theorem isGuest_setAt (t : Value) (i : Int) (v : Value) : (c.setAt t i v).IsGuest :=
  c.here.isGuest_setIndex ..

theorem isGuest_concatItems (t : Value) (separator : Bytes) (count : Nat) (i : Int) :
    (c.concatItems t separator count i).IsGuest := by
  induction count generalizing i with
  | zero => exact IsGuest.pure _
  | succ count ih =>
    unfold concatItems
    refine .bind (c.isGuest_getAt _ _) fun _ => ?_
    split
    · exact c.isGuest_fail _
    · exact .bind (ih _) fun _ => .pure _

theorem isGuest_tableConcat : c.tableConcat.IsGuest := by
  unfold tableConcat
  refine .bind (c.isGuest_tableLike _ _) fun _ => .bind (c.isGuest_lengthOf _) fun _ => ?_
  dsimp only
  exact .either (.pure _) (c.isGuest_string _) fun _ => .bind (c.isGuest_integerOr _ _) fun _ =>
    .bind (c.isGuest_integerOr _ _) fun _ => .bind (c.isGuest_concatItems _ _ _ _) fun _ => .pure _

theorem isGuest_valuesFrom (t : Value) (count : Nat) (i : Int) :
    (c.valuesFrom t count i).IsGuest := by
  induction count generalizing i with
  | zero => exact IsGuest.pure _
  | succ count ih =>
    unfold valuesFrom
    exact .bind (c.isGuest_getAt _ _) fun _ => .bind (ih _) fun _ => .pure _

theorem isGuest_tableUnpack : c.tableUnpack.IsGuest := by
  unfold tableUnpack
  refine .bind (c.isGuest_integerOr _ _) fun _ => ?_
  dsimp only
  refine .either (c.isGuest_lengthOf _) (c.isGuest_integer _) fun _ => ?_
  split
  · exact .pure _
  · exact .checked (c.isGuest_fail _) (c.isGuest_valuesFrom _ _ _)

theorem isGuest_tablePack : c.tablePack.IsGuest := by
  unfold tablePack
  refine .bind (.ask rfl) fun _ => .bind ?_ fun _ => .bind (.ask rfl) fun _ => .pure _
  exact .forAll _ fun _ => .ask rfl

theorem isGuest_shiftUp (t : Value) (count : Nat) (i : Int) :
    (c.shiftUp t count i).IsGuest := by
  induction count generalizing i with
  | zero => exact IsGuest.pure _
  | succ count ih =>
    unfold shiftUp
    exact .bind (c.isGuest_getAt _ _) fun _ => .bind (c.isGuest_setAt _ _ _) fun _ => ih _

theorem isGuest_shiftDown (t : Value) (count : Nat) (i : Int) :
    (c.shiftDown t count i).IsGuest := by
  induction count generalizing i with
  | zero => exact IsGuest.pure _
  | succ count ih =>
    unfold shiftDown
    exact .bind (c.isGuest_getAt _ _) fun _ => .bind (c.isGuest_setAt _ _ _) fun _ => ih _

theorem isGuest_tableInsert : c.tableInsert.IsGuest := by
  unfold tableInsert
  refine .bind (c.isGuest_tableLike _ _) fun _ => .bind (c.isGuest_lengthOf _) fun _ => ?_
  dsimp only
  split
  · exact .bind (c.isGuest_setAt _ _ _) fun _ => .pure _
  · refine .bind (c.isGuest_integer _) fun _ => ?_
    exact .checked (c.isGuest_failArgument _ _) (.bind (c.isGuest_shiftUp _ _ _) fun _ =>
      .bind (c.isGuest_setAt _ _ _) fun _ => .pure _)
  · exact c.isGuest_fail _

theorem isGuest_tableRemove : c.tableRemove.IsGuest := by
  unfold tableRemove
  refine .bind (c.isGuest_tableLike _ _) fun _ => .bind (c.isGuest_lengthOf _) fun _ =>
    .bind (c.isGuest_integerOr _ _) fun _ => ?_
  dsimp only
  exact .checked (c.isGuest_failArgument _ _) (.bind (c.isGuest_getAt _ _) fun _ =>
    .bind (c.isGuest_shiftDown _ _ _) fun _ => .bind (c.isGuest_setAt _ _ _) fun _ => .pure _)

section Sorting

variable {less : Value → Value → Program Bool} (hless : ∀ v w, (less v w).IsGuest)

include hless

theorem isGuest_insertSorted (v : Value) (ws : List Value) :
    (insertSorted less v ws).IsGuest := by
  induction ws with
  | nil => exact IsGuest.pure _
  | cons w rest ih =>
    unfold insertSorted
    refine .bind (hless _ _) fun _ => ?_
    split
    · exact .pure _
    · exact .bind ih fun _ => .pure _

theorem isGuest_sortValues (vs : List Value) : (sortValues less vs).IsGuest := by
  induction vs with
  | nil => exact IsGuest.pure _
  | cons v rest ih =>
    unfold sortValues
    exact .bind ih fun _ => isGuest_insertSorted hless _ _

end Sorting

theorem isGuest_tableSort : c.tableSort.IsGuest := by
  unfold tableSort
  refine IsGuest.bind (c.isGuest_tableLike ..) fun t => IsGuest.bind (c.isGuest_lengthOf _)
    fun size => ?_
  have hrest {less : Value → Value → Program Bool} (hless : ∀ v w, (less v w).IsGuest) :
      Program.IsGuest do
        let vs ← sortValues less (← c.valuesFrom t size.toNat 1)
        let _ ← Program.forAll (fun p => c.setAt t (Int.ofNat (p.2 + 1)) p.1) vs.zipIdx
        return ([] : List Value) := by
    refine .bind (c.isGuest_valuesFrom _ _ _) fun _ => .bind (isGuest_sortValues hless _) fun _ =>
      .bind ?_ fun _ => .pure _
    exact .forAll _ fun _ => c.isGuest_setAt _ _ _
  dsimp only
  split
  · exact hrest fun a b => c.here.isGuest_ordered ..
  · refine hrest fun a b => ?_
    exact .bind (c.here.isGuest_callFirst _ _ _) fun _ => .pure _
  · exact Gives.isGuest_bind (c.isGuest_failType ..) (c.gives_failType ..) fun _ => hrest

/-! ## Text -/

theorem isGuest_stringLen : c.stringLen.IsGuest := by
  unfold stringLen
  exact .bind (c.isGuest_string _) fun _ => .pure _

theorem isGuest_stringSub : c.stringSub.IsGuest := by
  unfold stringSub
  exact .bind (c.isGuest_string _) fun _ => .bind (c.isGuest_integer _) fun _ =>
    .bind (c.isGuest_integerOr _ _) fun _ => .pure _

theorem isGuest_stringByte : c.stringByte.IsGuest := by
  unfold stringByte
  exact .bind (c.isGuest_string _) fun _ => .bind (c.isGuest_integerOr _ _) fun _ =>
    .bind (c.isGuest_integerOr _ _) fun _ => .pure _

theorem isGuest_bytesFrom (count n : Nat) : (c.bytesFrom count n).IsGuest := by
  induction count generalizing n with
  | zero => exact IsGuest.pure _
  | succ count ih =>
    unfold bytesFrom
    refine .bind (c.isGuest_integer _) fun _ => ?_
    dsimp only
    exact .checked (c.isGuest_failArgument _ _) (.bind (ih _) fun _ => .pure _)

theorem isGuest_stringChar : c.stringChar.IsGuest := by
  unfold stringChar
  exact .bind (c.isGuest_bytesFrom _ _) fun _ => .pure _

theorem isGuest_stringUpper : c.stringUpper.IsGuest := by
  unfold stringUpper
  exact .bind (c.isGuest_string _) fun _ => .pure _

theorem isGuest_stringLower : c.stringLower.IsGuest := by
  unfold stringLower
  exact .bind (c.isGuest_string _) fun _ => .pure _

theorem isGuest_stringReverse : c.stringReverse.IsGuest := by
  unfold stringReverse
  exact .bind (c.isGuest_string _) fun _ => .pure _

theorem isGuest_stringRep : c.stringRep.IsGuest := by
  unfold stringRep
  refine .bind (c.isGuest_string _) fun _ => .bind (c.isGuest_integer _) fun _ => ?_
  dsimp only
  refine .either (.pure _) (c.isGuest_string _) fun _ => ?_
  split
  · exact .pure _
  · refine .checked (c.isGuest_fail _) ?_
    split <;> exact .pure _

theorem isGuest_stringArithmetic (op : BinaryOp) : (c.stringArithmetic op).IsGuest := by
  unfold stringArithmetic
  dsimp only
  split
  · exact .bind (c.here.isGuest_arithmetic _ _ _ _ _) fun _ => .pure _
  · split
    · refine .bind (.pure _) fun _ => ?_
      split
      · exact c.isGuest_fail _
      · exact .bind (c.here.isGuest_callFirst _ _ _) fun _ => .pure _
    · refine .bind (isGuest_metamethod _ _ _) fun _ => ?_
      split
      · exact c.isGuest_fail _
      · exact .bind (c.here.isGuest_callFirst _ _ _) fun _ => .pure _

theorem isGuest_stringNegate : c.stringNegate.IsGuest := by
  unfold stringNegate
  dsimp only
  split
  · exact .pure _
  · exact c.isGuest_fail _

theorem isGuest_orFail {α : Type} (result : Except String α) :
    (c.orFail result).IsGuest := by
  unfold orFail
  split
  · exact .pure _
  · exact c.isGuest_fail _

theorem isGuest_stringFind : c.stringFind.IsGuest := by
  unfold stringFind
  refine .bind (c.isGuest_string _) fun _ => .bind (c.isGuest_string _) fun _ =>
    .bind (c.isGuest_integerOr _ _) fun _ => ?_
  dsimp only
  split
  · exact .pure _
  · split
    · split <;> exact .pure _
    · refine .bind (c.isGuest_orFail _) fun _ => ?_
      split
      · exact .pure _
      · exact .bind (c.isGuest_orFail _) fun _ => .pure _

theorem isGuest_stringMatch : c.stringMatch.IsGuest := by
  unfold stringMatch
  refine .bind (c.isGuest_string _) fun _ => .bind (c.isGuest_string _) fun _ =>
    .bind (c.isGuest_integerOr _ _) fun _ => ?_
  dsimp only
  split
  · exact .pure _
  · refine .bind (c.isGuest_orFail _) fun _ => ?_
    split
    · exact .pure _
    · exact c.isGuest_orFail _

theorem isGuest_gmatchStep (s p : Bytes) (position : CellRef) :
    (c.gmatchStep s p position).IsGuest := by
  unfold gmatchStep
  refine .bind (.ask rfl) fun _ => ?_
  dsimp only
  split
  all_goals
    split
    · exact .pure _
    · refine .bind (c.isGuest_orFail _) fun _ => ?_
      repeat' split
      all_goals
        refine .bind ?_ fun _ => ?_
        rotate_left
        · split
          · exact .bind (.ask rfl) fun _ => .pure _
          · exact .bind (.ask rfl) fun _ => c.isGuest_orFail _
      · exact c.isGuest_orFail _
      · exact .pure _
      · exact .pure _
      · exact .pure _

theorem isGuest_stringGmatch : c.stringGmatch.IsGuest := by
  unfold stringGmatch
  exact .bind (c.isGuest_string _) fun _ => .bind (c.isGuest_string _) fun _ =>
    .bind (c.isGuest_integerOr _ _) fun _ => .bind (.ask rfl) fun _ => .bind (.ask rfl) fun _ =>
    .pure _

theorem isGuest_replacement (m : Pattern.Search) (found : Pattern.Search.Found) :
    (c.replacement m found).IsGuest := by
  unfold replacement
  dsimp only
  split
  all_goals refine .bind (c.isGuest_orFail _) fun _ => ?_
  case' h_2 => refine .bind (.callValue _ _ _) fun _ => ?_
  all_goals
    refine .bind ?_ fun _ => ?_
    rotate_left
    · split
      · exact .pure _
      · exact .pure _
      · split
        · exact .pure _
        · exact c.isGuest_fail _
  · exact .pure _
  · exact c.here.isGuest_index _ _ _
  · exact .pure _

theorem isGuest_replaceFrom (m : Pattern.Search) (anchored : Bool) (fuel limit s : Nat)
    (last : Option Nat) : (c.replaceFrom m anchored fuel limit s last).IsGuest := by
  induction fuel generalizing limit s last with
  | zero =>
    unfold replaceFrom
    exact IsGuest.pure _
  | succ fuel ih =>
    cases limit with
    | zero =>
      unfold replaceFrom
      exact IsGuest.pure _
    | succ limit =>
      unfold replaceFrom
      refine .bind (c.isGuest_orFail _) fun found? => ?_
      split
      · refine .bind (c.isGuest_replacement _ _) fun _ => ?_
        dsimp only
        exact .either (.pure _) (ih _ _ _) fun _ => .pure _
      · split
        · exact .pure _
        · refine .bind (ih _ _ _) fun _ => ?_
          split
          exact .pure _

theorem isGuest_stringGsub : c.stringGsub.IsGuest := by
  unfold stringGsub
  refine .bind (c.isGuest_string _) fun _ => .bind (c.isGuest_string _) fun _ => ?_
  dsimp only
  split
  case h_6 =>
    exact .bind (c.isGuest_failType _ _) fun _ => .bind (c.isGuest_integerOr _ _) fun _ =>
      .bind (c.isGuest_replaceFrom _ _ _ _ _ _) fun _ => .pure _
  all_goals
    exact .bind (c.isGuest_integerOr _ _) fun _ =>
      .bind (c.isGuest_replaceFrom _ _ _ _ _ _) fun _ => .pure _

theorem isGuest_directive (cs : List Char) (conversion : Char) :
    (c.directive cs conversion).IsGuest := by
  unfold directive
  split
  · exact .pure _
  · exact c.isGuest_fail _

theorem isGuest_quoted (n : Nat) : (c.quoted n).IsGuest := by
  unfold quoted
  split
  · exact .pure _
  · exact .pure _
  · split
    · exact .pure _
    · exact c.here.isGuest_toText _
  · exact c.here.isGuest_toText _
  · exact c.here.isGuest_toText _
  · exact c.isGuest_failArgument _ _

theorem isGuest_formatOne (cs : List Char) (conversion : Char) (n : Nat) :
    (c.formatOne cs conversion n).IsGuest := by
  unfold formatOne
  split
  case h_1 | h_2 | h_3 | h_4 | h_5 | h_6 =>
    exact .bind (c.isGuest_integer _) fun _ => .bind (c.isGuest_directive _ _) fun _ => .pure _
  case h_8 | h_9 | h_10 | h_11 | h_12 | h_13 | h_14 =>
    exact .bind (c.isGuest_float _) fun _ => .bind (c.isGuest_directive _ _) fun _ => .pure _
  · exact .bind (c.isGuest_directive _ _) fun _ => .bind (c.isGuest_integer _) fun _ => .pure _
  · exact .bind (c.isGuest_directive _ _) fun _ => .pure _
  · split
    · exact c.isGuest_quoted _
    · exact c.isGuest_fail _
  · refine .bind (c.here.isGuest_toText _) fun _ => ?_
    split
    · exact .pure _
    · dsimp only
      exact .checked (c.isGuest_failArgument _ _) (.bind (c.isGuest_directive _ _) fun _ => .pure _)
  · exact .bind (c.isGuest_directive _ _) fun _ => .pure _

theorem isGuest_formatFrom (fuel n : Nat) (s : Bytes) :
    (c.formatFrom fuel n s).IsGuest := by
  induction fuel generalizing n s with
  | zero =>
    unfold formatFrom
    exact IsGuest.pure _
  | succ fuel ih =>
    cases s with
    | nil =>
      unfold formatFrom
      exact IsGuest.pure _
    | cons b rest =>
      unfold formatFrom
      dsimp only
      split
      · exact .bind (ih _ _) fun _ => .pure _
      · split
        · exact .bind (ih _ _) fun _ => .pure _
        · refine .checked (c.isGuest_failArgument _ _) (.checked (c.isGuest_fail _) ?_)
          split
          · exact c.isGuest_fail _
          · exact .bind (c.isGuest_formatOne _ _ _) fun _ => .bind (ih _ _) fun _ => .pure _

theorem isGuest_stringFormat : c.stringFormat.IsGuest := by
  unfold stringFormat
  exact .bind (c.isGuest_string _) fun _ => .bind (c.isGuest_formatFrom _ _ _) fun _ => .pure _

end LibraryCall

end ScriptShell.Guest
