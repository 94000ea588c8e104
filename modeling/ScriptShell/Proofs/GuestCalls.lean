import ScriptShell.Proofs.StreamPrograms

/-! # Calls of the guest

With the functions of the library (`LibraryFunction.isGuest_run`) and the closures
(`isGuest_runClosure`) every function of the guest is covered: calling any value of it asks for what
guest code asks for (`isGuest_callBody`).  So does what the host does around a call of a function
(`isGuest_callInScope`).
-/

namespace ScriptShell.Guest

open Program (IsGuest)

/-! ## Calls -/

/-- **What a function of the library asks for, guest code asks for.** -/
theorem LibraryFunction.isGuest_run (f : LibraryFunction) (c : LibraryCall) :
    (f.run c).IsGuest := by
  cases f with
  | assert => exact c.isGuest_assert
  | collectgarbage => exact c.isGuest_collectgarbage
  | dofile => exact c.isGuest_dofile
  | error => exact c.isGuest_error
  | getmetatable => exact c.isGuest_getmetatable
  | ipairs => exact c.isGuest_ipairs
  | ipairsStep => exact c.isGuest_ipairsStep
  | load => exact c.isGuest_load
  | loadfile => exact c.isGuest_loadfile
  | next => exact c.isGuest_next
  | pairs => exact c.isGuest_pairs
  | pcall => exact c.isGuest_pcall
  | print => exact c.isGuest_print
  | rawequal => exact c.isGuest_rawequal
  | rawget => exact c.isGuest_rawget
  | rawlen => exact c.isGuest_rawlen
  | rawset => exact c.isGuest_rawset
  | select => exact c.isGuest_select
  | setmetatable => exact c.isGuest_setmetatable
  | tonumber => exact c.isGuest_tonumber
  | tostring => exact c.isGuest_tostring
  | type => exact c.isGuest_type
  | xpcall => exact c.isGuest_xpcall
  | coroutineCreate => exact c.isGuest_coroutineCreate
  | coroutineStatus => exact c.isGuest_coroutineStatus
  | ioLines => exact c.isGuest_ioLines
  | ioOpen => exact c.isGuest_ioOpen
  | ioRead => exact c.isGuest_ioRead
  | ioType => exact c.isGuest_ioType
  | ioWrite => exact c.isGuest_ioWrite
  | mathAbs => exact c.isGuest_mathAbs
  | mathCeil => exact c.isGuest_mathCeil
  | mathFloor => exact c.isGuest_mathFloor
  | mathFmod => exact c.isGuest_mathFmod
  | mathMax => exact c.isGuest_mathMax
  | mathMin => exact c.isGuest_mathMin
  | mathSqrt => exact c.isGuest_mathSqrt
  | mathTointeger => exact c.isGuest_mathTointeger
  | mathType => exact c.isGuest_mathType
  | stringByte => exact c.isGuest_stringByte
  | stringChar => exact c.isGuest_stringChar
  | stringFind => exact c.isGuest_stringFind
  | stringFormat => exact c.isGuest_stringFormat
  | stringGmatch => exact c.isGuest_stringGmatch
  | stringGsub => exact c.isGuest_stringGsub
  | stringLen => exact c.isGuest_stringLen
  | stringLower => exact c.isGuest_stringLower
  | stringMatch => exact c.isGuest_stringMatch
  | stringRep => exact c.isGuest_stringRep
  | stringReverse => exact c.isGuest_stringReverse
  | stringSub => exact c.isGuest_stringSub
  | stringUpper => exact c.isGuest_stringUpper
  | stringArithmetic op => exact c.isGuest_stringArithmetic _
  | stringNegate => exact c.isGuest_stringNegate
  | tableConcat => exact c.isGuest_tableConcat
  | tableInsert => exact c.isGuest_tableInsert
  | tablePack => exact c.isGuest_tablePack
  | tableRemove => exact c.isGuest_tableRemove
  | tableSort => exact c.isGuest_tableSort
  | tableUnpack => exact c.isGuest_tableUnpack
  | streamClose => exact c.isGuest_streamClose
  | streamFlush => exact c.isGuest_streamFlush
  | streamLines => exact c.isGuest_streamLines
  | streamRead => exact c.isGuest_streamRead
  | streamText => exact c.isGuest_streamText
  | streamWrite => exact c.isGuest_streamWrite
  | failureText => exact c.isGuest_failureText
  | fileClose => exact c.isGuest_fileClose
  | fileLines => exact c.isGuest_fileLines
  | fileRead => exact c.isGuest_fileRead
  | fileText => exact c.isGuest_fileText

/-- Calling a value that is no function of the host does what guest code does. -/
theorem isGuest_callBody (h : Heap) (r : RuntimeRef) (f : Value) (args : List Value)
    (sites : CallSites) : (callBody h r f args sites).IsGuest := by
  unfold callBody
  split
  · split
    · exact IsGuest.pure _
    · dsimp only
      split
      · exact isGuest_runClosure _ _ _ _ _
      · exact LibraryFunction.isGuest_run _ _
      · exact .pure _
      · exact LibraryCall.isGuest_propertyGet _ _
      · exact LibraryCall.isGuest_propertySet _ _
      · exact LibraryCall.isGuest_propertyLength _ _
      · exact LibraryCall.isGuest_bindKey _ _
      · exact LibraryCall.isGuest_getAlias _
      · exact LibraryCall.isGuest_setAlias _
      · exact LibraryCall.isGuest_linesStep _ _ _
      · exact LibraryCall.isGuest_gmatchStep _ _ _ _
  · dsimp only
    refine .bind (isGuest_metamethod _ _ _) fun _ => ?_
    split
    · exact Here.isGuest_failType _ _ _ _
    · exact .callValue _ _ _

/-! ## Calls of the host -/

theorem isGuest_ioOf (context? : Option Context) : (ioOf context?).IsGuest := by
  unfold ioOf
  split
  · exact .ask rfl
  · refine .bind (.ask rfl) fun _ => ?_
    split
    · exact .pure _
    · exact .ask rfl

theorem isGuest_ioTable (r : RuntimeRef) : (ioTable r).IsGuest := by
  unfold ioTable
  dsimp only
  refine .bind (.ask rfl) fun _ => ?_
  refine .bind (isGuest_viaHost _ (Here.isGuest_index _ _ _ _)) fun _ => ?_
  split
  · exact .pure _
  · exact .bind (isGuest_conversionOf _ _ _) fun _ => isGuest_raiseFailure _

namespace StreamScope

theorem isGuest_enterStream (t : TableRef) (io : CommandIo) (cancel? : Option Signal)
    (name : StreamName) : (enterStream t io cancel? name).IsGuest := by
  unfold enterStream
  exact .bind (.ask rfl) fun _ => .bind (.ask rfl) fun _ => .bind (.ask rfl) fun _ => .pure _

theorem isGuest_enter (r : RuntimeRef) (io : CommandIo) (cancel? : Option Signal) :
    (enter r io cancel?).IsGuest := by
  unfold enter
  exact .bind (isGuest_ioTable _) fun _ =>
    .bind (.forAll _ fun _ => isGuest_enterStream _ _ _ _) fun _ => .pure _

theorem isGuest_closeStreams (streams : List (StreamName × UserRef × Value)) :
    (closeStreams streams).IsGuest := by
  induction streams with
  | nil => exact IsGuest.pure _
  | cons s rest ih =>
    unfold closeStreams
    exact .bind (.ask rfl) fun _ => ih

theorem isGuest_restoreFields (io : TableRef)
    (streams : List (StreamName × UserRef × Value)) : (restoreFields io streams).IsGuest := by
  induction streams with
  | nil => exact IsGuest.pure _
  | cons s rest ih =>
    unfold restoreFields
    exact .bind (.ask rfl) fun _ => ih

theorem isGuest_leave (scope : StreamScope) : scope.leave.IsGuest := by
  unfold leave
  exact .bind (isGuest_closeStreams _) fun _ =>
    .bind (isGuest_restoreFields _ _) fun _ => .pure _

end StreamScope

theorem isGuest_guestValues (r : RuntimeRef) (xs : List HostValue) :
    (guestValues r xs).IsGuest := by
  induction xs with
  | nil => exact IsGuest.pure _
  | cons x rest ih =>
    unfold guestValues
    refine .bind (.ask rfl) fun _ => ?_
    split
    · exact .pure _
    · refine .bind ih fun _ => ?_
      split <;> exact .pure _

theorem isGuest_callForHost (r : RuntimeRef) (signal : Signal) (f : GuestFunction)
    (args : List HostValue) : (callForHost r signal f args).IsGuest := by
  unfold callForHost
  refine IsGuest.bind (isGuest_guestValues r args) fun _ => ?_
  split
  · exact .pure _
  · refine IsGuest.bind (IsGuest.attempt (IsGuest.callValue _ _ _)) fun _ => ?_
    split
    · exact .pure _
    · refine .bind (isGuest_failureOf _ _) fun _ => .bind (.ask rfl) fun _ => ?_
      split <;> exact .pure _

/-- What the host does around a call of a guest function is of the same kind. -/
theorem isGuest_callInScope (r : RuntimeRef) (io : CommandIo) (signal : Signal) (f : GuestFunction)
    (args : List HostValue) : (callInScope r io signal f args).IsGuest := by
  unfold callInScope
  refine IsGuest.bind (IsGuest.attempt (StreamScope.isGuest_enter ..)) fun _ => ?_
  split
  · exact .bind (isGuest_failureOf _ _) fun _ => .pure _
  · refine IsGuest.bind (isGuest_callForHost ..) fun _ => ?_
    refine .bind (StreamScope.isGuest_leave _) fun _ => ?_
    split
    · exact .pure _
    · refine .bind (.ask rfl) fun _ => ?_
      split <;> exact .pure _

end ScriptShell.Guest
