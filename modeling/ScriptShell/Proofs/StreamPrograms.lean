import ScriptShell.Proofs.LibraryPrograms

/-! # Programs on streams and files

Functions of the library that read and write, and those that reach the properties of the shell.
They ask for pipes, files and properties, which guest code may ask for, and for nothing else of the
shell.
-/

namespace ScriptShell.Guest

open Program (IsGuest)

/-! ## Reading and writing -/

theorem isGuest_hostTypeName (v : Value) : (hostTypeName v).IsGuest := by
  unfold hostTypeName
  split
  · refine IsGuest.bind (IsGuest.ask rfl) fun _ => ?_
    split
    · exact .pure _
    · exact .pure _
  all_goals exact .pure _

theorem isGuest_conversionOf (v : Value) (wanted : String) (detail : Option String) :
    (conversionOf v wanted detail).IsGuest := by
  unfold conversionOf
  exact .bind (isGuest_hostTypeName _) fun _ => .pure _

theorem isGuest_readFormat (v : Value) : (readFormat v).IsGuest := by
  unfold readFormat
  split
  · exact .pure _
  · split
    · exact isGuest_raiseFailure _
    · dsimp only
      split
      · exact .pure _
      · exact .pure _
      · exact .pure _
      · exact .pure _
      · exact isGuest_raiseFailure _
  · exact .bind (isGuest_hostTypeName _) fun _ => isGuest_raiseFailure _

theorem isGuest_readItems (i : InputRef) (formats : List Value) :
    (readItems i formats).IsGuest := by
  induction formats with
  | nil => exact IsGuest.pure _
  | cons f rest ih =>
    unfold readItems
    refine .bind (isGuest_readFormat _) fun _ => .bind (.ask rfl) fun _ => ?_
    dsimp only
    split
    · exact .pure _
    · exact .bind ih fun _ => .pure _

theorem isGuest_readStream (s : Stream) (formats : List Value) :
    (readStream s formats).IsGuest := by
  unfold readStream
  dsimp only
  split
  · refine .bind (.ask rfl) fun _ => ?_
    refine .checked (isGuest_raiseFailure _) ?_
    split
    · exact isGuest_raiseFailure _
    · exact isGuest_readItems _ _
  · split
    · exact isGuest_raiseFailure _
    · exact isGuest_readItems _ _

theorem isGuest_writePieces (o : OutputRef) (pieces : List Bytes) :
    (writePieces o pieces).IsGuest := by
  induction pieces with
  | nil => exact IsGuest.pure _
  | cons s rest ih => exact .bind (.ask rfl) fun _ => ih

theorem isGuest_writeItems (o : OutputRef) (n : Nat) (vs : List Value) :
    (writeItems o n vs).IsGuest := by
  induction vs generalizing n with
  | nil => exact IsGuest.pure _
  | cons v rest ih =>
    unfold writeItems
    split
    · exact .bind (isGuest_writePieces _ _) fun _ => ih _
    · exact .bind (isGuest_hostTypeName _) fun _ => isGuest_raiseFailure _

theorem isGuest_writeStream (s : Stream) (vs : List Value) :
    (writeStream s vs).IsGuest := by
  unfold writeStream
  split
  · exact isGuest_raiseFailure _
  · exact isGuest_writeItems _ _ _

theorem isGuest_streamOf (u : UserRef) : (streamOf u).IsGuest := by
  unfold streamOf
  refine IsGuest.bind (IsGuest.ask rfl) fun _ => ?_
  split
  · exact .pure _
  · exact isGuest_raiseFailure _

namespace LibraryCall

variable (c : LibraryCall)

/-! ## Streams and files -/

theorem isGuest_global (name : String) : (c.global name).IsGuest := by
  unfold global
  exact .bind (.ask rfl) fun _ => isGuest_viaHost _ (c.here.isGuest_index _ _ _)

theorem isGuest_processStream (name : StreamName) :
    (currentStream.processStream name).IsGuest := by
  unfold currentStream.processStream
  exact .bind (.ask rfl) fun _ => .ask rfl

theorem isGuest_currentStream (name : StreamName) : (c.currentStream name).IsGuest := by
  unfold currentStream
  refine IsGuest.bind (c.isGuest_global _) fun _ => ?_
  split
  · refine IsGuest.bind (IsGuest.ask rfl) fun _ => ?_
    split
    · refine IsGuest.bind (IsGuest.ask rfl) fun _ => ?_
      split
      · exact .pure _
      · exact isGuest_processStream _
    · exact isGuest_processStream _
  · exact .bind (isGuest_conversionOf _ _ _) fun _ => isGuest_raiseFailure _

theorem isGuest_ioWrite : c.ioWrite.IsGuest := by
  unfold ioWrite
  exact .bind (c.isGuest_currentStream _) fun _ => .bind (isGuest_streamOf _) fun _ =>
    .bind (isGuest_writeStream _ _) fun _ => .pure _

theorem isGuest_ioRead : c.ioRead.IsGuest := by
  unfold ioRead
  exact .bind (c.isGuest_currentStream _) fun _ => .bind (isGuest_streamOf _) fun _ =>
    isGuest_readStream _ _

theorem isGuest_linesOf (source : Value) (formats : List Value) :
    (c.linesOf source formats).IsGuest := by
  unfold linesOf
  exact .bind (.ask rfl) fun _ => .pure _

theorem isGuest_print : c.print.IsGuest := by
  unfold print
  refine IsGuest.bind (c.isGuest_global _) fun _ => ?_
  split
  · refine IsGuest.bind (IsGuest.forAll _ fun _ => ?_) fun _ => ?_
    · refine .bind (isGuest_viaHost _ (.callValue _ _ _)) fun _ => ?_
      dsimp only
      split
      · exact .pure _
      · exact .bind (isGuest_conversionOf _ _ _) fun _ => isGuest_raiseFailure _
    · exact .bind (c.isGuest_currentStream _) fun _ => .bind (isGuest_streamOf _) fun _ =>
        .bind (isGuest_writeStream _ _) fun _ => .pure _
  · exact .bind (isGuest_conversionOf _ _ _) fun _ => isGuest_raiseFailure _

theorem isGuest_object (function : String) : (c.object function).IsGuest := by
  unfold object
  dsimp only
  split
  · refine IsGuest.bind (IsGuest.ask rfl) fun _ => ?_
    split
    · exact .bind (isGuest_conversionOf _ _ _) fun _ => isGuest_raiseFailure _
    · exact .pure _
  · exact .bind (isGuest_conversionOf _ _ _) fun _ => isGuest_raiseFailure _

theorem isGuest_failSelf {α : Type} (function : String) (cause : Failure) :
    (failSelf function cause : Program α).IsGuest := isGuest_raiseFailure _

theorem isGuest_self (function : String) : (c.self function).IsGuest := by
  unfold LibraryCall.self
  dsimp only
  refine .checked (isGuest_failSelf _ _) ?_
  split
  · refine .bind (.ask rfl) fun _ => ?_
    split
    · exact .pure _
    · exact isGuest_failSelf _ _
  · exact isGuest_failSelf _ _

theorem isGuest_streamWrite : c.streamWrite.IsGuest := by
  unfold streamWrite
  exact .bind (c.isGuest_object _) fun _ => .bind (isGuest_streamOf _) fun _ =>
    .bind (isGuest_writeStream _ _) fun _ => .pure _

theorem isGuest_streamFlush : c.streamFlush.IsGuest := by
  unfold streamFlush
  refine .bind (c.isGuest_object _) fun _ => .bind (isGuest_streamOf _) fun _ => ?_
  split
  · exact .pure _
  · exact isGuest_raiseFailure _

theorem isGuest_streamRead : c.streamRead.IsGuest := by
  unfold streamRead
  refine .bind (c.isGuest_self _) fun _ => ?_
  split
  exact isGuest_readStream _ _

theorem isGuest_streamLines : c.streamLines.IsGuest := by
  unfold streamLines
  exact .bind (c.isGuest_object _) fun _ => .bind (c.isGuest_linesOf _ _) fun _ => .pure _

theorem isGuest_streamClose : c.streamClose.IsGuest := by
  unfold streamClose
  refine .bind (c.isGuest_self _) fun _ => ?_
  exact .checked (isGuest_raiseFailure _) (.bind (.ask rfl) fun _ => .pure _)

theorem isGuest_streamText : c.streamText.IsGuest := by
  unfold streamText
  refine .bind (c.isGuest_self _) fun _ => ?_
  split
  exact .pure _

theorem isGuest_failureText : c.failureText.IsGuest := by
  unfold failureText
  split
  · refine IsGuest.bind (IsGuest.ask rfl) fun _ => ?_
    split
    · exact .pure _
    · exact .pure _
  · exact .pure _

theorem isGuest_file (n : Nat) : (c.file n).IsGuest := by
  unfold file
  split
  · refine IsGuest.bind (IsGuest.ask rfl) fun _ => ?_
    split
    · exact .pure _
    · exact c.isGuest_failType _ _
  · exact c.isGuest_failType _ _

theorem isGuest_fileFormat (n : Nat) : (c.fileFormat n).IsGuest := by
  unfold fileFormat
  split
  · exact .pure _
  · exact .bind (c.isGuest_integer _) fun _ => .pure _
  · refine .bind (c.isGuest_string _) fun _ => ?_
    split
    · exact .pure _
    · exact .pure _
    · exact .pure _
    · exact .pure _
    · exact c.isGuest_failArgument _ _

theorem isGuest_readFile (u : UserRef) (count n : Nat) (rest : Bytes) :
    (c.readFile u count n rest).IsGuest := by
  induction count generalizing n rest with
  | zero => exact IsGuest.pure _
  | succ count ih =>
    unfold readFile
    refine .bind (c.isGuest_fileFormat _) fun _ => ?_
    split
    all_goals
      refine .bind (.ask rfl) fun _ => ?_
      split
      · exact .pure _
      · exact .bind (ih _ _) fun _ => .pure _

theorem isGuest_fileRead : c.fileRead.IsGuest := by
  unfold fileRead
  refine .bind (c.isGuest_file _) fun _ => ?_
  split
  split
  · exact c.isGuest_fail _
  · exact isGuest_readFile _ _ _ _ _

theorem isGuest_fileClose : c.fileClose.IsGuest := by
  unfold fileClose
  refine .bind (c.isGuest_file _) fun _ => ?_
  exact .checked (c.isGuest_fail _) (.bind (.ask rfl) fun _ => .pure _)

theorem isGuest_fileLines : c.fileLines.IsGuest := by
  unfold fileLines
  refine .bind (c.isGuest_file _) fun _ => ?_
  exact .checked (c.isGuest_fail _) (.bind (c.isGuest_linesOf _ _) fun _ => .pure _)

theorem isGuest_fileText : c.fileText.IsGuest := by
  unfold fileText
  refine .bind (c.isGuest_file _) fun _ => ?_
  split
  exact .pure _

theorem isGuest_linesStep (source : Value) (formats : List Value) :
    (c.linesStep source formats).IsGuest := by
  unfold linesStep
  split
  · refine IsGuest.bind (IsGuest.ask rfl) fun _ => ?_
    split
    · split
      · exact c.isGuest_fail _
      · exact isGuest_readFile _ _ _ _ _
    · exact .bind (isGuest_streamOf _) fun _ => .bind (isGuest_readStream _ _) fun _ => .pure _
  · exact isGuest_raiseFailure _

theorem isGuest_ioOpen : c.ioOpen.IsGuest := by
  unfold ioOpen
  refine .bind (c.isGuest_string _) fun _ => ?_
  dsimp only
  refine .either (.pure _) (c.isGuest_string _) fun _ => ?_
  split
  case h_1 =>
    refine .bind (.ask rfl) fun _ => ?_
    split
    · exact .pure _
    · exact .bind (.ask rfl) fun _ => .pure _
    · exact .bind (.ask rfl) fun _ => .pure _
  case h_7 => exact c.isGuest_failArgument _ _
  all_goals exact .pure _

theorem isGuest_ioType : c.ioType.IsGuest := by
  unfold ioType
  refine IsGuest.bind (c.isGuest_any 1) fun _ => ?_
  split
  · refine IsGuest.bind (IsGuest.ask rfl) fun _ => ?_
    split
    all_goals exact .pure _
  · exact .pure _

theorem isGuest_namedLines : c.namedLines.IsGuest := by
  unfold namedLines
  refine .bind (c.isGuest_string _) fun _ => ?_
  dsimp only
  refine .bind (.ask rfl) fun _ => ?_
  split
  · exact c.isGuest_fail _
  · exact .bind (.ask rfl) fun _ => .bind (c.isGuest_linesOf _ _) fun _ => .pure _

theorem isGuest_ioLines : c.ioLines.IsGuest := by
  unfold ioLines
  split
  · exact isGuest_viaHost _ (isGuest_namedLines _)
  · exact .bind (c.isGuest_currentStream _) fun _ => .bind (c.isGuest_linesOf _ _) fun _ => .pure _

/-! ## Functions that reach the shell -/

theorem isGuest_hostValue (v : Value) : (hostValue v).IsGuest := by
  unfold hostValue
  refine .bind (.ask rfl) fun _ => ?_
  split
  · exact .pure _
  · exact isGuest_raiseFailure _

theorem isGuest_guestValue (x : HostValue) : (c.guestValue x).IsGuest := by
  unfold guestValue
  refine .bind (.ask rfl) fun _ => ?_
  split
  · exact .pure _
  · exact isGuest_raiseFailure _

theorem isGuest_hostTable : c.hostTable.IsGuest := by
  unfold hostTable
  split
  · exact .pure _
  · exact .bind (isGuest_conversionOf _ _ _) fun _ => isGuest_raiseFailure _

theorem isGuest_keyName : c.keyName.IsGuest := by
  unfold keyName
  split
  · split
    · exact .pure _
    · exact isGuest_raiseFailure _
  · split
    · exact .pure _
    · exact .bind (isGuest_conversionOf _ _ _) fun _ => isGuest_raiseFailure _

theorem isGuest_propertyGet (t : PropertyTable) : (c.propertyGet t).IsGuest := by
  unfold propertyGet
  refine .bind c.isGuest_hostTable fun _ => .bind (isGuest_hostValue _) fun _ =>
    .bind (.ask rfl) fun _ => ?_
  split
  · exact .bind (c.isGuest_guestValue _) fun _ => .pure _
  · exact .pure _

theorem isGuest_propertySet (t : PropertyTable) : (c.propertySet t).IsGuest := by
  unfold propertySet
  refine IsGuest.bind c.isGuest_hostTable fun _ => IsGuest.bind (IsGuest.ask rfl) fun _ => ?_
  split
  · split
    · refine IsGuest.bind (isGuest_hostValue _) fun _ =>
        IsGuest.bind (IsGuest.ask rfl) fun _ => ?_
      split
      · exact .pure _
      · exact isGuest_raiseFailure _
    · exact .bind (isGuest_viaHost _ (c.here.isGuest_rawSet _ _ _)) fun _ => .pure _
  · exact .bind (isGuest_viaHost _ (c.here.isGuest_rawSet _ _ _)) fun _ => .pure _

theorem isGuest_propertyLength (t : PropertyTable) : (c.propertyLength t).IsGuest := by
  unfold propertyLength
  exact .bind c.isGuest_hostTable fun _ => .bind (.ask rfl) fun _ => .pure _

theorem isGuest_bindKey (hooks : RegistryRef) : (c.bindKey hooks).IsGuest := by
  unfold bindKey
  exact .bind c.isGuest_keyName fun _ => .bind (isGuest_hostValue _) fun _ =>
    .bind (.ask rfl) fun _ => .pure _

theorem isGuest_getAlias : c.getAlias.IsGuest := by
  unfold getAlias
  refine .bind (isGuest_hostValue _) fun _ => .bind (.ask rfl) fun _ => ?_
  split
  · exact .bind (c.isGuest_guestValue _) fun _ => .pure _
  · exact .pure _

theorem isGuest_setAlias : c.setAlias.IsGuest := by
  unfold setAlias
  exact .bind (isGuest_hostValue _) fun _ =>
    .bind (isGuest_hostValue _) fun _ => .bind (.ask rfl) fun _ => .pure _

end LibraryCall

end ScriptShell.Guest
