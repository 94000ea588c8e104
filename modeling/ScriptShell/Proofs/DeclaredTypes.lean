import ScriptShell.Host.Declared
import ScriptShell.Proofs.GuestImages

/-! # Declared types across the boundary

A caller that declares the type of what it passes gets back what it passed.  Numbers are embedded as
the nearest ones of 64 bits, so that only those of the unsigned 64-bit types that lie above can come
back as another one (`toInt_clampInt64`).  Bytes may come back as a text, and are the same when they
are read as bytes (`HostValue.toBytes_normal`).  What is checked on the way back is the range of the
type (`HostValue.toInt_int`).

The type can also be declared when a guest value is read (`Marshal.toHostAs`).  What is read then is
what reading without a type and converting afterwards gives (`Marshal.convert_of_toHostAs`,
`Marshal.toHostAs_of_convert`), so that it is of the declared kind (`Declared.admits_of_convert`); for
strings the two agree in their errors too.
-/

namespace ScriptShell

open Guest (Heap RuntimeRef Value)
open Marshal (NativeForm throughGuest toHost toHostAs)

/-- A number lies in the range of an integer type. -/
def IntType.Holds (T : IntType) (n : Int) : Prop := T.low ≤ n ∧ n ≤ T.high

instance (T : IntType) (n : Int) : Decidable (T.Holds n) := inferInstanceAs (Decidable (_ ∧ _))

/-! ## Numbers and months -/

theorem toInt_clampInt64 (n : Int) :
    (clampInt64 n).toInt = max Int64.minValue.toInt (min n Int64.maxValue.toInt) := by
  have hmin : Int64.minValue.toInt = -2 ^ 63 := Int64.toInt_minValue
  have hmax : Int64.maxValue.toInt = 2 ^ 63 - 1 := Int64.toInt_maxValue
  unfold clampInt64
  split
  · omega
  · split
    · omega
    · rw [Int64.toInt_ofInt_of_le (by omega) (by omega)]
      omega

namespace HostValue

/-- A number is a member of the type in whose range it lies, and of no other. -/
theorem toInt_int (T : IntType) (i : Int64) : (int i).toInt T =
    if T.Holds i.toInt then .ok i.toInt else .error (.outOfRange i T.name) := by
  rw [toInt]
  by_cases hT : T.Holds i.toInt
  · rw [if_pos hT, if_pos (by simpa [IntType.Holds] using hT)]
  · rw [if_neg hT, if_neg (by simpa [IntType.Holds] using hT)]

theorem toInt_ofInt {T : IntType} {n : Int} (hT : T.Holds n)
    (hn : Int64.minValue.toInt ≤ n ∧ n ≤ Int64.maxValue.toInt) : (ofInt n).toInt T = .ok n := by
  have hclamp : (clampInt64 n).toInt = n := by
    rw [toInt_clampInt64, Int.min_eq_left hn.2, Int.max_eq_right hn.1]
  rw [ofInt, toInt_int, hclamp, if_pos hT]

/-- A number of an unsigned type as wide as the host's numbers comes out as the nearest of these. -/
theorem toInt_ofInt_of_unsigned {T : IntType} {n : Int} (hT : T.Holds n) (hlow : T.low = 0)
    (hhigh : Int64.maxValue.toInt ≤ T.high) :
    (ofInt n).toInt T = .ok (min n Int64.maxValue.toInt) := by
  have hmin : Int64.minValue.toInt = -2 ^ 63 := Int64.toInt_minValue
  have hmax : Int64.maxValue.toInt = 2 ^ 63 - 1 := Int64.toInt_maxValue
  have hpos : 0 ≤ n := hlow ▸ hT.1
  have hclamp : (clampInt64 n).toInt = min n Int64.maxValue.toInt := by
    rw [toInt_clampInt64]
    omega
  have hheld : T.Holds (min n Int64.maxValue.toInt) :=
    ⟨by omega, Int.le_trans (Int.min_le_right ..) hhigh⟩
  rw [ofInt, toInt_int, hclamp, if_pos hheld]

/-- Numbers from one on are months, as long as there are any. -/
theorem toMonth_int (i : Int64) :
    (∃ month : Fin monthNames.length, i.toInt = month + 1 ∧
        (int i).toMonth = .ok monthNames[month]) ∨
      (i.toInt < 1 ∨ (monthNames.length : Int) < i.toInt) ∧
        ∃ target, (int i).toMonth = .error (.outOfRange i target) := by
  rw [toMonth, toInt_int]
  by_cases hu8 : IntType.u8.Holds i.toInt
  · rw [if_pos hu8]
    dsimp only
    by_cases hzero : i.toInt = 0
    · rw [if_pos hzero, Int64.ofInt_toInt]
      exact .inr ⟨.inl (by omega), _, rfl⟩
    · rw [if_neg hzero, Int64.ofInt_toInt]
      have hpos : 0 ≤ i.toInt := hu8.1
      cases hname : monthNames[i.toInt.toNat - 1]? with
      | some name =>
        obtain ⟨hlt, hget⟩ := List.getElem?_eq_some_iff.1 hname
        refine .inl ⟨⟨_, hlt⟩, ?_, ?_⟩
        · show i.toInt = ((i.toInt.toNat - 1 : Nat) : Int) + 1
          omega
        · exact congrArg Except.ok hget.symm
      | none =>
        have hge := List.getElem?_eq_none_iff.1 hname
        exact .inr ⟨.inr (by omega), _, rfl⟩
  · rw [if_neg hu8]
    refine .inr ⟨?_, _, rfl⟩
    have hhigh : (monthNames.length : Int) < IntType.u8.high := by decide
    have hlow : IntType.u8.low = 0 := rfl
    unfold IntType.Holds at hu8
    omega

theorem toMonth_ofMonth (month : Fin monthNames.length) :
    (ofMonth month).toMonth = .ok monthNames[month] := by
  have hnumber : (Int64.ofNat (month + 1)).toInt = month + 1 := by
    have hlt : (month : Nat) < 12 := month.isLt
    exact Int64.toInt_ofNat_of_lt (by omega)
  rcases toMonth_int (Int64.ofNat (month + 1)) with ⟨month', hmonth, h⟩ | ⟨hout, -⟩
  · rw [hnumber] at hmonth
    obtain rfl : month = month' := Fin.ext (by omega)
    exact h
  · have hlt := month.isLt
    omega

/-- Bytes that have become a text are the bytes of that text. -/
theorem toBytes_normal (b : Bytes) : (bytes b).normal.toBytes = .ok b := by
  rw [normal]
  cases hs : Utf8.decode? b with
  | none => rfl
  | some s => exact congrArg Except.ok (Utf8.encode_of_decode? hs)

end HostValue

/-- **Declared types.**  What is passed to a guest as a member of a declared type and read back as
that type is the same: truth values, numbers, months, texts, and bytes whether or not they are a
text.  Of the unsigned 64-bit types the numbers above the signed range come back as its end.  A host
number is read as a member of an integer type if it lies in the range of that, and is refused
otherwise. -/
theorem declared_types (natives : Array NativeForm) (r : RuntimeRef) (h : Heap) :
    let through := throughGuest natives r h
    (∀ b : Bool, (through (.bool b)).bind HostValue.toBool = .ok b) ∧
    (∀ T ∈ [IntType.i8, .i16, .i32, .i64, .isize, .u8, .u16, .u32], ∀ n, T.Holds n →
      (through (.ofInt n)).bind (HostValue.toInt T) = .ok n) ∧
    (∀ T ∈ [IntType.u64, .usize], ∀ n, T.Holds n →
      (through (.ofInt n)).bind (HostValue.toInt T) = .ok (min n Int64.maxValue.toInt)) ∧
    (∀ month : Fin monthNames.length,
      (through (.ofMonth month)).bind HostValue.toMonth = .ok monthNames[month]) ∧
    (∀ s : String, (through (.text s)).bind HostValue.toText = .ok s) ∧
    (∀ b : Bytes, (through (.bytes b)).bind HostValue.toBytes = .ok b) ∧
    ∀ (T : IntType) (i : Int64),
      (T.Holds i.toInt → (HostValue.int i).toInt T = .ok i.toInt) ∧
      (¬ T.Holds i.toInt → (HostValue.int i).toInt T = .error (.outOfRange i T.name)) := by
  intro through
  have hint (n : Int) : through (.ofInt n) = .ok (.ofInt n) :=
    Marshal.throughGuest_int natives r h _
  refine ⟨fun b => ?_, fun T hT n hn => ?_, fun T hT n hn => ?_, fun month => ?_, fun s => ?_,
    fun b => ?_, fun T i => ⟨fun hT => ?_, fun hT => ?_⟩⟩
  · rw [show through (.bool b) = _ from Marshal.throughGuest_bool natives r h b]
    rfl
  · rw [hint]
    refine HostValue.toInt_ofInt hn ?_
    -- all of these types lie in the range of 64 bits
    have hrange : ∀ T ∈ [IntType.i8, .i16, .i32, .i64, .isize, .u8, .u16, .u32],
        Int64.minValue.toInt ≤ T.low ∧ T.high ≤ Int64.maxValue.toInt := by decide
    exact ⟨Int.le_trans (hrange T hT).1 hn.1, Int.le_trans hn.2 (hrange T hT).2⟩
  · rw [hint]
    have hrange : ∀ T ∈ [IntType.u64, .usize],
        T.low = 0 ∧ Int64.maxValue.toInt ≤ T.high := by decide
    exact HostValue.toInt_ofInt_of_unsigned hn (hrange T hT).1 (hrange T hT).2
  · rw [show through (.ofMonth month) = _ from Marshal.throughGuest_int natives r h _]
    exact HostValue.toMonth_ofMonth month
  · rw [show through (.text s) = _ from Marshal.throughGuest_text natives r h s]
    rfl
  · rw [show through (.bytes b) = _ from Marshal.throughGuest_bytes natives r h b]
    exact HostValue.toBytes_normal b
  · rw [HostValue.toInt_int, if_pos hT]
  · rw [HostValue.toInt_int, if_neg hT]

/-- The greatest unsigned number of 64 bits comes back as the greatest signed one, bytes that are no
text come back, and 300 is no number of 8 bits. -/
theorem declared_types_ends :
    ((throughGuest #[] ⟨0⟩ {} (.ofInt 0xFFFFFFFFFFFFFFFF)).bind (HostValue.toInt .u64) =
      .ok 0x7FFFFFFFFFFFFFFF) ∧
    ((throughGuest #[] ⟨0⟩ {} (.ofInt (-128))).bind (HostValue.toInt .i8) = .ok (-128)) ∧
    ((throughGuest #[] ⟨0⟩ {} (.bytes [0xFF, 0x41])).bind HostValue.toBytes =
      .ok [0xFF, 0x41]) ∧
    (HostValue.int 200).toInt .u8 = .ok 200 ∧
    (HostValue.int 300).toInt .u8 = .error (.outOfRange 300 "u8") := by
  obtain ⟨-, hsigned, hunsigned, -, -, hbytes, hread⟩ := declared_types #[] ⟨0⟩ {}
  exact ⟨hunsigned .u64 (by decide) _ (by decide), hsigned .i8 (by decide) _ (by decide), hbytes _,
    (hread .u8 200).1 (by decide), (hread .u8 300).2 (by decide)⟩

/-! ## Reading as a declared type -/

namespace Declared

/-- A host value is of a declared kind. -/
inductive Admits : Declared → HostValue → Prop
  /-- Every value is of some kind. -/
  | any (x : HostValue) : Admits .any x
  /-- A truth value. -/
  | bool (b : Bool) : Admits .bool (.bool b)
  /-- A number. -/
  | int (i : Int64) : Admits .int (.int i)
  /-- A text. -/
  | text (s : String) : Admits .text (.text s)
  /-- Bytes. -/
  | bytes (b : Bytes) : Admits .bytes (.bytes b)

/-- What a host value is once it has been converted to a declared type. -/
def convert : Declared → HostValue → Except MarshalError HostValue
  | any, x => .ok x
  | bool, x => x.toBool.map .bool
  | int, x => (x.toInt .i64).map .ofInt
  | text, x => x.toText.map .text
  | bytes, x => x.toBytes.map .bytes

theorem exists_of_map_eq_ok {α β : Type} {f : α → β} {a : Except MarshalError α} {b : β}
    (h : a.map f = .ok b) : ∃ x, f x = b := by
  cases a with
  | error e => cases h
  | ok x => exact ⟨x, Except.ok.inj h⟩

/-- A conversion gives a value of the declared kind. -/
theorem admits_of_convert {declared : Declared} {x y : HostValue}
    (h : declared.convert x = .ok y) : declared.Admits y := by
  cases declared with
  | any => exact .any y
  | bool =>
    obtain ⟨b, rfl⟩ := exists_of_map_eq_ok h
    exact .bool b
  | int =>
    obtain ⟨n, rfl⟩ := exists_of_map_eq_ok h
    exact .int (clampInt64 n)
  | text =>
    obtain ⟨s, rfl⟩ := exists_of_map_eq_ok h
    exact .text s
  | bytes =>
    obtain ⟨b, rfl⟩ := exists_of_map_eq_ok h
    exact .bytes b

/-- Every host number is one of 64 bits. -/
theorem convert_int (i : Int64) : int.convert (.int i) = .ok (.int i) := by
  have hmin : -2 ^ 63 ≤ i.toInt := Int64.le_toInt i
  have hmax : i.toInt < 2 ^ 63 := Int64.toInt_lt i
  have hheld : IntType.i64.Holds i.toInt := ⟨hmin, Int.le_of_lt_add_one hmax⟩
  have hclamp : clampInt64 i.toInt = i := by
    refine Int64.toInt_inj.1 ?_
    rw [toInt_clampInt64, Int64.toInt_minValue, Int64.toInt_maxValue]
    omega
  rw [convert, HostValue.toInt_int, if_pos hheld]
  exact congrArg (fun i => Except.ok (HostValue.int i)) hclamp

end Declared

namespace Marshal

variable {h : Heap} {declared : Declared} {v : Value} {x y : HostValue}

/-- A string is read as its bytes are when they come back from a guest. -/
theorem toHost_str_normal (h : Heap) (s : Bytes) :
    toHost h (.str s) = .ok (HostValue.bytes s).normal :=
  throughGuest_bytes #[] ⟨0⟩ h s

theorem toBytes_str (h : Heap) (s : Bytes) :
    (toHost h (.str s)).bind HostValue.toBytes = .ok s := by
  rw [toHost_str_normal]
  exact HostValue.toBytes_normal s

/-- Whether a string is a text is found out alike before and after it has become a host value. -/
theorem toHostAs_text_str (h : Heap) (s : Bytes) :
    toHostAs h .text (.str s) = ((toHost h (.str s)).bind HostValue.toText).map .text := by
  rw [toHost_str_normal, HostValue.normal, toHostAs]
  cases hs : Utf8.decode? s with
  | none =>
    show _ = ((HostValue.bytes s).toText).map HostValue.text
    rw [HostValue.toText, hs]
    rfl
  | some t => rfl

theorem toHostAs_nil (h : Heap) (declared : Declared) : toHostAs h declared .nil = .ok .nil := by
  cases declared <;> rfl

theorem toHostAs_any (h : Heap) (v : Value) : toHostAs h .any v = toHost h v := by
  cases v with
  | nil => rw [toHostAs_nil, toHost, toHostWithin]
  | _ => rfl

/-- What is read as a declared type is what it is converted to when it is read without one. -/
theorem convert_of_toHostAs (hv : v ≠ .nil) (hx : toHostAs h declared v = .ok x) :
    ∃ y, toHost h v = .ok y ∧ declared.convert y = .ok x := by
  cases declared with
  | any => exact ⟨x, (toHostAs_any h v).symm.trans hx, rfl⟩
  | bool =>
    cases v with
    | nil => exact absurd rfl hv
    | bool b => exact ⟨.bool b, by rw [toHost, toHostWithin], hx⟩
    | _ => cases hx
  | int =>
    cases v with
    | nil => exact absurd rfl hv
    | int i => exact ⟨.int i, by rw [toHost, toHostWithin], (Declared.convert_int i).trans hx⟩
    | num n => exact ⟨.int _, by rw [toHost, toHostWithin], (Declared.convert_int _).trans hx⟩
    | _ => cases hx
  | text =>
    cases v with
    | nil => exact absurd rfl hv
    | str s =>
      rw [toHostAs_text_str, toHost_str_normal] at hx
      exact ⟨_, toHost_str_normal h s, hx⟩
    | _ => cases hx
  | bytes =>
    cases v with
    | nil => exact absurd rfl hv
    | str s =>
      refine ⟨_, toHost_str_normal h s, ?_⟩
      rw [Declared.convert, HostValue.toBytes_normal]
      exact hx
    | _ => cases hx

/-- What can be converted can be read as the declared type, but for failures: they are texts to the
host only. -/
theorem toHostAs_of_convert (hv : ∀ u f, v = .user u → h.user u ≠ .failure f)
    (hy : toHost h v = .ok y) (hx : declared.convert y = .ok x) : toHostAs h declared v = .ok x := by
  obtain rfl | hd := eq_or_ne declared .any
  · exact (toHostAs_any h v).trans (hy.trans hx)
  -- of what is no string, a declared type takes values of one kind
  cases v with
  | str s =>
    rw [toHost_str_normal] at hy
    cases hy
    cases declared with
    | any => exact absurd rfl hd
    | text => rwa [toHostAs_text_str, toHost_str_normal]
    | bytes => rwa [Declared.convert, HostValue.toBytes_normal] at hx
    | bool | int =>
      rw [HostValue.normal] at hx
      split at hx <;> cases hx
  | table t =>
    obtain ⟨ps, -, rfl⟩ := toHostWithin_table_eq_ok (n := 63).1 hy
    cases declared with
    | any => exact absurd rfl hd
    | _ => cases hx
  | user u =>
    rw [toHost, toHostWithin] at hy
    split at hy
    · cases hy
      cases declared with
      | any => exact absurd rfl hd
      | _ => cases hx
    · next f hu => exact absurd hu (hv u f rfl)
    · cases hy
  | int i =>
    rw [toHost, toHostWithin] at hy
    cases hy
    cases declared with
    | int => exact (Declared.convert_int i).symm.trans hx
    | any => exact absurd rfl hd
    | _ => cases hx
  | num n =>
    rw [toHost, toHostWithin] at hy
    cases hy
    cases declared with
    | int => exact (Declared.convert_int (truncate n)).symm.trans hx
    | any => exact absurd rfl hd
    | _ => cases hx
  | bool b =>
    rw [toHost, toHostWithin] at hy
    cases hy
    cases declared with
    | bool => exact hx
    | any => exact absurd rfl hd
    | _ => cases hx
  | nil | func f =>
    rw [toHost, toHostWithin] at hy
    cases hy
    cases declared with
    | any => exact absurd rfl hd
    | _ => cases hx
  | thread c | light a =>
    rw [toHost, toHostWithin] at hy
    cases hy

end Marshal

/-- **Reading as a declared type** agrees with reading and converting afterwards.  A string that is
read as bytes gives just its bytes, and so does converting it to bytes; read as a text it is the text
that it is converted to, or fails with the same error.  Without a type the reading is the plain one.
No value stays no value, and any other value that is read as a declared type is something of the
declared kind, and what converting it gives.  All that can be converted can be read so, but for
failures, which guests do not take for texts. -/
theorem declared_readings (h : Heap) :
    (∀ s : Bytes, (toHost h (.str s)).bind HostValue.toBytes = .ok s ∧
      toHostAs h .bytes (.str s) = .ok (.bytes s)) ∧
    (∀ s : Bytes, toHostAs h .text (.str s) =
      ((toHost h (.str s)).bind HostValue.toText).map .text) ∧
    (∀ v, toHostAs h .any v = toHost h v) ∧
    (∀ declared, toHostAs h declared .nil = .ok .nil) ∧
    (∀ declared v x, v ≠ .nil → toHostAs h declared v = .ok x →
      x ≠ .nil ∧ declared.Admits x ∧ ∃ y, toHost h v = .ok y ∧ declared.convert y = .ok x) ∧
    ∀ declared v y x, (∀ u f, v = .user u → h.user u ≠ .failure f) → toHost h v = .ok y →
      declared.convert y = .ok x → toHostAs h declared v = .ok x := by
  refine ⟨fun s => ⟨Marshal.toBytes_str h s, rfl⟩, Marshal.toHostAs_text_str h,
    Marshal.toHostAs_any h, Marshal.toHostAs_nil h, fun declared v x hv hx => ?_,
    fun declared v y x => Marshal.toHostAs_of_convert⟩
  obtain ⟨y, hy, hconvert⟩ := Marshal.convert_of_toHostAs hv hx
  have hadmits : declared.Admits x := Declared.admits_of_convert hconvert
  refine ⟨?_, hadmits, y, hy, hconvert⟩
  rintro rfl
  -- `nil` is of none of the kinds, so this is the reading without a type
  cases hadmits
  rw [Marshal.toHostAs_any] at hx
  exact hv ((Marshal.toHost_func_or_nil hx).2.1 rfl)

/-- Bytes that are no text are read as bytes only; a number is read as the number that it is. -/
theorem declared_readings_of_bytes :
    toHostAs {} .bytes (.str [0xFF, 0x41]) = .ok (.bytes [0xFF, 0x41]) ∧
    toHostAs {} .text (.str [0xFF, 0x41]) = .error (.kind "text" "non-UTF-8 bytes") ∧
    Value.int 7 ≠ .nil ∧ toHost {} (.int 7) = .ok (.int 7) ∧
    toHostAs {} .int (.int 7) = .ok (.int 7) ∧ Declared.int.Admits (.int 7) := by
  obtain ⟨hbytes, htext, -, -, hkind, hconvert⟩ := declared_readings {}
  have hplain : toHost {} (.int 7) = .ok (.int 7) := by rw [toHost, Marshal.toHostWithin]
  have hnil : Value.int 7 ≠ .nil := Value.noConfusion
  have hseven : toHostAs {} .int (.int 7) = .ok (.int 7) :=
    hconvert .int (.int 7) (.int 7) (.int 7) (fun _ _ => Value.noConfusion) hplain rfl
  refine ⟨(hbytes _).2, ?_, hnil, hplain, hseven, (hkind .int (.int 7) _ hnil hseven).2.1⟩
  rw [htext, Marshal.toHost_str_normal]
  rfl

end ScriptShell
