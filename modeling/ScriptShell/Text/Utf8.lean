/-! # Byte strings and UTF-8

The guest's strings, the pipes and the script files are byte strings; the host's texts are
strings of characters.  `encode` goes from texts to bytes and `decode?` back; they are inverse
to each other (`decode?_encode`, `encode_of_decode?`).  `decodeLossy` shows any byte string, and
`firstFault?` says where and how a byte string stops being UTF-8. -/

namespace ScriptShell

/-- A byte string: any bytes, UTF-8 or not. -/
abbrev Bytes := List UInt8

namespace Utf8

/-- The UTF-8 form of a text. -/
def encode (s : String) : Bytes := s.toUTF8.data.toList

/-- The text of a byte string, if it is valid UTF-8. -/
def decode? (b : Bytes) : Option String := String.fromUTF8? ⟨b.toArray⟩

theorem decode?_encode (s : String) : decode? (encode s) = some s := by
  have h : decode? (encode s) = String.fromUTF8? s.toUTF8 := rfl
  rw [h]
  simp only [String.fromUTF8?, String.toUTF8_eq_toByteArray, dif_pos s.isValidUTF8]
  rfl

theorem encode_of_decode? {b : Bytes} {s : String} (h : decode? b = some s) : encode s = b := by
  simp only [decode?, String.fromUTF8?] at h
  split at h
  · cases h
    rfl
  · cases h

theorem encode_injective {s t : String} (h : encode s = encode t) : s = t := by
  have hs := decode?_encode s
  rw [h, decode?_encode] at hs
  exact (Option.some.inj hs).symm

theorem decode?_eq_some_iff {b : Bytes} {s : String} : decode? b = some s ↔ b = encode s :=
  ⟨fun h => (encode_of_decode? h).symm, fun h => h ▸ decode?_encode s⟩

/-! ## Reading character by character -/

/-- What stands at the head of a byte string. -/
inductive Head where
  /-- Nothing is left. -/
  | done
  /-- A whole character and the bytes after it. -/
  | char (c : Char) (rest : Bytes)
  /-- A sequence of `length` bytes that no character starts with. -/
  | invalid (length : Nat) (rest : Bytes)
  /-- The bytes end inside a character, `length` bytes into it. -/
  | incomplete (length : Nat)

/-- A byte of the form `10xxxxxx`. -/
def isContinuation (b : UInt8) : Bool := 0x80 ≤ b && b ≤ 0xBF

/-- The payload of a continuation byte. -/
def payload (b : UInt8) : Nat := b.toNat % 64

/-- The bytes that may follow the first byte of a character of three or four bytes: the ranges
that leave out over-long forms, surrogates and numbers above `U+10FFFF`. -/
def secondRange (b : UInt8) : UInt8 × UInt8 :=
  if b = 0xE0 then (0xA0, 0xBF)
  else if b = 0xED then (0x80, 0x9F)
  else if b = 0xF0 then (0x90, 0xBF)
  else if b = 0xF4 then (0x80, 0x8F)
  else (0x80, 0xBF)

/-- Splits off the first character.  A faulty sequence is as long as the longest start of it that
could still have become a character. -/
def head : Bytes → Head
  | [] => .done
  | b :: r =>
    if b < 0x80 then .char (Char.ofNat b.toNat) r
    else if 0xC2 ≤ b && b ≤ 0xDF then
      match r with
      | [] => .incomplete 1
      | b₁ :: r₁ =>
        if isContinuation b₁ then .char (Char.ofNat (b.toNat % 32 * 64 + payload b₁)) r₁
        else .invalid 1 r
    else if 0xE0 ≤ b && b ≤ 0xEF then
      match r with
      | [] => .incomplete 1
      | b₁ :: r₁ =>
        if (secondRange b).1 ≤ b₁ && b₁ ≤ (secondRange b).2 then
          match r₁ with
          | [] => .incomplete 2
          | b₂ :: r₂ =>
            if isContinuation b₂ then
              .char (Char.ofNat ((b.toNat % 16 * 64 + payload b₁) * 64 + payload b₂)) r₂
            else .invalid 2 r₁
        else .invalid 1 r
    else if 0xF0 ≤ b && b ≤ 0xF4 then
      match r with
      | [] => .incomplete 1
      | b₁ :: r₁ =>
        if (secondRange b).1 ≤ b₁ && b₁ ≤ (secondRange b).2 then
          match r₁ with
          | [] => .incomplete 2
          | b₂ :: r₂ =>
            if isContinuation b₂ then
              match r₂ with
              | [] => .incomplete 3
              | b₃ :: r₃ =>
                if isContinuation b₃ then
                  .char (Char.ofNat
                    (((b.toNat % 8 * 64 + payload b₁) * 64 + payload b₂) * 64 + payload b₃)) r₃
                else .invalid 3 r₂
            else .invalid 2 r₁
        else .invalid 1 r
    else .invalid 1 r

/-- Reads at most `fuel` heads, turning each faulty or unfinished sequence into `U+FFFD`. -/
def lossyChars : Nat → Bytes → List Char
  | 0, _ => []
  | n + 1, b =>
    match head b with
    | .done => []
    | .char c r => c :: lossyChars n r
    | .invalid _ r => '\uFFFD' :: lossyChars n r
    | .incomplete _ => ['\uFFFD']

/-- The text of a byte string, with each faulty sequence shown as one `U+FFFD`. -/
def decodeLossy (b : Bytes) : String := String.ofList (lossyChars b.length b)

/-- Where a byte string stops being UTF-8. -/
structure Fault where
  /-- The number of bytes before the fault. -/
  index : Nat
  /-- The length of the faulty sequence; `none` if the bytes end inside a character. -/
  length? : Option Nat
  deriving DecidableEq, Repr

/-- The first fault, counting from `index`, within `fuel` characters. -/
def firstFaultFrom : Nat → Nat → Bytes → Option Fault
  | 0, _, _ => none
  | n + 1, index, b =>
    match head b with
    | .done => none
    | .char _ r => firstFaultFrom n (index + (b.length - r.length)) r
    | .invalid k _ => some ⟨index, some k⟩
    | .incomplete _ => some ⟨index, none⟩

/-- The first fault of a byte string. -/
def firstFault? (b : Bytes) : Option Fault := firstFaultFrom b.length 0 b

/-- The fault in words. -/
def Fault.message (f : Fault) : String :=
  match f.length? with
  | some k => s!"invalid utf-8 sequence of {k} bytes from index {f.index}"
  | none => s!"incomplete utf-8 byte sequence from index {f.index}"

end Utf8
end ScriptShell
