import ChipEight.Word

set_option autoImplicit false

namespace ChipEight

inductive Arithmetic
  | copy | or | and | xor | add | subtract | shiftRight | subtractFrom | shiftLeft
  deriving DecidableEq

inductive Instruction
  | clear
  | ret
  | jump (target : Address)
  | call (target : Address)
  | skipIfByte (x : Fin 16) (byte : UInt8)
  | skipUnlessByte (x : Fin 16) (byte : UInt8)
  | skipIfSame (x y : Fin 16)
  | skipUnlessSame (x y : Fin 16)
  | setByte (x : Fin 16) (byte : UInt8)
  | addByte (x : Fin 16) (byte : UInt8)
  | combine (op : Arithmetic) (x y : Fin 16)
  | setIndex (target : Address)
  | jumpOffset (target : Address)
  | random (x : Fin 16) (mask : UInt8)
  | draw (x y rows : Fin 16)
  | skipIfKey (x : Fin 16)
  | skipUnlessKey (x : Fin 16)
  | readDelay (x : Fin 16)
  | awaitKey (x : Fin 16)
  | setDelay (x : Fin 16)
  | setSound (x : Fin 16)
  | addIndex (x : Fin 16)
  | glyph (x : Fin 16)
  | decimal (x : Fin 16)
  | save (x : Fin 16)
  | restore (x : Fin 16)
  deriving DecidableEq

namespace Arithmetic

def code : Arithmetic → Fin 16
  | copy => 0x0
  | or => 0x1
  | and => 0x2
  | xor => 0x3
  | add => 0x4
  | subtract => 0x5
  | shiftRight => 0x6
  | subtractFrom => 0x7
  | shiftLeft => 0xE

def ofCode : Fin 16 → Option Arithmetic
  | 0x0 => some copy
  | 0x1 => some or
  | 0x2 => some and
  | 0x3 => some xor
  | 0x4 => some add
  | 0x5 => some subtract
  | 0x6 => some shiftRight
  | 0x7 => some subtractFrom
  | 0xE => some shiftLeft
  | _ => none

theorem ofCode_code (op : Arithmetic) : ofCode op.code = some op := by
  cases op <;> rfl

theorem code_of_ofCode {d : Fin 16} {op : Arithmetic} (h : ofCode d = some op) :
    op.code = d := by
  unfold ofCode at h
  split at h <;> simp at h <;> subst h <;> rfl

end Arithmetic

namespace Instruction

def decodeKey (x : Fin 16) : Nat → Option Instruction
  | 0x9E => some (skipIfKey x)
  | 0xA1 => some (skipUnlessKey x)
  | _ => none

def decodeRegister (x : Fin 16) : Nat → Option Instruction
  | 0x07 => some (readDelay x)
  | 0x0A => some (awaitKey x)
  | 0x15 => some (setDelay x)
  | 0x18 => some (setSound x)
  | 0x1E => some (addIndex x)
  | 0x29 => some (glyph x)
  | 0x33 => some (decimal x)
  | 0x55 => some (save x)
  | 0x65 => some (restore x)
  | _ => none

/-- The family settles most words; in some families the last digit or the byte chooses further. -/
def decode (w : Word) : Option Instruction :=
  match w.family with
  | 0x0 => if w = 0x00E0 then some clear else if w = 0x00EE then some ret else none
  | 0x1 => some (jump w.address)
  | 0x2 => some (call w.address)
  | 0x3 => some (skipIfByte w.x w.byte)
  | 0x4 => some (skipUnlessByte w.x w.byte)
  | 0x5 => if w.digit = 0 then some (skipIfSame w.x w.y) else none
  | 0x6 => some (setByte w.x w.byte)
  | 0x7 => some (addByte w.x w.byte)
  | 0x8 => (Arithmetic.ofCode w.digit).map fun op => combine op w.x w.y
  | 0x9 => if w.digit = 0 then some (skipUnlessSame w.x w.y) else none
  | 0xA => some (setIndex w.address)
  | 0xB => some (jumpOffset w.address)
  | 0xC => some (random w.x w.byte)
  | 0xD => some (draw w.x w.y w.digit)
  | 0xE => decodeKey w.x w.byte.toNat
  | 0xF => decodeRegister w.x w.byte.toNat
  | _ => none

def encode : Instruction → Word
  | clear => 0x00E0
  | ret => 0x00EE
  | jump target => .ofAddress 0x1 target
  | call target => .ofAddress 0x2 target
  | skipIfByte x byte => .ofByte 0x3 x byte
  | skipUnlessByte x byte => .ofByte 0x4 x byte
  | skipIfSame x y => .ofDigits 0x5 x y 0
  | setByte x byte => .ofByte 0x6 x byte
  | addByte x byte => .ofByte 0x7 x byte
  | combine op x y => .ofDigits 0x8 x y op.code
  | skipUnlessSame x y => .ofDigits 0x9 x y 0
  | setIndex target => .ofAddress 0xA target
  | jumpOffset target => .ofAddress 0xB target
  | random x mask => .ofByte 0xC x mask
  | draw x y rows => .ofDigits 0xD x y rows
  | skipIfKey x => .ofByte 0xE x 0x9E
  | skipUnlessKey x => .ofByte 0xE x 0xA1
  | readDelay x => .ofByte 0xF x 0x07
  | awaitKey x => .ofByte 0xF x 0x0A
  | setDelay x => .ofByte 0xF x 0x15
  | setSound x => .ofByte 0xF x 0x18
  | addIndex x => .ofByte 0xF x 0x1E
  | glyph x => .ofByte 0xF x 0x29
  | decimal x => .ofByte 0xF x 0x33
  | save x => .ofByte 0xF x 0x55
  | restore x => .ofByte 0xF x 0x65

theorem decode_encode (i : Instruction) : decode (encode i) = some i := by
  cases i with
  | clear | ret => rfl
  | jump | call | setIndex | jumpOffset =>
    simp [decode, encode, Word.family_ofAddress, Word.address_ofAddress]
  | skipIfByte | skipUnlessByte | setByte | addByte | random =>
    simp [decode, encode, Word.family_ofByte, Word.x_ofByte, Word.byte_ofByte]
  | skipIfSame | skipUnlessSame | draw =>
    simp [decode, encode, Word.family_ofDigits, Word.x_ofDigits, Word.y_ofDigits,
      Word.digit_ofDigits]
  | combine op =>
    simp [decode, encode, Word.family_ofDigits, Word.x_ofDigits, Word.y_ofDigits,
      Word.digit_ofDigits, Arithmetic.ofCode_code]
  | skipIfKey | skipUnlessKey =>
    simp [decode, encode, Word.family_ofByte, Word.x_ofByte, Word.byte_ofByte, decodeKey]
  | readDelay | awaitKey | setDelay | setSound | addIndex | glyph | decimal | save | restore =>
    simp [decode, encode, Word.family_ofByte, Word.x_ofByte, Word.byte_ofByte, decodeRegister]

theorem eq_encode_of_decodeKey {w : Word} {i : Instruction} (family : w.family = 0xE)
    (h : decodeKey w.x w.byte.toNat = some i) : w = encode i := by
  have parts := w.eq_ofByte
  unfold decodeKey at h
  split at h <;> simp at h <;> rw [parts, family, ← h, encode] <;> congr 1 <;>
    exact UInt8.toNat.inj (by assumption)

theorem eq_encode_of_decodeRegister {w : Word} {i : Instruction} (family : w.family = 0xF)
    (h : decodeRegister w.x w.byte.toNat = some i) : w = encode i := by
  have parts := w.eq_ofByte
  unfold decodeRegister at h
  split at h <;> simp at h <;> rw [parts, family, ← h, encode] <;> congr 1 <;>
    exact UInt8.toNat.inj (by assumption)

theorem eq_encode_of_decode {w : Word} {i : Instruction} (h : decode w = some i) :
    w = encode i := by
  unfold decode at h
  split at h
  case h_1 =>
    split at h
    · rename_i clears
      simp only [Option.some.injEq] at h
      rw [clears, ← h, encode]
    · split at h
      · rename_i returns
        simp only [Option.some.injEq] at h
        rw [returns, ← h, encode]
      · simp at h
  case h_15 family => exact eq_encode_of_decodeKey family h
  case h_16 family => exact eq_encode_of_decodeRegister family h
  case h_17 => simp at h
  case h_6 family | h_10 family =>
    split at h
    · rename_i last
      simp only [Option.some.injEq] at h
      rw [← h, encode, ← last, ← family]
      exact w.eq_ofDigits
    · simp at h
  case h_9 family =>
    obtain ⟨op, found, rfl⟩ := Option.map_eq_some_iff.1 h
    rw [encode, Arithmetic.code_of_ofCode found, ← family]
    exact w.eq_ofDigits
  case h_14 family =>
    simp only [Option.some.injEq] at h
    rw [← h, encode, ← family]
    exact w.eq_ofDigits
  case h_2 family | h_3 family | h_11 family | h_12 family =>
    simp only [Option.some.injEq] at h
    rw [← h, encode, ← family]
    exact w.eq_ofAddress
  all_goals
    rename_i family
    simp only [Option.some.injEq] at h
    rw [← h, encode, ← family]
    exact w.eq_ofByte

theorem decode_eq_some_iff {w : Word} {i : Instruction} : decode w = some i ↔ w = encode i :=
  ⟨eq_encode_of_decode, fun h => h ▸ decode_encode i⟩

end Instruction

end ChipEight
