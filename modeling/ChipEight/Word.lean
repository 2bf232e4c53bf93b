import ChipEight.Bank
import ChipEight.Memory

set_option autoImplicit false

namespace ChipEight

abbrev Word := UInt16

namespace Word

def family (w : Word) : Nat := w.toNat / 4096

def x (w : Word) : Fin 16 := Fin.ofNat 16 (w.toNat / 256)

def y (w : Word) : Fin 16 := Fin.ofNat 16 (w.toNat / 16)

def digit (w : Word) : Fin 16 := Fin.ofNat 16 w.toNat

def byte (w : Word) : UInt8 := UInt8.ofNat w.toNat

def address (w : Word) : Address := Fin.ofNat 4096 w.toNat

def ofDigits (family : Nat) (x y digit : Fin 16) : Word :=
  UInt16.ofNat (family * 4096 + x * 256 + y * 16 + digit)

def ofByte (family : Nat) (x : Fin 16) (byte : UInt8) : Word :=
  UInt16.ofNat (family * 4096 + x * 256 + byte.toNat)

def ofAddress (family : Nat) (address : Address) : Word :=
  UInt16.ofNat (family * 4096 + address)

theorem toNat_ofDigits {f : Nat} (h : f < 16) (x y d : Fin 16) :
    (ofDigits f x y d).toNat = f * 4096 + x * 256 + y * 16 + d := by
  have := x.isLt
  have := y.isLt
  have := d.isLt
  simp only [ofDigits, UInt16.toNat_ofNat']
  omega

theorem toNat_ofByte {f : Nat} (h : f < 16) (x : Fin 16) (b : UInt8) :
    (ofByte f x b).toNat = f * 4096 + x * 256 + b.toNat := by
  have := x.isLt
  have := b.toNat_lt
  simp only [ofByte, UInt16.toNat_ofNat']
  omega

theorem toNat_ofAddress {f : Nat} (h : f < 16) (a : Address) :
    (ofAddress f a).toNat = f * 4096 + a := by
  have := a.isLt
  simp only [ofAddress, UInt16.toNat_ofNat']
  omega

theorem family_lt (w : Word) : w.family < 16 := by
  have := w.toNat_lt
  simp only [family]
  omega

theorem family_ofDigits {f : Nat} (h : f < 16) (x y d : Fin 16) :
    (ofDigits f x y d).family = f := by
  rw [family, toNat_ofDigits h]
  omega

theorem x_ofDigits {f : Nat} (h : f < 16) (x y d : Fin 16) : (ofDigits f x y d).x = x := by
  apply Fin.ext
  simp only [Word.x, toNat_ofDigits h, Fin.ofNat]
  omega

theorem y_ofDigits {f : Nat} (h : f < 16) (x y d : Fin 16) : (ofDigits f x y d).y = y := by
  apply Fin.ext
  simp only [Word.y, toNat_ofDigits h, Fin.ofNat]
  omega

theorem digit_ofDigits {f : Nat} (h : f < 16) (x y d : Fin 16) : (ofDigits f x y d).digit = d := by
  apply Fin.ext
  simp only [digit, toNat_ofDigits h, Fin.ofNat]
  omega

theorem family_ofByte {f : Nat} (h : f < 16) (x : Fin 16) (b : UInt8) :
    (ofByte f x b).family = f := by
  have := b.toNat_lt
  rw [family, toNat_ofByte h]
  omega

theorem x_ofByte {f : Nat} (h : f < 16) (x : Fin 16) (b : UInt8) : (ofByte f x b).x = x := by
  have := b.toNat_lt
  apply Fin.ext
  simp only [Word.x, toNat_ofByte h, Fin.ofNat]
  omega

theorem byte_ofByte {f : Nat} (h : f < 16) (x : Fin 16) (b : UInt8) : (ofByte f x b).byte = b := by
  have := b.toNat_lt
  apply UInt8.toNat.inj
  simp only [byte, toNat_ofByte h, UInt8.toNat_ofNat']
  omega

theorem family_ofAddress {f : Nat} (h : f < 16) (a : Address) : (ofAddress f a).family = f := by
  have := a.isLt
  rw [family, toNat_ofAddress h]
  omega

theorem address_ofAddress {f : Nat} (h : f < 16) (a : Address) : (ofAddress f a).address = a := by
  have := a.isLt
  apply Fin.ext
  simp only [address, toNat_ofAddress h, Fin.ofNat]
  omega

theorem eq_ofDigits (w : Word) : w = ofDigits w.family w.x w.y w.digit := by
  have := w.toNat_lt
  apply UInt16.toNat.inj
  rw [toNat_ofDigits w.family_lt]
  simp only [family, Word.x, Word.y, digit, Fin.ofNat]
  omega

theorem eq_ofByte (w : Word) : w = ofByte w.family w.x w.byte := by
  have := w.toNat_lt
  apply UInt16.toNat.inj
  rw [toNat_ofByte w.family_lt]
  simp only [family, Word.x, byte, Fin.ofNat, UInt8.toNat_ofNat']
  omega

theorem eq_ofAddress (w : Word) : w = ofAddress w.family w.address := by
  have := w.toNat_lt
  apply UInt16.toNat.inj
  rw [toNat_ofAddress w.family_lt]
  simp only [family, address, Fin.ofNat]
  omega

end Word

end ChipEight
