set_option autoImplicit false

namespace ChipEight.Blank

def codes : List Nat := [
  0x09, 0x0A, 0x0B, 0x0C, 0x0D, 0x20, 0x85, 0xA0, 0x1680, 0x2000, 0x2001, 0x2002, 0x2003, 0x2004,
  0x2005, 0x2006, 0x2007, 0x2008, 0x2009, 0x200A, 0x2028, 0x2029, 0x202F, 0x205F, 0x3000]

def holds (c : Char) : Bool := codes.contains c.toNat

def trim (s : List Char) : List Char :=
  ((s.dropWhile holds).reverse.dropWhile holds).reverse

end ChipEight.Blank

namespace ChipEight.DecimalDigit

/-- Each script that writes numbers with ten digits has them in a row. -/
def zeros : List Nat := [
  0x30, 0x660, 0x6F0, 0x7C0, 0x966, 0x9E6, 0xA66, 0xAE6, 0xB66, 0xBE6, 0xC66, 0xCE6, 0xD66,
  0xDE6, 0xE50, 0xED0, 0xF20, 0x1040, 0x1090, 0x17E0, 0x1810, 0x1946, 0x19D0, 0x1A80, 0x1A90,
  0x1B50, 0x1BB0, 0x1C40, 0x1C50, 0xA620, 0xA8D0, 0xA900, 0xA9D0, 0xA9F0, 0xAA50, 0xABF0, 0xFF10,
  0x104A0, 0x10D30, 0x11066, 0x110F0, 0x11136, 0x111D0, 0x112F0, 0x11450, 0x114D0, 0x11650,
  0x116C0, 0x11730, 0x118E0, 0x11950, 0x11C50, 0x11D50, 0x11DA0, 0x16A60, 0x16AC0, 0x16B50,
  0x1D7CE, 0x1D7D8, 0x1D7E2, 0x1D7EC, 0x1D7F6, 0x1E140, 0x1E2F0, 0x1E950, 0x1FBF0]

def value? (c : Char) : Option Nat :=
  (zeros.find? fun z => z ≤ c.toNat && c.toNat < z + 10).map fun z => c.toNat - z

end ChipEight.DecimalDigit

namespace ChipEight.Numeral

def digitLimit : Nat := 4300

/-- The values of the digits; nothing unless the text is digits with single low lines between. -/
def digits? : List Char → Option (List Nat)
  | [] => none
  | [c] => (DecimalDigit.value? c).map fun d => [d]
  | c :: '_' :: rest => (DecimalDigit.value? c).bind fun d => (digits? rest).map fun ds => d :: ds
  | c :: rest => (DecimalDigit.value? c).bind fun d => (digits? rest).map fun ds => d :: ds

def ofDigits (ds : List Nat) : Nat := ds.foldl (fun n d => 10 * n + d) 0

def readNat? (s : List Char) : Option Nat :=
  (digits? s).bind fun ds => if ds.length ≤ digitLimit then some (ofDigits ds) else none

/-- A sign stands directly before the first digit. -/
def readSigned? : List Char → Option Int
  | '-' :: rest => (readNat? rest).map fun n => -(n : Int)
  | '+' :: rest => (readNat? rest).map fun n => (n : Int)
  | s => (readNat? s).map fun n => (n : Int)

def readInt? (s : String) : Option Int := readSigned? (Blank.trim s.toList)

end ChipEight.Numeral

namespace ChipEight.Hex

def digit (d : Nat) : Char :=
  if d < 10 then Char.ofNat (48 + d) else Char.ofNat (55 + d)

def value? (c : Char) : Option Nat :=
  if '0' ≤ c ∧ c ≤ '9' then some (c.toNat - 48)
  else if 'A' ≤ c ∧ c ≤ 'F' then some (c.toNat - 55)
  else none

theorem value?_digit {d : Nat} (h : d < 16) : value? (digit d) = some d := by
  have all : ∀ d : Fin 16, value? (digit d) = some d.val := by decide
  exact all ⟨d, h⟩

def digits (n : Nat) : List Char :=
  if n < 16 then [digit n] else digits (n / 16) ++ [digit (n % 16)]

def padded (width n : Nat) : List Char :=
  List.replicate (width - (digits n).length) '0' ++ digits n

def text (width n : Nat) : String := String.ofList (padded width n)

end ChipEight.Hex
