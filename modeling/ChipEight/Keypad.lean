set_option autoImplicit false

namespace ChipEight

/-- Key codes are the character codes of the keys. -/
inductive KeyEvent
  | down (code : Int)
  | up (code : Int)
  | quit
  | other
  deriving DecidableEq

/-- Bindings of key codes to keys of the machine; of two bindings of a code the later counts. -/
abbrev KeyMap := List (Int × Int)

namespace KeyMap

def find? (map : KeyMap) (code : Int) : Option Int :=
  (map.findRev? fun binding => binding.1 == code).map Prod.snd

def standard : KeyMap :=
  List.zip ("1234qwerasdfzxcv".toList.map fun c => (c.toNat : Int))
    [0x1, 0x2, 0x3, 0xC,
     0x4, 0x5, 0x6, 0xD,
     0x7, 0x8, 0x9, 0xE,
     0xA, 0x0, 0xB, 0xF]

end KeyMap

inductive Keypad
  | scripted (map : KeyMap) (isOpen : Bool)
  | unattended (pollsLeft : Int)

namespace Keypad

def running : Keypad → Bool
  | scripted _ isOpen => isOpen
  | unattended pollsLeft => 0 < pollsLeft

end Keypad

end ChipEight
