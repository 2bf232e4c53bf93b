import ChipEight.Core
import ChipEight.Text.Numeral

set_option autoImplicit false

namespace ChipEight.Core

def dumpField (name : String) (width value : Nat) : List Char :=
  name.toList ++ ": 0x".toList ++ Hex.padded width value ++ ['\n']

def dumpRegister (c : Core) (k : Fin 16) : List Char :=
  'V' :: Hex.padded 1 k ++ ": 0x".toList ++ Hex.padded 2 (c.v.read k).toNat ++
    [if k % 4 = 3 then '\n' else '\t']

def dumpStack (c : Core) : List Char :=
  "stack: [".toList ++
    List.intercalate ", ".toList (c.stack.live.map fun site => "0x".toList ++ Hex.padded 3 site.toNat) ++
    "]\n".toList

def dumpWait (c : Core) : List Char :=
  match c.wait with
  | none => []
  | some x => "waiting for key into V".toList ++ Hex.padded 1 x ++ ['\n']

/-- The bytes of one line of memory behind the addresses of the first and the last. -/
def dumpRow (c : Core) (row : Nat) : List Char :=
  "0x".toList ++ Hex.padded 3 (32 * row) ++ " - 0x".toList ++ Hex.padded 3 (32 * row + 31) ++
    ":  ".toList ++ (c.memory.slice (32 * row) 32).flatMap (fun b => Hex.padded 2 b.toNat) ++ ['\n']

def dumpChars (c : Core) : List Char :=
  dumpField "PC" 3 c.pc ++
  dumpField "Next instr." 4 c.fetch.toNat ++
  dumpField "I" 3 c.index.toNat ++
  (List.finRange 16).flatMap c.dumpRegister ++
  dumpField "delay register" 2 c.delay.toNat ++
  dumpField "sound register" 2 c.sound.toNat ++
  c.dumpStack ++
  c.dumpWait ++
  "\n\nRAM:\n".toList ++
  (List.range 128).flatMap c.dumpRow

/-- The text of a core, without its keys, draw flag and counters. -/
def dump (c : Core) : String := String.ofList c.dumpChars

end ChipEight.Core
