import ChipEight.Session

set_option autoImplicit false

namespace ChipEight

/-- The storage of a session that reads one file; writing is tried when the report is carried out. -/
def storageOf (name : String) (found : Finding) : Storage where
  find path := if path = Path.ofString name then found else .nothing
  refusal path := if path = "" then some .noSuchFolder else none

def findFile (name : String) : IO Finding := do
  try
    let bytes ← IO.FS.readBinFile name
    return .file bytes.toList
  catch e =>
    match e with
    | .noFileOrDirectory .. | .inappropriateType .. => return .nothing
    | .permissionDenied .. => return .unreadable .notPermitted
    | _ => return .unreadable .broken

def randomBytes (seed : UInt64) (k : Nat) : UInt8 := (mixHash seed (hash k)).toUInt8

/-- The toolkit of a terminal counts in 32 bits. -/
def terminal : Toolkit := .upTo 0x80000000

def romName (args : List String) : String :=
  match Options.read .value args with
  | .ok o => o.rom
  | .error _ => ""

def writeDumps (dumps : List (String × String)) : IO Unit := do
  for (path, text) in dumps do
    IO.FS.writeFile path text

def usage : String := "usage: " ++ " ".intercalate
  (Options.forms.map fun f => "[" ++ f.title ++ (if f.takesValue then " VALUE]" else "]")) ++ " rom"

def finish (ending : Ending) : IO UInt32 := do
  match ending with
  | .finished => return 0
  | .stopped .help =>
    IO.println usage
    return 0
  | .stopped (.refused e) =>
    IO.eprintln usage
    IO.eprintln ("error: " ++ e.message)
    return 2
  | .failed f =>
    IO.eprintln ("error: " ++ f.message.getD "the session failed")
    return 1

end ChipEight

open ChipEight in
def main (args : List String) : IO UInt32 := do
  let name := romName args
  let seed ← IO.monoNanosNow
  let storage := storageOf name (← findFile name)
  let report := Session.run .value storage terminal (randomBytes seed.toUInt64) [] args
  writeDumps report.dumps
  for e in report.log do
    IO.eprintln (e.channel ++ " - " ++ e.level.name ++ " - " ++ e.text)
  IO.print report.printed
  finish report.ending
