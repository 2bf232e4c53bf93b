import ChipEight.LogEntry

set_option autoImplicit false

/-!
# Storage

What a session needs of a file system: what is found at a path, and whether a file can be written.
`FileTree` is a file system given by its entries and its working folder; the folders on the way to an
entry are there without being listed.

Lengths are counted in bytes. A name has at most 255 of them and a whole path at most 4095, but a
name that is too long is noticed only in a folder that is there.
-/
namespace ChipEight

structure Path where
  /-- Empty for a relative path. -/
  root : String
  names : List String
  deriving DecidableEq

namespace Path

def pieces (s : String) : List String := s.splitOn "/"

def rootOf (s : String) : String :=
  if !"/".isPrefixOf s then ""
  else if "//".isPrefixOf s && !"///".isPrefixOf s then "//"
  else "/"

/-- Empty names and single dots say nothing; two dots are kept, since what they mean depends on the
folders that they pass through. -/
def ofString (s : String) : Path :=
  ⟨rootOf s, (pieces s).filter fun name => name != "" && name != "."⟩

/-- A path that says nothing is written as a dot. -/
def toString (p : Path) : String :=
  let text := p.root ++ "/".intercalate p.names
  if text = "" then "." else text

def fileName (p : Path) : String := p.names.getLast?.getD ""

end Path

/-- Why a path cannot be looked up, or a file not be read or written. -/
inductive Refusal
  | noSuchFolder
  | isFolder
  /-- The path leads through a file or a device. -/
  | insideFile
  | tooLong
  | nullCharacter
  /-- The path names a device that takes nothing. -/
  | full
  | notPermitted
  /-- The system or the device fails in another way. -/
  | broken
  deriving DecidableEq

inductive Finding
  | file (bytes : List UInt8)
  /-- A file is there, but reading it fails. -/
  | unreadable (why : Refusal)
  | nothing
  /-- The path cannot be looked up. -/
  | refused (why : Refusal)

structure Storage where
  find : Path → Finding
  refusal : String → Option Refusal

def nameLimit : Nat := 255

def pathLimit : Nat := 4095

inductive Entry
  | folder
  | file (bytes : List UInt8)
  /-- What is written to a device leaves no trace, if the device takes it at all. -/
  | device (takes : Bool)

structure FileTree where
  /-- The names from the root to the working folder. -/
  working : List String
  entries : List (List String × Entry)

namespace FileTree

/-- A place by its names from the innermost outwards; the root has none. -/
abbrev Place := List String

/-- The entry at a place. A place on the way to an entry or to the working folder is a folder. -/
def entry? (t : FileTree) (p : Place) : Option Entry :=
  let names := p.reverse
  match t.entries.find? fun e => e.1 == names with
  | some e => some e.2
  | none =>
    if names.isPrefixOf t.working || t.entries.any fun e => names.isPrefixOf e.1 then some .folder
    else none

/-- Follow names from a place. Each of them needs a folder to start from, and a dot stays there; the
folder above the root is the root. -/
def walk (t : FileTree) : Place → List String → Except Refusal Place
  | p, [] => .ok p
  | p, name :: rest =>
    match t.entry? p with
    | none => .error .noSuchFolder
    | some (.file _) | some (.device _) => .error .insideFile
    | some .folder =>
      if name = "." then walk t p rest
      else if name = ".." then walk t p.tail rest
      else if nameLimit < name.utf8ByteSize then .error .tooLong
      else walk t (name :: p) rest

def start (t : FileTree) (p : Path) : Place := if p.root = "" then t.working.reverse else []

def hasNull (s : String) : Bool := s.toList.contains (Char.ofNat 0)

/-- Nothing is found under a name with the null character. -/
def find (t : FileTree) (p : Path) : Finding :=
  if hasNull p.toString then .nothing
  else if pathLimit < p.toString.utf8ByteSize then .refused .tooLong
  else
    match t.walk (t.start p) p.names with
    | .error .tooLong => .refused .tooLong
    | .error _ => .nothing
    | .ok place =>
      match t.entry? place with
      | some (.file bytes) => .file bytes
      | _ => .nothing

def placeToWrite (t : FileTree) (start : Place) (names : List String) : Except Refusal Place :=
  match t.walk start names with
  | .error r => .error r
  | .ok place =>
    match t.entry? place with
    | some .folder => .error .isFolder
    | some (.device false) => .error .full
    | _ => .ok place

/-- A slash at the end asks for a folder. That cannot be written, whether it is there or not, but the
folder around it must be there. -/
def folderToWrite (t : FileTree) (start : Place) (names : List String) : Except Refusal Place :=
  match t.walk start (names.dropLast ++ ["."]) with
  | .error r => .error r
  | .ok _ => .error .isFolder

def target (t : FileTree) (s : String) : Except Refusal Place :=
  if hasNull s then .error .nullCharacter
  else if s = "" then .error .noSuchFolder
  else if pathLimit < s.utf8ByteSize then .error .tooLong
  else
    let names := (Path.pieces s).filter (· != "")
    let start := t.start (Path.ofString s)
    if (Path.pieces s).getLast? = some "" then t.folderToWrite start names
    else t.placeToWrite start names

def refusal (t : FileTree) (s : String) : Option Refusal :=
  match t.target s with
  | .error r => some r
  | .ok _ => none

/-- The name from the working folder of the file that writing creates; nothing if something was
there before, or if it is not in the working folder. -/
def created? (t : FileTree) (s : String) : Option String :=
  match t.target s with
  | .error _ => none
  | .ok place =>
    if (t.entry? place).isSome || !t.working.isPrefixOf place.reverse then none
    else some ("/".intercalate (place.reverse.drop t.working.length))

def storage (t : FileTree) : Storage := ⟨t.find, t.refusal⟩

def standardFolders : List String := [
  "bin", "boot", "dev", "etc", "home", "lib", "media", "mnt", "opt", "proc", "root", "run", "sbin",
  "srv", "sys", "tmp", "usr", "var"]

def standardDevices : List (String × Bool) := [
  ("null", true), ("zero", true), ("random", true), ("urandom", true), ("full", false)]

def standardEntries : List (List String × Entry) :=
  (standardFolders.map fun name => ([name], .folder)) ++
    standardDevices.map fun (name, takes) => (["dev", name], .device takes)

def ofFiles (working : List String) (files : List (List String × List UInt8)) : FileTree where
  working := working
  entries := standardEntries ++ files.map fun (names, bytes) => (working ++ names, .file bytes)

end FileTree

inductive RomFault
  | notFound (path : Path)
  | empty (path : Path)
  | refused (why : Refusal)
  deriving DecidableEq

namespace RomFault

def message : RomFault → Option String
  | notFound path => some ("ROM file not found: " ++ path.toString)
  | empty path => some ("ROM file is empty: " ++ path.toString)
  | refused _ => none

end RomFault

namespace Storage

def readRom (s : Storage) (name : String) : Except RomFault (List UInt8) :=
  let path := Path.ofString name
  match s.find path with
  | .nothing => .error (.notFound path)
  | .unreadable why | .refused why => .error (.refused why)
  | .file [] => .error (.empty path)
  | .file bytes => .ok bytes

end Storage

def LogEntry.ofRom (name : String) (bytes : List UInt8) : LogEntry :=
  .romRead bytes.length (Path.ofString name).toString

end ChipEight
