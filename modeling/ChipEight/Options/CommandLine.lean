import ChipEight.Options.Usage
import ChipEight.Text.Numeral

set_option autoImplicit false

/-!
# Reading a command line

A command line is read in two passes. The first decides for each argument whether it is an operand,
an option or the separator `--`, behind which everything is an operand. A name may be shortened as
long as one option remains; that it is not shortened too far is checked for all arguments before
anything else. The second pass pairs options with their values and picks the operand.

Options and operand are reported in the order in which they stand, together with the error that
stopped the second pass, if one did: what stands before the error still counts.
-/
namespace ChipEight

inductive Attached
  | nothing
  /-- Behind the equals sign of an option that is a word. -/
  | joined (value : String)
  /-- Behind an option that is a letter, at once or after an equals sign. -/
  | tail (letters : String)

/-- What the first pass makes of an argument. -/
inductive Token (κ : Type)
  | separator
  | word (text : String)
  | option (form : OptionForm κ) (attached : Attached)
  | stray (text : String)

/-- An option and what it was given; an option that takes no value has it withheld. -/
structure Occurrence (κ : Type) where
  form : OptionForm κ
  value : Given String

structure CommandLine (κ : Type) where
  occurrences : List (Occurrence κ)
  operand : Option String
  leftover : List String
  error : Option UsageError

namespace CommandLine

variable {κ : Type}

def isLong (name : String) : Bool := "--".isPrefixOf name

def splitAtEquals (s : String) : String × Attached :=
  let cs := s.toList
  match cs.dropWhile (· != '=') with
  | [] => (s, .nothing)
  | _ :: value => (String.ofList (cs.takeWhile (· != '=')), .joined (String.ofList value))

/-- A dash and digits, possibly with a point among or before them. One line end may follow. -/
def looksNegative (s : String) : Bool :=
  let isDigit := fun c => (DecimalDigit.value? c).isSome
  let unended := fun cs : List Char => if cs.getLast? = some '\n' then cs.dropLast else cs
  match s.toList with
  | '-' :: rest =>
    let body := unended rest
    let fraction := body.dropWhile isDigit
    match fraction with
    | [] => !body.isEmpty
    | '.' :: digits => !digits.isEmpty && digits.all isDigit
    | _ => false
  | _ => false

def namesOf (forms : List (OptionForm κ)) : List (String × OptionForm κ) :=
  forms.flatMap fun f => f.names.map fun name => (name, f)

def formNamed? (forms : List (OptionForm κ)) (name : String) : Option (OptionForm κ) :=
  ((namesOf forms).find? fun entry => entry.1 == name).map Prod.snd

/-- The names that an argument may stand for without being one of them. -/
def readings (forms : List (OptionForm κ)) (s : String) : List (String × OptionForm κ × Attached) :=
  if isLong s then
    let (stem, attached) := splitAtEquals s
    ((namesOf forms).filter fun entry => stem.isPrefixOf entry.1).map fun entry =>
      (entry.1, entry.2, attached)
  else
    (namesOf forms).filterMap fun entry =>
      if entry.1 = String.ofList (s.toList.take 2) then
        some (entry.1, entry.2, .tail (String.ofList (s.toList.drop 2)))
      else if s.isPrefixOf entry.1 then some (entry.1, entry.2, .nothing)
      else none

def fullName? (forms : List (OptionForm κ)) (s : String) : Option (Token κ) :=
  match formNamed? forms s with
  | some f => some (.option f .nothing)
  | none =>
    match splitAtEquals s with
    | (stem, .joined value) => (formNamed? forms stem).map fun f =>
      .option f (if isLong stem then .joined value else .tail value)
    | _ => none

def token (forms : List (OptionForm κ)) (s : String) : Except UsageError (Token κ) :=
  if !"-".isPrefixOf s || s = "-" then .ok (.word s)
  else
    match fullName? forms s with
    | some t => .ok t
    | none =>
      match readings forms s with
      | [(_, f, attached)] => .ok (.option f attached)
      | [] => .ok (if looksNegative s || s.contains ' ' then .word s else .stray s)
      | several => .error (.ambiguous s (several.map fun r => r.1))

def tokens (forms : List (OptionForm κ)) : List String → Except UsageError (List (Token κ))
  | [] => .ok []
  | s :: rest =>
    if s = "--" then .ok (.separator :: rest.map .word)
    else
      match token forms s with
      | .error e => .error e
      | .ok t => (tokens forms rest).map fun ts => t :: ts

/-- What one argument with options comes to: complete occurrences, and perhaps a last form that still
needs its value. -/
structure Cluster (κ : Type) where
  complete : List (Occurrence κ)
  pending : Option (OptionForm κ)

def Cluster.cons (o : Occurrence κ) (c : Cluster κ) : Cluster κ :=
  { c with complete := o :: c.complete }

def bare (f : OptionForm κ) : Occurrence κ := ⟨f, .withheld⟩

def alone (f : OptionForm κ) : Cluster κ :=
  if f.takesValue then ⟨[], some f⟩ else ⟨[bare f], none⟩

/-- Text in the argument of an option; `take` tells what it comes to. -/
def withText (take : String → Given String) (f : OptionForm κ) (text : String) : Cluster κ :=
  ⟨[⟨f, take text⟩], none⟩

/-- Letters behind a one-letter flag: the first must name another one-letter option. What follows a
flag is read in the same way, and what follows an option with a value is the value. -/
def ofLetters (take : String → Given String) (forms : List (OptionForm κ)) (flag : OptionForm κ) :
    List Char → Except UsageError (Cluster κ)
  | [] => .ok (alone flag)
  | c :: rest =>
    match formNamed? forms (String.ofList ['-', c]) with
    | none => .error (.valueUnexpected flag.title (String.ofList (c :: rest)))
    | some f =>
      if f.takesValue then
        .ok (Cluster.cons (bare flag)
          (if rest.isEmpty then alone f else withText take f (String.ofList rest)))
      else (ofLetters take forms f rest).map (Cluster.cons (bare flag))

def cluster (take : String → Given String) (forms : List (OptionForm κ)) (f : OptionForm κ) :
    Attached → Except UsageError (Cluster κ)
  | .nothing => .ok (alone f)
  | .joined text =>
    if f.takesValue then .ok (withText take f text) else .error (.valueUnexpected f.title text)
  | .tail text =>
    if f.takesValue then .ok (withText take f text)
    else if text = "" then .error (.valueUnexpected f.title text)
    else ofLetters take forms f text.toList

def empty : CommandLine κ := ⟨[], none, [], none⟩

def stopped (e : UsageError) : CommandLine κ := { empty with error := some e }

def withOccurrences (os : List (Occurrence κ)) (r : CommandLine κ) : CommandLine κ :=
  { r with occurrences := os ++ r.occurrences }

def withLeftover (ss : List String) (r : CommandLine κ) : CommandLine κ :=
  { r with leftover := ss ++ r.leftover }

/-- `taken` tells whether the operand was found before. The separator goes with the operand on
either side of it; elsewhere it is left over. -/
def pair (take : String → Given String) (forms : List (OptionForm κ)) (taken : Bool) :
    List (Token κ) → CommandLine κ
  | [] => empty
  | .stray s :: rest => withLeftover [s] (pair take forms taken rest)
  | .word s :: .separator :: rest =>
    if taken then withLeftover [s, "--"] (pair take forms taken rest)
    else { pair take forms true rest with operand := some s }
  | .word s :: rest =>
    if taken then withLeftover [s] (pair take forms taken rest)
    else { pair take forms true rest with operand := some s }
  | .separator :: .word s :: rest =>
    if taken then withLeftover ["--", s] (pair take forms taken rest)
    else { pair take forms true rest with operand := some s }
  | .separator :: rest => withLeftover ["--"] (pair take forms taken rest)
  | .option f attached :: rest =>
    match cluster take forms f attached with
    | .error e => stopped e
    | .ok c =>
      match c.pending with
      | none => withOccurrences c.complete (pair take forms taken rest)
      | some last =>
        match rest with
        | .word value :: behind =>
          withOccurrences (c.complete ++ [⟨last, .value value⟩]) (pair take forms taken behind)
        | _ => stopped (.valueMissing last.title)

def read (take : String → Given String) (forms : List (OptionForm κ)) (args : List String) :
    CommandLine κ :=
  match tokens forms args with
  | .error e => stopped e
  | .ok ts => pair take forms false ts

end CommandLine

end ChipEight
