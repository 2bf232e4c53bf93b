import ChipEight.Text.Quoted

set_option autoImplicit false

namespace ChipEight

inductive Given (α : Type)
  | value (a : α)
  | withheld
  deriving DecidableEq

namespace Given

variable {α : Type}

def toOption : Given α → Option α
  | value a => some a
  | withheld => none

end Given

structure OptionForm (κ : Type) where
  key : κ
  names : List String
  takesValue : Bool

namespace OptionForm

variable {κ : Type}

def title (f : OptionForm κ) : String := "/".intercalate f.names

end OptionForm

inductive UsageError
  /-- A shortened name that several options share. -/
  | ambiguous (given : String) (names : List String)
  | valueMissing (option : String)
  | valueUnexpected (option value : String)
  | notANumber (option value : String)
  | notAChoice (option value : String) (choices : List String)
  | operandMissing (operand : String)
  | unrecognized (given : List String)
  deriving DecidableEq

namespace UsageError

def message : UsageError → String
  | ambiguous given names =>
    "ambiguous option: " ++ given ++ " could match " ++ ", ".intercalate names
  | valueMissing option => "argument " ++ option ++ ": expected one argument"
  | valueUnexpected option value =>
    "argument " ++ option ++ ": ignored explicit argument " ++ Quoted.text value
  | notANumber option value =>
    "argument " ++ option ++ ": invalid int value: " ++ Quoted.text value
  | notAChoice option value choices =>
    "argument " ++ option ++ ": invalid choice: " ++ Quoted.text value ++ " (choose from " ++
      ", ".intercalate (choices.map Quoted.text) ++ ")"
  | operandMissing operand => "the following arguments are required: " ++ operand
  | unrecognized given => "unrecognized arguments: " ++ " ".intercalate given

end UsageError

end ChipEight
