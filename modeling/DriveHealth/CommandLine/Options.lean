import DriveHealth.Message
import DriveHealth.Smart.Table
/-!
The command line: options of one letter, most of them with an argument, and operands behind them. The
first argument that does not start with a dash ends the options. What does not fit asks for the usage.
-/

namespace DriveHealth.CommandLine

inductive Listed where
  | matching
  | all
  deriving DecidableEq, Repr

structure Options where
  database : Option Text := none
  identify : Option Text := none
  model : Option Text := none
  definitions : List Text := []
  style : TableStyle := {}
  order : ByteOrder := .host
  listed : Option Listed := none
  isNvme : Bool := false
  showAll : Bool := false
  verbosity : Verbosity := 0
  deriving DecidableEq, Repr

inductive Request where
  | help
  | wrongUse
  | release
  | definitionHelp
  | run (options : Options) (operands : List Text)
  deriving DecidableEq, Repr

namespace Options

/-- Sets an option with an argument. A drive is known by its page or by its model, not by both. -/
def set? (o : Options) (letter : Char) (argument : Text) : Option Options :=
  match letter with
  | 'B' => some { o with database := argument }
  | 'i' => if o.model.isSome then none else some { o with identify := argument }
  | 'm' => if o.identify.isSome then none else some { o with model := argument }
  | 'v' => some { o with definitions := o.definitions ++ [argument] }
  | 'f' =>
    if argument = "brief".toList then some { o with style := { o.style with isBrief := true } }
    else if argument = "hex".toList then
      some { o with style := { o.style with hexIds := true, hexValues := true } }
    else none
  | 'e' =>
    if argument = "le".toList then some { o with order := .little }
    else if argument = "be".toList then some { o with order := .big }
    else none
  | 'P' =>
    if argument = "show".toList then some { o with listed := some .matching }
    else if argument = "showall".toList then some { o with listed := some .all }
    else none
  | 'd' => if argument = "nvme".toList then some { o with isNvme := true } else none
  | 'r' => some { o with verbosity := (leadingInteger argument % 256).toNat.toUInt8 }
  | _ => none

def parse (o : Options) : List Text → Request
  | ['-', 'a'] :: r => parse { o with showAll := true } r
  | ['-', 'h'] :: _ => .help
  | ['-', 'V'] :: _ => .release
  | ['-', 'v'] :: ['h', 'e', 'l', 'p'] :: _ => .definitionHelp
  | ['-', letter] :: argument :: r =>
    match o.set? letter argument with
    | some o => parse o r
    | none => .wrongUse
  | ('-' :: _) :: _ => .wrongUse
  | operands => .run o operands

end Options

def Request.ofArguments (arguments : List Text) : Request := Options.parse {} arguments

end DriveHealth.CommandLine
