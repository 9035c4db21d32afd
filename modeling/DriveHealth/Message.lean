import DriveHealth.Text.Basic
/-!
Messages for the user. Every operation returns the messages that it has for the user as a list, in
order; a verbosity decides which of them are shown.
-/

namespace DriveHealth

inductive Level where
  | error
  | warning
  | info
  | debug
  deriving DecidableEq, Repr

structure Message where
  level : Level
  text : Text
  deriving DecidableEq, Repr

/-- Zero shows errors and warnings, one also information, two and more everything. One byte wide. -/
abbrev Verbosity := UInt8

def Message.isShown (verbosity : Verbosity) (m : Message) : Bool :=
  match m.level with
  | .error | .warning => true
  | .info => 1 ≤ verbosity
  | .debug => 2 ≤ verbosity

def Message.shown (verbosity : Verbosity) (ms : List Message) : List Message :=
  ms.filter (·.isShown verbosity)

def Message.line (m : Message) : Text :=
  (match m.level with
    | .error => "Error: ".toList
    | .warning => "Warning: "
    | .info | .debug => "") ++ m.text ++ "\n"

end DriveHealth
