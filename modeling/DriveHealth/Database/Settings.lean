import DriveHealth.Database.Entry
import DriveHealth.Database.PresetText
import DriveHealth.Message
/-!
Entries as they are written in a database, five texts, and the entries that they stand for. An entry is
made even of bad settings; the problems tell what is wrong with it.
-/

namespace DriveHealth

structure Settings where
  family : Text := []
  model : Text := []
  firmware : Text := []
  warning : Text := []
  presets : Text := []
  deriving DecidableEq, Repr

namespace Settings

inductive Problem where
  | missingModel
  | badExpression (source : Text) (problem : Regex.Problem)
  | unknownFormat (definition : Text)
  | badPresets
  | badUsbType
  deriving DecidableEq, Repr

namespace Problem

/-- An unknown format spoils one attribute, everything else the whole entry. -/
def level : Problem → Level
  | unknownFormat _ => .warning
  | _ => .error

def text : Problem → Text
  | missingModel => "Missing regular expression for drive model"
  | badExpression source problem =>
    "Error in regular expression \"" ++ source ++ "\": " ++ problem.message
  | unknownFormat definition => "Unknown raw format in \"-v " ++ definition ++ "\""
  | badPresets => "Syntax error in preset option string"
  | badUsbType => "Syntax error in USB type string"

def message (location : Text) (p : Problem) : Message := ⟨p.level, location ++ ": " ++ p.text⟩

end Problem

structure Conversion where
  entry : Entry
  problems : List Problem
  deriving DecidableEq, Repr

def Conversion.isGood (c : Conversion) : Bool := c.problems.all (·.level ≠ .error)

def Conversion.messages (location : Text) (c : Conversion) : List Message :=
  c.problems.map (·.message location)

/-- The expression for a text. An empty text stands for no expression. -/
def expression (source : Text) : RegularExpression :=
  if source.isEmpty then {} else .compile source

def expressionProblem (r : RegularExpression) : List Problem :=
  (r.problem.map (Problem.badExpression r.source)).toList

/-- A model is required; an entry for adapters has a type in place of presets. -/
def convert (s : Settings) : Conversion :=
  let model := expression s.model
  let firmware := expression s.firmware
  let base : Entry := { family := s.family, model, firmware, warning := s.warning }
  let expressions :=
    (if s.model.isEmpty then [.missingModel] else expressionProblem model) ++
      expressionProblem firmware
  if Family.isUsb s.family then
    let outcome := PresetText.readUsbType [] s.presets
    ⟨{ base with usbType := outcome.value },
     expressions ++ if outcome.isGood then [] else [.badUsbType]⟩
  else
    let outcome := PresetText.readPresets .empty s.presets
    ⟨{ base with presets := outcome.value },
     expressions ++ outcome.doubtful.map .unknownFormat ++
       if outcome.isGood then [] else [.badPresets]⟩

end Settings

end DriveHealth
