import DriveHealth.Attribute.Definition
import DriveHealth.Database.Family
import DriveHealth.Regex.Compiled
/-!
An entry of the drive database: the models it is for and what is known about them.
-/

namespace DriveHealth

structure Entry where
  family : Text := []
  model : RegularExpression := {}
  firmware : RegularExpression := {}
  warning : Text := []
  presets : Presets := .empty
  /-- How to reach a drive behind an adapter; empty for entries of drives. -/
  usbType : Text := []
  deriving DecidableEq, Repr

namespace Entry

/-- Whether the expression of the entry matches some part of the model. -/
def isFor (e : Entry) (model : Text) : Bool := e.model.isMatch model

/-- Whether the entry describes drives and is for the model. -/
def describes (e : Entry) (model : Text) : Bool := Family.isDrive e.family && e.isFor model

end Entry

end DriveHealth
