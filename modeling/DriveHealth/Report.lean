import DriveHealth.Text.Number
/-!
A report that grows in memory.
-/

namespace DriveHealth

structure Report where
  contents : Text := []
  deriving DecidableEq, Repr

namespace Report

inductive Action where
  | put (t : Text)
  | label (t : Text) (n : Int)
  | clear
  deriving DecidableEq, Repr

def act (r : Report) : Action → Report
  | .put t => ⟨r.contents ++ t⟩
  | .label t n => ⟨r.contents ++ "[" ++ t ++ "] " ++ signedDecimal n⟩
  | .clear => {}

end Report

end DriveHealth
