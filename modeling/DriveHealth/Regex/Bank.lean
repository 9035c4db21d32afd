import DriveHealth.Regex.Compiled
/-!
Numbered places that hold regular expressions, and the ways to change them. A place that was not
written yet holds the expression without a pattern.
-/

namespace DriveHealth

structure RegexBank where
  get : Nat → RegularExpression := fun _ => {}

namespace RegexBank

inductive Action where
  | compile (place : Nat) (source : Text)
  | construct (place : Nat) (source : Text)
  | assign (place origin : Nat)
  | copy (place origin : Nat)
  deriving DecidableEq, Repr

/-- The only place that the action writes to. -/
def Action.place : Action → Nat
  | compile place _ | construct place _ | assign place _ | copy place _ => place

def set (b : RegexBank) (place : Nat) (r : RegularExpression) : RegexBank :=
  ⟨fun i => if i = place then r else b.get i⟩

/-- Puts a copy of an expression into a place. -/
def setCopy (b : RegexBank) (place : Nat) (r : RegularExpression) : Except Text RegexBank :=
  r.copy.map (b.set place)

/-- Carries out an action. A construction makes an expression on its own first, which is then assigned;
from a bad pattern it fails and leaves the bank as it is. Assigning a place to itself does nothing. -/
def act (b : RegexBank) : Action → Except Text RegexBank
  | .compile place source => .ok (b.set place (.compile source))
  | .construct place source => (RegularExpression.require source).bind (b.setCopy place)
  | .assign place origin => if place = origin then .ok b else b.setCopy place (b.get origin)
  | .copy place origin => b.setCopy place (b.get origin)

/-- The bank behind actions, of which those that fail change nothing. -/
def after (b : RegexBank) (actions : List Action) : RegexBank :=
  actions.foldl (fun b a => (b.act a).toOption.getD b) b

end RegexBank

end DriveHealth
