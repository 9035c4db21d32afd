import DriveHealth.Attribute.Format
/-!
Conversion rules: a format with an optional order of bytes, written `FORMAT` or `FORMAT:ORDER`. A text
that is no such rule is kept as it is, so that every text is the text of exactly one rule.
-/

namespace DriveHealth

inductive Rule where
  | known (format : Format) (order : Option (List ByteSource))
  | unknown (text : Text)
  deriving DecidableEq, Repr

namespace Rule

def none : Rule := unknown []

def maxOrder : Nat := 8

def orderText (order : List ByteSource) : Text := order.map ByteSource.letter

def parseOrder? (t : Text) : Option (List ByteSource) :=
  if t.isEmpty || maxOrder < t.length then Option.none else t.mapM ByteSource.ofLetter?

def parse (t : Text) : Rule :=
  match cutAt ':' t with
  | (name, Option.none) =>
    match Format.ofName? name with
    | some f => known f Option.none
    | Option.none => unknown t
  | (name, some order) =>
    match Format.ofName? name, parseOrder? order with
    | some f, some o => known f (some o)
    | _, _ => unknown t

def text : Rule → Text
  | known f Option.none => f.name
  | known f (some order) => f.name ++ ':' :: orderText order
  | unknown t => t

def isKnown : Rule → Bool
  | known _ _ => true
  | unknown _ => false

def isNone (r : Rule) : Bool := r = none

def formatNumber : Rule → Nat
  | known f _ => f.number
  | unknown _ => 0

def hasOrder : Rule → Bool
  | known _ (some _) => true
  | _ => false

def order : Rule → List ByteSource
  | known _ (some order) => order
  | known f Option.none => f.defaultOrder
  | unknown _ => Format.vendorOrder

/-- Which normalized values a rule leaves without their usual meaning. -/
structure Hidden where
  current : Bool
  worst : Bool
  deriving DecidableEq, Repr

/-- A value byte that goes into the raw value is no normalized value; without the current value the
worst one has no meaning either. -/
def hidden : Rule → Hidden
  | known _ (some order) =>
    ⟨order.contains .current, order.contains .current || order.contains .worst⟩
  | known .raw64 Option.none | known .hex64 Option.none => ⟨true, true⟩
  | _ => ⟨false, false⟩

/-- The bits of the hidden values: 2 for the current, 4 for the worst. -/
def Hidden.bits (h : Hidden) : Nat := (if h.current then 2 else 0) + (if h.worst then 4 else 0)

end Rule

end DriveHealth
