import DriveHealth.Text.Basic
/-!
Reading a text along a format, step by step, up to the first step that the text does not fit. Marks tell
how far the reading came, and a mark that was not reached is missing.
-/

namespace DriveHealth

inductive ScanStep where
  | character (c : Char)
  /-- Blanks, also none. -/
  | blanks
  /-- One character or more, up to a given one. -/
  | upTo (c : Char)
  | mark
  deriving DecidableEq, Repr

abbrev ScanFormat := List ScanStep

namespace ScanFormat

def literal (t : Text) : ScanFormat := t.map .character

/-- The places of the marks that are reached from a place on. -/
def marksFrom (i : Nat) (t : Text) : ScanFormat → List Nat
  | [] => []
  | .character c :: f =>
    match t with
    | [] => []
    | d :: r => if d = c then marksFrom (i + 1) r f else []
  | .blanks :: f =>
    let r := skipBlanks t
    marksFrom (i + (t.length - r.length)) r f
  | .upTo c :: f =>
    let r := t.dropWhile (· ≠ c)
    if r.length < t.length then marksFrom (i + (t.length - r.length)) r f else []
  | .mark :: f => i :: marksFrom i t f

def marks (f : ScanFormat) (t : Text) : List Nat := marksFrom 0 t f

end ScanFormat

end DriveHealth
