import DriveHealth.Regex.Portability
import DriveHealth.Regex.Search
/-!
Regular expressions as the drive database holds them: the text of the pattern together with what
became of it. A pattern that was never set and one that is bad match nothing.
-/

namespace DriveHealth

open Regex (Pattern Problem Range)

structure RegularExpression where
  source : Text := []
  problem : Option Problem := none
  pattern : Option Pattern := none
  deriving DecidableEq, Repr

namespace RegularExpression

/-- Checks the grammar first and portability second. -/
def compile (source : Text) : RegularExpression :=
  match Pattern.parse source with
  | .error p => { source, problem := some p }
  | .ok pattern =>
    match Regex.Portability.problem? source with
    | some p => { source, problem := some p }
    | none => { source, pattern := some pattern }

def isEmpty (r : RegularExpression) : Bool := r.source.isEmpty || r.problem.isSome

def message (r : RegularExpression) : Text := (r.problem.map Problem.message).getD []

def active? (r : RegularExpression) : Option Pattern := if r.isEmpty then none else r.pattern

def isMatch (r : RegularExpression) (subject : Text) : Bool :=
  r.active?.any fun p => (p.search subject).isSome

def groups? (r : RegularExpression) (subject : Text) (count : Nat) : Option (List (Option Range)) :=
  r.active?.bind fun p => p.searchGroups subject count

/-- A pattern that has to be good, with the pattern and its problem when it is not. -/
def require (source : Text) : Except Text RegularExpression :=
  let r := compile source
  match r.problem with
  | none => .ok r
  | some p => .error ("error in regular expression \"" ++ source ++ "\": " ++ p.message)

/-- A copy of the object. What was compiled is not copied but compiled once more. -/
def copy (r : RegularExpression) : Except Text RegularExpression :=
  if r.pattern.isNone then .ok r
  else
    let again := compile r.source
    match again.problem with
    | none => .ok again
    | some p =>
      .error ("Unable to recompile regular expression \"" ++ r.source ++ "\": " ++ p.message)

end RegularExpression

end DriveHealth
