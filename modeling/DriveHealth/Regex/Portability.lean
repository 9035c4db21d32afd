import DriveHealth.Regex.Basic
/-!
Two constructs that not every regular expression library takes, though the grammar does: a `)` without
an open group, and an alternative without a text. The scan knows escapes and bracket expressions, which
for it end at the first `]` behind the first place.
-/

namespace DriveHealth.Regex.Portability

/-- Where the scan stands: at the start of the pattern, inside it, or inside a bracket expression. -/
inductive State where
  | start
  | inside
  | bracket
  deriving DecidableEq, Repr

/-- Scans with `depth` groups open. -/
def scan : State → (depth : Nat) → Text → Option Problem
  | _, _, [] => none
  | .bracket, depth, c :: r => scan (if c = ']' then .inside else .bracket) depth r
  | _, _, ['\\'] => none
  | _, depth, '\\' :: _ :: r => scan .inside depth r
  | _, depth, '[' :: '^' :: _ :: r => scan .bracket depth r
  | _, _, ['[', '^'] => none
  | _, depth, '[' :: _ :: r => scan .bracket depth r
  | _, _, ['['] => none
  | state, depth, c :: r =>
    if c = ')' ∧ depth = 0 then some .unmatchedClose
    else if c = '|' ∧ (state = .start ∨ r.head?.all fun d => d = '|' || d = ')' || d = '$') then
      some .emptyAlternative
    else if (c = '(' ∨ c = '^') ∧ r.head? = some '|' then some .emptyAlternative
    else scan .inside (if c = '(' then depth + 1 else if c = ')' then depth - 1 else depth) r

/-- The first construct of a pattern that is not portable. -/
def problem? (pattern : Text) : Option Problem := scan .start 0 pattern

end DriveHealth.Regex.Portability
