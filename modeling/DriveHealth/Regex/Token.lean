import DriveHealth.Regex.Basic
/-!
The symbols of a pattern outside bracket expressions. A backslash takes the special meaning from the
character behind it, or gives it one.
-/

namespace DriveHealth.Regex

inductive Token where
  | done
  | trailingBackslash
  | char (c : Char)
  | star
  | plus
  | question
  | openInterval
  | closeInterval
  | openGroup
  | closeGroup
  | openBracket
  | bar
  | any
  | set (a : Atom)
  | assert (a : Assertion)
  | wordEdge (inverted : Bool)
  | reference (group : Nat)
  deriving DecidableEq, Repr

def Token.escaped (c : Char) : Token :=
  match c with
  | 'w' => .set (Atom.word false)
  | 'W' => .set (Atom.word true)
  | 's' => .set (Atom.space false)
  | 'S' => .set (Atom.space true)
  | '<' => .assert .wordStart
  | '>' => .assert .wordEnd
  | 'b' => .wordEdge false
  | 'B' => .wordEdge true
  | '\x60' => .assert .textStart
  | '\x27' => .assert .textEnd
  | c => if '1' ≤ c ∧ c ≤ '9' then .reference (c.toNat - '1'.toNat) else .char c

def Token.plain (c : Char) : Token :=
  match c with
  | '*' => .star
  | '+' => .plus
  | '?' => .question
  | '{' => .openInterval
  | '}' => .closeInterval
  | '(' => .openGroup
  | ')' => .closeGroup
  | '[' => .openBracket
  | '|' => .bar
  | '.' => .any
  | '^' => .assert .textStart
  | '$' => .assert .textEnd
  | c => .char c

def Token.next : Text → Token × Text
  | [] => (.done, [])
  | ['\\'] => (.trailingBackslash, [])
  | '\\' :: c :: r => (escaped c, r)
  | c :: r => (plain c, r)

end DriveHealth.Regex
