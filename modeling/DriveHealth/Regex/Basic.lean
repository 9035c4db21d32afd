import DriveHealth.Text.Basic
/-!
POSIX extended regular expressions over bytes in the C locale: the tree of an expression and what can
be wrong with a pattern. Choices are ordered: where an expression can match a stretch of text in several
ways, `alt` prefers its first branch and `star` prefers one more round.
-/

namespace DriveHealth.Regex

inductive CharClass where
  | alnum | alpha | blank | cntrl | digit | graph | lower | print | punct | space | upper | xdigit
  deriving DecidableEq, Repr

namespace CharClass

def ofName? (name : Text) : Option CharClass :=
  [("alnum", alnum), ("alpha", alpha), ("blank", blank), ("cntrl", cntrl), ("digit", digit),
   ("graph", graph), ("lower", lower), ("print", print), ("punct", punct), ("space", space),
   ("upper", upper), ("xdigit", xdigit)].lookup (String.ofList name)

/-- Only ASCII characters belong to a class. -/
def contains : CharClass → Char → Bool
  | alnum, c => c.isAlphanum
  | alpha, c => c.isAlpha
  | blank, c => c = ' ' || c = '\t'
  | cntrl, c => c.toNat < 32 || c.toNat = 127
  | digit, c => c.isDigit
  | graph, c => 32 < c.toNat && c.toNat < 127
  | lower, c => c.isLower
  | print, c => 32 ≤ c.toNat && c.toNat < 127
  | punct, c => 32 < c.toNat && c.toNat < 127 && !c.isAlphanum
  | space, c => isBlank c
  | upper, c => c.isUpper
  | xdigit, c => c.isDigit || ('a' ≤ c && c ≤ 'f') || ('A' ≤ c && c ≤ 'F')

end CharClass

inductive Member where
  | single (c : Char)
  | range (low high : Char)
  | named (k : CharClass)
  deriving DecidableEq, Repr

def Member.contains : Member → Char → Bool
  | single d, c => c = d
  | range low high, c => low ≤ c && c ≤ high
  | named k, c => k.contains c

inductive Atom where
  | char (c : Char)
  | any
  | bracket (negated : Bool) (members : List Member)
  deriving DecidableEq, Repr

namespace Atom

/-- The dot takes every character, newlines too, but no NUL. -/
def accepts : Atom → Char → Bool
  | char d, c => c = d
  | any, c => c ≠ nul
  | bracket negated members, c => members.any (·.contains c) != negated

def word (negated : Bool) : Atom := bracket negated [.named .alnum, .single '_']

def space (negated : Bool) : Atom := bracket negated [.named .space]

end Atom

inductive Assertion where
  | textStart
  | textEnd
  | wordStart
  | wordEnd
  | insideWord
  | outsideWord
  deriving DecidableEq, Repr

/-- A place in the subject: the characters around it, `none` at the ends. -/
structure Place where
  previous : Option Char
  next : Option Char

def Assertion.holds (a : Assertion) (p : Place) : Bool :=
  let before := p.previous.any (Atom.word false).accepts
  let after := p.next.any (Atom.word false).accepts
  match a with
  | textStart => p.previous.isNone
  | textEnd => p.next.isNone
  | wordStart => !before && after
  | wordEnd => before && !after
  | insideWord => before && after
  | outsideWord => !before && !after

/-- A parsed expression. A group is `optional` where it may be left out or repeated, which decides
what its range is after an empty round. -/
inductive Expr where
  | empty
  | atom (a : Atom)
  | assert (a : Assertion)
  | reference (group : Nat)
  | group (index : Nat) (optional : Bool) (body : Expr)
  | cat (first second : Expr)
  | alt (first second : Expr)
  | star (body : Expr)
  deriving DecidableEq, Repr

namespace Expr

/-- Concatenation; the empty expression leaves no trace. -/
def andThen : Expr → Expr → Expr
  | empty, e => e
  | e, empty => e
  | e, f => cat e f

/-- Alternation; an empty branch is the last choice. -/
def orElse : Expr → Expr → Expr
  | empty, e => alt e empty
  | e, f => alt e f

def asOptional : Expr → Expr
  | group i _ body => group i true body
  | e => e

def unmarked : Expr → Expr
  | group i _ body => group i false (unmarked body)
  | cat e f => cat (unmarked e) (unmarked f)
  | alt e f => alt (unmarked e) (unmarked f)
  | star body => star (unmarked body)
  | e => e

/-- `first` and then `n` unmarked copies of it. -/
def followed (first : Expr) : Nat → Expr
  | 0 => first
  | n + 1 => (followed first n).cat first.unmarked

/-- `first`, in front of up to `n` unmarked copies of it, or nothing. The number of copies is chosen
before what they match. -/
def upTo (first : Expr) : Nat → Expr
  | 0 => alt first empty
  | n + 1 => alt ((upTo first n).cat first.unmarked) empty

/-- Repetition between `low` times and `high` times, without a limit if `high` is none. -/
def repeated (e : Expr) (low : Nat) (high : Option Nat) : Expr :=
  let tail (e : Expr) : Expr :=
    match high with
    | none => star e.asOptional
    | some high => if high ≤ low then empty else upTo e.asOptional (high - low - 1)
  match e, low with
  | empty, _ => empty
  | e, 0 => tail e
  | e, n + 1 => (followed e n).andThen (tail e.unmarked)

end Expr

/-- What can be wrong with a pattern. The last two are faults of portability only. -/
inductive Problem where
  | badPattern
  | badCollation
  | badClass
  | trailingBackslash
  | badReference
  | unclosedBracket
  | unclosedGroup
  | unclosedInterval
  | badInterval
  | badRange
  | badRepetition
  | tooBig
  | unmatchedClose
  | emptyAlternative
  deriving DecidableEq, Repr

def Problem.message : Problem → Text
  | badPattern => "Invalid regular expression"
  | badCollation => "Invalid collation character"
  | badClass => "Invalid character class name"
  | trailingBackslash => "Trailing backslash"
  | badReference => "Invalid back reference"
  | unclosedBracket => "Unmatched [, [^, [:, [., or [="
  | unclosedGroup => "Unmatched ( or \\("
  | unclosedInterval => "Unmatched \\\x7b"
  | badInterval => "Invalid content of \\\x7b\\\x7d"
  | badRange => "Invalid range end"
  | badRepetition => "Invalid preceding regular expression"
  | tooBig => "Regular expression too big"
  | unmatchedClose => "Unmatched ')'"
  | emptyAlternative => "Empty '|' subexpression"

end DriveHealth.Regex
