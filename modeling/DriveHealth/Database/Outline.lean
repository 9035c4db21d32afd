import DriveHealth.Database.Settings
import DriveHealth.Database.Token
/-!
The outline of a database text: its entries, and everything that was wrong, in order. A database is a
list of entries separated by commas; an entry is five strings separated by commas, in braces. Where a
token is wrong, reading goes on at the next opening brace.
-/

namespace DriveHealth.Database

inductive Item where
  | lexical (problem : Located LexicalProblem)
  /-- A token in the place of another one, which is given by its first character. -/
  | expected (problem : Located Char)
  /-- Text that is no token, where there should be one. -/
  | stray
  | entry (settings : Located Settings)
  deriving DecidableEq, Repr

/-- Where reading stands; inside an entry with the line of its brace and the strings so far. -/
inductive Place where
  | start
  | beforeString (line : Nat) (values : List Text)
  | behindString (line : Nat) (values : List Text)
  | behindEntry
  | recovering
  deriving DecidableEq, Repr

def fieldCount : Nat := 5

def settingsOf (values : List Text) : Settings where
  family := values.getD 0 []
  model := values.getD 1 []
  firmware := values.getD 2 []
  warning := values.getD 3 []
  presets := values.getD 4 []

namespace Place

/-- The first character of the token that should come. -/
def wanted : Place → Char
  | start | recovering => '{'
  | beforeString _ _ => '"'
  | behindString _ values => if values.length < fieldCount then ',' else '}'
  | behindEntry => ','

def mayFinish : Place → Bool
  | start | behindEntry | recovering => true
  | _ => false

/-- The next place and what the token completes; nothing if the token should not stand here. -/
def accept? (p : Place) (line : Nat) (token : Token) : Option (Place × List Item) :=
  match p, token with
  | start, .openBrace | recovering, .openBrace => some (beforeString line [], [])
  | recovering, _ => some (recovering, [])
  | beforeString l values, .string v => some (behindString l (values ++ [v]), [])
  | behindString l values, .comma =>
    if values.length < fieldCount then some (beforeString l values, []) else none
  | behindString l values, .closeBrace =>
    if values.length < fieldCount then none
    else some (behindEntry, [.entry ⟨l, settingsOf values⟩])
  | behindEntry, .comma => some (start, [])
  | _, _ => none

/-- Text that is no token was reported already. -/
def complaint (p : Place) (line : Nat) : Token → Item
  | .bad => .stray
  | _ => .expected ⟨line, p.wanted⟩

/-- An opening brace starts an entry even where it is wrong. -/
def recovered (line : Nat) : Token → Place
  | .openBrace => beforeString line []
  | _ => recovering

end Place

def outline : Place → List Lexeme → List Item
  | _, [] => []
  | p, x :: r =>
    x.problems.map .lexical ++
      if x.token = .finish then (if p.mayFinish then [] else [p.complaint x.line x.token])
      else
        match p.accept? x.line x.token with
        | some (next, items) => items ++ outline next r
        | none => p.complaint x.line x.token :: outline (Place.recovered x.line x.token) r

def outlineOf (t : Text) : List Item := outline .start (lexemes 1 t)

end DriveHealth.Database
