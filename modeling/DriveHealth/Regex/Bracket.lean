import DriveHealth.Regex.Basic
/-!
Bracket expressions. A backslash is an ordinary character in them, a `]` is one in the first place, and
a `-` in the first or last place or as the end of a range. `[:name:]`, `[.x.]` and `[=x=]` stand for a
class and, in the C locale, for the single character between the marks.
-/

namespace DriveHealth.Regex.Bracket

/-- A list element before it is known whether it starts a range. -/
inductive Element where
  | char (c : Char)
  | collating (name : Text)
  | equivalence (name : Text)
  | className (name : Text)

/-- The longest name between the marks of an element, in characters. -/
def maxName : Nat := 31

def closeName (mark : Char) : (room : Nat) → Text → Option (Text × Text)
  | _, [] => none
  | _, [_] => none
  | room, c :: d :: r =>
    if c = mark ∧ d = ']' then some ([], r)
    else match room with
      | 0 => none
      | room + 1 => (closeName mark room (d :: r)).map fun (name, rest) => (c :: name, rest)

/-- Reads one element. A hyphen that neither starts nor ends the list must end a range, which
`hyphen` allows. -/
def element (hyphen : Bool) : Text → Except Problem (Element × Text)
  | [] => .error .unclosedBracket
  | '[' :: '.' :: r => named r '.' .collating
  | '[' :: '=' :: r => named r '=' .equivalence
  | '[' :: ':' :: r => named r ':' .className
  | '-' :: r =>
    if hyphen || r.head? = some ']' then .ok (.char '-', r) else .error .badRange
  | c :: r => .ok (.char c, r)
where
  named (r : Text) (mark : Char) (make : Text → Element) : Except Problem (Element × Text) :=
    match closeName mark maxName r with
    | some (name, rest) => .ok (make name, rest)
    | none => .error .unclosedBracket

def Element.member : Element → Except Problem Member
  | char c => .ok (.single c)
  | collating [c] | equivalence [c] => .ok (.single c)
  | collating _ | equivalence _ => .error .badCollation
  | className name =>
    match CharClass.ofName? name with
    | some k => .ok (.named k)
    | none => .error .badClass

/-- The end of a range. Classes of any kind have no place in the order of characters. -/
def Element.bound : Element → Except Problem Char
  | char c | collating [c] => .ok c
  | collating _ => .error .badCollation
  | equivalence _ | className _ => .error .badRange

def Element.startsRange : Element → Bool
  | char _ | collating _ => true
  | equivalence _ | className _ => false

def Element.isClass (e : Element) : Bool := !e.startsRange

def rangeMember (low high : Element) : Except Problem Member := do
  if low.isClass || high.isClass then throw .badRange
  let l ← low.bound
  let h ← high.bound
  if l ≤ h then pure (.range l h) else throw .badRange

/-- A member, alone where the list ends behind it, or else in front of the members that follow. -/
def listed (m : Member) (more : Text → Except Problem (List Member × Text)) :
    Text → Except Problem (List Member × Text)
  | [] => .error .unclosedBracket
  | ']' :: after => .ok ([m], after)
  | rest => do
    let (ms, after) ← more rest
    pure (m :: ms, after)

/-- The list from its first element on, up to and with the closing bracket. Every round takes at least
one character, so the length of the text bounds their number. -/
def members : (rounds : Nat) → (first : Bool) → Text → Except Problem (List Member × Text)
  | 0, _, _ => .error .unclosedBracket
  | rounds + 1, first, t => do
    let (e, rest) ← element first t
    match e.startsRange, rest with
    | true, [] => throw .unclosedBracket
    | true, '-' :: [] => throw .unclosedBracket
    | true, '-' :: ']' :: after =>
      let m ← e.member
      pure ([m, .single '-'], after)
    | true, '-' :: after =>
      let (high, rest) ← element true after
      let m ← rangeMember e high
      listed m (members rounds false) rest
    | _, _ =>
      let m ← e.member
      listed m (members rounds false) rest

def parse (t : Text) : Except Problem (Atom × Text) :=
  match t with
  | [] => .error .badPattern
  | '^' :: [] => .error .badPattern
  | '^' :: r => (members r.length true r).map fun (ms, rest) => (.bracket true ms, rest)
  | r => (members r.length true r).map fun (ms, rest) => (.bracket false ms, rest)

end DriveHealth.Regex.Bracket
