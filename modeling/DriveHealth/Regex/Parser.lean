import DriveHealth.Regex.Bracket
import DriveHealth.Regex.Token
/-!
Patterns to expressions, symbol by symbol with the open groups on a stack. The first problem from the
left is the one reported. A `)` without an open group is an ordinary character here.
-/

namespace DriveHealth.Regex

/-- The alternation that is being read: its finished branches, the current branch, and the last item of
the current branch if a repetition may follow it. -/
structure Frame where
  branches : Option Expr := none
  branch : Expr := .empty
  last : Option Expr := none
  /-- The groups closed before this alternation, to which every branch may refer. -/
  before : List Nat := []
  /-- The groups closed in the finished branches. -/
  closed : List Nat := []

namespace Frame

def flush (f : Frame) : Expr := f.branch.andThen (f.last.getD .empty)

def finish (f : Frame) : Expr :=
  match f.branches with
  | none => f.flush
  | some e => e.orElse f.flush

def push (f : Frame) (item : Expr) : Frame := { f with branch := f.flush, last := some item }

/-- An assertion, behind which no repetition is possible. -/
def pushAssertion (f : Frame) (item : Expr) : Frame :=
  { f with branch := f.flush.andThen item, last := none }

end Frame

/-- What has been read: the current frame, the frames around it with the index of the group that each
was left for, the number of groups opened and the groups closed so far. -/
structure Parse where
  frame : Frame := {}
  outer : List (Frame × Nat) := []
  groups : Nat := 0
  closed : List Nat := []

def maxCount : Nat := 32767

/-- A number in an interval ends before `,` or `}`; `bad` is set by anything that is no digit, and a
number too large to be allowed keeps the first value that is. -/
structure Count where
  value : Option Nat
  bad : Bool
  stop : Token
  rest : Text

/-- Every step takes a symbol, so the length of the text bounds the number of steps. -/
def Count.read : (steps : Nat) → (value : Option Nat) → (bad : Bool) → Text → Count
  | 0, value, bad, t => ⟨value, bad, .done, t⟩
  | steps + 1, value, bad, t =>
    match Token.next t with
    | (.done, rest) => ⟨value, true, .done, rest⟩
    | (.closeInterval, rest) => ⟨value, bad, .closeInterval, rest⟩
    | (.char ',', rest) => ⟨value, bad, .char ',', rest⟩
    | (.char c, rest) =>
      if c.isDigit then
        let n := value.getD 0 * 10 + (c.toNat - '0'.toNat)
        read steps (some (min n (maxCount + 1))) bad rest
      else read steps value true rest
    | (_, rest) => read steps value true rest

/-- Reads an interval from behind its opening brace. `{,n}` starts from zero. -/
def readInterval (t : Text) : Except Problem (Nat × Option Nat × Text) := do
  let low := Count.read (t.length + 1) none false t
  if low.stop = .done then throw .unclosedInterval
  if low.bad then throw .badInterval
  let (first, high, stop, rest) ←
    match low.stop, low.value with
    | .closeInterval, some n => pure (n, some n, low.stop, low.rest)
    | .closeInterval, none => throw .badInterval
    | _, value =>
      let high := Count.read (low.rest.length + 1) none false low.rest
      if high.stop = .done then throw .unclosedInterval
      else if high.bad then throw .badInterval
      else pure (value.getD 0, high.value, high.stop, high.rest)
  if stop ≠ .closeInterval then throw .badInterval
  if high.any (· < first) then throw .badInterval
  if maxCount < high.getD first then throw .tooBig
  pure (first, high, rest)

namespace Parse

def push (p : Parse) (item : Expr) : Parse := { p with frame := p.frame.push item }

def repeatLast (p : Parse) (low : Nat) (high : Option Nat) : Except Problem Parse :=
  match p.frame.last with
  | none => .error .badRepetition
  | some e => .ok { p with frame := { p.frame with last := some (e.repeated low high) } }

def openGroup (p : Parse) : Parse :=
  { frame := { before := p.closed }, outer := (p.frame, p.groups) :: p.outer,
    groups := p.groups + 1, closed := p.closed }

/-- A branch may refer to groups before the alternation and in itself, not in its neighbours. -/
def nextBranch (p : Parse) : Parse :=
  { p with
    frame :=
      { branches := some p.frame.finish, before := p.frame.before,
        closed := p.frame.closed ++ p.closed }
    closed := p.frame.before }

def closeGroup (p : Parse) : Parse :=
  match p.outer with
  | [] => p.push (.atom (.char ')'))
  | (frame, index) :: outer =>
    { frame := frame.push (.group index false p.frame.finish), outer, groups := p.groups,
      closed := index :: (p.frame.closed ++ p.closed) }

/-- Takes one symbol, together with the interval or bracket expression that it opens. -/
def step (p : Parse) (token : Token) (rest : Text) : Except Problem (Parse × Text) :=
  match token with
  | .done => .ok (p, rest)
  | .trailingBackslash => .error .trailingBackslash
  | .char c => .ok (p.push (.atom (.char c)), rest)
  | .closeInterval => .ok (p.push (.atom (.char '}')), rest)
  | .any => .ok (p.push (.atom .any), rest)
  | .set a => .ok (p.push (.atom a), rest)
  | .openBracket => (Bracket.parse rest).map fun (a, rest) => (p.push (.atom a), rest)
  | .star => (p.repeatLast 0 none).map (·, rest)
  | .plus => (p.repeatLast 1 none).map (·, rest)
  | .question => (p.repeatLast 0 (some 1)).map (·, rest)
  | .openInterval => do
    if p.frame.last.isNone then throw .badRepetition
    let (low, high, rest) ← readInterval rest
    let p ← p.repeatLast low high
    pure (p, rest)
  | .openGroup => .ok (p.openGroup, rest)
  | .closeGroup => .ok (p.closeGroup, rest)
  | .bar => .ok (p.nextBranch, rest)
  | .assert a => .ok ({ p with frame := p.frame.pushAssertion (.assert a) }, rest)
  | .wordEdge inverted =>
    let (a, b) : Assertion × Assertion :=
      if inverted then (.insideWord, .outsideWord) else (.wordStart, .wordEnd)
    .ok ({ p with frame := p.frame.pushAssertion (.alt (.assert a) (.assert b)) }, rest)
  | .reference group =>
    if p.closed.contains group then .ok (p.push (.reference group), rest) else .error .badReference

/-- Reads to the end of the pattern. Every step takes at least one character, so the length of the
pattern bounds their number. -/
def run : (steps : Nat) → Parse → Text → Except Problem Parse
  | 0, p, _ => .ok p
  | _ + 1, p, [] => .ok p
  | steps + 1, p, t => do
    let (token, rest) := Token.next t
    let (p, rest) ← p.step token rest
    run steps p rest

end Parse

structure Pattern where
  expr : Expr
  groups : Nat
  deriving DecidableEq, Repr

/-- The expression that a pattern stands for, or the first problem with it. -/
def Pattern.parse (source : Text) : Except Problem Pattern := do
  let p ← Parse.run source.length {} source
  if p.outer.isEmpty then pure ⟨p.frame.finish, p.groups⟩ else throw .unclosedGroup

end DriveHealth.Regex
