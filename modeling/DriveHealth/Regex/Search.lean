import DriveHealth.Regex.Graph
import DriveHealth.Regex.Parser
/-!
Searching: the leftmost place where a pattern matches, the longest match there, and the range of every
group. Of all ways to match that stretch, the ranges come from the one that takes the preferred way at
every choice that still leads to the end.
-/

namespace DriveHealth.Regex

structure Range where
  start : Nat
  stop : Nat
  deriving DecidableEq, Repr

/-- What is reached at a place of the subject: the nodes entered there and all nodes behind them. -/
structure Reached where
  place : Place
  entered : List Nat
  nodes : List Nat

def Reached.holds (r : Reached) (a : Assertion) : Bool := a.holds r.place

namespace Graph

def reachAt (g : Graph) (place : Place) (entered : List Nat) : Reached :=
  ⟨place, entered, g.closure (·.holds place) entered⟩

/-- What is reached at every place when `entered` is entered at the first, until nothing is left. -/
def reach (g : Graph) (previous : Option Char) (entered : List Nat) : Text → List Reached
  | [] => [g.reachAt ⟨previous, none⟩ entered]
  | c :: r =>
    let here := g.reachAt ⟨previous, some c⟩ entered
    let after := here.nodes.filterMap (g.take? c)
    here :: if after.isEmpty then [] else g.reach (some c) after.eraseDups r

/-- The length of the longest match, with the places up to its end. -/
def longest (reached : List Reached) : Option (Nat × List Reached) :=
  match reached with
  | [] => none
  | here :: r =>
    match longest r with
    | some (n, path) => some (n + 1, here :: path)
    | none => if here.nodes.contains 0 then some (0, [here]) else none

/-- The first place that starts a match, the length of the longest match there, and its places. -/
def leftmost (g : Graph) (previous : Option Char) : Text → Option (Nat × Nat × List Reached)
  | [] => (longest (g.reach previous [g.start] [])).map fun (n, path) => (0, n, path)
  | c :: r =>
    match longest (g.reach previous [g.start] (c :: r)) with
    | some (n, path) => some (0, n, path)
    | none => (g.leftmost (some c) r).map fun (start, n, path) => (start + 1, n, path)

/-- Keeps the nodes from which the end of the match can be reached. At the end itself, ways through
assertions count only if there is no other. -/
def prune (g : Graph) : List Reached → List Reached
  | [] => []
  | [here] =>
    let free := { here with nodes := g.closure (fun _ => false) here.entered }
    [if free.nodes.contains 0 then keep g free (fun _ => false) (· = 0)
      else keep g here here.holds (· = 0)]
  | here :: r =>
    let after := g.prune r
    let goesOn (i : Nat) : Bool :=
      match here.place.next, after with
      | some c, a :: _ => (g.take? c i).any a.nodes.contains
      | _, _ => false
    keep g here here.holds goesOn :: after
where
  keep (g : Graph) (here : Reached) (holds : Assertion → Bool) (last : Nat → Bool) : Reached :=
    { here with nodes := here.nodes.filter fun i => (g.closure holds [i]).any last }

end Graph

/-- The range of a group while a match is traced: unset, open, or closed. -/
structure Span where
  start : Option Nat := none
  stop : Option Nat := none
  deriving DecidableEq, Repr

def Span.range? (s : Span) : Option Range :=
  s.start.bind fun start => s.stop.map fun stop => ⟨start, stop⟩

/-- The spans of the groups, and their values when a group was last closed behind its start. -/
structure Spans where
  now : Array Span
  settled : Array Span

namespace Spans

def openGroup (s : Spans) (index place : Nat) : Spans :=
  { s with now := s.now.setIfInBounds index ⟨some place, none⟩ }

/-- An empty round of an optional group leaves all groups as they were before it. -/
def closeGroup (s : Spans) (index place : Nat) (optional : Bool) : Spans :=
  if index < s.now.size then
    let span := s.now.getD index {}
    let closed := s.now.setIfInBounds index { span with stop := some place }
    if span.start.any (· < place) then ⟨closed, closed⟩
    else if optional && (s.settled.getD index {}).start.isSome then { s with now := s.settled }
    else { s with now := closed }
  else s

end Spans

namespace Graph

/-- Follows the preferred ways from node `i` at place `place` to the end of the match. A way that leads
back to a node passed at this place gives precedence to the other one. -/
def trace (g : Graph) : (steps : Nat) → (path : List Reached) → (place i : Nat) → (passed : List Nat) →
    Spans → Spans
  | 0, _, _, _, _, spans => spans
  | steps + 1, path, place, i, passed, spans =>
    let spans :=
      match g.node i with
      | .openGroup index _ => spans.openGroup index place
      | .closeGroup index optional _ => spans.closeGroup index place optional
      | _ => spans
    match path with
    | [] => spans
    | here :: after =>
      if after.isEmpty && i = 0 then spans
      else
        match g.node i, here.place.next with
        | .consume _ next, some _ => g.trace steps after (place + 1) next [] spans
        | .consume _ _, none => spans
        | _, _ =>
          let passed := i :: passed
          match (g.ways here.holds i).filter here.nodes.contains with
          | [] => spans
          | [next] => g.trace steps path place next passed spans
          | first :: second :: _ =>
            let next := if passed.contains first then second else first
            g.trace steps path place next passed spans

end Graph

namespace Pattern

def search (p : Pattern) (subject : Text) : Option Range :=
  (Graph.leftmost (Graph.ofExpr p.expr) none subject).map fun (start, n, _) => ⟨start, start + n⟩

/-- The range of the match and of the first groups, `count` ranges in all; `none` for a group that took
no part. -/
def searchGroups (p : Pattern) (subject : Text) (count : Nat) : Option (List (Option Range)) :=
  let g := Graph.ofExpr p.expr
  (g.leftmost none subject).map fun (start, n, path) =>
    let tracked := min (count - 1) p.groups
    let spans := Array.replicate tracked {}
    let steps := (n + 1) * ((g.nodes.size + 1) * (g.nodes.size + 1))
    let traced := g.trace steps (g.prune path) start g.start [] ⟨spans, spans⟩
    let groups := traced.now.toList.map Span.range?
    (some (⟨start, start + n⟩ : Range) :: groups ++ List.replicate (count - 1 - tracked) none).take count

end Pattern

end DriveHealth.Regex
