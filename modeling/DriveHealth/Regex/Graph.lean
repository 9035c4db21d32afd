import DriveHealth.Regex.Basic
/-!
An expression as a graph of nodes. Only `consume` nodes take a character; the others are passed at one
place of the subject. A `split` node prefers its first way.
-/

namespace DriveHealth.Regex

inductive Node where
  | accept
  | consume (a : Atom) (next : Nat)
  | split (first second : Nat)
  | assert (a : Assertion) (next : Nat)
  | openGroup (index next : Nat)
  | closeGroup (index : Nat) (optional : Bool) (next : Nat)
  /-- A back reference, which takes no part in matching. -/
  | stuck
  deriving DecidableEq, Repr

structure Graph where
  nodes : Array Node
  start : Nat

namespace Graph

/-- Adds the nodes of an expression that goes on at node `next`, and returns where it starts. -/
def add (nodes : Array Node) (next : Nat) : Expr → Nat × Array Node
  | .empty => (next, nodes)
  | .atom a => (nodes.size, nodes.push (.consume a next))
  | .assert a => (nodes.size, nodes.push (.assert a next))
  | .reference _ => (nodes.size, nodes.push .stuck)
  | .group index optional body =>
    let close := nodes.size
    let (first, nodes) := add (nodes.push (.closeGroup index optional next)) close body
    (nodes.size, nodes.push (.openGroup index first))
  | .cat e f =>
    let (second, nodes) := add nodes next f
    add nodes second e
  | .alt e f =>
    let (first, nodes) := add nodes next e
    let (second, nodes) := add nodes next f
    (nodes.size, nodes.push (.split first second))
  | .star body =>
    let loop := nodes.size
    let (first, nodes) := add (nodes.push (.split next next)) loop body
    (loop, nodes.setIfInBounds loop (.split first next))

/-- The graph of an expression; node 0 accepts. -/
def ofExpr (e : Expr) : Graph :=
  let (start, nodes) := add #[.accept] 0 e
  ⟨nodes, start⟩

def node (g : Graph) (i : Nat) : Node := g.nodes.getD i .stuck

/-- Where a node leads to without taking a character, in order of preference, given which assertions
hold. -/
def ways (g : Graph) (holds : Assertion → Bool) (i : Nat) : List Nat :=
  match g.node i with
  | .split first second => if first = second then [first] else [first, second]
  | .assert a next => if holds a then [next] else []
  | .openGroup _ next | .closeGroup _ _ next => [next]
  | .accept | .consume _ _ | .stuck => []

def take? (g : Graph) (c : Char) (i : Nat) : Option Nat :=
  match g.node i with
  | .consume a next => if a.accepts c then some next else none
  | _ => none

/-- All nodes that can be reached from `todo` without taking a character, added to `seen`. Every node is
expanded once and has at most two ways, which bounds the steps. -/
def close (g : Graph) (holds : Assertion → Bool) : (steps : Nat) → (todo seen : List Nat) → List Nat
  | 0, _, seen => seen
  | _ + 1, [], seen => seen
  | steps + 1, i :: todo, seen =>
    if seen.contains i then close g holds steps todo seen
    else close g holds steps (g.ways holds i ++ todo) (i :: seen)

def closure (g : Graph) (holds : Assertion → Bool) (seeds : List Nat) : List Nat :=
  g.close holds (2 * g.nodes.size + seeds.length + 1) seeds []

end Graph

end DriveHealth.Regex
