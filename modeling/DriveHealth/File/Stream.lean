import DriveHealth.File.Tree
/-!
One file at a time, opened, read in parts and closed. Opening closes what was open before. A stream
remembers that a read failed until it is closed.
-/

namespace DriveHealth

/-- What a stream may do, and what happens to the file when it is opened. -/
structure OpenMode where
  reads : Bool
  creates : Bool
  truncates : Bool
  deriving DecidableEq, Repr

/-- A letter for reading, writing or appending; a plus sign adds the other direction. -/
def OpenMode.parse? : Text → Option OpenMode
  | 'r' :: _ => some ⟨true, false, false⟩
  | 'w' :: r => some ⟨r.contains '+', true, true⟩
  | 'a' :: r => some ⟨r.contains '+', true, false⟩
  | _ => none

/-- Whether a mode writes, so that it cannot open a directory. -/
def OpenMode.writes : Text → Bool
  | 'r' :: r => r.contains '+'
  | _ => true

structure Stream where
  /-- What is left to read; nothing if every read fails. -/
  rest : Option Text
  hasFailed : Bool := false
  deriving DecidableEq, Repr

/-- The files and the stream that is open. -/
structure Desk where
  tree : FileTree := {}
  stream : Option Stream := none
  deriving DecidableEq, Repr

namespace Desk

def isOpen (d : Desk) : Bool := d.stream.isSome

/-- Opens a file in place of the one before; the answer of `isOpen` tells if it worked. -/
def openFile (d : Desk) (path mode : Text) : Desk :=
  match FileTree.path? path, OpenMode.parse? mode with
  | some p, some m =>
    match d.tree.find p with
    | .ok (.file content) =>
      let content := if m.truncates then [] else content
      { tree := if m.truncates then d.tree.write p.names [] else d.tree
        stream := some ⟨if m.reads then some content else none, false⟩ }
    | .ok .directory => { d with stream := if OpenMode.writes mode then none else some ⟨none, false⟩ }
    | .error _ =>
      if m.creates && d.tree.hasRoom p then
        { tree := d.tree.write p.names [], stream := some ⟨if m.reads then some [] else none, false⟩ }
      else { d with stream := none }
  | _, _ => { d with stream := none }

def read (d : Desk) (count : Nat) : Desk × Text :=
  match d.stream with
  | some { rest := some t, hasFailed } =>
    ({ d with stream := some ⟨some (t.drop count), hasFailed⟩ }, t.take count)
  | some { rest := none, hasFailed } =>
    ({ d with stream := some ⟨none, hasFailed || 0 < count⟩ }, [])
  | none => (d, [])

/-- Closes the stream; the answer tells whether no read had failed. -/
def close (d : Desk) : Desk × Bool :=
  ({ d with stream := none }, !d.stream.any (·.hasFailed))

end Desk

end DriveHealth
