import DriveHealth.File.Basic
/-!
A file system in memory: files with paths relative to one directory. The directories on the way to a
file exist, and others do not.
-/

namespace DriveHealth

structure FileTree where
  /-- Files by the names on their way. -/
  files : List (List Text × Text) := []
  deriving DecidableEq, Repr

namespace FileTree

def names : Text → List Text
  | [] => [[]]
  | c :: r =>
    if c = '/' then [] :: names r
    else
      match names r with
      | [] => [[c]]
      | first :: rest => (c :: first) :: rest

/-- A name that does not lead anywhere. -/
def isIdle (name : Text) : Bool := name = [] || name = ['.']

/-- A path as the names on its way, and whether it must name a directory. -/
structure Path where
  names : List Text
  isDirectory : Bool
  deriving DecidableEq, Repr

/-- A path inside of the tree. -/
def path? (t : Text) : Option Path :=
  if t.isEmpty || t.head? = some '/' then none
  else
    let all := names t
    some ⟨all.filter (!isIdle ·), all.getLast?.any isIdle⟩

def ofList (files : List (Text × Text)) : FileTree :=
  ⟨files.map fun (path, content) => ((names path).filter (!isIdle ·), content)⟩

def maxName : Nat := 255

def isBelow (tree : FileTree) (way : List Text) : Bool :=
  tree.files.any fun (file, _) => way.isPrefixOf file

def find (tree : FileTree) (p : Path) : Except OpenError Node :=
  match tree.files.lookup p.names with
  | some content => if p.isDirectory then .error .notDirectory else .ok (.file content)
  | none =>
    if p.names.isEmpty || tree.isBelow p.names then .ok .directory
    else if tree.files.any fun (file, _) => file.isPrefixOf p.names then .error .notDirectory
    else if p.names.any (maxName < ·.length) then .error .nameTooLong
    else .error .missing

/-- Every path outside of the tree is missing. -/
def fileSystem (tree : FileTree) : FileSystem := fun path =>
  match path? path with
  | some p => tree.find p
  | none => .error .missing

def write (tree : FileTree) (way : List Text) (content : Text) : FileTree :=
  ⟨(way, content) :: tree.files.filter (·.1 ≠ way)⟩

def hasRoom (tree : FileTree) (p : Path) : Bool :=
  match tree.find p with
  | .error .missing => !p.isDirectory && (p.names.length ≤ 1 || tree.isBelow p.names.dropLast)
  | _ => false

end FileTree

end DriveHealth
