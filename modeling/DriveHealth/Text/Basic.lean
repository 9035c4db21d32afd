/-!
Text is a list of characters, and every character stands for one byte: U+0000 to U+00FF are the byte
values 0 to 255. A UTF-8 text is handled as its single bytes, so lengths, cuts and column widths count
bytes. String literals in this library are ASCII and coerce to text.
-/

namespace DriveHealth

abbrev Text := List Char

scoped instance : Coe String Text := ⟨String.toList⟩

/-- The byte that ends a text on disk: readers of text files stop at it. -/
def nul : Char := '\x00'

/-- Blank, tab, newline, vertical tab, form feed and carriage return. -/
def isBlank (c : Char) : Bool :=
  c = ' ' || ('\t'.toNat ≤ c.toNat && c.toNat ≤ '\r'.toNat)

def skipBlanks (t : Text) : Text := t.dropWhile isBlank

theorem length_skipBlanks_le (t : Text) : (skipBlanks t).length ≤ t.length :=
  (List.dropWhile_sublist isBlank).length_le

def trim (t : Text) : Text := (skipBlanks (skipBlanks t).reverse).reverse

/-- Fills up with blanks on the right; a longer text is kept whole. -/
def padRight (width : Nat) (t : Text) : Text := t ++ List.replicate (width - t.length) ' '

/-- Fills up with blanks on the left; a longer text is kept whole. -/
def padLeft (width : Nat) (t : Text) : Text := List.replicate (width - t.length) ' ' ++ t

/-- The part before the first mark, and the part behind it if there is a mark. -/
def cutAt (mark : Char) : Text → Text × Option Text
  | [] => ([], none)
  | c :: r =>
    if c = mark then ([], some r)
    else
      let (before, behind) := cutAt mark r
      (c :: before, behind)

def onlyIf (condition : Prop) [Decidable condition] (t : Text) : Text :=
  if condition then t else []

def startsWith (t start : Text) : Bool := start.isPrefixOf t

/-- The text that fits into a field of `size` bytes whose last byte is reserved for the end mark. -/
def fit (size : Nat) (t : Text) : Text := t.take (size - 1)

def charOfByte (b : UInt8) : Char := Char.ofNat b.toNat

def textOfBytes (bytes : List UInt8) : Text := bytes.map charOfByte

/-- The bytes of a text whose characters all stand for bytes. -/
def bytesOfText (t : Text) : List UInt8 := t.map fun c => c.toNat.toUInt8

end DriveHealth
