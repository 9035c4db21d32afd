import DriveHealth.Text.Basic
/-!
Text in memory. A buffer is a run of bytes, and its text ends at the first NUL. Every action writes at given
places and fails if the buffer has no such byte, so an action that succeeds has stayed within its buffer.
-/

namespace DriveHealth

abbrev Buffer := List Char

namespace Buffer

def text (b : Buffer) : Text := b.takeWhile (· ≠ nul)

def put? (b : Buffer) (i : Nat) (c : Char) : Option Buffer :=
  if i < b.length then some (b.set i c) else none

def putAll? (b : Buffer) (i : Nat) : Text → Option Buffer
  | [] => some b
  | c :: r => do
    let b ← b.put? i c
    putAll? b (i + 1) r

/-- Writes a text and its end mark into the `size` bytes from `i` on. What does not fit there is left
out; no bytes at all are left alone. -/
def print? (b : Buffer) (i size : Nat) (t : Text) : Option Buffer :=
  if size = 0 then some b else b.putAll? i (fit size t ++ [nul])

end Buffer

end DriveHealth
