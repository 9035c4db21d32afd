import DriveHealth.Text.Buffer
import DriveHealth.Text.Number
/-!
Large numbers for readers: digits in groups of three, and capacities in bytes with decimal prefixes. They
are also written into buffers of a given size, where a number that is too long is cut.
-/

namespace DriveHealth

/-- Cuts a digit string into groups of three; the first group takes the one to three digits left over. -/
def digitGroups (digits : Text) : List Text :=
  let first := (digits.length - 1) % 3 + 1
  digits.take first :: groupsOfThree (digits.drop first)
where
  groupsOfThree : Text → List Text
    | a :: b :: c :: r => [a, b, c] :: groupsOfThree r
    | [] => []
    | r => [r]

/-- Decimal digits in groups of three joined by a separator. -/
def grouped (separator : Text) (n : Nat) : Text :=
  List.flatten ((digitGroups (decimal n)).intersperse separator)

/-- The letters for the first to fifth power of a thousand bytes. -/
def capacityPrefixes : List Char := ['K', 'M', 'G', 'T', 'P']

/-- The largest power of a thousand not above `n`, at most the fifth, and zero below a thousand. -/
def capacityPower (n : Nat) : Nat :=
  if n < 1000 then 0
  else if n < 1000000 then 1
  else if n < 1000000000 then 2
  else if n < 1000000000000 then 3
  else if n < 1000000000000000 then 4
  else 5

/-- A capacity in bytes: plain below a thousand, else three digits, cut and not rounded, with a
prefix. From a thousand petabytes on the integer part grows beyond three digits. -/
def capacity (point : Text) (n : Nat) : Text :=
  let unit := Nat.pow 1000 (capacityPower n)
  let whole := n / unit
  match capacityPower n with
  | 0 => decimal n ++ " B"
  | power + 1 =>
    let suffix : Text := ' ' :: (capacityPrefixes.getD power ' ') :: "B".toList
    if 100 ≤ whole then decimal whole ++ suffix
    else if 10 ≤ whole then
      decimal whole ++ point ++ decimal (n % unit * 10 / unit) ++ suffix
    else
      decimal whole ++ point ++ decimalFill 2 (n % unit * 100 / unit) ++ suffix

/-- A unit for numbers of 64 bits: the power of a thousand and its value. -/
structure Scale where
  power : Nat := 0
  unit : UInt64 := 1
  deriving DecidableEq, Repr

namespace Scale

/-- The next unit, if it has a prefix and a number reaches it. -/
def next? (n : UInt64) (s : Scale) : Option Scale :=
  if s.power < capacityPrefixes.length then
    let unit := s.unit * 1000
    if unit ≤ n then some ⟨s.power + 1, unit⟩ else none
  else none

theorem power_of_next? {n : UInt64} {s t : Scale} (h : s.next? n = some t) :
    s.power < capacityPrefixes.length ∧ t.power = s.power + 1 := by
  rw [next?] at h
  split at h
  · rename_i below
    dsimp only at h
    split at h
    · cases h
      exact ⟨below, rfl⟩
    · cases h
  · cases h

/-- The last unit that a number reaches, from a given one on. -/
def last (n : UInt64) (s : Scale) : Scale :=
  match _ : s.next? n with
  | some t => last n t
  | none => s
termination_by capacityPrefixes.length - s.power
decreasing_by
  rename_i leads
  obtain ⟨below, next⟩ := power_of_next? leads
  omega

def ofNumber (n : UInt64) : Scale := last n {}

/-- What a number has below the unit, in parts of it. -/
def parts (n count : UInt64) (s : Scale) : UInt32 := (n % s.unit * count / s.unit).toUInt32

/-- A capacity in a unit, with three digits if possible. -/
def text (point : Text) (n : UInt64) (s : Scale) : Text :=
  let whole := n / s.unit
  let suffix : Text := ' ' :: capacityPrefixes.getD (s.power - 1) ' ' :: "B".toList
  if s.power = 0 then decimal whole.toUInt32.toNat ++ " B"
  else if 100 ≤ whole then decimal whole.toNat ++ suffix
  else if 10 ≤ whole then
    decimal whole.toNat ++ point ++ decimal (s.parts n 10).toNat ++ suffix
  else decimal whole.toNat ++ point ++ decimalFill 2 (s.parts n 100).toNat ++ suffix

end Scale

namespace Buffer

/-- Writes the digits in front of the first separator, as far as they fit. Gives the place behind them
and the digits that are left. -/
def putFirstGroup? (b : Buffer) (size i : Nat) : Text → Option (Buffer × Nat × Text)
  | [] => some (b, i, [])
  | c :: r => do
    let b ← b.put? i c
    if r ≠ [] ∧ r.length % 3 ≠ 0 ∧ i + 1 < size - 1 then putFirstGroup? b size (i + 1) r
    else some (b, i + 1, r)

/-- Writes groups of three digits, each with a separator in front. The place goes on by the whole length
of a group, written or not. -/
def putGroups? (separator : Text) (size : Nat) (b : Buffer) (i : Nat) : Text → Option Buffer
  | [] => some b
  | c :: r =>
    if i < size - 1 then do
      let group := separator ++ (c :: r).take 3
      let b ← b.print? i (size - i) group
      putGroups? separator size b (i + group.length) (r.drop 2)
    else some b
termination_by digits => digits.length
decreasing_by
  rw [List.length_drop]
  exact Nat.lt_succ_of_le (Nat.sub_le r.length 2)

/-- Writes decimal digits in groups of three into the first `size` bytes. -/
def printGrouped? (b : Buffer) (size : Nat) (separator : Text) (n : UInt64) : Option Buffer := do
  let (b, i, rest) ← b.putFirstGroup? size 0 (fit 64 (decimal n.toNat))
  let b ← b.put? i nul
  b.putGroups? separator size i rest

/-- Writes a capacity into the `size` bytes from `i` on. -/
def printCapacity? (b : Buffer) (i size : Nat) (point : Text) (n : UInt64) : Option Buffer :=
  b.print? i size ((Scale.ofNumber n).text point n)

/-- The digits of a number in front of those that stand there, as long as there is room for more. -/
def digitsBefore (written : Text) : (room n : Nat) → Text
  | 0, _ => written
  | room + 1, n =>
    let written := Nat.digitChar (n % 10) :: written
    if n / 10 = 0 then written else digitsBefore written room (n / 10)

/-- Room for the digits of any number of 128 bits. -/
def wideDigits : Nat := 40

/-- A number of 128 bits from its halves. -/
def wideNumber (high low : UInt64) : Nat := high.toNat * 0x10000000000000000 + low.toNat

/-- Writes a number of 128 bits into the `size` bytes from `i` on. -/
def printWide? (b : Buffer) (i size : Nat) (high low : UInt64) : Option Buffer :=
  b.print? i size (digitsBefore [] wideDigits (wideNumber high low))

end Buffer

end DriveHealth
