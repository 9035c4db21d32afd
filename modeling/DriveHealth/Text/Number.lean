import DriveHealth.Text.Basic
/-!
Numbers as text: decimal and lower-case hexadecimal digits with a least width, and the signed decimal
number at the start of a text.
-/

namespace DriveHealth

def decimal (n : Nat) : Text := Nat.toDigits 10 n

def signedDecimal (i : Int) : Text :=
  if i < 0 then '-' :: decimal i.natAbs else decimal i.natAbs

def zeroFill (width : Nat) (digits : Text) : Text :=
  List.replicate (width - digits.length) '0' ++ digits

/-- Decimal digits, at least `width` of them. -/
def decimalFill (width n : Nat) : Text := zeroFill width (decimal n)

/-- Lower-case hexadecimal digits behind `0x`, at least `width` of them. -/
def hexFill (width n : Nat) : Text := "0x" ++ zeroFill width (Nat.toDigits 16 n)

/-- A run of decimal digits as a number. -/
def ofDecimal (digits : Text) : Nat := Nat.ofDigitChars 10 digits 0

/-- The number at the start of a text, behind optional blanks and an optional sign, and what follows it. -/
def scanInteger (t : Text) : Option (Int × Text) :=
  let (negative, body) :=
    match skipBlanks t with
    | '-' :: r => (true, r)
    | '+' :: r => (false, r)
    | r => (false, r)
  let digits := body.takeWhile Char.isDigit
  if digits.isEmpty then none
  else
    let n : Int := ofDecimal digits
    some (if negative then -n else n, body.dropWhile Char.isDigit)

/-- The number at the start of a text, zero if there is none. -/
def leadingInteger (t : Text) : Int := ((scanInteger t).map Prod.fst).getD 0

theorem ofDecimal_decimal (n : Nat) : ofDecimal (decimal n) = n := Nat.ofDigitChars_ten_toDigits

theorem decimal_ne_nil (n : Nat) : decimal n ≠ [] := Nat.toDigits_ne_nil

theorem isDigit_of_mem_decimal {n : Nat} {c : Char} (h : c ∈ decimal n) : c.isDigit = true :=
  Nat.isDigit_of_mem_toDigits (by decide) (by decide) h

theorem decimal_injective {m n : Nat} (h : decimal m = decimal n) : m = n := by
  rw [← ofDecimal_decimal m, h, ofDecimal_decimal]

end DriveHealth
