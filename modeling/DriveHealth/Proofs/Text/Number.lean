import DriveHealth.Text.Number
import Mathlib.Algebra.Group.Nat.Defs
import Mathlib.Data.List.Basic
import Mathlib.Data.List.TakeWhile

/-! Numbers read back from their text. Whatever the base and the fill are, the digits tell the number,
and a number below a power of the base fits into its columns. -/
namespace DriveHealth

theorem exists_digit_of_mem_toDigits {c : Char} {base : Nat} (hb : 1 < base) {n : Nat}
    (h : c ∈ Nat.toDigits base n) : ∃ d < base, d.digitChar = c := by
  induction n using Nat.strongRecOn with
  | ind n ih =>
    rw [Nat.toDigits_eq_if hb] at h
    split at h
    · rename_i small
      exact ⟨n, small, (List.mem_singleton.mp h).symm⟩
    · rename_i large
      rcases List.mem_append.mp h with high | last
      · exact ih (n / base) (Nat.div_lt_self (by omega) hb) high
      · exact ⟨n % base, Nat.mod_lt n (by omega), (List.mem_singleton.mp last).symm⟩

theorem not_mem_toDigits {c : Char} (hc : ∀ d, Nat.digitChar d ≠ c) {base : Nat} (hb : 1 < base)
    (n : Nat) : c ∉ Nat.toDigits base n := by
  intro h
  obtain ⟨d, -, digit⟩ := exists_digit_of_mem_toDigits hb h
  exact hc d digit

/-! ### Hexadecimal digits -/

def hexValue (c : Char) : Nat :=
  if c.isDigit then c.toNat - '0'.toNat else c.toNat - 'a'.toNat + 10

/-- A run of lower-case hexadecimal digits as a number. -/
def ofHex (digits : Text) : Nat := digits.foldl (fun n c => 16 * n + hexValue c) 0

theorem hexValue_digitChar : ∀ d < 16, hexValue d.digitChar = d := by decide

theorem ofHex_concat (digits : Text) (c : Char) :
    ofHex (digits ++ [c]) = 16 * ofHex digits + hexValue c := by
  rw [ofHex, List.foldl_concat, ofHex]

theorem ofHex_toDigits (n : Nat) : ofHex (Nat.toDigits 16 n) = n := by
  induction n using Nat.strongRecOn with
  | ind n ih =>
    by_cases small : n < 16
    · simp [Nat.toDigits_of_lt_base small, ofHex, hexValue_digitChar n small]
    · have last : n % 16 < 16 := Nat.mod_lt n (by decide)
      rw [Nat.toDigits_of_base_le (by decide) (Nat.not_lt.mp small), ofHex_concat,
        ih (n / 16) (by omega), hexValue_digitChar _ last]
      omega

/-! ### Filled numbers -/

theorem zeroFill_eq_cons (width : Nat) (digits : Text) :
    zeroFill (width + 1) digits = '0' :: zeroFill width digits ∨
      zeroFill (width + 1) digits = zeroFill width digits := by
  rw [zeroFill, zeroFill]
  by_cases h : digits.length ≤ width
  · left
    rw [Nat.succ_sub h, List.replicate_succ, List.cons_append]
  · right
    rw [show width + 1 - digits.length = 0 by omega, show width - digits.length = 0 by omega]

theorem ofHex_zeroFill (width : Nat) (digits : Text) : ofHex (zeroFill width digits) = ofHex digits := by
  induction width with
  | zero => rw [zeroFill, Nat.zero_sub, List.replicate_zero, List.nil_append]
  | succ width ih =>
    rcases zeroFill_eq_cons width digits with h | h
    · rw [h, ← ih]
      rfl
    · rw [h, ih]

theorem ofDecimal_zeroFill (width : Nat) (digits : Text) :
    ofDecimal (zeroFill width digits) = ofDecimal digits := by
  rw [ofDecimal, zeroFill, Nat.ofDigitChars_append, Nat.ofDigitChars_replicate_zero, Nat.mul_zero,
    ofDecimal]

theorem ofDecimal_decimalFill (width n : Nat) : ofDecimal (decimalFill width n) = n := by
  rw [decimalFill, ofDecimal_zeroFill, ofDecimal_decimal]

theorem decimalFill_ne_nil (width n : Nat) : decimalFill width n ≠ [] := fun h =>
  decimal_ne_nil n (List.append_eq_nil_iff.mp h).2

theorem isDigit_of_mem_decimalFill {c : Char} {width n : Nat} (h : c ∈ decimalFill width n) :
    c.isDigit = true := by
  rcases List.mem_append.mp h with zero | digit
  · rw [List.eq_of_mem_replicate zero]
    rfl
  · exact isDigit_of_mem_decimal digit

/-- The digits of hexadecimal numbers, filled up or not, are lower-case. -/
theorem mem_hexDigits {c : Char} {width n : Nat} (h : c ∈ zeroFill width (Nat.toDigits 16 n)) :
    c ∈ ("0123456789abcdef" : Text) := by
  rcases List.mem_append.mp h with zero | digit
  · rw [List.eq_of_mem_replicate zero]
    decide
  · obtain ⟨d, small, rfl⟩ := exists_digit_of_mem_toDigits (by decide) digit
    have lower : ∀ d < 16, d.digitChar ∈ ("0123456789abcdef" : Text) := by decide
    exact lower d small

theorem not_mem_zeroFill {c : Char} {digits : Text} (hc : c ≠ '0') (h : c ∉ digits) (width : Nat) :
    c ∉ zeroFill width digits := by
  rw [zeroFill, List.mem_append, not_or]
  exact ⟨fun zero => hc (List.eq_of_mem_replicate zero), h⟩

theorem ofHex_drop_hexFill (width n : Nat) : ofHex ((hexFill width n).drop 2) = n := by
  have digits : (hexFill width n).drop 2 = zeroFill width (Nat.toDigits 16 n) := rfl
  rw [digits, ofHex_zeroFill, ofHex_toDigits]

theorem hexFill_injective {width m n : Nat} (h : hexFill width m = hexFill width n) : m = n := by
  rw [← ofHex_drop_hexFill width m, h, ofHex_drop_hexFill]

theorem length_zeroFill_of_le {width : Nat} {digits : Text} (h : digits.length ≤ width) :
    (zeroFill width digits).length = width := by
  rw [zeroFill, List.length_append, List.length_replicate, Nat.sub_add_cancel h]

theorem length_decimalFill {width n : Nat} (hw : 0 < width) (h : n < 10 ^ width) :
    (decimalFill width n).length = width :=
  length_zeroFill_of_le ((Nat.length_toDigits_le_iff (by decide) hw).mpr h)

theorem length_hexFill {width n : Nat} (hw : 0 < width) (h : n < 16 ^ width) :
    (hexFill width n).length = width + 2 := by
  have digits : (zeroFill width (Nat.toDigits 16 n)).length = width :=
    length_zeroFill_of_le ((Nat.length_toDigits_le_iff (by decide) hw).mpr h)
  rw [hexFill, List.length_append, digits, Nat.add_comm]
  rfl

/-! ### Signed numbers -/

theorem not_mem_decimal {c : Char} (h : c.isDigit = false) (n : Nat) : c ∉ decimal n := by
  intro hc
  rw [isDigit_of_mem_decimal hc] at h
  cases h

theorem not_mem_signedDecimal {c : Char} (h : c.isDigit = false) (minus : c ≠ '-') (i : Int) :
    c ∉ signedDecimal i := by
  rw [signedDecimal]
  split
  · exact fun hc => (List.mem_cons.mp hc).elim minus (not_mem_decimal h _)
  · exact not_mem_decimal h _

theorem signedDecimal_injective {i j : Int} (h : signedDecimal i = signedDecimal j) : i = j := by
  have minus (m n : Nat) : '-' :: decimal m ≠ decimal n := by
    intro hm
    have digit := isDigit_of_mem_decimal (n := n) (hm ▸ List.mem_cons_self)
    exact absurd digit (by decide)
  rw [signedDecimal, signedDecimal] at h
  split at h
  · split at h
    · have same := decimal_injective (List.tail_eq_of_cons_eq h)
      omega
    · exact absurd h (minus _ _)
  · split at h
    · exact absurd h.symm (minus _ _)
    · have same := decimal_injective h
      omega

/-! ### Numbers at the start of a text -/

theorem not_isBlank_of_isDigit {c : Char} (h : c.isDigit = true) : isBlank c = false := by
  have low : 48 ≤ c.toNat := by
    simp only [Char.isDigit, Bool.and_eq_true, decide_eq_true_eq] at h
    exact h.1
  have blank : c ≠ ' ' := by
    rintro rfl
    exact absurd h (by decide)
  simp [isBlank, blank]
  omega

/-- One decimal digit or more. -/
def IsDigits (t : Text) : Prop := t ≠ [] ∧ ∀ c ∈ t, c.isDigit = true

def IsBlanks (t : Text) : Prop := ∀ c ∈ t, isBlank c = true

/-- How a whole number can be written: blanks, perhaps a sign, and digits. -/
inductive Numeral : Text → Int → Prop where
  | unsigned {blanks digits} : IsBlanks blanks → IsDigits digits →
      Numeral (blanks ++ digits) (ofDecimal digits)
  | plus {blanks digits} : IsBlanks blanks → IsDigits digits →
      Numeral (blanks ++ '+' :: digits) (ofDecimal digits)
  | minus {blanks digits} : IsBlanks blanks → IsDigits digits →
      Numeral (blanks ++ '-' :: digits) (-(ofDecimal digits : Int))

/-- The number behind blanks and a sign. -/
def unsignedStart (negative : Bool) (body : Text) : Option (Int × Text) :=
  if (body.takeWhile Char.isDigit).isEmpty then none
  else
    some (if negative then -(ofDecimal (body.takeWhile Char.isDigit) : Int)
      else ofDecimal (body.takeWhile Char.isDigit), body.dropWhile Char.isDigit)

theorem scanInteger_minus {t r : Text} (h : skipBlanks t = '-' :: r) :
    scanInteger t = unsignedStart true r := by
  rw [scanInteger, h]
  rfl

theorem scanInteger_plus {t r : Text} (h : skipBlanks t = '+' :: r) :
    scanInteger t = unsignedStart false r := by
  rw [scanInteger, h]
  rfl

theorem scanInteger_unsigned {t : Text} (minus : ∀ r, skipBlanks t ≠ '-' :: r)
    (plus : ∀ r, skipBlanks t ≠ '+' :: r) :
    scanInteger t = unsignedStart false (skipBlanks t) := by
  rw [scanInteger]
  split
  rename_i negative body sign
  split at sign
  · rename_i r h
    exact absurd h (minus r)
  · rename_i r h
    exact absurd h (plus r)
  · cases sign
    rfl

theorem unsignedStart_digits {digits : Text} (h : IsDigits digits) {c : Char}
    (hc : c.isDigit = false) (negative : Bool) (r : Text) :
    unsignedStart negative (digits ++ c :: r) =
      some (if negative then -(ofDecimal digits : Int) else ofDecimal digits, c :: r) := by
  obtain ⟨ne, all⟩ := h
  have taken : (digits ++ c :: r).takeWhile Char.isDigit = digits := by
    rw [List.takeWhile_append_of_pos all, List.takeWhile_cons_of_neg (by simp [hc]), List.append_nil]
  have behind : (digits ++ c :: r).dropWhile Char.isDigit = c :: r := by
    rw [List.dropWhile_append_of_pos all, List.dropWhile_cons_of_neg (by simp [hc])]
  rw [unsignedStart, taken, behind, if_neg (by simpa using ne)]

theorem digits_of_unsignedStart {negative : Bool} {body r : Text} {i : Int}
    (h : unsignedStart negative body = some (i, r)) :
    ∃ digits, IsDigits digits ∧ body = digits ++ r ∧
      i = if negative then -(ofDecimal digits : Int) else ofDecimal digits := by
  rw [unsignedStart] at h
  split at h
  · cases h
  · rename_i some_digits
    cases h
    refine ⟨body.takeWhile Char.isDigit, ⟨?_, ?_⟩, ?_, rfl⟩
    · intro none_taken
      exact some_digits (by simp [none_taken])
    · intro c hc
      exact List.mem_takeWhile_imp hc
    · exact List.takeWhile_append_dropWhile.symm

theorem skipBlanks_append {blanks : Text} (h : IsBlanks blanks) {c : Char}
    (hc : isBlank c = false) (r : Text) : skipBlanks (blanks ++ c :: r) = c :: r := by
  rw [skipBlanks, List.dropWhile_append_of_pos h, List.dropWhile_cons_of_neg (by simp [hc])]

/-- A numeral is read up to the first character that is no digit. -/
theorem Numeral.scanInteger {s : Text} {i : Int} (h : Numeral s i) {c : Char}
    (hc : c.isDigit = false) (r : Text) :
    DriveHealth.scanInteger (s ++ c :: r) = some (i, c :: r) := by
  cases h with
  | @unsigned blanks digits hb hd =>
    obtain ⟨d, ds, rfl⟩ := List.exists_cons_of_ne_nil hd.1
    have digit : d.isDigit = true := hd.2 d List.mem_cons_self
    have start : skipBlanks (blanks ++ d :: ds ++ c :: r) = d :: ds ++ c :: r := by
      rw [List.append_assoc]
      exact skipBlanks_append hb (not_isBlank_of_isDigit digit) _
    rw [scanInteger_unsigned, start]
    · exact unsignedStart_digits hd hc false r
    · intro u hu
      rw [start] at hu
      cases hu
      cases digit
    · intro u hu
      rw [start] at hu
      cases hu
      cases digit
  | @plus blanks digits hb hd =>
    have start : skipBlanks (blanks ++ '+' :: digits ++ c :: r) = '+' :: (digits ++ c :: r) := by
      rw [List.append_assoc]
      exact skipBlanks_append hb rfl _
    rw [scanInteger_plus start]
    exact unsignedStart_digits hd hc false r
  | @minus blanks digits hb hd =>
    have start : skipBlanks (blanks ++ '-' :: digits ++ c :: r) = '-' :: (digits ++ c :: r) := by
      rw [List.append_assoc]
      exact skipBlanks_append hb rfl _
    rw [scanInteger_minus start]
    exact unsignedStart_digits hd hc true r

/-- Whatever is read as a number is a numeral. -/
theorem numeral_of_scanInteger {t r : Text} {i : Int} (h : scanInteger t = some (i, r)) :
    ∃ s, t = s ++ r ∧ Numeral s i := by
  have split : t.takeWhile isBlank ++ skipBlanks t = t := List.takeWhile_append_dropWhile
  have blanks : IsBlanks (t.takeWhile isBlank) := fun c hc => List.mem_takeWhile_imp hc
  by_cases minus : ∃ u, skipBlanks t = '-' :: u
  · obtain ⟨u, hu⟩ := minus
    rw [scanInteger_minus hu] at h
    obtain ⟨digits, hd, rfl, rfl⟩ := digits_of_unsignedStart h
    refine ⟨_, ?_, .minus blanks hd⟩
    rw [List.append_assoc, List.cons_append, ← hu, split]
  · by_cases plus : ∃ u, skipBlanks t = '+' :: u
    · obtain ⟨u, hu⟩ := plus
      rw [scanInteger_plus hu] at h
      obtain ⟨digits, hd, rfl, rfl⟩ := digits_of_unsignedStart h
      refine ⟨_, ?_, .plus blanks hd⟩
      rw [List.append_assoc, List.cons_append, ← hu, split]
    · rw [scanInteger_unsigned (not_exists.mp minus) (not_exists.mp plus)] at h
      obtain ⟨digits, hd, body, rfl⟩ := digits_of_unsignedStart h
      refine ⟨_, ?_, .unsigned blanks hd⟩
      rw [List.append_assoc, ← body, split]

theorem numeral_decimal (n : Nat) : Numeral (decimal n) n := by
  have digits : IsDigits (decimal n) := ⟨decimal_ne_nil n, fun _ => isDigit_of_mem_decimal⟩
  have written : Numeral ([] ++ decimal n) (ofDecimal (decimal n)) :=
    .unsigned (by intro c hc; cases hc) digits
  rwa [List.nil_append, ofDecimal_decimal] at written

/-- A number is read up to the first character that is no digit. -/
theorem scanInteger_decimal (n : Nat) {c : Char} (hc : c.isDigit = false) (r : Text) :
    scanInteger (decimal n ++ c :: r) = some ((n : Int), c :: r) :=
  (numeral_decimal n).scanInteger hc r

end DriveHealth
