import DriveHealth.Proofs.Text.Number
import DriveHealth.Text.Quantity

/-! How long a capacity is and what it is made of. The unit is the largest power of a thousand that the
number reaches, up to the fifth, so that few digits are left in front of it. -/
namespace DriveHealth

theorem capacityPower_le (n : Nat) : capacityPower n ≤ 5 := by
  unfold capacityPower
  split_ifs <;> decide

/-- Before the last unit, a number is below the next one. -/
theorem lt_of_capacityPower {n : Nat} (h : capacityPower n < 5) :
    n < Nat.pow 1000 (capacityPower n + 1) := by
  unfold capacityPower at h ⊢
  split_ifs at h ⊢ with one two three four five
  · exact one
  · exact two
  · exact three
  · exact four
  · exact five
  · exact absurd h (Nat.lt_irrefl 5)

theorem unit_pos (power : Nat) : 0 < Nat.pow 1000 power := Nat.pow_pos (by decide)

theorem whole_lt {n : Nat} (h : n < 0x10000000000000000) :
    n / Nat.pow 1000 (capacityPower n) < 10 ^ 5 := by
  have most := capacityPower_le n
  rcases Nat.lt_or_eq_of_le most with power | power
  · have next := lt_of_capacityPower power
    have split : Nat.pow 1000 (capacityPower n + 1) = Nat.pow 1000 (capacityPower n) * 1000 := rfl
    rw [split] at next
    have digits : n / Nat.pow 1000 (capacityPower n) < 1000 := Nat.div_lt_of_lt_mul next
    omega
  · have last : Nat.pow 1000 (capacityPower n) = 1000000000000000 := by
      rw [power]
    rw [last]
    omega

theorem length_decimal_le_of_lt {n digits : Nat} (some_digit : 0 < digits) (h : n < 10 ^ digits) :
    (decimal n).length ≤ digits :=
  (Nat.length_toDigits_le_iff (by decide) some_digit).mpr h

/-- What is left below a unit, in parts of it. -/
theorem part_lt {n unit parts : Nat} (pos : 0 < unit) (some_parts : 0 < parts) :
    n % unit * parts / unit < parts := by
  have below := Nat.mod_lt n pos
  exact Nat.div_lt_of_lt_mul (Nat.mul_lt_mul_of_pos_right below some_parts)

theorem length_capacity_le {n : Nat} (h : n < 0x10000000000000000) :
    (capacity "." n).length ≤ 8 := by
  have whole := whole_lt h
  have pos := unit_pos (capacityPower n)
  have point : (".".toList : Text).length = 1 := rfl
  have bytes : (" B".toList : Text).length = 2 := rfl
  have suffix (p : Char) : (' ' :: p :: ("B".toList : Text)).length = 3 := rfl
  rw [capacity]
  dsimp only
  split
  · rename_i power
    have small := lt_of_capacityPower (n := n) (by rw [power]; decide)
    rw [power] at small
    have digits : (decimal n).length ≤ 3 := length_decimal_le_of_lt (by decide) small
    rw [List.length_append, bytes]
    omega
  · split_ifs with three two
    · have digits := length_decimal_le_of_lt (by decide) whole
      rw [List.length_append, suffix]
      omega
    · have digits : (decimal (n / Nat.pow 1000 (capacityPower n))).length ≤ 2 :=
        length_decimal_le_of_lt (by decide) (by omega)
      have tenths : (decimal (n % Nat.pow 1000 (capacityPower n) * 10 /
          Nat.pow 1000 (capacityPower n))).length ≤ 1 :=
        length_decimal_le_of_lt (by decide) (part_lt pos (by decide))
      rw [List.length_append, List.length_append, List.length_append, suffix, point]
      omega
    · have digits : (decimal (n / Nat.pow 1000 (capacityPower n))).length ≤ 1 :=
        length_decimal_le_of_lt (by decide) (by omega)
      have hundredths : (decimalFill 2 (n % Nat.pow 1000 (capacityPower n) * 100 /
          Nat.pow 1000 (capacityPower n))).length = 2 :=
        length_decimalFill (by decide) (part_lt pos (by decide))
      rw [List.length_append, List.length_append, List.length_append, suffix, point, hundredths]
      omega

def capacityLetters : Text := " BKMGTP"

theorem mem_suffix {c : Char} {power : Nat}
    (h : c ∈ ' ' :: capacityPrefixes.getD power ' ' :: ("B".toList : Text)) : c ∈ capacityLetters := by
  have letter : capacityPrefixes.getD power ' ' ∈ capacityLetters := by
    match power with
    | 0 | 1 | 2 | 3 | 4 => decide
    | power + 5 => exact List.mem_cons_self
  rcases List.mem_cons.mp h with rfl | h
  · decide
  rcases List.mem_cons.mp h with rfl | h
  · exact letter
  · rw [List.mem_singleton.mp h]
    decide

/-- The mantissa with decimals behind the point, and the unit. -/
theorem mem_mantissa {c : Char} {point decimals letters : Text} {whole : Nat}
    (digits : ∀ d ∈ decimals, d.isDigit = true) (h : c ∈ decimal whole ++ point ++ decimals ++ letters) :
    c.isDigit = true ∨ c ∈ point ∨ c ∈ letters := by
  rcases List.mem_append.mp h with h | letter
  · rcases List.mem_append.mp h with h | digit
    · rcases List.mem_append.mp h with digit | mark
      · exact .inl (isDigit_of_mem_decimal digit)
      · exact .inr (.inl mark)
    · exact .inl (digits c digit)
  · exact .inr (.inr letter)

theorem mem_capacity {c : Char} {point : Text} {n : Nat} (h : c ∈ capacity point n) :
    c.isDigit = true ∨ c ∈ point ∨ c ∈ capacityLetters := by
  have letters (h : c ∈ (" B".toList : Text)) : c ∈ capacityLetters := by
    rcases List.mem_cons.mp h with rfl | h
    · decide
    · rw [List.mem_singleton.mp h]
      decide
  rw [capacity] at h
  dsimp only at h
  split at h
  · rcases List.mem_append.mp h with digit | letter
    · exact .inl (isDigit_of_mem_decimal digit)
    · exact .inr (.inr (letters letter))
  · split_ifs at h
    · rcases List.mem_append.mp h with digit | letter
      · exact .inl (isDigit_of_mem_decimal digit)
      · exact .inr (.inr (mem_suffix letter))
    · exact (mem_mantissa (fun _ => isDigit_of_mem_decimal) h).imp_right (.imp_right mem_suffix)
    · exact (mem_mantissa (fun _ => isDigit_of_mem_decimalFill) h).imp_right (.imp_right mem_suffix)

theorem nul_not_mem_capacity {point : Text} (plain : nul ∉ point) (n : Nat) : nul ∉ capacity point n := by
  intro hc
  rcases mem_capacity hc with digit | mark | letter
  · exact absurd digit (by decide)
  · exact plain mark
  · exact absurd letter (by decide)

end DriveHealth
