import DriveHealth.Nvme.Report
import DriveHealth.Proofs.Bytes
import DriveHealth.Proofs.Text.Grouping
import DriveHealth.Proofs.Text.Scale

/-! Counters in a field of 64 bytes. Digits, separators and capacity always fit, and the number whose
capacity is shown is the true product, because the guard in front keeps the product below 64 bits. -/
namespace DriveHealth

namespace Buffer

/-- With enough room the digits are those of the number. -/
theorem digitsBefore_eq {room : Nat} (some_room : 0 < room) (written : Text) {n : Nat}
    (fits : n < 10 ^ room) : digitsBefore written room n = decimal n ++ written := by
  induction room generalizing n written with
  | zero => exact absurd some_room (Nat.lt_irrefl 0)
  | succ room ih =>
    rw [digitsBefore]
    by_cases last : n / 10 = 0
    · have small : n < 10 := by omega
      rw [if_pos last, Nat.mod_eq_of_lt small, decimal, Nat.toDigits_of_lt_base small]
      rfl
    · have more : 10 ≤ n := by omega
      have rest : n / 10 < 10 ^ room := Nat.div_lt_of_lt_mul (by rwa [← Nat.pow_succ'])
      have room_left : 0 < room := by
        by_contra none_left
        rw [Nat.eq_zero_of_not_pos none_left, Nat.pow_zero] at rest
        omega
      have digits : decimal n = decimal (n / 10) ++ [Nat.digitChar (n % 10)] :=
        Nat.toDigits_of_base_le (by decide) more
      rw [if_neg last, ih room_left _ rest, digits, List.append_cons]

theorem wideNumber_lt (high low : UInt64) : wideNumber high low < 10 ^ wideDigits := by
  have upper := high.toNat_lt
  have lower := low.toNat_lt
  rw [wideNumber, wideDigits]
  omega

theorem length_grouped_le (n : UInt64) : (grouped "," n.toNat).length ≤ 26 := by
  obtain ⟨separators, few, length⟩ := exists_length_grouped "," n.toNat
  have short := length_decimal_le n
  have comma : (",".toList : Text).length = 1 := rfl
  rw [length, comma]
  omega

theorem nul_not_mem_grouped (n : Nat) : nul ∉ grouped "," n := by
  intro hc
  rcases mem_grouped hc with digit | comma
  · exact absurd digit (by decide)
  · exact absurd comma (by decide)

end Buffer

namespace NvmeLog

open Buffer

/-- The counters whose capacity is shown. -/
def HasCapacity (bytesPerUnit n : Nat) : Prop :=
  n ≠ 0 ∧ bytesPerUnit ≠ 0 ∧ n < 0xffffffffffffffff / bytesPerUnit

instance (bytesPerUnit n : Nat) : Decidable (HasCapacity bytesPerUnit n) :=
  inferInstanceAs (Decidable (_ ∧ _))

/-- What the guard is for. -/
theorem HasCapacity.product_lt {bytesPerUnit n : Nat} (h : HasCapacity bytesPerUnit n) :
    n * bytesPerUnit < 0x10000000000000000 := by
  obtain ⟨-, unit, guarded⟩ := h
  have pos : 0 < bytesPerUnit := Nat.pos_of_ne_zero unit
  have product : n * bytesPerUnit ≤ 0xffffffffffffffff :=
    (Nat.le_div_iff_mul_le pos).mp (Nat.le_of_lt guarded)
  omega

theorem hasCapacity_iff (bytesPerUnit : UInt32) (n : UInt64) :
    HasCapacity bytesPerUnit.toNat n.toNat ↔
      n ≠ 0 ∧ bytesPerUnit ≠ 0 ∧ n < 0xffffffffffffffff / bytesPerUnit.toUInt64 := by
  have limit : (0xffffffffffffffff : UInt64).toNat = 0xffffffffffffffff := rfl
  have guard : n < 0xffffffffffffffff / bytesPerUnit.toUInt64 ↔
      n.toNat < 0xffffffffffffffff / bytesPerUnit.toNat := by
    rw [UInt64.lt_iff_toNat_lt, UInt64.toNat_div, UInt32.toNat_toUInt64, limit]
  have counted : n ≠ 0 ↔ n.toNat ≠ 0 := by
    rw [ne_eq, ne_eq, ← UInt64.toNat_inj]
    rfl
  have unit : bytesPerUnit ≠ 0 ↔ bytesPerUnit.toNat ≠ 0 := by
    rw [ne_eq, ne_eq, ← UInt32.toNat_inj]
    rfl
  rw [guard, counted, unit]
  rfl

/-- The product in 64 bits is the true one. -/
theorem toNat_product {bytesPerUnit : UInt32} {n : UInt64}
    (h : HasCapacity bytesPerUnit.toNat n.toNat) :
    (n * bytesPerUnit.toUInt64).toNat = n.toNat * bytesPerUnit.toNat := by
  rw [UInt64.toNat_mul, UInt32.toNat_toUInt64]
  exact Nat.mod_eq_of_lt h.product_lt

variable {field : Buffer} {digits : Text}

/-- Digits that leave room for it are followed by the whole capacity. -/
theorem holds_appendCapacity (plain : nul ∉ digits) (short : digits.length ≤ 26)
    (h : field.Holds counterFieldSize [] (digits ++ [nul])) (n : UInt64) :
    ∃ written, appendCapacity? field n = some written ∧
      written.Holds counterFieldSize []
        (digits ++ (" [" ++ capacity "." n.toNat ++ "]") ++ [nul]) := by
  have opening : (" [".toList : Text).length = 2 := rfl
  have closing : ("]".toList ++ [nul] : Text).length = 2 := rfl
  have field_size : counterFieldSize = 64 := rfl
  have narrow := length_capacity_le n.toNat_lt
  have front : (digits ++ (" [".toList : Text)).length = digits.length + 2 := List.length_append
  obtain ⟨opened, put, h₁⟩ := h.start.putAll (t := " [") (by omega)
  obtain ⟨inside, printed, h₂⟩ :=
    h₁.print (n := counterFieldSize - (digits.length + 2) - 1) (by omega) (by omega)
      (capacity "." n.toNat)
  rw [fit_of_lt (by omega)] at h₂
  rw [front] at printed
  have shown : inside.text = digits ++ " [" ++ capacity "." n.toNat := by
    refine h₂.text_eq ?_
    rw [List.mem_append, List.mem_append, not_or, not_or]
    exact ⟨⟨plain, by decide⟩, nul_not_mem_capacity (by decide) _⟩
  have room : (digits ++ " [" ++ capacity "." n.toNat).length + ("]".toList ++ [nul]).length ≤
      counterFieldSize := by
    rw [List.length_append, front, closing]
    omega
  obtain ⟨written, closed, h₃⟩ := h₂.start.putAll room
  refine ⟨written, ?_, by simpa only [List.append_assoc] using h₃⟩
  simp only [appendCapacity?, h.text_eq plain, put, Option.bind_eq_bind, Option.bind_some,
    printCapacity?_eq, printed, shown]
  exact closed

/-- The digits of a number of 64 bits fit into their part of the field. -/
theorem holds_digits (room : field.length = counterFieldSize) (n : UInt64) :
    ∃ written, field.printGrouped? (counterFieldSize - 16) "," n = some written ∧
      written.Holds counterFieldSize [] (grouped "," n.toNat ++ [nul]) := by
  have field_size : counterFieldSize = 64 := rfl
  have narrow := length_grouped_le n
  have inside : counterFieldSize - 16 ≤ field.length := by omega
  obtain ⟨written, printed, h⟩ := holds_printGrouped (by decide) inside "," n
  have whole := h.widen
  rw [fit_of_lt (by omega), List.length_drop, room] at whole
  exact ⟨written, printed, whole⟩

theorem holds_printWide (room : field.length = counterFieldSize) (high low : UInt64) :
    ∃ written, field.printWide? 0 counterFieldSize high low = some written ∧
      written.Holds counterFieldSize [] (decimal (wideNumber high low) ++ [nul]) := by
  have bound := wideNumber_lt high low
  have narrow : (decimal (wideNumber high low)).length ≤ wideDigits :=
    length_decimal_le_of_lt (by decide) bound
  have field_size : counterFieldSize = 64 ∧ wideDigits = 40 := ⟨rfl, rfl⟩
  have start : field.Holds counterFieldSize [] [] := by
    have inside : counterFieldSize ≤ field.length := by omega
    have h := holds_nil inside
    rwa [List.drop_eq_nil_of_le (by omega)] at h
  obtain ⟨written, printed, h⟩ :=
    start.print (n := counterFieldSize) (by omega) (by simp) (decimal (wideNumber high low))
  rw [List.nil_append, fit_of_lt (by omega)] at h
  refine ⟨written, ?_, h⟩
  rw [printWide?, digitsBefore_eq (by decide) [] bound, List.append_nil]
  exact printed

theorem wideNumber_zero (low : UInt64) : wideNumber 0 low = low.toNat := by
  rw [wideNumber, UInt64.toNat_zero, Nat.zero_mul, Nat.zero_add]

theorem le_wideNumber {high : UInt64} (h : high ≠ 0) (low : UInt64) :
    0x10000000000000000 ≤ wideNumber high low := by
  have pos : high.toNat ≠ 0 := fun zero => h (UInt64.toNat_inj.mp zero)
  rw [wideNumber]
  omega

theorem counterText_of_lt {bytesPerUnit n : Nat} (h : n < 0x10000000000000000) :
    counterText bytesPerUnit n = grouped "," n ++ onlyIf (HasCapacity bytesPerUnit n)
      (" [" ++ capacity "." (n * bytesPerUnit) ++ "]") := if_pos h

theorem counterText_of_le {bytesPerUnit n : Nat} (h : 0x10000000000000000 ≤ n) :
    counterText bytesPerUnit n = decimal n := if_neg (Nat.not_lt.mpr h)

/-- The field holds the whole text of the counter. -/
theorem holds_printCounter (room : field.length = counterFieldSize) (bytesPerUnit : UInt32)
    (high low : UInt64) :
    ∃ written, printCounter? field bytesPerUnit high low = some written ∧
      written.Holds counterFieldSize []
        (counterText bytesPerUnit.toNat (wideNumber high low) ++ [nul]) := by
  by_cases narrow : high = 0
  · subst high
    obtain ⟨digits, printed, h⟩ := holds_digits room low
    have guard := hasCapacity_iff bytesPerUnit low
    rw [printCounter?, if_pos rfl, printed, wideNumber_zero, counterText_of_lt low.toNat_lt, onlyIf]
    simp only [Option.bind_eq_bind, Option.bind_some, ← guard]
    by_cases shown : HasCapacity bytesPerUnit.toNat low.toNat
    · rw [if_pos shown, if_pos shown, ← toNat_product shown]
      exact holds_appendCapacity (nul_not_mem_grouped _) (length_grouped_le low) h _
    · rw [if_neg shown, if_neg shown, List.append_nil]
      exact ⟨digits, rfl, h⟩
  · rw [printCounter?, if_neg narrow, if_neg (by decide), counterText_of_le (le_wideNumber narrow low)]
    exact holds_printWide room high low

theorem nul_not_mem_counterText (bytesPerUnit n : Nat) : nul ∉ counterText bytesPerUnit n := by
  rw [counterText]
  split
  · rw [List.mem_append, not_or]
    refine ⟨nul_not_mem_grouped n, ?_⟩
    rw [onlyIf]
    split
    · rw [List.mem_append, List.mem_append, not_or, not_or]
      exact ⟨⟨by decide, nul_not_mem_capacity (by decide) _⟩, by decide⟩
    · exact List.not_mem_nil
  · intro digit
    exact absurd (isDigit_of_mem_decimal digit) (by decide)

/-- A counter of a log from the halves that are read of it. -/
theorem counterAt_eq (bytes : List UInt8) (offset : Nat) :
    counterAt bytes offset = wideNumber (u64At bytes (offset + 8)) (u64At bytes offset) := by
  have half (o : Nat) : (u64At bytes o).toNat = littleEndian (bytesFrom bytes o 8) := by
    have bound := littleEndian_lt (bytesFrom bytes o 8)
    rw [length_bytesFrom] at bound
    exact Nat.mod_eq_of_lt bound
  have place : Nat.pow 256 8 = 0x10000000000000000 := rfl
  rw [wideNumber, half, half, counterAt, ← bytesFrom_append bytes offset 8 8, littleEndian_append,
    length_bytesFrom, place]
  omega

/-- In a log, the field holds what the report shows of the counter. -/
theorem text_printCounterAt (room : field.length = counterFieldSize) (bytesPerUnit : UInt32)
    (bytes : List UInt8) (offset : Nat) :
    (printCounterAt? field bytesPerUnit bytes offset).map Buffer.text =
      some (counterText bytesPerUnit.toNat (counterAt bytes offset)) := by
  obtain ⟨written, printed, h⟩ :=
    holds_printCounter room bytesPerUnit (u64At bytes (offset + 8)) (u64At bytes offset)
  rw [printCounterAt?, printed, Option.map_some, h.text_eq (nul_not_mem_counterText _ _),
    counterAt_eq]

/-- Whatever was in the field before, it gets the exact number: in groups of three with commas and perhaps
the capacity up to 64 bits, and plain digits beyond. -/
theorem counter_printed_exactly (room : field.length = counterFieldSize) (bytesPerUnit : UInt32)
    (high low : UInt64) :
    let unit := bytesPerUnit.toNat
    let n := wideNumber high low
    ∃ written, printCounter? field bytesPerUnit high low = some written ∧
      written.length = counterFieldSize ∧ written.text = counterText unit n ∧
      (n < 2 ^ 64 → ∃ groups, IsGrouping (decimal n) groups ∧
        written.text = ",".toList.intercalate groups ++
          onlyIf (HasCapacity unit n) (" [" ++ capacity "." (n * unit) ++ "]")) ∧
      (2 ^ 64 ≤ n → written.text = decimal n) ∧
      (HasCapacity unit n → 0 < unit ∧ 0 < n ∧ n * unit < 2 ^ 64) := by
  intro unit n
  obtain ⟨written, printed, h⟩ := holds_printCounter room bytesPerUnit high low
  have shown : written.text = counterText unit n := h.text_eq (nul_not_mem_counterText _ _)
  refine ⟨written, printed, h.length, shown, ?_, ?_, ?_⟩
  · intro narrow
    refine ⟨digitGroups (decimal n), isGrouping_digitGroups (decimal_ne_nil n), ?_⟩
    rw [shown, counterText_of_lt narrow]
    rfl
  · intro wide
    rw [shown, counterText_of_le wide]
  · intro guarded
    exact ⟨Nat.pos_of_ne_zero guarded.2.1, Nat.pos_of_ne_zero guarded.1, guarded.product_lt⟩

/-- The last counter of data units whose capacity is shown. -/
theorem counter_printed_exactly_lastCapacity :
    (List.replicate 64 '?').length = counterFieldSize ∧
      ∃ written, printCounter? (List.replicate 64 '?') 512000 0 36028797018962 = some written ∧
        written.text = "36,028,797,018,962 [18446 PB]" := by
  have room : (List.replicate 64 '?').length = counterFieldSize := rfl
  obtain ⟨written, printed, -, shown, -⟩ := counter_printed_exactly room 512000 0 36028797018962
  exact ⟨room, written, printed, shown.trans (by decide +kernel)⟩

end NvmeLog

end DriveHealth
