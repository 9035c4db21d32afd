import DriveHealth.Proofs.Attribute.Recovery
import DriveHealth.Proofs.Attribute.RuleText
import DriveHealth.Proofs.Bytes

/-! The raw value of a record as the number that the selected bytes make up. At most eight bytes are
selected, so none of them is pushed out of the value, and the value tells each of them. -/
namespace DriveHealth

/-! ### Bytes joined to a value -/

theorem toNat_shift_or {value : UInt64} {b : UInt8} (room : value.toNat < 2 ^ 56) :
    (value <<< 8 ||| b.toUInt64).toNat = b.toNat + 256 * value.toNat := by
  have small := b.toNat_lt
  have shifted : (value <<< 8).toNat = value.toNat <<< 8 := by
    rw [UInt64.toNat_shiftLeft]
    change value.toNat <<< 8 % 2 ^ 64 = value.toNat <<< 8
    rw [Nat.shiftLeft_eq]
    omega
  rw [UInt64.toNat_or, shifted, UInt8.toNat_toUInt64, ← Nat.shiftLeft_add_eq_or_of_lt small,
    Nat.shiftLeft_eq]
  omega

/-- Joining bytes from the highest on gives the number that has them as its bytes. -/
theorem toNat_join {bytes : List UInt8} (few : bytes.length ≤ 8) :
    (bytes.foldr (fun b (value : UInt64) => value <<< 8 ||| b.toUInt64) 0).toNat =
      littleEndian bytes := by
  induction bytes with
  | nil => rfl
  | cons b r ih =>
    rw [List.length_cons] at few
    have rest := ih (by omega)
    have bound := littleEndian_lt r
    have room : Nat.pow 256 r.length ≤ 256 ^ 7 := Nat.pow_le_pow_right (by decide) (by omega)
    rw [List.foldr_cons, toNat_shift_or (by omega), rest, littleEndian]

theorem byteOf_littleEndian (bytes : List UInt8) (i : Nat) :
    byteOf (littleEndian bytes) i = byteAt bytes i := by
  induction bytes generalizing i with
  | nil =>
    apply UInt8.toNat_inj.mp
    rw [toNat_byteOf, littleEndian, Nat.zero_div]
    rfl
  | cons b r ih =>
    have small := b.toNat_lt
    apply UInt8.toNat_inj.mp
    cases i with
    | zero =>
      rw [toNat_byteOf, littleEndian]
      change _ = b.toNat
      omega
    | succ i =>
      have next : byteAt (b :: r) (i + 1) = byteAt r i := rfl
      have above : (b.toNat + 256 * littleEndian r) / 256 = littleEndian r := by omega
      rw [next, ← ih, toNat_byteOf, toNat_byteOf, littleEndian, Nat.mul_succ, Nat.pow_add',
        ← Nat.div_div_eq_div_mul, above]

namespace Rule

theorem length_defaultOrder_le (f : Format) : f.defaultOrder.length ≤ maxOrder := by
  cases f <;> decide

/-- No rule that is written selects more bytes than a value has. -/
theorem length_order_parse_le (t : Text) : (parse t).order.length ≤ maxOrder := by
  rcases spells_or_unknown t with ⟨f, order, spells⟩ | unknown
  · rw [spells.parse]
    cases spells with
    | plain => exact length_defaultOrder_le f
    | ordered _ bounds => exact bounds.2
  · rw [unknown]
    exact (by decide : Format.vendorOrder.length ≤ maxOrder)

end Rule

namespace AttributeRecord

/-- The selected bytes, lowest first. -/
def selected (r : AttributeRecord) (rule : Rule) : List UInt8 := (rule.order.map r.byte).reverse

theorem toNat_rawValue (r : AttributeRecord) {rule : Rule} (few : rule.order.length ≤ Rule.maxOrder) :
    (r.rawValue rule).toNat = littleEndian (r.selected rule) := by
  have length : (r.selected rule).length ≤ 8 := by
    rw [selected, List.length_reverse, List.length_map]
    exact few
  rw [← toNat_join length, selected, List.foldr_reverse, List.foldl_map]
  rfl

/-- Two raw values are the same only if each selected byte is. -/
theorem rawValue_eq_iff {rule : Rule} (few : rule.order.length ≤ Rule.maxOrder)
    {r s : AttributeRecord} :
    r.rawValue rule = s.rawValue rule ↔ ∀ source ∈ rule.order, r.byte source = s.byte source := by
  have same_length : (r.selected rule).length = (s.selected rule).length := by
    simp [selected]
  rw [← UInt64.toNat_inj, r.toNat_rawValue few, s.toNat_rawValue few, ← List.map_inj_left]
  constructor
  · intro h
    exact List.reverse_injective (littleEndian_injective same_length h)
  · intro h
    rw [selected, h, selected]

end AttributeRecord

end DriveHealth
