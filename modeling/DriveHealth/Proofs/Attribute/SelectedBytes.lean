import DriveHealth.Proofs.Attribute.RawValue
import Mathlib.Algebra.BigOperators.Fin

/-! The raw value as a sum over the letters of a byte order. Each letter selects a byte, and the byte
has the weight of its place in the order, the last one the weight one. No order is longer than the value
is wide, so every selected byte can be read off the value again. -/
namespace DriveHealth

/-! ### Numbers with the highest byte first -/

section
variable {α : Type} (f : α → UInt8) (l : List α)

theorem littleEndian_reverse_map :
    littleEndian (l.map f).reverse =
      ∑ i : Fin l.length, (f l[i]).toNat * 256 ^ (l.length - 1 - i) := by
  induction l with
  | nil => rfl
  | cons a r ih =>
    have weight (i : Fin r.length) : r.length - 1 - (i : Nat) = r.length - (i + 1) := by omega
    have single (b : UInt8) : littleEndian [b] = b.toNat := rfl
    rw [List.map_cons, List.reverse_cons, littleEndian_append, ih, single, List.length_reverse,
      List.length_map]
    simp only [List.length_cons, Fin.sum_univ_succ, Nat.add_sub_cancel, weight]
    rw [Nat.add_comm, Nat.mul_comm]
    rfl

/-- A byte stands at the place that its weight tells. -/
theorem byteOf_littleEndian_reverse_map (i : Fin l.length) :
    byteOf (littleEndian (l.map f).reverse) (l.length - 1 - i) = f l[i] := by
  have place : l.length - 1 - (l.length - 1 - (i : Nat)) = i := by omega
  have inside : l.length - 1 - (i : Nat) < (l.map f).reverse.length := by
    rw [List.length_reverse, List.length_map]
    omega
  rw [byteOf_littleEndian, byteAt, List.getD_eq_getElem?_getD, List.getElem?_eq_getElem inside,
    Option.getD_some, List.getElem_reverse, List.getElem_map]
  simp only [List.length_map, place]
  rfl

end

/-! ### Letters -/

/-- The rules there are: those read from a text, those of a format, and the rule without a format. -/
inductive Rule.Made : Rule → Prop where
  | read (t : Text) : Made (parse t)
  | ofFormat (f : Format) : Made (known f Option.none)
  | noFormat : Made none

theorem Rule.Made.few {rule : Rule} (made : rule.Made) : rule.order.length ≤ maxOrder := by
  cases made with
  | read t => exact length_order_parse_le t
  | ofFormat f => exact length_defaultOrder_le f
  | noFormat => decide

namespace AttributeRecord

/-- The byte that a letter of a byte order selects. -/
def letterByte (r : AttributeRecord) : Char → UInt8
  | '0' => r.vendor[0]
  | '1' => r.vendor[1]
  | '2' => r.vendor[2]
  | '3' => r.vendor[3]
  | '4' => r.vendor[4]
  | '5' => r.vendor[5]
  | 'r' => r.reserved
  | 'v' => r.current
  | 'w' => r.worst
  | _ => 0

theorem letterByte_letter (r : AttributeRecord) (source : ByteSource) :
    r.letterByte source.letter = r.byte source := by
  cases source with
  | vendor i =>
    match i with
    | 0 | 1 | 2 | 3 | 4 | 5 => rfl
  | reserved | current | worst | zero => rfl

theorem selected_eq_letters (r : AttributeRecord) (rule : Rule) :
    r.selected rule = ((Rule.orderText rule.order).map r.letterByte).reverse := by
  rw [selected, Rule.orderText, List.map_map]
  refine congrArg List.reverse (List.map_congr_left ?_)
  intro source _
  exact (r.letterByte_letter source).symm

/-- For every record and every rule there is, the raw value is the sum of the bytes that the letters
of the byte order select, each with the power of 256 that belongs to its place. There are at most eight
letters, the value has no more bytes than letters, and each selected byte is in it. -/
theorem selected_bytes_placed {rule : Rule} (made : rule.Made) (r : AttributeRecord) :
    let letters := Rule.orderText rule.order
    let n := letters.length
    let value := (r.rawValue rule).toNat
    value = ∑ i : Fin n, (r.letterByte letters[i]).toNat * 256 ^ (n - 1 - i) ∧
    n ≤ 8 ∧ value < 256 ^ n ∧
    ∀ i : Fin n, byteOf value (n - 1 - i) = r.letterByte letters[i] := by
  intro letters n value
  have few : rule.order.length ≤ Rule.maxOrder := made.few
  have value_eq : value = littleEndian (letters.map r.letterByte).reverse := by
    rw [← r.selected_eq_letters rule, ← r.toNat_rawValue few]
  have bound := littleEndian_lt (letters.map r.letterByte).reverse
  rw [List.length_reverse, List.length_map] at bound
  have short : n ≤ 8 := by
    rw [show n = rule.order.length from Rule.length_orderText rule.order]
    exact few
  rw [value_eq]
  exact ⟨littleEndian_reverse_map _ _, short, bound, byteOf_littleEndian_reverse_map _ _⟩

/-- Eight letters, two of them for the same byte and one for a zero. -/
theorem selected_bytes_placed_eightLetters :
    let r : AttributeRecord := ⟨9, 0x32, 0x64, 0x63, #v[1, 2, 3, 4, 5, 6], 7⟩
    let rule := Rule.parse "hex64:w50zrv05"
    rule.Made ∧ Rule.orderText rule.order = ("w50zrv05" : Text) ∧
    (r.rawValue rule).toNat = 0x6306010007640106 ∧ (r.rawValue rule).toNat < 256 ^ 8 := by
  intro r rule
  have parsed : rule = .known .hex64 (some
      [.worst, .vendor 5, .vendor 0, .zero, .reserved, .current, .vendor 0, .vendor 5]) := by
    decide +kernel
  have made : rule.Made := .read _
  rw [parsed] at made ⊢
  obtain ⟨sum, -, bound, -⟩ := selected_bytes_placed made r
  exact ⟨made, rfl, sum.trans (by decide +kernel), bound⟩

end AttributeRecord

end DriveHealth
