import DriveHealth.Attribute.RawText
import DriveHealth.Proofs.Text.Parts
import Mathlib.Tactic.NormNum

/-! Raw values read back from their texts. Most formats show a value as numbers that stand for parts of
it, each with a place value of its own, so the value is the sum of its parts. A format that leaves
numbers out does so for zero only. -/
namespace DriveHealth

/-! ### Parts of a number -/

theorem toNat_byteOf (n i : Nat) : (byteOf n i).toNat = n / 2 ^ (8 * i) % 256 := by
  rw [byteOf, Nat.toUInt8, UInt8.toNat_ofNat', Nat.shiftRight_eq_div_pow]

theorem byteOf_ne_zero_iff (n i : Nat) : byteOf n i ≠ 0 ↔ n / 2 ^ (8 * i) % 256 ≠ 0 := by
  rw [← toNat_byteOf, Ne, ← UInt8.toNat_inj]
  rfl

theorem wordOf_eq (n i : Nat) : wordOf n i = n / 2 ^ (16 * i) % 65536 := by
  rw [wordOf, Nat.shiftRight_eq_div_pow]

theorem lowWords_eq (n : Nat) : wordOf n 0 + 0x10000 * wordOf n 1 = n % 2 ^ 32 := by
  rw [wordOf_eq, wordOf_eq, Nat.mul_zero, Nat.pow_zero, Nat.div_one]
  exact (@Nat.mod_mul 65536 65536 n).symm

/-! ### Places -/

/-- What one number in a text stands for. -/
structure Place where
  weight : Nat
  limit : Option Nat := none
  isOptional : Bool := false

/-- Numbers below their limits add up to a value. Numbers of optional places may be missing at the end
and count as zero then. -/
inductive AddUp : List Place → List Nat → Nat → Prop where
  | missing {places} : (∀ place ∈ places, place.isOptional = true) → AddUp places [] 0
  | number {place places n numbers value} : (∀ limit ∈ place.limit, n < limit) →
      AddUp places numbers value →
      AddUp (place :: places) (n :: numbers) (place.weight * n + value)

theorem addUp_nil_iff {places : List Place} {value : Nat} :
    AddUp places [] value ↔ (∀ place ∈ places, place.isOptional = true) ∧ value = 0 := by
  constructor
  · intro h
    cases h with
    | missing optional => exact ⟨optional, rfl⟩
  · rintro ⟨optional, rfl⟩
    exact .missing optional

theorem addUp_cons_iff {place : Place} {places : List Place} {n : Nat} {numbers : List Nat}
    {value : Nat} :
    AddUp (place :: places) (n :: numbers) value ↔ (∀ limit ∈ place.limit, n < limit) ∧
      ∃ rest, AddUp places numbers rest ∧ value = place.weight * n + rest := by
  constructor
  · intro h
    cases h with
    | number below rest => exact ⟨below, _, rest, rfl⟩
  · rintro ⟨below, rest, h, rfl⟩
    exact .number below h

theorem AddUp.unique {places : List Place} {numbers : List Nat} {v w : Nat}
    (hv : AddUp places numbers v) (hw : AddUp places numbers w) : v = w := by
  induction hv generalizing w with
  | missing => cases hw; rfl
  | number _ _ ih =>
    cases hw with
    | number _ rest => rw [ih rest]

namespace Format

/-- The formats that keep the whole value. -/
def lossless : List Format :=
  [raw8, raw16, raw48, raw56, raw64, hex48, hex56, hex64, raw16OptRaw16, raw24OptRaw8,
   raw24DivRaw24, raw24DivRaw32, sec2hour, min2hour, msec24hour32]

def isHex : Format → Bool
  | hex48 | hex56 | hex64 => true
  | _ => false

/-- The numbers in a text of a format. -/
def numbers (f : Format) (t : Text) : List Nat :=
  if f.isHex then [ofHex (t.drop 2)] else numbersIn t

def bytePlace (i : Nat) : Place := { weight := 256 ^ i, limit := some 256 }

def wordPlace (i : Nat) : Place := { weight := 65536 ^ i, limit := some 65536 }

/-- The places of the numbers that a format shows, in the order of the text. -/
def places : Format → List Place
  | raw8 => [5, 4, 3, 2, 1, 0].map bytePlace
  | raw16 => [2, 1, 0].map wordPlace
  | raw48 | raw56 | raw64 | hex48 | hex56 | hex64 => [{ weight := 1 }]
  | raw16OptRaw16 => wordPlace 0 :: [2, 1].map fun i => { wordPlace i with isOptional := true }
  | raw24OptRaw8 =>
    { weight := 1, limit := some (2 ^ 24) } ::
      [5, 4, 3].map fun i => { bytePlace i with isOptional := true }
  | raw24DivRaw24 => [{ weight := 2 ^ 24 }, { weight := 1, limit := some (2 ^ 24) }]
  | raw24DivRaw32 => [{ weight := 2 ^ 32 }, { weight := 1, limit := some (2 ^ 32) }]
  | sec2hour =>
    [{ weight := 3600 }, { weight := 60, limit := some 60 }, { weight := 1, limit := some 60 }]
  | min2hour =>
    [{ weight := 60 }, { weight := 1, limit := some 60 }, { wordPlace 2 with isOptional := true }]
  | msec24hour32 =>
    [{ weight := 1, limit := some (2 ^ 32) }, { weight := 2 ^ 32 * (60 * 1000) },
     { weight := 2 ^ 32 * 1000, limit := some 60 }, { weight := 2 ^ 32, limit := some 1000 }]
  | raw16OptAvg16 | halfmin2hour | tempminmax | temp10x => []

/-- The numbers that a format shows of a value. -/
def parts (f : Format) (n : Nat) : List Nat :=
  let word := wordOf n
  let byte i := (byteOf n i).toNat
  match f with
  | raw8 => [5, 4, 3, 2, 1, 0].map byte
  | raw16 => [2, 1, 0].map word
  | raw48 | raw56 | raw64 | hex48 | hex56 | hex64 => [n]
  | raw16OptRaw16 => word 0 :: if word 1 ≠ 0 ∨ word 2 ≠ 0 then [word 2, word 1] else []
  | raw24OptRaw8 =>
    n % 2 ^ 24 ::
      if byteOf n 3 ≠ 0 ∨ byteOf n 4 ≠ 0 ∨ byteOf n 5 ≠ 0 then [5, 4, 3].map byte else []
  | raw24DivRaw24 => [n / 2 ^ 24 % 2 ^ 32, n % 2 ^ 24]
  | raw24DivRaw32 => [n / 2 ^ 32 % 2 ^ 32, n % 2 ^ 32]
  | sec2hour => [n / 3600, n % 3600 / 60, n % 60]
  | min2hour =>
    let minutes := n % 2 ^ 32
    minutes / 60 :: minutes % 60 :: if word 2 ≠ 0 then [word 2] else []
  | msec24hour32 =>
    let milliseconds := n / 2 ^ 32
    let seconds := milliseconds / 1000
    [n % 2 ^ 32, seconds / 60, seconds % 60, milliseconds % 1000]
  | raw16OptAvg16 | halfmin2hour | tempminmax | temp10x => []

theorem numbersIn_bytesText (n : Nat) (indices : List Nat) :
    numbersIn (bytesText n indices) = indices.map fun i => (byteOf n i).toNat := by
  induction indices with
  | nil => rfl
  | cons i r ih =>
    cases r with
    | nil => simp [bytesText, numbersIn_decimal]
    | cons j r =>
      have blank : bytesText n (i :: j :: r) =
          decimal (byteOf n i).toNat ++ ' ' :: bytesText n (j :: r) := rfl
      rw [blank, numbersIn_append rfl, numbersIn_decimal, ih]
      rfl

theorem numbers_rawText {f : Format} (h : f ∈ lossless) (n : Nat) :
    f.numbers (f.rawText n) = f.parts n := by
  cases f with
  | raw8 => exact numbersIn_bytesText n _
  | raw48 | raw56 | raw64 => exact numbersIn_decimal n
  | hex48 | hex56 | hex64 => exact congrArg (fun v => [v]) (ofHex_drop_hexFill _ n)
  | raw16 | raw24DivRaw24 | raw24DivRaw32 | sec2hour | msec24hour32 =>
    simp [numbers, isHex, rawText, parts, numbersIn_append, numbersIn_cons, numbersIn_decimal,
      numbersIn_decimalFill, numbersIn_nil]
  | raw16OptRaw16 | raw24OptRaw8 | min2hour =>
    simp [numbers, isHex, rawText, parts, numbersIn_append, numbersIn_cons, numbersIn_decimal,
      numbersIn_decimalFill, numbersIn_nil, numbersIn_onlyIf, numbersIn_append_onlyIf,
      numbersIn_bytesText, lowWords_eq]
  | raw16OptAvg16 | halfmin2hour | tempminmax | temp10x => exact absurd h (by decide)

/-- Below the number of values that its bytes can have, a value is the sum of what a format shows. -/
theorem parts_addUp {f : Format} (h : f ∈ lossless) {n : Nat}
    (small : n < 256 ^ f.defaultOrder.length) : AddUp f.places (f.parts n) n := by
  cases f with
  | raw48 | raw56 | raw64 | hex48 | hex56 | hex64 =>
    simp [places, parts, addUp_cons_iff, addUp_nil_iff]
  | raw8 | raw16 | raw24DivRaw24 | raw24DivRaw32 | sec2hour | msec24hour32 =>
    simp [places, parts, addUp_cons_iff, addUp_nil_iff, bytePlace, toNat_byteOf, wordPlace, wordOf_eq,
      defaultOrder, vendorOrder] at small ⊢
    omega
  | raw16OptRaw16 | raw24OptRaw8 | min2hour =>
    simp only [places, parts, addUp_cons_iff, bytePlace, toNat_byteOf, byteOf_ne_zero_iff, wordPlace,
      wordOf_eq, Nat.reduceMul, Nat.reducePow]
    simp [defaultOrder, vendorOrder] at small
    -- what is left out is zero, so both ways to show a value give the same sum
    split
    · simp [addUp_cons_iff, addUp_nil_iff]
      omega
    · simp [addUp_nil_iff]
      omega
  | raw16OptAvg16 | halfmin2hour | tempminmax | temp10x => exact absurd h (by decide)

theorem hexFill_of_isHex {f : Format} (hex : f.isHex = true) (n : Nat) :
    f.rawText n = hexFill (2 * f.defaultOrder.length) n := by
  cases f with
  | hex48 | hex56 | hex64 => rfl
  | _ => cases hex

/-- The number of digits does not depend on the value. -/
theorem hexDigits_rawText {f : Format} (hex : f.isHex = true) {n : Nat}
    (small : n < 256 ^ f.defaultOrder.length) :
    ∃ digits, f.rawText n = "0x" ++ digits ∧ digits.length = 2 * f.defaultOrder.length ∧
      ∀ c ∈ digits, c ∈ ("0123456789abcdef" : Text) := by
  have some_bytes : 0 < 2 * f.defaultOrder.length := by
    cases f with
    | hex48 | hex56 | hex64 => decide
    | _ => cases hex
  have fits : n < 16 ^ (2 * f.defaultOrder.length) := by
    rw [Nat.pow_mul]
    exact small
  refine ⟨_, hexFill_of_isHex hex n, ?_, fun _ => mem_hexDigits⟩
  exact length_zeroFill_of_le ((Nat.length_toDigits_le_iff (by decide) some_bytes).mpr fits)

end Format

/-- A value that a format can hold is recovered from its text: the numbers in the text add up to it, so
that no two values have the same text. -/
theorem raw_value_recoverable {f : Format} (h : f ∈ Format.lossless)
    (order : Option (List ByteSource)) {value : UInt64}
    (small : value.toNat < 256 ^ f.defaultOrder.length) :
    let shown := (Rule.known f order).rawText value
    AddUp f.places (f.numbers shown) value.toNat ∧
    (f.isHex = true → ∃ digits, shown = "0x" ++ digits ∧
      digits.length = 2 * f.defaultOrder.length ∧
      ∀ c ∈ digits, c ∈ ("0123456789abcdef" : Text)) ∧
    ∀ (other : UInt64) (otherOrder : Option (List ByteSource)),
      other.toNat < 256 ^ f.defaultOrder.length →
      (Rule.known f otherOrder).rawText other = shown → other = value := by
  have adds {v : UInt64} (order : Option (List ByteSource))
      (small : v.toNat < 256 ^ f.defaultOrder.length) :
      AddUp f.places (f.numbers ((Rule.known f order).rawText v)) v.toNat := by
    rw [Rule.rawText, Format.numbers_rawText h]
    exact Format.parts_addUp h small
  refine ⟨adds order small, fun hex => Format.hexDigits_rawText hex small, ?_⟩
  intro other otherOrder small' same
  have sum := adds otherOrder small'
  rw [same] at sum
  exact UInt64.toNat_inj.mp (sum.unique (adds order small))

/-- Two hours and five minutes with a one in the word above. -/
theorem raw_value_recoverable_minutes :
    Format.min2hour ∈ Format.lossless ∧
    (4294967421 : UInt64).toNat < 256 ^ Format.min2hour.defaultOrder.length ∧
    (Rule.known .min2hour none).rawText 4294967421 = ("2h+05m (1)" : Text) ∧
    AddUp Format.min2hour.places (numbersIn "2h+05m (1)") 4294967421 := by
  have lossless : Format.min2hour ∈ Format.lossless := by decide
  have small : (4294967421 : UInt64).toNat < 256 ^ Format.min2hour.defaultOrder.length := by decide
  have shown : (Rule.known .min2hour none).rawText 4294967421 = ("2h+05m (1)" : Text) := by
    decide +kernel
  obtain ⟨adds, -⟩ := raw_value_recoverable lossless none small
  rw [shown] at adds
  exact ⟨lossless, small, shown, adds⟩

end DriveHealth
