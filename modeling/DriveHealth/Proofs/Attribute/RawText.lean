import DriveHealth.Attribute.RawText
import DriveHealth.Proofs.Text.Quantity

/-! Raw values stay within their line, whatever their format is. -/
namespace DriveHealth

theorem isLine_bytesText (n : Nat) (indices : List Nat) : IsLine (bytesText n indices) := by
  intro h
  rcases mem_intersperse h with digits | blank
  · obtain ⟨t, ht, hc⟩ := List.mem_flatten.mp digits
    obtain ⟨i, -, rfl⟩ := List.mem_map.mp ht
    exact isLine_decimal _ hc
  · exact absurd blank (by decide)

theorem isLine_celsius (b0 b1 b2 b3 b4 b5 : UInt8) : IsLine (temperatureText b0 b1 b2 b3 b4 b5) := by
  rw [temperatureText]
  split <;> simp

theorem Format.isLine_rawText (f : Format) (n : Nat) : IsLine (f.rawText n) := by
  cases f with
  | raw8 => exact isLine_bytesText n _
  | tempminmax => exact isLine_celsius _ _ _ _ _ _
  | raw48 | raw56 | raw64 => exact isLine_decimal n
  | hex48 | hex56 | hex64 => exact isLine_hexFill _ n
  | raw16 | raw24DivRaw24 | raw24DivRaw32 | sec2hour | halfmin2hour | msec24hour32 | temp10x =>
    simp [rawText]
  | raw16OptRaw16 | raw16OptAvg16 | raw24OptRaw8 | min2hour =>
    simp [rawText, isLine_onlyIf, isLine_bytesText]

theorem AttributeRecord.isLine_rawText (r : AttributeRecord) (rule : Rule) : IsLine (r.rawText rule) := by
  cases rule with
  | known f order => exact Format.isLine_rawText f _
  | unknown t => exact (by decide : IsLine "?")

end DriveHealth
