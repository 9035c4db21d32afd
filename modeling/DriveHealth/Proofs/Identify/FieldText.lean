import DriveHealth.Identify.Page
import DriveHealth.Proofs.Text.Buffer
import DriveHealth.Proofs.Text.Trim

/-! Texts of a page. A field holds its text with neighbouring bytes exchanged and blanks behind it, so
that reading a field gives back what was written, and trimming takes the blanks away again. -/
namespace DriveHealth

/-- The same bytes with the two of every pair exchanged. -/
inductive Exchanged : List UInt8 → List UInt8 → Prop where
  | nil : Exchanged [] []
  | pair (a b) {l m} : Exchanged l m → Exchanged (a :: b :: l) (b :: a :: m)

theorem Exchanged.symm {l m : List UInt8} (h : Exchanged l m) : Exchanged m l := by
  induction h with
  | nil => exact .nil
  | pair a b _ ih => exact .pair b a ih

theorem Exchanged.length_eq {l m : List UInt8} (h : Exchanged l m) : l.length = m.length := by
  induction h with
  | nil => rfl
  | pair a b _ ih => rw [List.length_cons, List.length_cons, List.length_cons, List.length_cons, ih]

theorem toNat_charOfByte (b : UInt8) : (charOfByte b).toNat = b.toNat := by
  have valid : b.toNat.isValidChar := .inl (Nat.lt_trans b.toNat_lt (by decide))
  rw [charOfByte, Char.ofNat, dif_pos valid]
  rfl

theorem nul_not_mem_textOfBytes {bytes : List UInt8} (h : 0 ∉ bytes) : nul ∉ textOfBytes bytes := by
  intro hc
  obtain ⟨b, hb, same⟩ := List.mem_map.mp hc
  have zero : b = 0 := by
    apply UInt8.toNat_inj.mp
    rw [← toNat_charOfByte, same]
    rfl
  exact h (zero ▸ hb)

/-- A text without the blanks around it. -/
def IsTrimmed (t trimmed : Text) : Prop :=
  IsBare trimmed ∧ ∃ before behind, IsBlanks before ∧ IsBlanks behind ∧ t = before ++ trimmed ++ behind

/-- The longest part of a text that neither begins nor ends with a blank; there is no other one as long. -/
def IsLongestBare (t part : Text) : Prop :=
  IsBare part ∧ part <:+: t ∧
    ∀ u, u <:+: t → IsBare u → u.length ≤ part.length ∧ (u.length = part.length → u = part)

theorem isTrimmed_trim (t : Text) : IsTrimmed t (trim t) := ⟨isBare_trim t, trim_split t⟩

theorem IsTrimmed.trim_eq {t trimmed : Text} (h : IsTrimmed t trimmed) : trim t = trimmed := by
  obtain ⟨bare, before, behind, hb, he, rfl⟩ := h
  exact DriveHealth.trim_eq hb bare he

theorem isLongestBare_trim (t : Text) : IsLongestBare t (trim t) := by
  obtain ⟨before, behind, -, -, split⟩ := trim_split t
  refine ⟨isBare_trim t, ⟨before, behind, split.symm⟩, ?_⟩
  intro u inside bare
  have left := infix_trim inside bare
  exact ⟨left.length_le, left.eq_of_length⟩

theorem trim_padRight (width : Nat) (t : Text) : trim (padRight width t) = trim t := by
  obtain ⟨before, behind, hb, he, split⟩ := trim_split t
  apply IsTrimmed.trim_eq
  refine ⟨isBare_trim t, before, behind ++ List.replicate (width - t.length) ' ', hb, ?_, ?_⟩
  · intro c hc
    rcases List.mem_append.mp hc with hc | hc
    · exact he c hc
    · rw [List.eq_of_mem_replicate hc]
      rfl
  · rw [← List.append_assoc, ← split]
    rfl

namespace IdentifyPage

theorem exchange_of_exchanged {l m last : List UInt8} (h : Exchanged l m) (short : last.length ≤ 1) :
    exchange (l ++ last) = m := by
  induction h with
  | nil =>
    match last with
    | [] | [_] => rfl
    | _ :: _ :: _ => exact absurd short (by simp)
  | pair a b _ ih => rw [List.cons_append, List.cons_append, exchange, ih]

/-- Every field is pairs of bytes and perhaps a last byte that is left out. -/
theorem exists_exchanged (field : List UInt8) :
    ∃ pairs last, field = pairs ++ last ∧ last.length = field.length % 2 ∧
      Exchanged pairs (exchange field) := by
  fun_induction exchange field with
  | case1 a b r ih =>
    obtain ⟨pairs, last, rfl, rest, h⟩ := ih
    refine ⟨a :: b :: pairs, last, rfl, ?_, .pair a b h⟩
    rw [List.length_cons, List.length_cons, rest]
    omega
  | case2 field short =>
    refine ⟨[], field, rfl, ?_, .nil⟩
    match field with
    | [] | [_] => rfl
    | a :: b :: r => exact absurd rfl (short a b r)

theorem length_exchange_le (field : List UInt8) : (exchange field).length ≤ field.length := by
  obtain ⟨pairs, last, split, -, h⟩ := exists_exchanged field
  rw [← h.length_eq, split, List.length_append]
  omega

theorem length_fieldText_le (field : List UInt8) : (fieldText field).length ≤ field.length := by
  have shorter := (List.takeWhile_prefix (· ≠ nul) (l := textOfBytes (exchange field))).length_le
  rw [textOfBytes, List.length_map] at shorter
  exact Nat.le_trans shorter (length_exchange_le field)

theorem nul_not_mem_fieldText (field : List UInt8) : nul ∉ fieldText field := by
  intro hc
  have other := List.mem_takeWhile_imp hc
  exact absurd rfl (of_decide_eq_true other)

/-- A text of bytes with blanks behind it. -/
def blankFilled (width : Nat) (s : List UInt8) : List UInt8 := s ++ List.replicate (width - s.length) 0x20

theorem textOfBytes_blankFilled (width : Nat) (s : List UInt8) :
    textOfBytes (blankFilled width s) = padRight width (textOfBytes s) := by
  have blank : charOfByte 0x20 = ' ' := rfl
  rw [blankFilled, padRight, textOfBytes, List.map_append, List.map_replicate, blank, textOfBytes,
    List.length_map]

theorem fieldText_of_exchanged {s pairs last : List UInt8} (h : Exchanged s pairs) (plain : 0 ∉ s)
    (short : last.length ≤ 1) : fieldText (pairs ++ last) = textOfBytes s := by
  rw [fieldText, exchange_of_exchanged h.symm short]
  apply List.takeWhile_eq_self_iff.mpr
  intro c hc
  exact decide_eq_true fun end_mark => nul_not_mem_textOfBytes plain (end_mark ▸ hc)

/-- A buffer that has a byte more than is shown of a field gets all of it. -/
theorem text_printShown {out : Buffer} {field : List UInt8} (room : min field.length 64 < out.length) :
    ∃ written, printShown? out field = some written ∧ written.text = shownText field ∧
      written.length = out.length := by
  have size : maxShown = 64 := rfl
  have shown : (shownText field).length ≤ min field.length 64 := by
    have trimmed := length_trim_le (fieldText (field.take maxShown))
    have read := length_fieldText_le (field.take maxShown)
    rw [List.length_take] at read
    rw [shownText]
    omega
  have fits : ([] : Text).length + (shownText field ++ [nul]).length ≤ out.length := by
    rw [List.length_nil, List.length_append, List.length_singleton]
    omega
  have plain : nul ∉ shownText field := by
    intro hc
    exact nul_not_mem_fieldText _ (mem_of_mem_trim hc)
  obtain ⟨written, printed, h⟩ := (Buffer.holds_nil (Nat.le_refl out.length)).putAll fits
  refine ⟨written, printed, h.text_eq plain, ?_⟩
  rw [h.length, List.drop_length, List.length_nil, Nat.add_zero]

/-- Reading a field gives back the text that was written to it, and trimming takes the blanks around this
text away. Whatever is in a field, it is read pair by pair up to the first NUL, and trimming leaves the
longest part without blanks at its ends; a buffer gets this of the first 64 bytes. -/
theorem field_texts_exact :
    (∀ (n : Nat) (s pairs last : List UInt8), s.length ≤ n - n % 2 → 0 ∉ s →
      Exchanged (blankFilled (n - n % 2) s) pairs → last.length = n % 2 →
      (pairs ++ last).length = n ∧
      fieldText (pairs ++ last) = padRight (n - n % 2) (textOfBytes s) ∧
      IsTrimmed (textOfBytes s) (trim (fieldText (pairs ++ last)))) ∧
    ∀ field : List UInt8,
      (∃ pairs last exchanged, field = pairs ++ last ∧ last.length = field.length % 2 ∧
        Exchanged pairs exchanged ∧
        fieldText field = (textOfBytes exchanged).takeWhile (· ≠ nul)) ∧
      IsLongestBare (fieldText field) (trim (fieldText field)) ∧
      trim (trim (fieldText field)) = trim (fieldText field) ∧
      ∀ out : Buffer, min field.length 64 < out.length →
        ∃ written, printShown? out field = some written ∧
          written.text = trim (fieldText (field.take (min field.length 64))) ∧
          written.length = out.length := by
  constructor
  · intro n s pairs last fits plain exchanged odd
    have filled : 0 ∉ blankFilled (n - n % 2) s := by
      rw [blankFilled, List.mem_append, not_or]
      exact ⟨plain, fun zero => absurd (List.eq_of_mem_replicate zero) (by decide)⟩
    have length : (blankFilled (n - n % 2) s).length = n - n % 2 := by
      rw [blankFilled, List.length_append, List.length_replicate, Nat.add_sub_cancel' fits]
    have text : fieldText (pairs ++ last) = padRight (n - n % 2) (textOfBytes s) := by
      rw [fieldText_of_exchanged exchanged filled (by omega), textOfBytes_blankFilled]
    refine ⟨?_, text, ?_⟩
    · rw [List.length_append, ← exchanged.length_eq, length, odd]
      exact Nat.sub_add_cancel (Nat.mod_le n 2)
    · rw [text, trim_padRight]
      exact isTrimmed_trim (textOfBytes s)
  · intro field
    obtain ⟨pairs, last, split, odd, exchanged⟩ := exists_exchanged field
    refine ⟨⟨pairs, last, exchange field, split, odd, exchanged, rfl⟩, isLongestBare_trim _,
      trim_trim _, ?_⟩
    intro out room
    have first : field.take (min field.length 64) = field.take maxShown := by
      rw [List.take_eq_take_iff, maxShown]
      omega
    rw [first]
    exact text_printShown room

/-- Five bytes that hold blanks around a text and a last byte that does not count. -/
theorem field_texts_exact_fiveBytes :
    [0x20, 0x41].length ≤ 5 - 5 % 2 ∧ 0 ∉ ([0x20, 0x41] : List UInt8) ∧
      Exchanged (blankFilled (5 - 5 % 2) [0x20, 0x41]) [0x41, 0x20, 0x20, 0x20] ∧
      ([0x42] : List UInt8).length = 5 % 2 ∧
      fieldText ([0x41, 0x20, 0x20, 0x20] ++ [0x42]) = " A  " ∧
      IsTrimmed " A" (trim (fieldText ([0x41, 0x20, 0x20, 0x20] ++ [0x42]))) := by
  have fits : ([0x20, 0x41] : List UInt8).length ≤ 5 - 5 % 2 := by decide
  have plain : 0 ∉ ([0x20, 0x41] : List UInt8) := by decide
  have exchanged : Exchanged (blankFilled (5 - 5 % 2) [0x20, 0x41]) [0x41, 0x20, 0x20, 0x20] :=
    .pair 0x20 0x41 (.pair 0x20 0x20 .nil)
  have odd : ([0x42] : List UInt8).length = 5 % 2 := rfl
  obtain ⟨-, text, trimmed⟩ := field_texts_exact.1 5 [0x20, 0x41] _ [0x42] fits plain exchanged odd
  exact ⟨fits, plain, exchanged, odd, text, trimmed⟩

end IdentifyPage

end DriveHealth
