import DriveHealth.Attribute.RawText
import DriveHealth.Proofs.Text.Number
import DriveHealth.Proofs.Text.Parts
import Mathlib.Tactic.IntervalCases

/-! What a temperature text tells about the six bytes behind it. Bytes are numbered from the lowest, and
byte 0 is the temperature. A text with a range shows a credible one, and bytes that do not show in a
text hold nothing: they are zero or extend the sign of the byte below. -/
namespace DriveHealth.Temperature

/-! ### Bytes without a value of their own -/

def Extends (below byte : UInt8) : Prop := byte = 0 ∨ byte = 0xff ∧ 0x80 ≤ below

theorem word_eq_zero_iff {low high : UInt8} :
    low.toNat + 256 * high.toNat = 0 ↔ low = 0 ∧ high = 0 := by
  rw [← UInt8.toNat_inj, ← UInt8.toNat_inj]
  change _ ↔ low.toNat = 0 ∧ high.toNat = 0
  omega

theorem asByte_iff {low high : UInt8} :
    (wordKind (low.toNat + 256 * high.toNat)).asByte = true ↔ high = 0 := by
  have bound := low.toNat_lt
  rw [wordKind, decide_eq_true_iff, ← UInt8.toNat_inj]
  change _ ↔ high.toNat = 0
  omega

theorem extends_of_asWord {low high : UInt8}
    (h : (wordKind (low.toNat + 256 * high.toNat)).asWord = true) : Extends low high := by
  have bound := low.toNat_lt
  have bound' := high.toNat_lt
  rw [wordKind, Bool.or_eq_true, decide_eq_true_iff, decide_eq_true_iff] at h
  rw [Extends, ← UInt8.toNat_inj, ← UInt8.toNat_inj, UInt8.le_iff_toNat_le]
  change high.toNat = 0 ∨ high.toNat = 255 ∧ 128 ≤ low.toNat
  omega

theorem extends_of_fits {low high : UInt8}
    (h : (wordKind (low.toNat + 256 * high.toNat)).fits = true) : Extends low high := by
  rcases Bool.or_eq_true _ _ ▸ h with asByte | asWord
  · exact .inl (asByte_iff.mp asByte)
  · exact extends_of_asWord asWord

theorem extends_of_alike {b0 b1 b2 b3 b4 b5 : UInt8}
    (h : let kind0 := wordKind (b0.toNat + 256 * b1.toNat)
      let kind1 := wordKind (b2.toNat + 256 * b3.toNat)
      let kind2 := wordKind (b4.toNat + 256 * b5.toNat)
      ((kind0.asByte && kind1.asByte && kind2.asByte) ||
        (kind0.asWord && kind1.asWord && kind2.asWord)) = true) :
    Extends b2 b3 ∧ Extends b4 b5 := by
  simp only [Bool.or_eq_true, Bool.and_eq_true] at h
  rcases h with ⟨⟨-, middle⟩, high⟩ | ⟨⟨-, middle⟩, high⟩
  · exact ⟨.inl (asByte_iff.mp middle), .inl (asByte_iff.mp high)⟩
  · exact ⟨extends_of_asWord middle, extends_of_asWord high⟩

/-! ### Ranges -/

/-- A range that can be the lowest and highest value around a temperature. -/
structure Credible (t low high : Int) : Prop where
  bottom : -60 ≤ low
  low_le : low ≤ t
  le_high : t ≤ high
  top : high ≤ 120
  no_sign : ¬ (low = -1 ∧ high ≤ 0)

/-- Two bytes hold the ends of a range, in one order or the other. -/
def Ends (a b : UInt8) (low high : Int) : Prop :=
  (low = signedByte a ∧ high = signedByte b) ∨ (low = signedByte b ∧ high = signedByte a)

theorem range?_eq_some {t low high : Int} {a b : UInt8} (h : range? t a b = some (low, high)) :
    Credible t low high ∧ Ends a b low high := by
  rw [range?] at h
  split at h
  · rename_i bounds
    obtain ⟨bottom, low_le, le_high, top, no_sign⟩ := bounds
    cases h
    refine ⟨⟨bottom, low_le, le_high, top, no_sign⟩, ?_⟩
    rcases Int.le_total (signedByte a) (signedByte b) with hab | hba
    · exact .inl ⟨min_eq_left hab, max_eq_right hab⟩
    · exact .inr ⟨min_eq_right hba, max_eq_left hba⟩
  · cases h

/-! ### Shapes -/

/-- A text for six bytes in one of four shapes. -/
def text (b : Nat → UInt8) : Temperature → Text
  | plain t => signedDecimal t
  | withRange t low high =>
    signedDecimal t ++ " (Min/Max " ++ signedDecimal low ++ "/" ++ signedDecimal high ++ ")"
  | withCount t low high count =>
    signedDecimal t ++ " (Min/Max " ++ signedDecimal low ++ "/" ++ signedDecimal high ++ " #" ++
      decimal count ++ ")"
  | unclear =>
    decimal (b 0).toNat ++ " (" ++ decimal (b 5).toNat ++ " " ++ decimal (b 4).toNat ++ " " ++
      decimal (b 3).toNat ++ " " ++ decimal (b 2).toNat ++ " " ++ decimal (b 1).toNat ++ ")"

theorem temperatureText_eq (b : Nat → UInt8) :
    temperatureText (b 0) (b 1) (b 2) (b 3) (b 4) (b 5) =
      (ofBytes (b 0) (b 1) (b 2) (b 3) (b 4) (b 5)).text b := by
  rw [temperatureText]
  split <;> rename_i h <;> rw [h] <;> rfl

/-- Every byte above the temperature is shown or has no value of its own. -/
def Leaves (b : Nat → UInt8) (shown : List Nat) : Prop :=
  ∀ i, 1 ≤ i → i ≤ 5 → i ∉ shown → Extends (b (i - 1)) (b i)

/-- What each shape tells about the bytes. -/
inductive Shows (b : Nat → UInt8) : Temperature → Prop where
  | plain : Leaves b [] → Shows b (.plain (signedByte (b 0)))
  | withRange {i j low high} : (i, j) ∈ [(2, 3), (1, 2), (2, 4)] → Ends (b i) (b j) low high →
      Credible (signedByte (b 0)) low high → Leaves b [i, j] →
      Shows b (.withRange (signedByte (b 0)) low high)
  | withCount {low high count} : Ends (b 2) (b 3) low high →
      Credible (signedByte (b 0)) low high → 40 ≤ high →
      count = (b 4).toNat + 256 * (b 5).toNat → 1 ≤ count → count < 0x7fff →
      Leaves b [2, 3, 4, 5] → Shows b (.withCount (signedByte (b 0)) low high count)
  | unclear : Shows b .unclear

theorem leaves_of {b : Nat → UInt8} {shown : List Nat}
    (h1 : 1 ∈ shown ∨ Extends (b 0) (b 1)) (h2 : 2 ∈ shown ∨ Extends (b 1) (b 2))
    (h3 : 3 ∈ shown ∨ Extends (b 2) (b 3)) (h4 : 4 ∈ shown ∨ Extends (b 3) (b 4))
    (h5 : 5 ∈ shown ∨ Extends (b 4) (b 5)) : Leaves b shown := by
  intro i first last hidden
  interval_cases i
  · exact h1.resolve_left hidden
  · exact h2.resolve_left hidden
  · exact h3.resolve_left hidden
  · exact h4.resolve_left hidden
  · exact h5.resolve_left hidden

/-- Each packing that is tried shows the bytes it takes values from. -/
theorem shows_ofBytes (b : Nat → UInt8) :
    Shows b (ofBytes (b 0) (b 1) (b 2) (b 3) (b 4) (b 5)) := by
  rw [ofBytes]
  simp only
  split
  · rename_i none_high
    obtain ⟨four, five⟩ := word_eq_zero_iff.mp none_high
    split
    · rename_i alone
      obtain ⟨none_middle, fits⟩ := alone
      obtain ⟨two, three⟩ := word_eq_zero_iff.mp none_middle
      exact .plain (leaves_of (.inr (extends_of_fits fits)) (.inr (.inl two)) (.inr (.inl three))
        (.inr (.inl four)) (.inr (.inl five)))
    · split
      · rename_i low high found
        obtain ⟨fits, found⟩ := Option.ite_none_right_eq_some.mp found
        obtain ⟨credible, ends⟩ := range?_eq_some found
        exact .withRange (i := 2) (j := 3) (by decide) ends credible
          (leaves_of (.inr (extends_of_fits fits)) (.inl (by decide)) (.inl (by decide))
            (.inr (.inl four)) (.inr (.inl five)))
      · split
        · rename_i low high found
          obtain ⟨three, found⟩ := Option.ite_none_right_eq_some.mp found
          obtain ⟨credible, ends⟩ := range?_eq_some found
          exact .withRange (i := 1) (j := 2) (by decide) ends credible
            (leaves_of (.inl (by decide)) (.inl (by decide)) (.inr (.inl three))
              (.inr (.inl four)) (.inr (.inl five)))
        · exact .unclear
  · rename_i some_high
    split
    · rename_i fits
      split
      · rename_i low high found
        obtain ⟨alike, found⟩ := Option.ite_none_right_eq_some.mp found
        obtain ⟨credible, ends⟩ := range?_eq_some found
        obtain ⟨three, five⟩ := extends_of_alike alike
        exact .withRange (i := 2) (j := 4) (by decide) ends credible
          (leaves_of (.inr (extends_of_fits fits)) (.inl (by decide)) (.inr three)
            (.inl (by decide)) (.inr five))
      · split
        · rename_i low high found
          obtain ⟨small, found⟩ := Option.ite_none_right_eq_some.mp found
          obtain ⟨credible, ends⟩ := range?_eq_some found
          split
          · rename_i hot
            exact .withCount ends credible hot rfl (Nat.pos_of_ne_zero some_high) small
              (leaves_of (.inr (extends_of_fits fits)) (.inl (by decide)) (.inl (by decide))
                (.inl (by decide)) (.inl (by decide)))
          · exact .unclear
        · exact .unclear
    · exact .unclear

/-! ### Texts tell their shape -/

/-- A temperature with its range, in front of a character that is no digit. -/
theorem range_append_inj {c : Char} (h : c.isDigit = false) (minus : c ≠ '-')
    {t low high t' low' high' : Int} {x y : Text}
    (same : signedDecimal t ++
        (" (Min/Max " ++ (signedDecimal low ++ ("/" ++ (signedDecimal high ++ c :: x)))) =
      signedDecimal t' ++
        (" (Min/Max " ++ (signedDecimal low' ++ ("/" ++ (signedDecimal high' ++ c :: y))))) :
    (t = t' ∧ low = low' ∧ high = high') ∧ x = y := by
  simp only [String.reduceToList, List.cons_append, List.nil_append] at same
  obtain ⟨first, same⟩ := signedDecimal_append_inj rfl (by decide) same
  simp only [List.cons.injEq, true_and] at same
  obtain ⟨second, same⟩ := signedDecimal_append_inj rfl (by decide) same
  obtain ⟨third, rest⟩ := signedDecimal_append_inj h minus same
  exact ⟨⟨first, second, third⟩, rest⟩

/-- Three characters that tell the shapes apart. -/
def marks (t : Text) : Bool × Bool × Bool := (t.contains '(', t.contains 'M', t.contains '#')

theorem marks_text (b : Nat → UInt8) (x : Temperature) :
    marks (x.text b) = match x with
      | plain _ => (false, false, false)
      | withRange _ _ _ => (true, true, false)
      | withCount _ _ _ _ => (true, true, true)
      | unclear => (true, false, false) := by
  cases x <;> simp [marks, text, not_mem_decimal, not_mem_signedDecimal]

theorem text_injective {b : Nat → UInt8} {x y : Temperature} (h : x.text b = y.text b) : x = y := by
  have same := congrArg marks h
  rw [marks_text, marks_text] at same
  cases x with
  | plain t =>
    cases y with
    | plain => rw [signedDecimal_injective h]
    | _ => cases same
  | withRange t low high =>
    cases y with
    | withRange =>
      simp only [text, List.append_assoc] at h
      obtain ⟨⟨rfl, rfl, rfl⟩, -⟩ :=
        range_append_inj (c := ')') (x := []) (y := []) rfl (by decide) h
      rfl
    | _ => cases same
  | withCount t low high count =>
    cases y with
    | withCount t' low' high' count' =>
      simp only [text, List.append_assoc] at h
      obtain ⟨⟨rfl, rfl, rfl⟩, rest⟩ :=
        range_append_inj (c := ' ') (x := "#" ++ (decimal count ++ ")"))
          (y := "#" ++ (decimal count' ++ ")")) rfl (by decide) h
      rw [decimal_injective (List.append_cancel_right (List.append_cancel_left rest))]
    | _ => cases same
  | unclear =>
    cases y with
    | unclear => rfl
    | _ => cases same

/-- Whatever the raw value is, its text has exactly one of the four shapes, a range in it is credible,
and no byte with a value of its own is left out of it unless the text lists all bytes. -/
theorem range_credible_and_bytes_shown (order : Option (List ByteSource)) (value : UInt64) :
    let b := byteOf value.toNat
    let shown := (Rule.known .tempminmax order).rawText value
    ∃ shape : Temperature, shown = shape.text b ∧ Shows b shape ∧
      ∀ other : Temperature, shown = other.text b → other = shape := by
  intro b shown
  have same : shown = (ofBytes (b 0) (b 1) (b 2) (b 3) (b 4) (b 5)).text b := temperatureText_eq b
  refine ⟨_, same, shows_ofBytes b, ?_⟩
  intro other h
  exact text_injective (h.symm.trans same)

end DriveHealth.Temperature
