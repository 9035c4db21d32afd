import DriveHealth.Proofs.Attribute.RawValue
import DriveHealth.Proofs.Attribute.Temperature

/-! Temperatures with a range as drives pack them, and what is shown of them. The packings overlap, so
the bytes of one may look like those of another; with a credible range this happens in one case only. -/
namespace DriveHealth

/-! ### Signed bytes -/

def byteOfSigned (t : Int) : UInt8 := (Int8.ofInt t).toUInt8

theorem signedByte_byteOfSigned {t : Int} (bottom : -128 ≤ t) (top : t ≤ 127) :
    signedByte (byteOfSigned t) = t := by
  rw [signedByte, byteOfSigned, Int8.toInt8_toUInt8]
  exact Int8.toInt_ofInt_of_le bottom (by omega)

theorem toNat_byteOfSigned (t : Int) : ((byteOfSigned t).toNat : Int) = t % 256 := by
  have bits : (byteOfSigned t).toNat = (BitVec.ofInt 8 t).toNat := rfl
  rw [bits, BitVec.toNat_ofInt]
  omega

namespace Temperature

/-- The byte above a signed byte: zero, or the extension of the sign. -/
def filler (extends_sign : Bool) (t : Int) : UInt8 := if extends_sign = true ∧ t < 0 then 0xff else 0

/-- The word of a signed byte and the byte above it. -/
def filled (extends_sign : Bool) (t : Int) : Nat :=
  (byteOfSigned t).toNat + 256 * (filler extends_sign t).toNat

theorem filled_eq (extends_sign : Bool) {t : Int} (bottom : -128 ≤ t) (top : t ≤ 127) :
    (filled extends_sign t : Int) = if extends_sign then t % 65536 else t % 256 := by
  have byte := toNat_byteOfSigned t
  rw [filled, filler]
  cases extends_sign with
  | false =>
    rw [if_neg (by simp), if_neg (by simp)]
    change ((byteOfSigned t).toNat + 256 * 0 : Nat) = t % 256
    omega
  | true =>
    rw [if_pos rfl]
    by_cases negative : t < 0
    · rw [if_pos ⟨rfl, negative⟩]
      change ((byteOfSigned t).toNat + 256 * 255 : Nat) = t % 65536
      omega
    · rw [if_neg (by simp [negative])]
      change ((byteOfSigned t).toNat + 256 * 0 : Nat) = t % 65536
      omega

/-- A word that fits has nothing but a sign above its low byte. -/
theorem fits_iff {word : Nat} : (wordKind word).fits = true ↔ word ≤ 0xff ∨ 0xff80 ≤ word := by
  rw [WordKind.fits, wordKind, Bool.or_eq_true, Bool.or_eq_true, decide_eq_true_iff,
    decide_eq_true_iff, decide_eq_true_iff]
  omega

/-- What the word of a temperature is like. -/
structure FilledWord (extends_sign : Bool) (t : Int) : Prop where
  fits : (wordKind (filled extends_sign t)).fits = true
  asByte : extends_sign = false → (wordKind (filled extends_sign t)).asByte = true
  asWord : extends_sign = true → (wordKind (filled extends_sign t)).asWord = true
  zero_iff : filled extends_sign t = 0 ↔ t = 0

theorem filledWord (extends_sign : Bool) {t : Int} (bottom : -60 ≤ t) (top : t ≤ 120) :
    FilledWord extends_sign t := by
  have word := filled_eq extends_sign (by omega) (Int.le_trans top (by decide))
  have asByte (plain : extends_sign = false) :
      (wordKind (filled extends_sign t)).asByte = true := by
    rw [plain, if_neg Bool.false_ne_true] at word
    rw [plain, wordKind, decide_eq_true_iff]
    omega
  have asWord (signed : extends_sign = true) :
      (wordKind (filled extends_sign t)).asWord = true := by
    rw [signed, if_pos rfl] at word
    rw [signed, wordKind, Bool.or_eq_true, decide_eq_true_iff, decide_eq_true_iff]
    omega
  refine ⟨?_, asByte, asWord, ?_⟩
  · rw [WordKind.fits, Bool.or_eq_true]
    cases extends_sign with
    | false => exact .inl (asByte rfl)
    | true => exact .inr (asWord rfl)
  · cases extends_sign with
    | false =>
      rw [if_neg Bool.false_ne_true] at word
      omega
    | true =>
      rw [if_pos rfl] at word
      omega

/-! ### Ranges that are found -/

theorem range?_of_ends {t low high : Int} {a b : UInt8} (credible : Credible t low high)
    (ends : Ends a b low high) : range? t a b = some (low, high) := by
  obtain ⟨bottom, low_le, le_high, top, no_sign⟩ := credible
  have ordered : low ≤ high := by omega
  rw [range?]
  rcases ends with ⟨rfl, rfl⟩ | ⟨rfl, rfl⟩
  · rw [min_eq_left ordered, max_eq_right ordered]
    exact if_pos ⟨bottom, low_le, le_high, top, no_sign⟩
  · rw [min_eq_right ordered, max_eq_left ordered]
    exact if_pos ⟨bottom, low_le, le_high, top, no_sign⟩

theorem range?_eq_none {t : Int} {a b : UInt8}
    (outside : t < signedByte a ∧ t < signedByte b ∨ signedByte a < t ∧ signedByte b < t) :
    range? t a b = none := by
  rw [range?]
  refine if_neg ?_
  rintro ⟨-, low_le, le_high, -⟩
  omega

variable {t low high : Int} {b0 b1 b2 b3 b4 b5 : UInt8}

/-- A range in the middle word, below a word that is zero. -/
theorem ofBytes_middle (fits : (wordKind (b0.toNat + 256 * b1.toNat)).fits = true)
    (some_middle : b2.toNat + 256 * b3.toNat ≠ 0)
    (found : range? (signedByte b0) b2 b3 = some (low, high)) :
    ofBytes b0 b1 b2 b3 0 0 = withRange (signedByte b0) low high := by
  have none_high : (0 : UInt8).toNat + 256 * (0 : UInt8).toNat = 0 := rfl
  simp only [ofBytes, none_high, if_true, fits, found]
  rw [if_neg (fun h => some_middle h.1)]

/-- A range in the two bytes above the temperature, where the middle word holds none. -/
theorem ofBytes_low
    (not_middle : (wordKind (b0.toNat + 256 * b1.toNat)).fits = true →
      b2 ≠ 0 ∧ range? (signedByte b0) b2 0 = none)
    (found : range? (signedByte b0) b1 b2 = some (low, high)) :
    ofBytes b0 b1 b2 0 0 0 = withRange (signedByte b0) low high := by
  have none_high : (0 : UInt8).toNat + 256 * (0 : UInt8).toNat = 0 := rfl
  simp only [ofBytes, none_high, if_true]
  by_cases fits : (wordKind (b0.toNat + 256 * b1.toNat)).fits = true
  · obtain ⟨some_middle, none_middle⟩ := not_middle fits
    rw [if_neg (fun h => some_middle (word_eq_zero_iff.mp h.1).1), if_pos fits, none_middle, found]
  · rw [if_neg (fun h => fits h.2), if_neg fits, found]

/-- A range in the low bytes of the two upper words, all words of one kind. -/
theorem ofBytes_words (some_high : b4.toNat + 256 * b5.toNat ≠ 0)
    (fits : (wordKind (b0.toNat + 256 * b1.toNat)).fits = true)
    (alike : let kind0 := wordKind (b0.toNat + 256 * b1.toNat)
      let kind1 := wordKind (b2.toNat + 256 * b3.toNat)
      let kind2 := wordKind (b4.toNat + 256 * b5.toNat)
      ((kind0.asByte && kind1.asByte && kind2.asByte) ||
        (kind0.asWord && kind1.asWord && kind2.asWord)) = true)
    (found : range? (signedByte b0) b2 b4 = some (low, high)) :
    ofBytes b0 b1 b2 b3 b4 b5 = withRange (signedByte b0) low high := by
  dsimp only at alike
  simp only [ofBytes, if_neg some_high, if_pos fits, if_pos alike, found]

/-- A range in the middle word, below a word that counts. -/
theorem ofBytes_counted (some_high : b4.toNat + 256 * b5.toNat ≠ 0)
    (fits : (wordKind (b0.toNat + 256 * b1.toNat)).fits = true)
    (unlike : (wordKind (b2.toNat + 256 * b3.toNat)).fits = false)
    (small : b4.toNat + 256 * b5.toNat < 0x7fff)
    (found : range? (signedByte b0) b2 b3 = some (low, high)) (hot : 40 ≤ high) :
    ofBytes b0 b1 b2 b3 b4 b5 =
      withCount (signedByte b0) low high (b4.toNat + 256 * b5.toNat) := by
  obtain ⟨not_byte, not_word⟩ := Bool.or_eq_false_iff.mp unlike
  simp only [ofBytes, if_neg some_high, if_pos fits, not_byte, not_word, Bool.and_false,
    Bool.false_and, Bool.or_false, Bool.false_eq_true, if_false, if_pos small, found, if_pos hot]

/-- A middle word that holds no range, with a high byte of its own. -/
theorem ofBytes_unclear (some_middle : b3 ≠ 0) (none_middle : range? (signedByte b0) b2 b3 = none) :
    ofBytes b0 b1 b2 b3 0 0 = unclear := by
  have none_high : (0 : UInt8).toNat + 256 * (0 : UInt8).toNat = 0 := rfl
  simp only [ofBytes, none_high, if_true, none_middle, if_neg some_middle, ite_self]
  rw [if_neg (fun h => some_middle (word_eq_zero_iff.mp h.1).2)]

/-! ### Packings -/

/-- How a temperature and its range stand in six bytes, highest word first. Every byte above a signed
byte extends its sign, or every one is zero. -/
inductive Packing where
  /-- Highest, lowest and current temperature have a word each. -/
  | highFirst (extends_sign : Bool)
  /-- Lowest, highest and current temperature have a word each. -/
  | lowFirst (extends_sign : Bool)
  /-- Zero, then highest and lowest temperature in one word. -/
  | middleWord (extends_sign : Bool)
  /-- Three bytes of zero and three temperatures. -/
  | lowBytes
  /-- A count, then highest and lowest temperature in one word. -/
  | counted (count : Nat) (extends_sign : Bool)

namespace Packing

/-- The six bytes, lowest first. -/
def bytes (t low high : Int) : Packing → List UInt8
  | highFirst x =>
    [byteOfSigned t, filler x t, byteOfSigned low, filler x low, byteOfSigned high, filler x high]
  | lowFirst x =>
    [byteOfSigned t, filler x t, byteOfSigned high, filler x high, byteOfSigned low, filler x low]
  | middleWord x => [byteOfSigned t, filler x t, byteOfSigned low, byteOfSigned high, 0, 0]
  | lowBytes => [byteOfSigned t, byteOfSigned low, byteOfSigned high, 0, 0, 0]
  | counted count x =>
    [byteOfSigned t, filler x t, byteOfSigned low, byteOfSigned high] ++ toLittleEndian 2 count

/-- The six low bytes of a value are a packing. -/
def Holds (p : Packing) (t low high : Int) (value : UInt64) : Prop :=
  ∀ i < 6, byteOf value.toNat i = byteAt (p.bytes t low high) i

/-- Counting starts at one, ends below the limit of a signed word and needs a highest temperature of
at least forty degrees. -/
def CanCount (high : Int) : Packing → Prop
  | counted count _ => 1 ≤ count ∧ count < 0x7fff ∧ 40 ≤ high
  | _ => True

/-- A highest temperature of zero leaves no trace in the highest word, and the extended sign of the
lowest one is taken for the highest. -/
def LosesHigh (high : Int) (p : Packing) : Prop := p = highFirst true ∧ high = 0

/-- What stands behind the range. -/
def countText : Packing → Text
  | counted count _ => " #" ++ decimal count
  | _ => []

def text (t low high : Int) (p : Packing) : Text :=
  signedDecimal t ++ " (Min/Max " ++ signedDecimal low ++ "/" ++ signedDecimal high ++
    p.countText ++ ")"

/-- What a packing should be read as. -/
def temperature (t low high : Int) : Packing → Temperature
  | counted count _ => withCount t low high count
  | _ => withRange t low high

theorem text_temperature (p : Packing) (t low high : Int) (b : Nat → UInt8) :
    (p.temperature t low high).text b = p.text t low high := by
  cases p with
  | counted => simp [temperature, Temperature.text, text, countText]
  | _ => simp [temperature, Temperature.text, text, countText]

def read (bytes : List UInt8) : Temperature :=
  ofBytes (byteAt bytes 0) (byteAt bytes 1) (byteAt bytes 2) (byteAt bytes 3) (byteAt bytes 4)
    (byteAt bytes 5)

theorem Holds.rawText {p : Packing} {t low high : Int} {value : UInt64} (h : p.Holds t low high value)
    (order : Option (List ByteSource)) :
    (Rule.known .tempminmax order).rawText value =
      (read (p.bytes t low high)).text (byteAt (p.bytes t low high)) := by
  rw [read, ← temperatureText_eq, ← h 0 (by decide), ← h 1 (by decide), ← h 2 (by decide),
    ← h 3 (by decide), ← h 4 (by decide), ← h 5 (by decide)]
  rfl

/-- A record whose vendor bytes are a packing has a raw value that holds it. -/
theorem holds_rawValue {p : Packing} {t low high : Int} {r : AttributeRecord}
    (h : r.vendor.toList = p.bytes t low high) :
    p.Holds t low high (r.rawValue (.known .tempminmax none)) := by
  intro i hi
  have vendor : r.selected (.known .tempminmax none) = r.vendor.toList := by
    apply List.ext_getElem
    · simp [AttributeRecord.selected, Rule.order, Format.defaultOrder, Format.vendorOrder]
    · intro j _ hj
      rw [Vector.length_toList] at hj
      interval_cases j <;> rfl
  rw [r.toNat_rawValue (by decide), byteOf_littleEndian, vendor, h]

/-! ### Packings read -/

theorem alike_of_filled {extends_sign : Bool} {t a b : Int} (ht : FilledWord extends_sign t)
    (ha : FilledWord extends_sign a) (hb : FilledWord extends_sign b) :
    (((wordKind (filled extends_sign t)).asByte && (wordKind (filled extends_sign a)).asByte &&
        (wordKind (filled extends_sign b)).asByte) ||
      ((wordKind (filled extends_sign t)).asWord && (wordKind (filled extends_sign a)).asWord &&
        (wordKind (filled extends_sign b)).asWord)) = true := by
  cases extends_sign with
  | false => simp [ht.asByte rfl, ha.asByte rfl, hb.asByte rfl]
  | true => simp [ht.asWord rfl, ha.asWord rfl, hb.asWord rfl]

theorem filler_of_nonneg (extends_sign : Bool) {t : Int} (h : 0 ≤ t) : filler extends_sign t = 0 := by
  rw [filler, if_neg]
  rintro ⟨-, negative⟩
  omega

/-- The bytes of a credible range and its temperature. -/
structure SignedBytes (t low high : Int) : Prop where
  t_eq : signedByte (byteOfSigned t) = t
  low_eq : signedByte (byteOfSigned low) = low
  high_eq : signedByte (byteOfSigned high) = high
  t_word (extends_sign) : FilledWord extends_sign t
  low_word (extends_sign) : FilledWord extends_sign low
  high_word (extends_sign) : FilledWord extends_sign high

variable {t low high : Int}

theorem signedBytes (credible : Credible t low high) : SignedBytes t low high := by
  obtain ⟨bottom, low_le, le_high, top, -⟩ := credible
  have byte {u : Int} (hl : low ≤ u) (hh : u ≤ high) : signedByte (byteOfSigned u) = u :=
    signedByte_byteOfSigned (by omega) (by omega)
  have word {u : Int} (hl : low ≤ u) (hh : u ≤ high) (extends_sign : Bool) :
      FilledWord extends_sign u := filledWord extends_sign (by omega) (by omega)
  exact ⟨byte low_le le_high, byte (Int.le_refl _) (by omega), byte (by omega) (Int.le_refl _),
    word low_le le_high, word (Int.le_refl _) (by omega), word (by omega) (Int.le_refl _)⟩

theorem range?_found (credible : Credible t low high) {a b : UInt8}
    (ends : Ends a b (signedByte (byteOfSigned low)) (signedByte (byteOfSigned high))) :
    range? (signedByte (byteOfSigned t)) a b = some (low, high) := by
  have signed := signedBytes credible
  rw [signed.low_eq, signed.high_eq] at ends
  rw [signed.t_eq]
  exact range?_of_ends credible ends

theorem read_highFirst (credible : Credible t low high) (some_end : ¬ (low = 0 ∧ high = 0))
    {extends_sign : Bool} (keeps : ¬ (highFirst extends_sign).LosesHigh high) :
    read ((highFirst extends_sign).bytes t low high) = withRange t low high := by
  have signed := signedBytes credible
  have found := range?_found credible (.inl ⟨rfl, rfl⟩)
  by_cases zero : high = 0
  · have plain : extends_sign = false := by
      cases extends_sign with
      | false => rfl
      | true => exact absurd ⟨rfl, zero⟩ keeps
    subst zero plain
    have some_low : low ≠ 0 := fun h => some_end ⟨h, rfl⟩
    have middle := ofBytes_middle (signed.t_word false).fits
      (mt (signed.low_word false).zero_iff.mp some_low) found
    rw [signed.t_eq] at middle
    exact middle
  · have words := ofBytes_words (mt (signed.high_word extends_sign).zero_iff.mp zero)
      (signed.t_word extends_sign).fits
      (alike_of_filled (signed.t_word _) (signed.low_word _) (signed.high_word _)) found
    rw [signed.t_eq] at words
    exact words

theorem read_lowFirst (credible : Credible t low high) (some_end : ¬ (low = 0 ∧ high = 0))
    (extends_sign : Bool) :
    read ((lowFirst extends_sign).bytes t low high) = withRange t low high := by
  have signed := signedBytes credible
  have found := range?_found credible (.inr ⟨rfl, rfl⟩)
  by_cases zero : low = 0
  · have some_high : high ≠ 0 := fun h => some_end ⟨zero, h⟩
    have positive : 0 ≤ high := by
      have low_le := credible.low_le
      have le_high := credible.le_high
      omega
    subst zero
    have middle := ofBytes_middle (signed.t_word extends_sign).fits
      (mt (signed.high_word extends_sign).zero_iff.mp some_high)
      (by rw [filler_of_nonneg extends_sign positive]; exact found)
    rw [signed.t_eq] at middle
    rw [read, bytes, filler_of_nonneg extends_sign (Int.le_refl 0)]
    exact middle
  · have words := ofBytes_words (mt (signed.low_word extends_sign).zero_iff.mp zero)
      (signed.t_word extends_sign).fits
      (alike_of_filled (signed.t_word _) (signed.high_word _) (signed.low_word _)) found
    rw [signed.t_eq] at words
    exact words

/-- Two temperatures in one word, not both of them zero. -/
theorem pair_ne_zero (credible : Credible t low high) (some_end : ¬ (low = 0 ∧ high = 0)) :
    (byteOfSigned low).toNat + 256 * (byteOfSigned high).toNat ≠ 0 := by
  intro none
  obtain ⟨no_low, no_high⟩ := word_eq_zero_iff.mp none
  have signed := signedBytes credible
  have low_eq := signed.low_eq
  have high_eq := signed.high_eq
  rw [no_low] at low_eq
  rw [no_high] at high_eq
  exact some_end ⟨low_eq.symm, high_eq.symm⟩

theorem read_middleWord (credible : Credible t low high) (some_end : ¬ (low = 0 ∧ high = 0))
    (extends_sign : Bool) :
    read ((middleWord extends_sign).bytes t low high) = withRange t low high := by
  have signed := signedBytes credible
  have middle := ofBytes_middle (signed.t_word extends_sign).fits (pair_ne_zero credible some_end)
    (range?_found credible (.inl ⟨rfl, rfl⟩))
  rw [signed.t_eq] at middle
  exact middle

/-- The word of two temperatures is like that of one only if the upper one is nothing but a sign. -/
theorem upper_of_fits (credible : Credible t low high)
    (fits : (wordKind ((byteOfSigned t).toNat + 256 * (byteOfSigned low).toNat)).fits = true) :
    low = 0 ∨ low = -1 ∧ t = -1 := by
  obtain ⟨bottom, low_le, le_high, top, -⟩ := credible
  have t_byte := toNat_byteOfSigned t
  have low_byte := toNat_byteOfSigned low
  rw [fits_iff] at fits
  omega

theorem read_lowBytes (credible : Credible t low high) (some_end : ¬ (low = 0 ∧ high = 0)) :
    read (lowBytes.bytes t low high) = withRange t low high := by
  have signed := signedBytes credible
  have low_le := credible.low_le
  have le_high := credible.le_high
  by_cases zero : low = 0
  · -- the same bytes as with the highest temperature in the middle word
    subst zero
    have same : lowBytes.bytes t 0 high = (lowFirst false).bytes t 0 high := rfl
    rw [same]
    exact read_lowFirst credible some_end false
  · have found := range?_found credible (.inl ⟨rfl, rfl⟩)
    have low_bytes := ofBytes_low ?_ found
    · rw [signed.t_eq] at low_bytes
      exact low_bytes
    · intro fits
      obtain ⟨sign, t_eq⟩ := (upper_of_fits credible fits).resolve_left zero
      have positive : 0 < high := by
        have no_sign := credible.no_sign
        omega
      have high_eq := signed.high_eq
      refine ⟨?_, ?_⟩
      · intro none
        rw [none] at high_eq
        exact absurd high_eq (Int.ne_of_lt positive)
      · refine range?_eq_none (.inl ⟨?_, ?_⟩)
        · rw [signed.t_eq, high_eq]
          omega
        · rw [signed.t_eq, t_eq]
          decide

theorem word_of_count {count : Nat} (small : count < 0x7fff) :
    count.toUInt8.toNat + 256 * (count / 256).toUInt8.toNat = count := by
  have low_byte : count.toUInt8.toNat = count % 256 := UInt8.toNat_ofNat'
  have high_byte : (count / 256).toUInt8.toNat = count / 256 % 256 := UInt8.toNat_ofNat'
  omega

theorem read_counted (credible : Credible t low high) {count : Nat} {extends_sign : Bool}
    (counts : (counted count extends_sign).CanCount high) :
    read ((counted count extends_sign).bytes t low high) = withCount t low high count := by
  have signed := signedBytes credible
  obtain ⟨positive, small, hot⟩ := counts
  have word := word_of_count small
  have unlike : (wordKind ((byteOfSigned low).toNat + 256 * (byteOfSigned high).toNat)).fits =
      false := by
    have top := credible.top
    have low_byte := toNat_byteOfSigned low
    have high_byte := toNat_byteOfSigned high
    rw [Bool.eq_false_iff, ne_eq, fits_iff]
    omega
  have some_count : count.toUInt8.toNat + 256 * (count / 256).toUInt8.toNat ≠ 0 := by omega
  have small_count : count.toUInt8.toNat + 256 * (count / 256).toUInt8.toNat < 0x7fff := by omega
  have counted := ofBytes_counted some_count (signed.t_word extends_sign).fits unlike small_count
    (range?_found credible (.inl ⟨rfl, rfl⟩)) hot
  rw [signed.t_eq, word] at counted
  exact counted

/-- Every packing that keeps its range is read as what was packed. -/
theorem read_packed (credible : Credible t low high) (some_end : ¬ (low = 0 ∧ high = 0)) {p : Packing}
    (counts : p.CanCount high) (keeps : ¬ p.LosesHigh high) :
    read (p.bytes t low high) = p.temperature t low high := by
  cases p with
  | highFirst => exact read_highFirst credible some_end keeps
  | lowFirst x => exact read_lowFirst credible some_end x
  | middleWord x => exact read_middleWord credible some_end x
  | lowBytes => exact read_lowBytes credible some_end
  | counted => exact read_counted credible counts

/-- Without its highest temperature a packing is read as if that were -1, or not at all. -/
theorem read_losesHigh (credible : Credible t low 0) (some_low : low ≠ 0) :
    read ((highFirst true).bytes t low 0) = if t < 0 then withRange t low (-1) else unclear := by
  have signed := signedBytes credible
  obtain ⟨bottom, low_le, le_zero, -, no_sign⟩ := credible
  have negative : low < 0 := by omega
  have sign : filler true low = 0xff := if_pos ⟨rfl, negative⟩
  have sign_eq : signedByte 0xff = -1 := by decide
  have bytes_eq : (highFirst true).bytes t low 0 =
      [byteOfSigned t, filler true t, byteOfSigned low, 0xff, 0, 0] := by
    rw [bytes, sign]
    rfl
  rw [bytes_eq]
  split
  · rename_i cold
    have closer : Credible t low (-1) := ⟨bottom, low_le, by omega, by omega, by omega⟩
    have found := range?_of_ends closer (a := byteOfSigned low) (b := 0xff)
      (.inl ⟨signed.low_eq.symm, sign_eq.symm⟩)
    rw [← signed.t_eq] at found
    have middle := ofBytes_middle (signed.t_word true).fits
      (mt word_eq_zero_iff.mp (fun h => absurd h.2 (by decide))) found
    rw [signed.t_eq] at middle
    exact middle
  · rename_i not_cold
    have none_middle : range? (signedByte (byteOfSigned t)) (byteOfSigned low) 0xff = none := by
      rw [signed.t_eq]
      refine range?_eq_none (.inr ⟨?_, ?_⟩)
      · rw [signed.low_eq]
        omega
      · rw [sign_eq]
        omega
    exact ofBytes_unclear (by decide : (0xff : UInt8) ≠ 0) none_middle

/-- A credible range is shown as it was packed, with its count, whatever packing it was: as a raw value
with any order of bytes, and as the vendor bytes of a record. Only a highest temperature of zero in a
packing that puts it first and extends the signs is lost: its bytes are those of another range. -/
theorem packed_range_shown (credible : Credible t low high) (some_end : ¬ (low = 0 ∧ high = 0))
    {p : Packing} (counts : p.CanCount high) :
    (¬ p.LosesHigh high →
      (∀ order value, p.Holds t low high value →
        (Rule.known .tempminmax order).rawText value = p.text t low high) ∧
      ∀ r : AttributeRecord, r.vendor.toList = p.bytes t low high →
        r.rawText (.known .tempminmax none) = p.text t low high) ∧
    (p.LosesHigh high → ∀ order value, p.Holds t low high value →
      (Rule.known .tempminmax order).rawText value =
        if t < 0 then p.text t low (-1)
        else "0 (0 0 255 " ++ decimal (byteOfSigned low).toNat ++ " 0)") := by
  refine ⟨?_, ?_⟩
  · intro keeps
    have shown (order : Option (List ByteSource)) {value : UInt64} (h : p.Holds t low high value) :
        (Rule.known .tempminmax order).rawText value = p.text t low high := by
      rw [h.rawText, read_packed credible some_end counts keeps, text_temperature]
    refine ⟨fun order value => shown order, ?_⟩
    intro r vendor
    exact shown none (holds_rawValue vendor)
  · rintro ⟨rfl, rfl⟩ order value h
    have some_low : low ≠ 0 := fun zero => some_end ⟨zero, rfl⟩
    rw [h.rawText, read_losesHigh credible some_low]
    split
    · exact text_temperature (highFirst true) t low (-1) _
    · rename_i not_cold
      have zero : t = 0 := Int.le_antisymm credible.le_high (Int.not_lt.mp not_cold)
      have sign : filler true low = 0xff := if_pos ⟨rfl, by have := credible.low_le; omega⟩
      subst zero
      have zero_text : decimal (byteOfSigned 0).toNat = "0".toList := by decide
      have filler_text : decimal (filler true 0).toNat = "0".toList := by decide
      have sign_text : decimal (filler true low).toNat = "255".toList := by
        rw [sign]
        decide
      have shown : unclear.text (byteAt ((highFirst true).bytes 0 low 0)) =
          decimal (byteOfSigned 0).toNat ++ " (" ++ decimal (filler true 0).toNat ++ " " ++
            decimal (byteOfSigned 0).toNat ++ " " ++ decimal (filler true low).toNat ++ " " ++
            decimal (byteOfSigned low).toNat ++ " " ++ decimal (filler true 0).toNat ++ ")" := rfl
      rw [shown, zero_text, filler_text, sign_text]
      simp

/-- Minus five to forty-five degrees as a drive with a count of three keeps them. -/
theorem packed_range_shown_counted :
    Credible 37 (-5) 45 ∧ ¬ ((-5 : Int) = 0 ∧ (45 : Int) = 0) ∧
    (counted 3 true).CanCount 45 ∧ ¬ (counted 3 true).LosesHigh 45 ∧
    (counted 3 true).Holds 37 (-5) 45 0x00032dfb0025 ∧
    (Rule.known .tempminmax none).rawText 0x00032dfb0025 = ("37 (Min/Max -5/45 #3)" : Text) := by
  have credible : Credible 37 (-5) 45 := ⟨by decide, by decide, by decide, by decide, by decide⟩
  have some_end : ¬ ((-5 : Int) = 0 ∧ (45 : Int) = 0) := by decide
  have counts : (counted 3 true).CanCount 45 := by
    refine ⟨by decide, by decide, by decide⟩
  have keeps : ¬ (counted 3 true).LosesHigh 45 := fun h => absurd h.2 (by decide)
  have holds : (counted 3 true).Holds 37 (-5) 45 0x00032dfb0025 := by
    intro i hi
    interval_cases i <;> decide
  have text : (counted 3 true).text 37 (-5) 45 = ("37 (Min/Max -5/45 #3)" : Text) := by decide
  refine ⟨credible, some_end, counts, keeps, holds, ?_⟩
  rw [← text]
  exact ((packed_range_shown credible some_end counts).1 keeps).1 none _ holds

/-- A range up to zero whose bytes are those of a range up to minus one. -/
theorem range_to_zero_misread :
    Credible (-3) (-5) 0 ∧ ¬ ((-5 : Int) = 0 ∧ (0 : Int) = 0) ∧ (highFirst true).CanCount 0 ∧
    (highFirst true).Holds (-3) (-5) 0 0x0000fffbfffd ∧
    (middleWord true).Holds (-3) (-5) (-1) 0x0000fffbfffd ∧
    (Rule.known .tempminmax none).rawText 0x0000fffbfffd ≠ (highFirst true).text (-3) (-5) 0 := by
  have credible : Credible (-3) (-5) 0 := ⟨by decide, by decide, by decide, by decide, by decide⟩
  refine ⟨credible, by decide, trivial, ?_, ?_, ?_⟩
  · intro i hi
    interval_cases i <;> decide
  · intro i hi
    interval_cases i <;> decide
  · decide +kernel

end Packing

end Temperature

end DriveHealth
