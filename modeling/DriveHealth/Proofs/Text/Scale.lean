import DriveHealth.Proofs.Text.Buffer
import DriveHealth.Proofs.Text.Capacity
import Mathlib.Logic.Relation

/-! Capacities in 64 bits. The units that are passed on the way to the last one are exact powers of a
thousand, so no product wraps, and what is written is the number cut behind its last decimal. -/
namespace DriveHealth

/-- The largest power of a thousand that a number reaches and that has a prefix; zero if there is none. -/
structure IsCapacityPower (n p : Nat) : Prop where
  le : p ≤ 5
  reached : p = 0 ∨ 1000 ^ p ≤ n
  below : p < 5 → n < 1000 ^ (p + 1)

theorem isCapacityPower_capacityPower (n : Nat) : IsCapacityPower n (capacityPower n) := by
  constructor
  · exact capacityPower_le n
  · unfold capacityPower
    split_ifs <;> omega
  · exact lt_of_capacityPower

theorem IsCapacityPower.le_of_reached {n p q : Nat} (h : IsCapacityPower n p) (le : q ≤ 5)
    (reached : 1000 ^ q ≤ n) : q ≤ p := by
  by_contra above
  have next : 1000 ^ (p + 1) ≤ 1000 ^ q := Nat.pow_le_pow_right (by decide) (by omega)
  have below := h.below (by omega)
  omega

theorem IsCapacityPower.unique {n p q : Nat} (hp : IsCapacityPower n p) (hq : IsCapacityPower n q) :
    p = q := by
  apply Nat.le_antisymm
  · rcases hp.reached with rfl | reached
    · exact Nat.zero_le q
    · exact hq.le_of_reached hp.le reached
  · rcases hq.reached with rfl | reached
    · exact Nat.zero_le p
    · exact hp.le_of_reached hq.le reached

namespace Scale

variable {n : UInt64} {s t : Scale}

def Leads (n : UInt64) (s t : Scale) : Prop := s.next? n = some t

/-- The units that a number passes on the way to its own. -/
def Passes (n : UInt64) (s : Scale) : Prop := Relation.ReflTransGen (Leads n) {} s

structure Exact (s : Scale) : Prop where
  power_le : s.power ≤ 5
  unit_eq : s.unit.toNat = 1000 ^ s.power

theorem leads_iff :
    Leads n s t ↔ s.power < 5 ∧ s.unit * 1000 ≤ n ∧ t = ⟨s.power + 1, s.unit * 1000⟩ := by
  have prefixes : capacityPrefixes.length = 5 := rfl
  rw [Leads, next?, prefixes]
  by_cases more : s.power < 5
  · by_cases reached : s.unit * 1000 ≤ n
    · simp [more, reached, eq_comm]
    · simp [more, reached]
  · simp [more]

theorem lt_of_stays (h : s.next? n = none) (more : s.power < 5) : n < s.unit * 1000 := by
  by_contra reached
  have leads : Leads n s ⟨s.power + 1, s.unit * 1000⟩ :=
    leads_iff.mpr ⟨more, UInt64.not_lt.mp reached, rfl⟩
  rw [Leads, h] at leads
  cases leads

theorem Exact.toNat_product (h : s.Exact) (more : s.power < 5) :
    (s.unit * 1000).toNat = s.unit.toNat * 1000 := by
  have small : s.unit.toNat ≤ 1000 ^ 4 := by
    rw [h.unit_eq]
    exact Nat.pow_le_pow_right (by decide) (by omega)
  have factor : (1000 : UInt64).toNat = 1000 := rfl
  rw [UInt64.toNat_mul, factor]
  apply Nat.mod_eq_of_lt
  omega

theorem Exact.next (h : s.Exact) (leads : Leads n s t) : t.Exact := by
  obtain ⟨more, -, rfl⟩ := leads_iff.mp leads
  constructor
  · exact more
  · rw [h.toNat_product more, h.unit_eq, Nat.pow_succ]

theorem exact_of_passes (h : Passes n s) : s.Exact := by
  induction h with
  | refl => exact ⟨Nat.zero_le 5, rfl⟩
  | tail _ leads ih => exact ih.next leads

theorem reached_of_passes (h : Passes n s) : s.power = 0 ∨ s.unit ≤ n := by
  cases h with
  | refl => exact .inl rfl
  | tail _ leads =>
    obtain ⟨-, reached, rfl⟩ := leads_iff.mp leads
    exact .inr reached

theorem last_stays (n : UInt64) (s : Scale) :
    Relation.ReflTransGen (Leads n) s (last n s) ∧ (last n s).next? n = none := by
  fun_induction last n s with
  | case1 s t leads ih => exact ⟨.head leads ih.1, ih.2⟩
  | case2 s stays => exact ⟨.refl, stays⟩

theorem passes_ofNumber (n : UInt64) : Passes n (ofNumber n) := (last_stays n {}).1

theorem stays_ofNumber (n : UInt64) : (ofNumber n).next? n = none := (last_stays n {}).2

theorem exact_ofNumber (n : UInt64) : (ofNumber n).Exact := exact_of_passes (passes_ofNumber n)

theorem isCapacityPower_ofNumber (n : UInt64) : IsCapacityPower n.toNat (ofNumber n).power := by
  have exact := exact_ofNumber n
  constructor
  · exact exact.power_le
  · rcases reached_of_passes (passes_ofNumber n) with bytes | reached
    · exact .inl bytes
    · right
      rw [← exact.unit_eq]
      exact UInt64.le_iff_toNat_le.mp reached
  · intro more
    have below := UInt64.lt_iff_toNat_lt.mp (lt_of_stays (stays_ofNumber n) more)
    rwa [exact.toNat_product more, exact.unit_eq, ← Nat.pow_succ] at below

theorem power_ofNumber (n : UInt64) : (ofNumber n).power = capacityPower n.toNat :=
  (isCapacityPower_ofNumber n).unique (isCapacityPower_capacityPower n.toNat)

/-! ### Decimals -/

theorem Exact.unit_le (h : s.Exact) : s.unit.toNat ≤ 1000 ^ 5 := by
  rw [h.unit_eq]
  exact Nat.pow_le_pow_right (by decide) h.power_le

theorem Exact.unit_pos (h : s.Exact) : 0 < s.unit.toNat := by
  rw [h.unit_eq]
  exact Nat.pow_pos (by decide)

theorem Exact.toNat_remainder_mul (h : s.Exact) (n : UInt64) {count : UInt64}
    (few : count.toNat ≤ 100) :
    (n % s.unit * count).toNat = n.toNat % s.unit.toNat * count.toNat := by
  have below : n.toNat % s.unit.toNat ≤ 1000 ^ 5 :=
    Nat.le_trans (Nat.le_of_lt (Nat.mod_lt _ h.unit_pos)) h.unit_le
  have product : n.toNat % s.unit.toNat * count.toNat ≤ 1000 ^ 5 * 100 := Nat.mul_le_mul below few
  rw [UInt64.toNat_mul, UInt64.toNat_mod]
  apply Nat.mod_eq_of_lt
  omega

theorem Exact.toNat_parts (h : s.Exact) (n count : UInt64) (some_parts : 0 < count.toNat)
    (few : count.toNat ≤ 100) :
    (s.parts n count).toNat = n.toNat % s.unit.toNat * count.toNat / s.unit.toNat := by
  have part := part_lt (n := n.toNat) h.unit_pos some_parts
  rw [parts, UInt64.toNat_toUInt32, UInt64.toNat_div, h.toNat_remainder_mul n few]
  apply Nat.mod_eq_of_lt
  omega

/-- What 64 bits give is the capacity of the number. -/
theorem text_ofNumber (point : Text) (n : UInt64) :
    (ofNumber n).text point n = capacity point n.toNat := by
  have exact := exact_ofNumber n
  have power := power_ofNumber n
  have unit : (ofNumber n).unit.toNat = Nat.pow 1000 (capacityPower n.toNat) := by
    rw [exact.unit_eq, power]
    rfl
  have whole : (n / (ofNumber n).unit).toNat = n.toNat / Nat.pow 1000 (capacityPower n.toNat) := by
    rw [UInt64.toNat_div, unit]
  have hundred : 100 ≤ n / (ofNumber n).unit ↔
      100 ≤ n.toNat / Nat.pow 1000 (capacityPower n.toNat) := by
    rw [UInt64.le_iff_toNat_le, whole]
    rfl
  have ten : 10 ≤ n / (ofNumber n).unit ↔
      10 ≤ n.toNat / Nat.pow 1000 (capacityPower n.toNat) := by
    rw [UInt64.le_iff_toNat_le, whole]
    rfl
  have tenths := exact.toNat_parts n 10 (by decide) (by decide)
  have hundredths := exact.toNat_parts n 100 (by decide) (by decide)
  rw [unit] at tenths hundredths
  rw [text, capacity]
  simp only [hundred, ten, whole, tenths, hundredths, power]
  cases bytes : capacityPower n.toNat with
  | zero =>
    have small := (isCapacityPower_capacityPower n.toNat).below (by omega)
    rw [bytes] at small whole
    have narrow : (n / (ofNumber n).unit).toUInt32.toNat = n.toNat := by
      rw [UInt64.toNat_toUInt32, whole]
      simp
      omega
    rw [if_pos rfl, narrow]
  | succ p =>
    rw [if_neg (Nat.succ_ne_zero p)]
    rfl

end Scale

/-! ### What a capacity shows -/

/-- A number in tens, hundreds and so on as a decimal number. -/
def mantissaText (point : Text) (decimals mantissa : Nat) : Text :=
  decimal (mantissa / 10 ^ decimals) ++
    onlyIf (decimals ≠ 0) (point ++ decimalFill decimals (mantissa % 10 ^ decimals))

/-- How a number that reaches a unit is shown: in the largest unit, cut behind its last decimal, with so
many decimals that there are three digits if possible. -/
structure ShowsInUnit (point : Text) (n power decimals mantissa : Nat) (shown : Text) : Prop where
  power_mem : 1 ≤ power ∧ power ≤ 5
  reached : 1000 ^ power ≤ n
  largest : ∀ q ≤ 5, 1000 ^ q ≤ n → q ≤ power
  least : mantissa * 1000 ^ power ≤ n * 10 ^ decimals
  most : n * 10 ^ decimals < (mantissa + 1) * 1000 ^ power
  digits : (decimal (mantissa / 10 ^ decimals)).length = 1 ∧ decimals = 2 ∨
    (decimal (mantissa / 10 ^ decimals)).length = 2 ∧ decimals = 1 ∨
    3 ≤ (decimal (mantissa / 10 ^ decimals)).length ∧ decimals = 0
  filled : 0 < decimals → (decimalFill decimals (mantissa % 10 ^ decimals)).length = decimals
  text : ∃ letter, capacityPrefixes[power - 1]? = some letter ∧
    shown = mantissaText point decimals mantissa ++ [' ', letter, 'B']

theorem length_decimal_pos (n : Nat) : 0 < (decimal n).length :=
  List.length_pos_iff.mpr (decimal_ne_nil n)

theorem decimalFill_one (n : Nat) : decimalFill 1 n = decimal n := by
  have some_digit := length_decimal_pos n
  rw [decimalFill, zeroFill, show 1 - (decimal n).length = 0 by omega]
  rfl

/-- A number in parts of a unit is its whole units and what is left in parts. -/
theorem div_parts {unit parts : Nat} (pos : 0 < unit) (some_parts : 0 < parts) (n : Nat) :
    n * parts / unit / parts = n / unit ∧ n * parts / unit % parts = n % unit * parts / unit := by
  have split : n * parts / unit = parts * (n / unit) + n % unit * parts / unit := by
    have whole : n * parts = unit * (parts * (n / unit)) + n % unit * parts := by
      calc n * parts = (unit * (n / unit) + n % unit) * parts := by rw [Nat.div_add_mod]
        _ = unit * (parts * (n / unit)) + n % unit * parts := by
          rw [Nat.add_mul, Nat.mul_assoc, Nat.mul_comm (n / unit)]
    rw [whole, Nat.mul_add_div pos]
  have part := part_lt (n := n) pos some_parts
  constructor
  · rw [split, Nat.mul_add_div some_parts, Nat.div_eq_of_lt part, Nat.add_zero]
  · rw [split, Nat.mul_add_mod, Nat.mod_eq_of_lt part]

/-- The number of decimals that belongs to the digits in front of the point. -/
theorem showsInUnit_of_decimals (point : Text) {n power : Nat} (h : IsCapacityPower n power)
    (some_power : power ≠ 0) (decimals : Nat)
    (digits : (decimal (n / 1000 ^ power)).length = 1 ∧ decimals = 2 ∨
      (decimal (n / 1000 ^ power)).length = 2 ∧ decimals = 1 ∨
      3 ≤ (decimal (n / 1000 ^ power)).length ∧ decimals = 0) {letter : Char}
    (hl : capacityPrefixes[power - 1]? = some letter) :
    ShowsInUnit point n power decimals (n * 10 ^ decimals / 1000 ^ power)
      (decimal (n / 1000 ^ power) ++ onlyIf (decimals ≠ 0)
        (point ++ decimalFill decimals (n % 1000 ^ power * 10 ^ decimals / 1000 ^ power)) ++
        [' ', letter, 'B']) := by
  have pos : 0 < 1000 ^ power := Nat.pow_pos (by decide)
  have parts : 0 < 10 ^ decimals := Nat.pow_pos (by decide)
  obtain ⟨whole, rest⟩ := div_parts pos parts n
  constructor
  · exact ⟨Nat.pos_of_ne_zero some_power, h.le⟩
  · exact h.reached.resolve_left some_power
  · intro q le reached
    exact h.le_of_reached le reached
  · exact Nat.div_mul_le_self _ _
  · rw [Nat.mul_comm (_ + 1)]
    exact Nat.lt_mul_div_succ _ pos
  · rwa [whole]
  · intro some_decimal
    rw [rest]
    exact length_decimalFill some_decimal (part_lt pos parts)
  · refine ⟨letter, hl, ?_⟩
    rw [mantissaText, whole, rest]

theorem exists_showsInUnit (point : Text) {n : Nat} (scaled : 1000 ≤ n) :
    ∃ power decimals mantissa, ShowsInUnit point n power decimals mantissa (capacity point n) := by
  have h := isCapacityPower_capacityPower n
  obtain ⟨p, hp⟩ : ∃ p, capacityPower n = p + 1 := by
    refine Nat.exists_eq_succ_of_ne_zero fun bytes => ?_
    have below := h.below (by omega)
    rw [bytes] at below
    omega
  rw [hp] at h
  have some_power : p + 1 ≠ 0 := Nat.succ_ne_zero p
  have inside : p < capacityPrefixes.length := h.le
  have letter : capacityPrefixes[p + 1 - 1]? = some (capacityPrefixes.getD p ' ') := by
    rw [Nat.add_sub_cancel, List.getD_eq_getElem?_getD, List.getElem?_eq_getElem inside]
    rfl
  have some_digit := length_decimal_pos (n / 1000 ^ (p + 1))
  have one : (decimal (n / 1000 ^ (p + 1))).length ≤ 1 ↔ n / 1000 ^ (p + 1) < 10 ^ 1 :=
    Nat.length_toDigits_le_iff (by decide) (by decide)
  have two : (decimal (n / 1000 ^ (p + 1))).length ≤ 2 ↔ n / 1000 ^ (p + 1) < 10 ^ 2 :=
    Nat.length_toDigits_le_iff (by decide) (by decide)
  have unit : Nat.pow 1000 (p + 1) = 1000 ^ (p + 1) := rfl
  rw [capacity, hp, unit]
  dsimp only
  by_cases hundred : 100 ≤ n / 1000 ^ (p + 1)
  · have shows := showsInUnit_of_decimals point h some_power 0 (by omega) letter
    rw [if_pos hundred]
    exact ⟨_, _, _, by simpa [onlyIf] using shows⟩
  · rw [if_neg hundred]
    by_cases ten : 10 ≤ n / 1000 ^ (p + 1)
    · have shows := showsInUnit_of_decimals point h some_power 1 (by omega) letter
      rw [decimalFill_one] at shows
      rw [if_pos ten]
      exact ⟨_, _, _, by simpa [onlyIf] using shows⟩
    · have shows := showsInUnit_of_decimals point h some_power 2 (by omega) letter
      rw [if_neg ten]
      exact ⟨_, _, _, by simpa [onlyIf] using shows⟩

/-- The products and divisors on the way are those of natural numbers, and no divisor is zero. -/
structure Scale.NeverWraps (n : UInt64) : Prop where
  units : ∀ s, Passes n s → s.power < capacityPrefixes.length →
    (s.unit * 1000).toNat = s.unit.toNat * 1000
  divisors : ∀ s, Passes n s → s.unit ≠ 0
  decimals : ∀ count ∈ ([10, 100] : List UInt64),
    (n % (ofNumber n).unit * count).toNat = n.toNat % (ofNumber n).unit.toNat * count.toNat

theorem Scale.neverWraps (n : UInt64) : NeverWraps n := by
  constructor
  · intro s passes more
    exact (exact_of_passes passes).toNat_product more
  · intro s passes zero
    have pos := (exact_of_passes passes).unit_pos
    rw [zero] at pos
    exact absurd pos (by decide)
  · intro count one_of
    have few : count.toNat ≤ 100 := by
      rcases List.mem_pair.mp one_of with rfl | rfl
      · decide
      · decide
    exact (exact_ofNumber n).toNat_remainder_mul n few

namespace Buffer

theorem printCapacity?_eq (b : Buffer) (i size : Nat) (point : Text) (n : UInt64) :
    b.printCapacity? i size point n = b.print? i size (capacity point n.toNat) := by
  rw [printCapacity?, Scale.text_ofNumber]

/-- A buffer with room for it gets the whole capacity, which is exact up to its last decimal for every
number of 64 bits. -/
theorem capacity_cut_behind_decimals {point : Text} (plain : nul ∉ point) (n : UInt64) :
    let shown := capacity point n.toNat
    (∀ (b : Buffer) (size : Nat), size ≤ b.length → shown.length < size →
      ∃ written, b.printCapacity? 0 size point n = some written ∧ written.text = shown ∧
        written.length = b.length ∧ written.drop size = b.drop size) ∧
    (n.toNat < 1000 → shown = decimal n.toNat ++ " B") ∧
    (1000 ≤ n.toNat → ∃ power decimals mantissa,
      ShowsInUnit point n.toNat power decimals mantissa shown) ∧
    Scale.NeverWraps n := by
  intro shown
  refine ⟨?_, ?_, exists_showsInUnit point, Scale.neverWraps n⟩
  · intro b size inside room
    obtain ⟨written, printed, h⟩ := (holds_nil inside).print (n := size) (by omega) (by simp) shown
    rw [List.nil_append, fit_of_lt room] at h
    refine ⟨written, ?_, h.text_eq (nul_not_mem_capacity plain _), ?_, h.drop⟩
    · rw [printCapacity?_eq]
      exact printed
    · rw [h.length, List.length_drop, Nat.add_sub_cancel' inside]
  · intro bytes
    have power : capacityPower n.toNat = 0 := if_pos bytes
    change capacity point n.toNat = _
    rw [capacity, power]

/-- Two digits in front of a point of two bytes, cut from 12.995. -/
theorem capacity_cut_behind_decimals_megabytes :
    nul ∉ ("--" : Text) ∧ 12 ≤ (List.replicate 12 '?').length ∧
      (capacity "--" (12995999 : UInt64).toNat).length < 12 ∧
      ∃ written, printCapacity? (List.replicate 12 '?') 0 12 "--" 12995999 = some written ∧
        written.text = "12--9 MB" := by
  have plain : nul ∉ ("--" : Text) := by decide
  have inside : 12 ≤ (List.replicate 12 '?').length := by decide
  have room : (capacity "--" (12995999 : UInt64).toNat).length < 12 := by decide +kernel
  obtain ⟨prints, -⟩ := capacity_cut_behind_decimals plain 12995999
  obtain ⟨written, printed, text, -⟩ := prints _ 12 inside room
  exact ⟨plain, inside, room, written, printed, text.trans (by decide +kernel)⟩

end Buffer

end DriveHealth
